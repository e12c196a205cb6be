import Mathlib.Logic.Function.Basic
import ObmcWebapp.Entity.PopulationSteps
import ObmcWebapp.Library.Runs

/-!
# Entity - Callers of populate side by side

Any number of callers of {lit}`CachedSource::populate` on one source.  Each read and each
write of a flag is a step of its own, and the callers' steps come in any order.

Main results:

- Theorem {lit}`State.Guarded.step`: a step keeps the flag set for the one caller that
  populates, unless a caller sets the flag that another one has set.
- Theorem {lit}`exclusive_of_unsetRun`: while every caller that sets the flag finds it
  unset, one caller at a time is between setting and clearing it.
- Theorem {lit}`exists_run_populate`: a caller whose steps nothing comes between leaves
  the flags that {lit}`Sources.populate` leaves.
-/

open Library

namespace ObmcWebapp
namespace Entity
namespace Callers

/-! ## Steps -/

/-- Where a caller stands; the name says what it does next. -/
inductive Position
  | outside
  | testsInitialized
  | testsErrors
  | setsInProgress
  | clearsErrors
  | resetsCache
  | processesQueries
  | clearsInProgress
  | retestsErrors
  | setsInitialized
deriving DecidableEq

/-- Between setting and clearing {lit}`cachingInProgress`. -/
def Position.Populating : Position → Prop
  | .clearsErrors | .resetsCache | .processesQueries | .clearsInProgress => True
  | _ => False

instance : DecidablePred Position.Populating
  | .clearsErrors | .resetsCache | .processesQueries | .clearsInProgress => isTrue trivial
  | .outside | .testsInitialized | .testsErrors | .setsInProgress | .retestsErrors
  | .setsInitialized => isFalse not_false

section

variable {ι α : Type*}

/-- The next step of a caller, what its queries bring, an exception that
{lit}`processQueries` lets through, or the failure of one of the source's queries. -/
inductive Action (ι α : Type*)
  | advance (caller : ι)
  | setInstances (caller : ι) (instances : List α)
  | raise (caller : ι)
  | invalidateCache

/-- The flags and the cache of the source, and its callers. -/
structure State (ι α : Type*) where
  flags : SourceState := {}
  instances : List α := []
  position : ι → Position := fun _ => .outside

variable [DecidableEq ι]

namespace State

/-- A caller moves to a position. -/
def goTo (s : State ι α) (caller : ι) (position : Position) : State ι α :=
  { s with position := Function.update s.position caller position }

/-- One read or write of {lit}`populate`. -/
def advance (s : State ι α) (caller : ι) : State ι α :=
  match s.position caller with
  | .outside =>
      if s.flags.cachingInProgress then s else s.goTo caller .testsInitialized
  | .testsInitialized =>
      s.goTo caller (if s.flags.initialized then .testsErrors else .setsInProgress)
  | .testsErrors =>
      s.goTo caller (if s.flags.hasErrors then .setsInProgress else .outside)
  | .setsInProgress =>
      { s with flags := { s.flags with cachingInProgress := true } }.goTo caller .clearsErrors
  | .clearsErrors =>
      { s with flags := { s.flags with hasErrors := false } }.goTo caller .resetsCache
  | .resetsCache =>
      { s with instances := [] }.goTo caller .processesQueries
  | .processesQueries => s.goTo caller .clearsInProgress
  | .clearsInProgress =>
      { s with flags := { s.flags with cachingInProgress := false } }.goTo caller .retestsErrors
  | .retestsErrors =>
      s.goTo caller (if s.flags.hasErrors then .outside else .setsInitialized)
  | .setsInitialized =>
      { s with flags := { s.flags with initialized := true } }.goTo caller .outside

end State

/-- The steps of the source and its callers.  A caller that an exception takes out of
{lit}`populate` leaves {lit}`cachingInProgress` set. -/
inductive Steps : State ι α → Action ι α → State ι α → Prop
  | advance {s : State ι α} {caller : ι} : Steps s (.advance caller) (s.advance caller)
  | setInstances {s : State ι α} {caller : ι} {instances : List α}
      (hposition : s.position caller = .processesQueries) :
      Steps s (.setInstances caller instances) { s with instances := s.instances ++ instances }
  | raise {s : State ι α} {caller : ι} (hposition : s.position caller = .processesQueries) :
      Steps s (.raise caller) (s.goTo caller .outside)
  | invalidateCache {s : State ι α} :
      Steps s .invalidateCache { s with flags := { s.flags with hasErrors := true } }

variable {s t : State ι α} {action : Action ι α} {caller other : ι}

/-! ## What a step can do -/

/-- Moving leaves the flags. -/
@[simp]
theorem goTo_flags (s : State ι α) (caller : ι) (position : Position) :
    (s.goTo caller position).flags = s.flags := rfl

/-- Moving leaves the instances. -/
@[simp]
theorem goTo_instances (s : State ι α) (caller : ι) (position : Position) :
    (s.goTo caller position).instances = s.instances := rfl

/-- The caller is where it has moved to. -/
@[simp]
theorem goTo_position_self (s : State ι α) (caller : ι) (position : Position) :
    (s.goTo caller position).position caller = position :=
  Function.update_self ..

/-- The other callers are where they were. -/
@[simp]
theorem goTo_position_of_ne (hother : other ≠ caller) (s : State ι α) (position : Position) :
    (s.goTo caller position).position other = s.position other :=
  Function.update_of_ne hother ..

/-- A caller moves no other. -/
theorem advance_position_of_ne (hother : other ≠ caller) (s : State ι α) :
    (s.advance caller).position other = s.position other := by
  unfold State.advance
  split <;> try split
  all_goals simp [hother]

/-- A caller populates from the step that sets the flag to the one that clears it. -/
theorem populating_advance (h : ((s.advance caller).position caller).Populating) :
    s.position caller = .setsInProgress ∨
      (s.position caller).Populating ∧ s.position caller ≠ .clearsInProgress := by
  unfold State.advance at h
  cases hposition : s.position caller <;> simp only [hposition] at h
  case outside =>
    split at h
    · rw [hposition] at h
      exact absurd h not_false
    · rw [goTo_position_self] at h
      exact absurd h not_false
  case setsInProgress => exact Or.inl rfl
  case clearsErrors => exact Or.inr ⟨trivial, by simp⟩
  case resetsCache => exact Or.inr ⟨trivial, by simp⟩
  case processesQueries => exact Or.inr ⟨trivial, by simp⟩
  all_goals
    rw [goTo_position_self] at h
    first
      | exact absurd h not_false
      | split at h <;> exact absurd h not_false

/-- The caller that sets the flag has set it. -/
theorem flag_advance_of_sets (hposition : s.position caller = .setsInProgress) :
    (s.advance caller).flags.cachingInProgress = true := by
  simp [State.advance, hposition]

/-- Only the step that clears the flag unsets it. -/
theorem flag_advance (hposition : s.position caller ≠ .clearsInProgress)
    (hset : s.flags.cachingInProgress = true) :
    (s.advance caller).flags.cachingInProgress = true := by
  unfold State.advance
  cases hat : s.position caller <;> simp_all

/-- Only the step that resets the cache changes it. -/
theorem instances_advance (hposition : s.position caller ≠ .resetsCache) :
    (s.advance caller).instances = s.instances := by
  unfold State.advance
  cases hat : s.position caller <;> simp_all
  split <;> rfl

/-- Who populates after a step did so before it, or has just set the flag. -/
theorem Steps.populating (hstep : Steps s action t) (h : (t.position caller).Populating) :
    (action = .advance caller ∧ s.position caller = .setsInProgress) ∨
      ((s.position caller).Populating ∧
        (action = .advance caller → s.position caller ≠ .clearsInProgress)) := by
  cases hstep with
  | @advance mover =>
      by_cases hmover : caller = mover
      · subst hmover
        rcases populating_advance h with hsets | ⟨hbefore, hclears⟩
        · exact Or.inl ⟨rfl, hsets⟩
        · exact Or.inr ⟨hbefore, fun _ => hclears⟩
      · rw [advance_position_of_ne hmover] at h
        refine Or.inr ⟨h, fun heq => ?_⟩
        exact absurd (Action.advance.inj heq).symm hmover
  | setInstances hposition => exact Or.inr ⟨h, by simp⟩
  | @raise mover hposition =>
      by_cases hmover : caller = mover
      · subst hmover
        rw [goTo_position_self] at h
        exact absurd h not_false
      · rw [goTo_position_of_ne hmover] at h
        exact Or.inr ⟨h, by simp⟩
  | invalidateCache => exact Or.inr ⟨h, by simp⟩

/-- The flag stays set but for the step that clears it. -/
theorem Steps.flag (hstep : Steps s action t) (hset : s.flags.cachingInProgress = true)
    (hclears : ∀ caller, action = .advance caller → s.position caller ≠ .clearsInProgress) :
    t.flags.cachingInProgress = true := by
  cases hstep with
  | advance => exact flag_advance (hclears _ rfl) hset
  | setInstances hposition => exact hset
  | raise hposition => exact hset
  | invalidateCache => exact hset

/-! ## One caller at a time -/

/-- One caller populates, and the flag is set as long as it does. -/
structure State.Guarded (s : State ι α) : Prop where
  exclusive : ∀ caller other, (s.position caller).Populating → (s.position other).Populating →
    caller = other
  inProgress : ∀ caller, (s.position caller).Populating → s.flags.cachingInProgress = true

/-- A caller that sets the flag finds it unset: nobody has set it since the caller has
read it, or it was cleared again. -/
def FindsUnset (s : State ι α) (action : Action ι α) : Prop :=
  ∀ caller, action = .advance caller → s.position caller = .setsInProgress →
    s.flags.cachingInProgress = false

omit [DecidableEq ι] in
/-- At the start no caller is inside. -/
theorem State.Guarded.of_outside (houtside : ∀ caller, s.position caller = .outside) :
    s.Guarded where
  exclusive caller _ h _ := by
    rw [houtside caller] at h
    exact absurd h not_false
  inProgress caller h := by
    rw [houtside caller] at h
    exact absurd h not_false

theorem State.Guarded.step (hguarded : s.Guarded) (hunset : FindsUnset s action)
    (hstep : Steps s action t) : t.Guarded where
  exclusive caller other hcaller hother := by
    rcases hstep.populating hcaller with ⟨haction, hsets⟩ | ⟨hbefore, -⟩
    · rcases hstep.populating hother with ⟨haction', -⟩ | ⟨hbefore', -⟩
      · exact Action.advance.inj (haction.symm.trans haction')
      · have hset := hguarded.inProgress other hbefore'
        rw [hunset caller haction hsets] at hset
        exact absurd hset Bool.false_ne_true
    · rcases hstep.populating hother with ⟨haction', hsets'⟩ | ⟨hbefore', -⟩
      · have hset := hguarded.inProgress caller hbefore
        rw [hunset other haction' hsets'] at hset
        exact absurd hset Bool.false_ne_true
      · exact hguarded.exclusive caller other hbefore hbefore'
  inProgress caller hcaller := by
    rcases hstep.populating hcaller with ⟨rfl, hsets⟩ | ⟨hbefore, hclears⟩
    · cases hstep with
      | advance => exact flag_advance_of_sets hsets
    · refine hstep.flag (hguarded.inProgress caller hbefore) fun mover haction hmover => ?_
      -- Only the caller itself could be the one that clears the flag.
      have hsame : caller = mover := by
        apply hguarded.exclusive caller mover hbefore
        rw [hmover]
        trivial
      subst hsame
      exact hclears haction hmover

/-- What callers rely on: one at a time is between setting and clearing the flag, and
while it processes its queries nobody else changes the cache. -/
structure State.Exclusive (s : State ι α) : Prop where
  populating : ∀ caller other, (s.position caller).Populating → (s.position other).Populating →
    caller = other
  cache : ∀ caller action t, s.position caller = .processesQueries → Steps s action t →
    (∀ instances, action ≠ .setInstances caller instances) → t.instances = s.instances

/-- The flag keeps the callers apart. -/
theorem State.Exclusive.of_guarded (hguarded : s.Guarded) : s.Exclusive where
  populating := hguarded.exclusive
  cache caller action t hcaller hstep hforeign := by
    have hpopulates : (s.position caller).Populating := by
      rw [hcaller]
      trivial
    cases hstep with
    | @advance mover =>
        apply instances_advance
        intro hresets
        have hsame : caller = mover := by
          apply hguarded.exclusive caller mover hpopulates
          rw [hresets]
          trivial
        rw [← hsame, hcaller] at hresets
        cases hresets
    | @setInstances mover instances hposition =>
        have hsame : caller = mover := by
          apply hguarded.exclusive caller mover hpopulates
          rw [hposition]
          trivial
        exact absurd rfl (hsame ▸ hforeign instances)
    | raise hposition => rfl
    | invalidateCache => rfl

/-- Any number of callers, all of them outside at first, in any order. -/
theorem exclusive_of_unsetRun {start : State ι α} {actions : List (Action ι α)}
    (houtside : ∀ caller, start.position caller = .outside)
    (hrun : Run (Restrict Steps FindsUnset) start actions s) : s.Exclusive := by
  apply State.Exclusive.of_guarded
  refine hrun.invariant (State.Guarded.of_outside houtside) ?_
  intro before action after hguarded hstep
  exact hguarded.step hstep.1 hstep.2

/-- Callers advance in any order. -/
theorem run_advances (start : State ι α) (callers : List ι) :
    Run Steps start (callers.map .advance) (callers.foldl State.advance start) := by
  induction callers using List.reverseRecOn with
  | nil => exact Run.refl
  | append_singleton callers caller ih =>
      rw [List.map_append, List.foldl_append]
      exact ih.snoc .advance

/-! ## A caller alone -/

/-- An action of one caller, or a failure of its queries. -/
def Action.Of (caller : ι) : Action ι α → Prop
  | .advance mover | .setInstances mover _ | .raise mover => mover = caller
  | .invalidateCache => True

/-- The state with one caller somewhere else, and other flags and another cache. -/
def State.with (s : State ι α) (caller : ι) (position : Position) (flags : SourceState)
    (instances : List α) : State ι α :=
  { s with flags, instances }.goTo caller position

/-- The caller gets there by itself. -/
def Reaches (s : State ι α) (caller : ι) (position : Position) (flags : SourceState)
    (instances : List α) : Prop :=
  ∃ actions, Run Steps s actions (s.with caller position flags instances) ∧
    ∀ action ∈ actions, action.Of caller

variable {position position' : Position} {flags flags' : SourceState}
  {instances instances' : List α}

/-- Every caller reaches where it is. -/
theorem Reaches.refl (hposition : s.position caller = position) :
    Reaches s caller position s.flags s.instances := by
  refine ⟨[], ?_, by simp⟩
  have hsame : s.with caller position s.flags s.instances = s := by
    simp [State.with, State.goTo, ← hposition]
  rw [hsame]
  exact Run.refl

/-- A step more is reached. -/
theorem Reaches.snoc (h : Reaches s caller position flags instances)
    (hstep : Steps (s.with caller position flags instances) action
      (s.with caller position' flags' instances')) (hof : action.Of caller) :
    Reaches s caller position' flags' instances' := by
  obtain ⟨actions, hrun, hall⟩ := h
  refine ⟨actions ++ [action], hrun.snoc hstep, ?_⟩
  simpa [or_imp, forall_and] using ⟨hall, hof⟩

/-- A step of the caller itself is reached. -/
theorem Reaches.advance (h : Reaches s caller position flags instances)
    (heq : (s.with caller position flags instances).advance caller =
      s.with caller position' flags' instances') :
    Reaches s caller position' flags' instances' := by
  have hstep : Steps (s.with caller position flags instances) (.advance caller)
      (s.with caller position' flags' instances') := heq ▸ .advance
  exact h.snoc hstep rfl

/-- Its cache may be invalidated in between. -/
theorem Reaches.invalidateCache (h : Reaches s caller position flags instances) :
    Reaches s caller position { flags with hasErrors := true } instances := by
  have hstep : Steps (s.with caller position flags instances) .invalidateCache
      (s.with caller position { flags with hasErrors := true } instances) := .invalidateCache
  exact h.snoc hstep trivial

/-- Its query may raise. -/
theorem Reaches.raise (h : Reaches s caller .processesQueries flags instances) :
    Reaches s caller .outside flags instances := by
  have hstep : Steps (s.with caller .processesQueries flags instances) (.raise caller)
      ((s.with caller .processesQueries flags instances).goTo caller .outside) :=
    .raise (by simp [State.with])
  rw [show (s.with caller .processesQueries flags instances).goTo caller .outside =
    s.with caller .outside flags instances by simp [State.with, State.goTo]] at hstep
  exact h.snoc hstep rfl

/-- The condition of {lit}`populate` does not hold: the caller changes nothing. -/
theorem reaches_outside (houtside : s.position caller = .outside)
    (hpopulates : s.flags.populates = false) :
    Reaches s caller .outside s.flags s.instances := by
  cases hprogress : s.flags.cachingInProgress with
  | true =>
      exact (Reaches.refl houtside).advance
        (by simp [State.advance, State.with, State.goTo, hprogress])
  | false =>
      have hcondition : s.flags.initialized = true ∧ s.flags.hasErrors = false := by
        simpa [SourceState.populates, hprogress] using hpopulates
      have htests : Reaches s caller .testsInitialized s.flags s.instances :=
        (Reaches.refl houtside).advance
          (by simp [State.advance, State.with, State.goTo, hprogress])
      have hretests : Reaches s caller .testsErrors s.flags s.instances :=
        htests.advance (by simp [State.advance, State.with, State.goTo, hcondition.1])
      exact hretests.advance (by simp [State.advance, State.with, State.goTo, hcondition.2])

/-- The condition of {lit}`populate` holds: the caller gets to its queries. -/
theorem reaches_processesQueries (houtside : s.position caller = .outside)
    (hpopulates : s.flags.populates = true) :
    Reaches s caller .processesQueries
      { s.flags with cachingInProgress := true, hasErrors := false } [] := by
  simp only [SourceState.populates, Bool.and_eq_true, Bool.not_eq_true', Bool.or_eq_true]
    at hpopulates
  obtain ⟨hfree, hneeds⟩ := hpopulates
  have htests : Reaches s caller .testsInitialized s.flags s.instances :=
    (Reaches.refl houtside).advance (by simp [State.advance, State.with, State.goTo, hfree])
  have hsets : Reaches s caller .setsInProgress s.flags s.instances := by
    cases hinitialized : s.flags.initialized with
    | false =>
        exact htests.advance (by simp [State.advance, State.with, State.goTo, hinitialized])
    | true =>
        have herrors : s.flags.hasErrors = true := by simpa [hinitialized] using hneeds
        have hretests : Reaches s caller .testsErrors s.flags s.instances :=
          htests.advance (by simp [State.advance, State.with, State.goTo, hinitialized])
        exact hretests.advance (by simp [State.advance, State.with, State.goTo, herrors])
  have hclears : Reaches s caller .clearsErrors { s.flags with cachingInProgress := true }
      s.instances := hsets.advance (by simp [State.advance, State.with, State.goTo])
  have hresets : Reaches s caller .resetsCache
      { s.flags with cachingInProgress := true, hasErrors := false } s.instances :=
    hclears.advance (by simp [State.advance, State.with, State.goTo])
  exact hresets.advance (by simp [State.advance, State.with, State.goTo])

/-- The caller leaves {lit}`populate` without an exception. -/
theorem Reaches.leaves (h : Reaches s caller .processesQueries flags instances) :
    Reaches s caller .outside
      { flags with
        cachingInProgress := false
        initialized := flags.initialized || !flags.hasErrors } instances := by
  have hclears : Reaches s caller .clearsInProgress flags instances :=
    h.advance (by simp [State.advance, State.with, State.goTo])
  have hretests : Reaches s caller .retestsErrors { flags with cachingInProgress := false }
      instances := hclears.advance (by simp [State.advance, State.with, State.goTo])
  cases herrors : flags.hasErrors with
  | true => exact hretests.advance (by simp [State.advance, State.with, State.goTo, herrors])
  | false =>
      have hsets : Reaches s caller .setsInitialized { flags with cachingInProgress := false }
          instances :=
        hretests.advance (by simp [State.advance, State.with, State.goTo, herrors])
      exact hsets.advance (by simp [State.advance, State.with, State.goTo, herrors])

/-- A caller that nothing comes between is a call of {lit}`populate` as a whole. -/
theorem exists_run_populate {sources : Sources} {call : CachedSource}
    (houtside : s.position caller = .outside)
    (hflags : Observers.SameFlags s.flags (sources call.name)) :
    ∃ flags instances, Reaches s caller .outside flags instances ∧
      Observers.SameFlags flags ((sources.populate call.source).2 call.name) := by
  have hsame := hflags.populates
  cases hpopulates : (sources call.name).populates with
  | false =>
      rw [Sources.populate_of_not hpopulates]
      refine ⟨s.flags, s.instances, ?_, hflags⟩
      rw [hpopulates] at hsame
      exact reaches_outside houtside hsame
  | true =>
      rw [hpopulates] at hsame
      rw [Sources.populate_self hpopulates]
      have hbegun := reaches_processesQueries houtside hsame
      have hprocessed : Reaches s caller .processesQueries
          { s.flags with
            cachingInProgress := true
            hasErrors := decide (call.name ∈ (processBlocks call.blocks).invalidated) } [] := by
        by_cases hmem : call.name ∈ (processBlocks call.blocks).invalidated
        · rw [decide_eq_true hmem]
          exact hbegun.invalidateCache
        · rw [decide_eq_false hmem]
          exact hbegun
      cases hraised : (processBlocks call.blocks).raised with
      | some exception =>
          exact ⟨_, _, hprocessed.raise, by simp [hraised, hflags.initialized], rfl,
            by simp [hraised]⟩
      | none =>
          exact ⟨_, _, hprocessed.leaves, by simp [hraised, hflags.initialized], rfl,
            by simp [hraised]⟩

end

/-! ### Two callers -/

/-- One caller sets the flag and the other one then finds it set. -/
theorem secondCaller_exclusive :
    (State.advance (State.advance (State.advance (State.advance {} false) false) false)
      true : State Bool Unit).Exclusive := by
  have hrun : Run (Restrict Steps FindsUnset) ({} : State Bool Unit)
      [.advance false, .advance false, .advance false, .advance true] _ :=
    (((Run.single ⟨fun _ _ _ => rfl, .advance⟩).snoc ⟨fun _ _ _ => rfl, .advance⟩).snoc
      ⟨fun _ _ _ => rfl, .advance⟩).snoc
      ⟨fun caller haction hsets => by cases haction; exact absurd hsets (by decide), .advance⟩
  exact exclusive_of_unsetRun (fun _ => rfl) hrun

/-- The caller that has read the flag before the other one sets it goes on, and resets
the cache that the other one fills. -/
theorem lateCaller_not_exclusive :
    ∃ (actions : List (Action Bool Unit)) (s t : State Bool Unit),
      Run Steps {} actions s ∧ ¬ s.Exclusive ∧
        s.position false = .processesQueries ∧ s.instances = [()] ∧
        Steps s (.advance true) t ∧ t.instances = [] := by
  have hrun : Run Steps ({} : State Bool Unit)
      ([true, true, false, false, false, false, false].map .advance ++
        [.setInstances false [()]] ++ [.advance true] ++ [.advance true]) _ :=
    (((run_advances _ _).snoc (.setInstances rfl)).snoc .advance).snoc .advance
  refine ⟨_, _, _, hrun, fun hexclusive => ?_, rfl, rfl, .advance, rfl⟩
  exact absurd (hexclusive.populating false true trivial trivial) (by decide)

end Callers
end Entity
end ObmcWebapp
