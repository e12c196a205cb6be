import Mathlib.Logic.Function.Iterate
import ObmcWebapp.Library.Runs

/-!
# Connect - The guard around bus calls

{lit}`DBusCallGuard` lets one thread at a time use the bus connection.  A thread that
already uses it may call again from within its operation: the inner guard finds the
thread's own id and goes ahead without capturing anything.  Every access to the id is a
step of its own, and the threads' steps come in any order.

Main results:

- Theorem {lit}`State.Guarded.step`: a step keeps every thread either without the id and
  at the outermost call at most, or with the id and one capturing guard.
- Theorem {lit}`one_thread_operates`: one thread at a time is inside its operations.
- Theorem {lit}`captured_is_released`: the steps of the thread that holds the id are
  enough to give it back.
-/

open Library

namespace ObmcWebapp
namespace Connect
namespace CallGuard

variable {τ : Type*}

/-! ## Guards -/

/-- What a guard does next. -/
inductive Phase (τ : Type*)
  /-- {lit}`compare_exchange_strong` puts the thread's id in the place of none. -/
  | captures
  /-- {lit}`isSameThread` looks at the id that was found instead. -/
  | compares (vocationThreadId : τ)
  | operates
  /-- {lit}`~DBusCallGuard`, after the operation has returned or raised. -/
  | releases

/-- A guard and whether it lets nested calls pass. -/
structure Guard (τ : Type*) where
  phase : Phase τ := .captures
  calledUnsafe : Bool := false

/-- The captured id, and for every thread the guards that are alive, the innermost
first. -/
structure State (τ : Type*) where
  capturedByThreadId : Option τ := none
  guards : τ → List (Guard τ) := fun _ => []

/-- A thread makes a call, or takes a step in one. -/
inductive Action (τ : Type*)
  | call (thread : τ)
  | advance (thread : τ)

/-- The thread that acts. -/
def Action.thread : Action τ → τ
  | .call thread | .advance thread => thread

section

variable [DecidableEq τ]

namespace State

/-- The guards of a thread are replaced. -/
def setGuards (s : State τ) (thread : τ) (guards : List (Guard τ)) : State τ :=
  { s with guards := Function.update s.guards thread guards }

/-- A new guard is constructed and called. -/
def call (s : State τ) (thread : τ) : State τ :=
  s.setGuards thread ({} :: s.guards thread)

/-- The next step of a thread's innermost guard. -/
def advance (s : State τ) (thread : τ) : State τ :=
  match s.guards thread with
  | [] => s
  | guard :: outer =>
      match guard.phase with
      | .captures =>
          match s.capturedByThreadId with
          | none =>
              { s with capturedByThreadId := some thread }.setGuards thread
                ({ guard with phase := .operates } :: outer)
          | some vocationThreadId =>
              s.setGuards thread ({ guard with phase := .compares vocationThreadId } :: outer)
      | .compares vocationThreadId =>
          if vocationThreadId = thread then
            s.setGuards thread ({ phase := .operates, calledUnsafe := true } :: outer)
          else
            -- the thread sleeps and looks for no id again
            s.setGuards thread ({ guard with phase := .captures } :: outer)
      | .operates => s.setGuards thread ({ guard with phase := .releases } :: outer)
      | .releases =>
          if guard.calledUnsafe then
            s.setGuards thread outer
          else
            { s with capturedByThreadId := none }.setGuards thread outer

/-- A thread calls from outside, or from within the operation of its last call. -/
def MayCall (s : State τ) (thread : τ) : Prop :=
  ∀ guard outer, s.guards thread = guard :: outer → guard.phase = .operates

/-- The thread runs the operation of one of its guards. -/
def Inside (s : State τ) (thread : τ) : Prop :=
  ∃ guard ∈ s.guards thread, guard.phase = .operates

end State

/-- The steps of the threads. -/
inductive Steps : State τ → Action τ → State τ → Prop
  | call {s : State τ} {thread : τ} (hcall : s.MayCall thread) :
      Steps s (.call thread) (s.call thread)
  | advance {s : State τ} {thread : τ} : Steps s (.advance thread) (s.advance thread)

/-! ## What stands between two steps -/

/-- Guards nested in one that has captured the id, all of them in their operations. -/
inductive Operating : List (Guard τ) → Prop
  | outermost : Operating [{ phase := .operates }]
  | nested {outer : List (Guard τ)} (houter : Operating outer) :
      Operating ({ phase := .operates, calledUnsafe := true } :: outer)

/-- The guards of the thread that holds the id. -/
inductive Holding (thread : τ) : List (Guard τ) → Prop
  | operates {guards : List (Guard τ)} (hguards : Operating guards) : Holding thread guards
  | releases : Holding thread [{ phase := .releases }]
  | nestedReleases {outer : List (Guard τ)} (houter : Operating outer) :
      Holding thread ({ phase := .releases, calledUnsafe := true } :: outer)
  | nestedCaptures {outer : List (Guard τ)} (houter : Operating outer) :
      Holding thread ({ phase := .captures } :: outer)
  | nestedCompares {outer : List (Guard τ)} (houter : Operating outer) :
      Holding thread ({ phase := .compares thread } :: outer)

/-- The guards of a thread without the id: at most one, which waits for it. -/
inductive Waiting (thread : τ) : List (Guard τ) → Prop
  | outside : Waiting thread []
  | captures : Waiting thread [{ phase := .captures }]
  | compares {other : τ} (hother : other ≠ thread) : Waiting thread [{ phase := .compares other }]

/-- The guards of every thread fit the id. -/
structure State.Guarded (s : State τ) : Prop where
  holding : ∀ thread, s.capturedByThreadId = some thread → Holding thread (s.guards thread)
  waiting : ∀ thread, s.capturedByThreadId ≠ some thread → Waiting thread (s.guards thread)

/-- The owner stays. -/
@[simp]
theorem setGuards_captured (s : State τ) (thread : τ) (guards : List (Guard τ)) :
    (s.setGuards thread guards).capturedByThreadId = s.capturedByThreadId :=
  rfl

/-- The thread has its new guards. -/
@[simp]
theorem setGuards_self (s : State τ) (thread : τ) (guards : List (Guard τ)) :
    (s.setGuards thread guards).guards thread = guards := by
  simp [State.setGuards]

/-- Other threads have theirs as before. -/
theorem setGuards_of_ne (s : State τ) {thread other : τ} (guards : List (Guard τ))
    (hne : other ≠ thread) : (s.setGuards thread guards).guards other = s.guards other := by
  simp [State.setGuards, hne]

namespace State.Guarded

variable {s : State τ} {thread : τ}

omit [DecidableEq τ] in
/-- At the start no thread is inside. -/
theorem initial : ({} : State τ).Guarded where
  holding := by
    intro thread hcaptured
    cases hcaptured
  waiting := by
    intro thread _
    exact .outside

/-- The thread that holds the id goes on, and keeps it. -/
theorem keep (h : s.Guarded) (hcaptured : s.capturedByThreadId = some thread)
    {guards : List (Guard τ)} (hguards : Holding thread guards) :
    (s.setGuards thread guards).Guarded where
  holding := by
    intro other hother
    rw [setGuards_captured, hcaptured] at hother
    cases hother
    rw [setGuards_self]
    exact hguards
  waiting := by
    intro other hother
    rw [setGuards_captured] at hother
    have hne : other ≠ thread := by
      rintro rfl
      exact hother hcaptured
    rw [setGuards_of_ne s guards hne]
    exact h.waiting other hother

/-- A thread without the id goes on, and stays without it. -/
theorem wait (h : s.Guarded) (hcaptured : s.capturedByThreadId ≠ some thread)
    {guards : List (Guard τ)} (hguards : Waiting thread guards) :
    (s.setGuards thread guards).Guarded where
  holding := by
    intro other hother
    rw [setGuards_captured] at hother
    have hne : other ≠ thread := by
      rintro rfl
      exact hcaptured hother
    rw [setGuards_of_ne s guards hne]
    exact h.holding other hother
  waiting := by
    intro other hother
    rw [setGuards_captured] at hother
    by_cases hself : other = thread
    · rw [hself, setGuards_self]
      exact hguards
    · rw [setGuards_of_ne s guards hself]
      exact h.waiting other hother

/-- A thread captures the id where no thread has it. -/
theorem capture (h : s.Guarded) (hcaptured : s.capturedByThreadId = none) :
    ({ s with capturedByThreadId := some thread }.setGuards thread
      [{ phase := .operates }]).Guarded where
  holding := by
    intro other hother
    rw [setGuards_captured] at hother
    cases hother
    rw [setGuards_self]
    exact .operates .outermost
  waiting := by
    intro other hother
    rw [setGuards_captured] at hother
    have hne : other ≠ thread := fun heq => hother (heq ▸ rfl)
    rw [setGuards_of_ne _ _ hne]
    apply h.waiting other
    rw [hcaptured]
    exact (Option.some_ne_none other).symm

/-- The thread that holds the id gives it back with its last guard. -/
theorem release (h : s.Guarded) (hcaptured : s.capturedByThreadId = some thread) :
    ({ s with capturedByThreadId := none }.setGuards thread []).Guarded where
  holding := by
    intro other hother
    rw [setGuards_captured] at hother
    cases hother
  waiting := by
    intro other _
    by_cases hself : other = thread
    · rw [hself, setGuards_self]
      exact .outside
    · rw [setGuards_of_ne _ _ hself]
      apply h.waiting other
      rw [hcaptured]
      intro heq
      exact hself (Option.some.inj heq).symm

end State.Guarded

/-! ## The steps of one thread -/

section

variable {s : State τ} {thread : τ} {outer : List (Guard τ)}

/-- A thread without guards does nothing. -/
theorem advance_outside (hguards : s.guards thread = []) : s.advance thread = s := by
  unfold State.advance
  rw [hguards]

/-- No thread has the id. -/
theorem advance_captures (hguards : s.guards thread = { phase := .captures } :: outer)
    (hcaptured : s.capturedByThreadId = none) :
    s.advance thread = { s with capturedByThreadId := some thread }.setGuards thread
      ({ phase := .operates } :: outer) := by
  unfold State.advance
  rw [hguards, hcaptured]

/-- A thread has the id. -/
theorem advance_refused {other : τ} (hguards : s.guards thread = { phase := .captures } :: outer)
    (hcaptured : s.capturedByThreadId = some other) :
    s.advance thread = s.setGuards thread ({ phase := .compares other } :: outer) := by
  unfold State.advance
  rw [hguards, hcaptured]

/-- The owner may call again. -/
theorem advance_same (hguards : s.guards thread = { phase := .compares thread } :: outer) :
    s.advance thread =
      s.setGuards thread ({ phase := .operates, calledUnsafe := true } :: outer) := by
  unfold State.advance
  rw [hguards]
  dsimp only
  rw [if_pos rfl]

/-- Another thread waits. -/
theorem advance_other {other : τ} (hother : other ≠ thread)
    (hguards : s.guards thread = { phase := .compares other } :: outer) :
    s.advance thread = s.setGuards thread ({ phase := .captures } :: outer) := by
  unfold State.advance
  rw [hguards]
  dsimp only
  rw [if_neg hother]

/-- The owner makes its call. -/
theorem advance_operates {calledUnsafe : Bool}
    (hguards : s.guards thread = { phase := .operates, calledUnsafe } :: outer) :
    s.advance thread = s.setGuards thread ({ phase := .releases, calledUnsafe } :: outer) := by
  unfold State.advance
  rw [hguards]

/-- The last guard of the owner releases the connection. -/
theorem advance_releases (hguards : s.guards thread = { phase := .releases } :: outer) :
    s.advance thread = { s with capturedByThreadId := none }.setGuards thread outer := by
  unfold State.advance
  rw [hguards]
  rfl

/-- A guard of a nested call does not. -/
theorem advance_releasesUnsafe
    (hguards : s.guards thread = { phase := .releases, calledUnsafe := true } :: outer) :
    s.advance thread = s.setGuards thread outer := by
  unfold State.advance
  rw [hguards]
  rfl

end

namespace State.Guarded

variable {s t : State τ} {thread : τ} {action : Action τ}

/-- The thread that holds the id takes a step. -/
theorem advance_holding (h : s.Guarded) (hcaptured : s.capturedByThreadId = some thread) :
    (s.advance thread).Guarded := by
  have hholding := h.holding thread hcaptured
  generalize hguards : s.guards thread = guards at hholding
  cases hholding with
  | operates hoperating =>
      cases hoperating with
      | outermost =>
          rw [advance_operates hguards]
          exact h.keep hcaptured .releases
      | nested houter =>
          rw [advance_operates hguards]
          exact h.keep hcaptured (.nestedReleases houter)
  | releases =>
      rw [advance_releases hguards]
      exact h.release hcaptured
  | nestedReleases houter =>
      rw [advance_releasesUnsafe hguards]
      exact h.keep hcaptured (.operates houter)
  | nestedCaptures houter =>
      rw [advance_refused hguards hcaptured]
      exact h.keep hcaptured (.nestedCompares houter)
  | nestedCompares houter =>
      rw [advance_same hguards]
      exact h.keep hcaptured (.operates (.nested houter))

/-- A thread without the id takes a step. -/
theorem advance_waiting (h : s.Guarded) (hcaptured : s.capturedByThreadId ≠ some thread) :
    (s.advance thread).Guarded := by
  have hwaiting := h.waiting thread hcaptured
  generalize hguards : s.guards thread = guards at hwaiting
  cases hwaiting with
  | outside =>
      rw [advance_outside hguards]
      exact h
  | captures =>
      cases hfound : s.capturedByThreadId with
      | none =>
          rw [advance_captures hguards hfound]
          exact h.capture hfound
      | some other =>
          have hother : other ≠ thread := by
            rintro rfl
            exact hcaptured hfound
          rw [advance_refused hguards hfound]
          exact h.wait hcaptured (.compares hother)
  | compares hother =>
      rw [advance_other hother hguards]
      exact h.wait hcaptured .captures

/-- A thread that has the id calls from within an operation, any other from outside. -/
theorem call (h : s.Guarded) (hcall : s.MayCall thread) : (s.call thread).Guarded := by
  by_cases hcaptured : s.capturedByThreadId = some thread
  · have hholding := h.holding thread hcaptured
    unfold State.call
    generalize hguards : s.guards thread = guards at hholding ⊢
    cases hholding with
    | operates hoperating => exact h.keep hcaptured (.nestedCaptures hoperating)
    | releases => cases hcall _ _ hguards
    | nestedReleases => cases hcall _ _ hguards
    | nestedCaptures => cases hcall _ _ hguards
    | nestedCompares => cases hcall _ _ hguards
  · have hwaiting := h.waiting thread hcaptured
    unfold State.call
    generalize hguards : s.guards thread = guards at hwaiting ⊢
    cases hwaiting with
    | outside => exact h.wait hcaptured .captures
    | captures => cases hcall _ _ hguards
    | compares => cases hcall _ _ hguards

/-- The step lemma. -/
theorem step (h : s.Guarded) (hstep : Steps s action t) : t.Guarded := by
  cases hstep with
  | call hcall => exact h.call hcall
  | @advance thread =>
      by_cases hcaptured : s.capturedByThreadId = some thread
      · exact h.advance_holding hcaptured
      · exact h.advance_waiting hcaptured

/-- The run lemma. -/
theorem of_run {actions : List (Action τ)} (hrun : Run Steps {} actions s) : s.Guarded :=
  hrun.invariant initial fun _ _ _ => step

/-- Only the thread that has the id runs operations. -/
theorem captured_of_inside (h : s.Guarded) (hinside : s.Inside thread) :
    s.capturedByThreadId = some thread := by
  by_contra hcaptured
  obtain ⟨guard, hmem, hphase⟩ := hinside
  have hwaiting := h.waiting thread hcaptured
  generalize s.guards thread = guards at hmem hwaiting
  cases hwaiting with
  | outside => cases hmem
  | captures =>
      cases List.mem_singleton.mp hmem
      cases hphase
  | compares =>
      cases List.mem_singleton.mp hmem
      cases hphase

end State.Guarded

/-! ## Giving the id back -/

section

variable {s : State τ} {thread : τ}

/-- The state after a thread has ended all its calls and given the id back. -/
def State.released (s : State τ) (thread : τ) : State τ :=
  { s with capturedByThreadId := none }.setGuards thread []

/-- Releasing does not depend on the guards. -/
theorem setGuards_released (s : State τ) (thread : τ) (guards : List (Guard τ)) :
    (s.setGuards thread guards).released thread = s.released thread := by
  simp [State.released, State.setGuards]

/-- Two steps end an operation, and the guards around it are left: induction on how deep
the calls are nested. -/
theorem iterate_of_operating {guards : List (Guard τ)} (hoperating : Operating guards) :
    ∀ s : State τ, s.guards thread = guards →
      ∃ n, (fun s => s.advance thread)^[n] s = s.released thread := by
  induction hoperating with
  | outermost =>
      intro s hguards
      refine ⟨2, ?_⟩
      have hreleases := advance_releases (setGuards_self s thread [{ phase := .releases }])
      simp only [Function.iterate_succ_apply, Function.iterate_zero_apply]
      rw [advance_operates hguards, hreleases]
      simp [State.released, State.setGuards]
  | @nested outer houter ih =>
      intro s hguards
      have hreleases := advance_releasesUnsafe
        (setGuards_self s thread ({ phase := .releases, calledUnsafe := true } :: outer))
      obtain ⟨n, hn⟩ := ih _ (setGuards_self
        (s.setGuards thread ({ phase := .releases, calledUnsafe := true } :: outer)) thread outer)
      refine ⟨n + 2, ?_⟩
      simp only [Function.iterate_succ_apply]
      rw [advance_operates hguards, hreleases, hn, setGuards_released, setGuards_released]

theorem exists_iterate_succ {t : State τ} (hstep : s.advance thread = t)
    (hlater : ∃ n, (fun s => s.advance thread)^[n] t = s.released thread) :
    ∃ n, (fun s => s.advance thread)^[n] s = s.released thread := by
  obtain ⟨n, hn⟩ := hlater
  refine ⟨n + 1, ?_⟩
  rw [Function.iterate_succ_apply, hstep, hn]

/-- Wherever the thread with the id stands, its own steps lead to the end of its calls. -/
theorem State.Guarded.exists_iterate (h : s.Guarded)
    (hcaptured : s.capturedByThreadId = some thread) :
    ∃ n, (fun s => s.advance thread)^[n] s = s.released thread := by
  have hholding := h.holding thread hcaptured
  generalize hguards : s.guards thread = guards at hholding
  -- from an inner call that still captures, two steps lead into its operation
  have hcompares : ∀ (s : State τ) outer, Operating outer →
      s.guards thread = { phase := .compares thread } :: outer →
        ∃ n, (fun s => s.advance thread)^[n] s = s.released thread := by
    intro s outer houter hguards
    apply exists_iterate_succ (advance_same hguards)
    rw [← setGuards_released s thread ({ phase := .operates, calledUnsafe := true } :: outer)]
    exact iterate_of_operating (.nested houter) _ (setGuards_self s thread _)
  cases hholding with
  | operates hoperating => exact iterate_of_operating hoperating s hguards
  | releases =>
      refine ⟨1, ?_⟩
      rw [Function.iterate_one]
      exact advance_releases hguards
  | @nestedReleases outer houter =>
      apply exists_iterate_succ (advance_releasesUnsafe hguards)
      rw [← setGuards_released s thread outer]
      exact iterate_of_operating houter _ (setGuards_self s thread outer)
  | @nestedCaptures outer houter =>
      apply exists_iterate_succ (advance_refused hguards hcaptured)
      rw [← setGuards_released s thread ({ phase := .compares thread } :: outer)]
      exact hcompares _ outer houter (setGuards_self s thread _)
  | @nestedCompares outer houter => exact hcompares s outer houter hguards

/-- Steps of one thread are a run. -/
theorem run_iterate (s : State τ) (thread : τ) (n : Nat) :
    Run Steps s (List.replicate n (.advance thread)) ((fun s => s.advance thread)^[n] s) := by
  induction n with
  | zero => exact .refl
  | succ n ih =>
      rw [List.replicate_succ', Function.iterate_succ_apply']
      exact .snoc ih .advance

end

/-! ## Runs of threads -/

/-- Whatever the threads' calls, nested ones among them, and the order of their steps:
one thread at a time is inside its operations, the captured id is its own, and no id
stays captured when its thread has no call left. -/
theorem one_thread_operates {actions : List (Action τ)} {s : State τ}
    (hrun : Run Steps {} actions s) :
    (∀ first second, s.Inside first → s.Inside second → first = second) ∧
      (∀ thread, s.Inside thread → s.capturedByThreadId = some thread) ∧
        ∀ thread, s.capturedByThreadId = some thread → s.guards thread ≠ [] := by
  have hguarded := State.Guarded.of_run hrun
  refine ⟨?_, fun thread => hguarded.captured_of_inside, ?_⟩
  · intro first second hfirst hsecond
    have hid := hguarded.captured_of_inside hfirst
    rw [hguarded.captured_of_inside hsecond] at hid
    exact (Option.some.inj hid).symm
  · intro thread hcaptured hguards
    have hholding := hguarded.holding thread hcaptured
    rw [hguards] at hholding
    cases hholding with
    | operates hoperating => cases hoperating

/-- No deadlock: in every state that the threads reach, the steps of the thread that holds
the id lead to the end of its calls, with the id given back and every other thread where it
was. -/
theorem captured_is_released {actions : List (Action τ)} {s : State τ} {thread : τ}
    (hrun : Run Steps {} actions s) (hcaptured : s.capturedByThreadId = some thread) :
    ∃ n t, Run Steps s (List.replicate n (.advance thread)) t ∧
      t.capturedByThreadId = none ∧ t.guards thread = [] ∧
        ∀ other, other ≠ thread → t.guards other = s.guards other := by
  obtain ⟨n, hn⟩ := (State.Guarded.of_run hrun).exists_iterate hcaptured
  have hsteps := run_iterate s thread n
  rw [hn] at hsteps
  exact ⟨n, s.released thread, hsteps, rfl, setGuards_self _ thread [],
    fun other hother => setGuards_of_ne _ [] hother⟩

/-! ## Two threads -/

/-- One thread is in its operation and calls again, while another one waits. -/
def nestedCall : State Nat :=
  ((((({} : State Nat).call 1).advance 1).call 2).advance 2).call 1

/-- The steps lead there. -/
theorem run_nestedCall :
    Run Steps {} [.call 1, .advance 1, .call 2, .advance 2, .call 1] nestedCall := by
  have hfirst : ({} : State Nat).MayCall 1 := by
    intro guard outer hguards
    cases hguards
  have hsecond : ((({} : State Nat).call 1).advance 1).MayCall 2 := by
    intro guard outer hguards
    cases hguards
  have hnested : ((((({} : State Nat).call 1).advance 1).call 2).advance 2).MayCall 1 := by
    intro guard outer hguards
    cases hguards
    rfl
  exact .snoc (.snoc (.snoc (.snoc (.snoc .refl (.call hfirst)) .advance) (.call hsecond))
    .advance) (.call hnested)

/-- Only the first thread is inside. -/
theorem one_thread_operates_nested : nestedCall.Inside 1 ∧ ¬ nestedCall.Inside 2 := by
  have hinside : nestedCall.Inside 1 := ⟨_, List.mem_cons_of_mem _ (List.mem_singleton_self _), rfl⟩
  refine ⟨hinside, ?_⟩
  intro hother
  have heq := (one_thread_operates run_nestedCall).1 1 2 hinside hother
  cases heq

theorem captured_is_released_nested :
    ∃ n t, Run Steps nestedCall (List.replicate n (.advance 1)) t ∧
      t.capturedByThreadId = none ∧ t.guards 1 = [] ∧
        ∀ other, other ≠ 1 → t.guards other = nestedCall.guards other :=
  captured_is_released run_nestedCall rfl

end

end CallGuard
end Connect
end ObmcWebapp
