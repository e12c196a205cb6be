import ObmcWebapp.Entity.Observers

/-!
# Entity - A population in steps

The actions that make up a population of cached sources, as a tree of sources with the
runs of their queries gives them.  They leave the flags that the population leaves as a
whole, and the handlers on the side.

Main results:

- Theorem {lit}`leads_actions`: the actions of {lit}`processQueries`.
- Theorem {lit}`exists_actions_after`: a sequence of populations as one of actions.
-/

open Library

namespace ObmcWebapp
namespace Entity
namespace Observers

/-! ## The actions of a population -/

/-- The queries of one source, up to the first exception. -/
def visits : List QueryRun → List Action
  | [] => []
  | run :: rest =>
      .advance :: .processed run.process.raisedError run.process.exception ::
        match run.process.exception with
        | none => visits rest
        | some _ => []

mutual

/-- What {lit}`processQueries` does between its call and its end. -/
def actions : Source → List Action
  | .mk _ providers queries =>
      actionsOfAll providers ++
        match (Source.processProviders providers).raised with
        | none => visits queries
        | some _ => []

/-- The actions of several sources. -/
def actionsOfAll : List Source → List Action
  | [] => []
  | provider :: rest =>
      (.advance :: actions provider) ++
        match provider.processQueries.raised with
        | none => .advance :: actionsOfAll rest
        | some _ => []

end

/-- A call of {lit}`populate`. -/
def populateActions (sources : Sources) (source : Source) : List Action :=
  .populate source.name false ::
    if (sources source.name).populates then
      actions source ++
        match source.processQueries.raised with
        | none => [.advance]
        | some _ => []
    else []

/-! ## Sources as they are declared -/

/-- Each query belongs to one entity. -/
def Unshared (declarations : Declarations) : Prop :=
  ∀ query entity other, query ∈ (declarations entity).getQueries →
    query ∈ (declarations other).getQueries → entity = other

/-- A run of a query that populates no entity.  Only a {lit}`DBusQuery` emits events. -/
structure Runs (query : Query) (run : QueryRun) : Prop where
  provider : query.provider = none
  isDBusQuery : run.process.raisedError = true → query.isDBusQuery = true

mutual

/-- The tree has the declared providers and runs of the declared queries. -/
def Represents (declarations : Declarations) : Source → Prop
  | .mk name providers queries =>
      (declarations name).kind = .cached ∧
        (declarations name).getProviders = providers.map Source.name ∧
        List.Forall₂ Runs (declarations name).getQueries queries ∧
        RepresentsAll declarations providers

/-- The declarations represent several sources. -/
def RepresentsAll (declarations : Declarations) : List Source → Prop
  | [] => True
  | provider :: rest => Represents declarations provider ∧ RepresentsAll declarations rest

end

/-! ## What some actions lead to -/

section

variable {declarations : Declarations} {state : State} {script before after : List Action}
  {stack middle stack' rest : List Frame} {invalidated later : List Bytes}

/-- From every state with the one stack the actions lead to the other stack, and they
invalidate some sources. -/
def Leads (declarations : Declarations) (script : List Action) (stack : List Frame)
    (invalidated : List Bytes) (stack' : List Frame) : Prop :=
  ∀ state : State, state.Tracked declarations → state.stack = stack →
    (script.foldl (State.step declarations) state).Tracked declarations ∧
      (script.foldl (State.step declarations) state).stack = stack' ∧
      (script.foldl (State.step declarations) state).sources = state.sources.invalidate invalidated

/-- Nothing is invalidated. -/
theorem invalidate_nil (sources : Sources) : sources.invalidate [] = sources := by
  funext name
  simp [Sources.invalidate]

/-- Sources may be invalidated in two parts. -/
theorem invalidate_append (sources : Sources) (first second : List Bytes) :
    sources.invalidate (first ++ second) = (sources.invalidate first).invalidate second := by
  funext name
  simp only [Sources.invalidate_apply, List.mem_append, Bool.or_assoc]
  simp

/-- Only the names count. -/
theorem invalidate_congr (sources : Sources) {first second : List Bytes}
    (h : ∀ name, name ∈ first ↔ name ∈ second) :
    sources.invalidate first = sources.invalidate second := by
  funext name
  simp only [Sources.invalidate_apply, h name]

/-- No actions lead nowhere. -/
theorem Leads.nil : Leads declarations [] stack [] stack := by
  intro state htracked hstack
  exact ⟨htracked, hstack, (invalidate_nil _).symm⟩

/-- Actions in a row lead further. -/
theorem Leads.append (hfirst : Leads declarations before stack invalidated middle)
    (hsecond : Leads declarations after middle later stack') :
    Leads declarations (before ++ after) stack (invalidated ++ later) stack' := by
  intro state htracked hstack
  obtain ⟨htracked', hmiddle, hsources⟩ := hfirst state htracked hstack
  obtain ⟨htracked'', hstack', hsources'⟩ := hsecond _ htracked' hmiddle
  rw [List.foldl_append]
  refine ⟨htracked'', hstack', ?_⟩
  rw [hsources', hsources, invalidate_append]

/-- A single action that touches the stack alone. -/
theorem Leads.single {action : Action}
    (hstack : ∀ state : State, state.stack = stack →
      (state.step declarations action).stack = stack')
    (hsources : ∀ state : State, state.stack = stack →
      (state.step declarations action).sources = state.sources) :
    Leads declarations [action] stack [] stack' := by
  intro state htracked heq
  refine ⟨htracked.step action, hstack state heq, ?_⟩
  rw [invalidate_nil]
  exact hsources state heq

end

/-! ## One query -/

/-- The entities that subscribed to a query. -/
theorem mem_of_subscribers_iff {declarations : Declarations} {configured : List Observed}
    {query : Query} {entity : Bytes} :
    entity ∈ (Registry.of declarations configured).subscribers query ↔
      query.isDBusQuery = true ∧ (declarations entity).kind = .cached ∧
        entity ∈ configured.map Prod.snd ∧ query ∈ (declarations entity).getQueries := by
  rw [← List.count_pos_iff, Registry.count_of_subscribers]
  split
  · next hsubscribes =>
      rw [Nat.pos_iff_ne_zero, Nat.mul_ne_zero_iff, ← Nat.pos_iff_ne_zero, ← Nat.pos_iff_ne_zero,
        List.count_pos_iff, List.count_pos_iff]
      constructor
      · intro hboth
        exact ⟨hsubscribes.1, hsubscribes.2, hboth⟩
      · intro hall
        exact hall.2.2
  · next hnot =>
      constructor
      · intro hpos
        omega
      · intro hall
        exact absurd ⟨hall.1, hall.2.1⟩ hnot

section

variable {declarations : Declarations} {state : State} {name : Bytes} {populates : Bool}
  {query : Query} {queries : List Query} {run : QueryRun} {runs : List QueryRun}
  {rest : List Frame} {providers : List Source}

/-- The source's call when some of its queries are left. -/
abbrev calling (name : Bytes) (populates : Bool) (providers : List Bytes) (queries : List Query) :
    Frame :=
  { entity := name, populates, providers, queries }

/-- The stack after a query or after a block of queries. -/
def stackAfter (raised : Option Exception) (returned caught : List Frame) : List Frame :=
  match raised with
  | none => returned
  | some .sdBusError => caught
  | some _ => []

/-- Configuring a query subscribes its source, and no other. -/
theorem subscribers_configure (htracked : state.Tracked declarations)
    (hunshared : Unshared declarations) (hcached : (declarations name).kind = .cached)
    (hquery : query ∈ (declarations name).getQueries) (hdbus : query.isDBusQuery = true)
    (other : Bytes) :
    other ∈ (state.registry.configure declarations query name).subscribers query ↔ other = name := by
  have hsnoc := @Registry.of_snoc declarations state.configured (query, name)
  rw [htracked, ← hsnoc, mem_of_subscribers_iff]
  constructor
  · intro hall
    exact (hunshared query name other hquery hall.2.2.2).symm
  · intro hother
    rw [hother]
    refine ⟨hdbus, hcached, ?_, hquery⟩
    rw [List.map_append]
    exact List.mem_append_right _ (List.mem_singleton_self _)

/-- A query is configured and processed. -/
theorem leads_visit (hunshared : Unshared declarations)
    (hcached : (declarations name).kind = .cached)
    (hquery : query ∈ (declarations name).getQueries) (hruns : Runs query run) :
    Leads declarations [.advance, .processed run.process.raisedError run.process.exception]
      (calling name populates [] (query :: queries) :: rest) (visit name run).invalidated
      (stackAfter run.process.exception (calling name populates [] queries :: rest)
        (calling name populates [] [] :: rest)) := by
  intro state htracked hstack
  have hadvance : state.step declarations .advance =
      { state with
        registry := state.registry.configure declarations query name
        configured := state.configured ++ [(query, name)]
        stack :=
          { calling name populates [] queries with processing := some query } :: rest } := by
    simp only [State.step, hstack, calling, Option.isSome_none, Bool.false_eq_true, if_false,
      State.advance, hruns.provider]
  have htracked' := htracked.step .advance
  refine ⟨htracked'.step (.processed run.process.raisedError run.process.exception), ?_, ?_⟩
  · simp only [List.foldl_cons, List.foldl_nil, hadvance]
    simp only [State.step, State.processed, stackAfter]
    cases run.process.exception with
    | none => rfl
    | some exception =>
        cases exception with
        | sdBusError => rfl
        | _ => rfl
  · have hsubscribers := subscribers_configure htracked hunshared hcached hquery
    have hinvalidated : (if run.process.raisedError then
          state.sources.invalidate
            ((state.registry.configure declarations query name).subscribers query)
        else state.sources) = state.sources.invalidate (visit name run).invalidated := by
      cases hraised : run.process.raisedError with
      | false => simp [visit, hraised, invalidate_nil]
      | true =>
          rw [if_pos rfl]
          apply invalidate_congr
          intro other
          rw [hsubscribers (hruns.isDBusQuery hraised) other]
          simp [visit, hraised]
    rw [← hinvalidated]
    simp only [List.foldl_cons, List.foldl_nil, hadvance]
    simp only [State.step, State.processed]
    cases run.process.exception with
    | none => rfl
    | some exception =>
        cases exception with
        | sdBusError => rfl
        | _ => rfl

/-- The queries of a source, up to the exception that ends them. -/
theorem leads_visits (hunshared : Unshared declarations)
    (hcached : (declarations name).kind = .cached)
    (hqueries : ∀ query ∈ queries, query ∈ (declarations name).getQueries)
    (hruns : List.Forall₂ Runs queries runs) :
    Leads declarations (visits runs) (calling name populates [] queries :: rest)
      (visitAll name runs).invalidated
      (stackAfter (visitAll name runs).raised (calling name populates [] [] :: rest)
        (calling name populates [] [] :: rest)) := by
  induction hruns with
  | nil => exact Leads.nil
  | @cons query run queries runs hrun _ ih =>
      have hvisit := @leads_visit declarations name populates query queries run rest hunshared hcached
        (hqueries query List.mem_cons_self) hrun
      rw [visits, visitAll]
      cases hexception : run.process.exception with
      | none =>
          rw [hexception] at hvisit
          rw [Processing.andThen_of_none hexception]
          apply hvisit.append
          exact ih fun other hother => hqueries other (List.mem_cons_of_mem query hother)
      | some exception =>
          rw [hexception] at hvisit
          rw [Processing.andThen_of_raised hexception]
          have hraised : (visit name run).raised = some exception := hexception
          rw [hraised]
          cases exception with
          | sdBusError => exact hvisit
          | _ => exact hvisit

end

/-! ## The sources of a tree -/

section

variable {declarations : Declarations} {state : State} {stack : List Frame}

/-- A bus error that is caught leaves the stack. -/
@[simp]
theorem stackAfter_catchSdBusError (processing : Processing) :
    stackAfter processing.catchSdBusError.raised stack stack =
      stackAfter processing.raised stack stack := by
  unfold Processing.catchSdBusError
  split
  · next hraised =>
      rw [hraised]
      rfl
  · rfl

/-- It invalidates nothing more. -/
@[simp]
theorem invalidated_catchSdBusError (processing : Processing) :
    processing.catchSdBusError.invalidated = processing.invalidated := by
  unfold Processing.catchSdBusError
  split
  · rfl
  · rfl

/-- Another exception unwinds the stack. -/
theorem stackAfter_of_ne {raised : Option Exception} {exception : Exception}
    (hraised : raised = some exception) (hne : raised ≠ some .sdBusError)
    (returned caught : List Frame) : stackAfter raised returned caught = [] := by
  rw [hraised] at hne ⊢
  cases exception with
  | sdBusError => exact absurd rfl hne
  | _ => rfl

/-- An owner calls a provider. -/
theorem leads_call (name : Bytes) (populates : Bool) (provider : Bytes) (providers : List Bytes)
    (queries : List Query) (rest : List Frame) :
    Leads declarations [.advance] (calling name populates (provider :: providers) queries :: rest) []
      (calling provider false (declarations provider).getProviders
          (declarations provider).getQueries ::
        calling name populates providers queries :: rest) := by
  apply Leads.single
  · intro state hstack
    simp only [State.step, hstack, calling, State.advance, State.processQueries,
      Option.isSome_none, Bool.false_eq_true, if_false]
  · intro state hstack
    simp only [State.step, hstack, calling, State.advance, State.processQueries,
      Option.isSome_none, Bool.false_eq_true, if_false]

/-- A provider returns to its owner. -/
theorem leads_return (name : Bytes) (rest : List Frame) :
    Leads declarations [.advance] (calling name false [] [] :: rest) [] rest := by
  apply Leads.single
  · intro state hstack
    simp only [State.step, hstack, calling, State.advance, Option.isSome_none, Bool.false_eq_true,
      if_false]
  · intro state hstack
    simp only [State.step, hstack, calling, State.advance, Option.isSome_none, Bool.false_eq_true,
      if_false]

mutual

/-- The actions of {lit}`processQueries` invalidate the sources that it invalidates; its
call stays on the stack, unless an exception leaves it. -/
theorem leads_actions (hunshared : Unshared declarations) : (source : Source) →
    Represents declarations source → ∀ (populates : Bool) (rest : List Frame),
      Leads declarations (actions source)
        (calling source.name populates (declarations source.name).getProviders
          (declarations source.name).getQueries :: rest)
        source.processQueries.invalidated
        (stackAfter source.processQueries.raised (calling source.name populates [] [] :: rest)
          (calling source.name populates [] [] :: rest))
  | .mk name providers queries, hrepresents, populates, rest => by
      obtain ⟨hcached, hproviders, hruns, hall⟩ := hrepresents
      have hfirst := leads_actionsOfAll hunshared providers hall name populates
        (declarations name).getQueries rest
      have hne : (Source.processProviders providers).raised ≠ some .sdBusError := by
        rw [Source.processProviders_eq]
        exact processBlocks_raised_ne _
      rw [actions, Source.processQueries, stackAfter_catchSdBusError, invalidated_catchSdBusError,
        Source.name, hproviders]
      cases hraised : (Source.processProviders providers).raised with
      | none =>
          rw [hraised] at hfirst
          rw [Processing.andThen_of_none hraised]
          apply hfirst.append
          exact leads_visits hunshared hcached (fun _ hquery => hquery) hruns
      | some exception =>
          rw [stackAfter_of_ne hraised hne] at hfirst
          rw [Processing.andThen_of_raised hraised, stackAfter_of_ne hraised hne, List.append_nil]
          exact hfirst

/-- The actions of providers lead through all of them. -/
theorem leads_actionsOfAll (hunshared : Unshared declarations) : (providers : List Source) →
    RepresentsAll declarations providers →
      ∀ (name : Bytes) (populates : Bool) (queries : List Query) (rest : List Frame),
        Leads declarations (actionsOfAll providers)
          (calling name populates (providers.map Source.name) queries :: rest)
          (Source.processProviders providers).invalidated
          (stackAfter (Source.processProviders providers).raised
            (calling name populates [] queries :: rest) (calling name populates [] queries :: rest))
  | [], _, _, _, _, _ => Leads.nil
  | provider :: others, hrepresents, name, populates, queries, rest => by
      obtain ⟨hprovider, hothers⟩ := hrepresents
      have hcall := @leads_call declarations name populates provider.name (others.map Source.name)
        queries rest
      have hprocess := hcall.append (leads_actions hunshared provider hprovider false
        (calling name populates (others.map Source.name) queries :: rest))
      have hne : provider.processQueries.raised ≠ some .sdBusError := by
        rw [Source.processQueries_eq]
        exact processBlocks_raised_ne _
      rw [actionsOfAll, Source.processProviders, List.map_cons]
      cases hraised : provider.processQueries.raised with
      | none =>
          rw [hraised] at hprocess
          rw [Processing.andThen_of_none hraised]
          apply hprocess.append
          exact (leads_return provider.name _).append
            (leads_actionsOfAll hunshared others hothers name populates queries rest)
      | some exception =>
          rw [stackAfter_of_ne hraised hne] at hprocess
          rw [Processing.andThen_of_raised hraised, stackAfter_of_ne hraised hne, List.append_nil]
          exact hprocess

end

end

/-! ## Populations -/

/-- The flags that the code reads. -/
structure SameFlags (state other : SourceState) : Prop where
  initialized : state.initialized = other.initialized
  hasErrors : state.hasErrors = other.hasErrors
  cachingInProgress : state.cachingInProgress = other.cachingInProgress

section

variable {declarations : Declarations} {state : State} {sources : Sources} {source : Source}

/-- The guards decide by the flags. -/
theorem SameFlags.populates {first second : SourceState} (h : SameFlags first second) :
    first.populates = second.populates := by
  unfold SourceState.populates
  rw [h.initialized, h.hasErrors, h.cachingInProgress]

/-- A source that is represented is a cached one. -/
theorem Represents.cached (h : Represents declarations source) :
    (declarations source.name).kind = .cached := by
  cases source with
  | mk name providers queries => exact h.1

/-- Called while nothing runs, {lit}`populate` of a source that is up to date does
nothing. -/
theorem step_populate_of_not (hcached : (declarations source.name).kind = .cached)
    (hstack : state.stack = []) (hnot : (state.sources source.name).populates = false) :
    state.step declarations (.populate source.name false) = state := by
  simp only [State.step, hstack, State.populate, hcached, hnot, Bool.false_eq_true, if_false]

/-- The action of a population that passes the guards. -/
theorem step_populate (hcached : (declarations source.name).kind = .cached)
    (hstack : state.stack = []) (hpopulates : (state.sources source.name).populates = true) :
    state.step declarations (.populate source.name false) =
      { state with
        sources := state.sources.modify source.name fun flags =>
          { flags with cachingInProgress := true, hasErrors := false }
        stack :=
          [calling source.name true (declarations source.name).getProviders
            (declarations source.name).getQueries] } := by
  simp only [State.step, hstack, State.populate, hcached, hpopulates, if_true,
    State.processQueries, calling]

/-- The last step of {lit}`populate`. -/
theorem step_populated {name : Bytes} (hcached : (declarations name).kind = .cached)
    (hstack : state.stack = [calling name true [] []]) :
    state.step declarations .advance =
      { state with
        sources := state.sources.modify name fun flags =>
          { flags with
            cachingInProgress := false
            initialized := flags.initialized || !flags.hasErrors }
        stack := [] } := by
  simp only [State.step, hstack, calling, Option.isSome_none, Bool.false_eq_true, if_false,
    State.advance, if_true, State.populated, hcached]

/-- Changes that go by the flags alone keep them the same. -/
theorem SameFlags.modify {first second : Sources} {f g : SourceState → SourceState}
    (h : ∀ name, SameFlags (first name) (second name)) (name : Bytes)
    (hfg : SameFlags (f (first name)) (g (second name))) (other : Bytes) :
    SameFlags (first.modify name f other) (second.modify name g other) := by
  by_cases hother : other = name
  · rw [hother, Sources.modify_self, Sources.modify_self]
    exact hfg
  · rw [Sources.modify_of_ne hother, Sources.modify_of_ne hother]
    exact h other

/-- Invalidating keeps equal flags equal. -/
theorem SameFlags.invalidate {first second : Sources}
    (h : ∀ name, SameFlags (first name) (second name)) (names : List Bytes) (other : Bytes) :
    SameFlags (first.invalidate names other) (second.invalidate names other) := by
  rw [Sources.invalidate_apply, Sources.invalidate_apply]
  constructor
  · exact (h other).initialized
  · exact congrArg (· || decide (other ∈ names)) (h other).hasErrors
  · exact (h other).cachingInProgress

/-- Two changes of a source are one. -/
theorem modify_modify (name : Bytes) (f g : SourceState → SourceState) :
    (sources.modify name f).modify name g = sources.modify name fun flags => g (f flags) := by
  funext other
  by_cases hother : other = name
  · rw [hother, Sources.modify_self, Sources.modify_self, Sources.modify_self]
  · rw [Sources.modify_of_ne hother, Sources.modify_of_ne hother, Sources.modify_of_ne hother]

/-- The record of the population is no flag. -/
theorem SameFlags.modify_record {first second : Sources}
    (h : ∀ name, SameFlags (first name) (second name)) (name : Bytes)
    (record : Option (Source × Processing)) (other : Bytes) :
    SameFlags (first other)
      (second.modify name (fun flags => { flags with lastPopulation := record }) other) := by
  by_cases hother : other = name
  · rw [hother, Sources.modify_self]
    exact ⟨(h name).initialized, (h name).hasErrors, (h name).cachingInProgress⟩
  · rw [Sources.modify_of_ne hother]
    exact h other

/-- The flags after a population that is taken, from those before it. -/
theorem sameFlags_populate (hsame : ∀ name, SameFlags (state.sources name) (sources name))
    (hpopulates : (sources source.name).populates = true) (other : Bytes) :
    let begun := (state.sources.modify source.name fun flags =>
      { flags with cachingInProgress := true, hasErrors := false }).invalidate
        source.processQueries.invalidated
    SameFlags
      (match source.processQueries.raised with
        | none =>
            begun.modify source.name (fun flags =>
              { flags with
                cachingInProgress := false
                initialized := flags.initialized || !flags.hasErrors }) other
        | some _ => begun other)
      ((sources.populate source).2 other) := by
  intro begun
  have hentered := SameFlags.modify hsame source.name
    (f := fun flags => { flags with cachingInProgress := true, hasErrors := false })
    (g := fun flags => { flags with cachingInProgress := true, hasErrors := false })
    ⟨(hsame source.name).initialized, rfl, rfl⟩
  have hbegun := SameFlags.modify_record
    (SameFlags.invalidate hentered source.processQueries.invalidated) source.name
    (some (source, source.processQueries))
  simp only [Sources.populate, hpopulates, Bool.not_true, Bool.false_eq_true, if_false]
  cases source.processQueries.raised with
  | some exception => exact hbegun other
  | none =>
      have hname := hbegun source.name
      dsimp only
      split
      · next herrors =>
          rw [Sources.modify_self] at herrors
          dsimp only
          apply SameFlags.modify hbegun source.name
          have hfound : (begun source.name).hasErrors = true := hname.hasErrors.trans herrors
          refine ⟨?_, hname.hasErrors, rfl⟩
          show ((begun source.name).initialized || !(begun source.name).hasErrors) = _
          rw [hfound, Bool.not_true, Bool.or_false]
          exact hname.initialized
      · next herrors =>
          rw [Sources.modify_self] at herrors
          dsimp only
          rw [modify_modify]
          apply SameFlags.modify hbegun source.name
          have hfound : (begun source.name).hasErrors = false :=
            hname.hasErrors.trans (Bool.eq_false_iff.mpr herrors)
          refine ⟨?_, hname.hasErrors, rfl⟩
          show ((begun source.name).initialized || !(begun source.name).hasErrors) = true
          rw [hfound, Bool.not_false, Bool.or_true]

/-- Nothing runs, and the flags are those of the sources. -/
structure Agrees (declarations : Declarations) (state : State) (sources : Sources) : Prop where
  tracked : state.Tracked declarations
  idle : state.stack = []
  flags : ∀ name, SameFlags (state.sources name) (sources name)

namespace Agrees

variable (h : Agrees declarations state sources)
include h

theorem guard : (state.sources source.name).populates = (sources source.name).populates :=
  (h.flags source.name).populates

/-- A population that the guards stop. -/
theorem populate_of_not (hrepresents : Represents declarations source)
    (hnot : (sources source.name).populates = false) :
    Agrees declarations ((populateActions sources source).foldl (State.step declarations) state)
      (sources.populate source).2 := by
  have hstep := step_populate_of_not hrepresents.cached h.idle (h.guard.trans hnot)
  simp only [populateActions, Sources.populate, hnot, Bool.false_eq_true, if_false, List.foldl_cons,
    List.foldl_nil, hstep, Bool.not_false, if_true]
  exact h

/-- A population that they let pass. -/
theorem populate_of_populates (hunshared : Unshared declarations)
    (hrepresents : Represents declarations source)
    (hpopulates : (sources source.name).populates = true) :
    Agrees declarations ((populateActions sources source).foldl (State.step declarations) state)
      (sources.populate source).2 := by
  have hcached := hrepresents.cached
  have hstep := step_populate hcached h.idle (h.guard.trans hpopulates)
  have hbegun : (state.step declarations (.populate source.name false)).sources =
      state.sources.modify source.name fun flags =>
        { flags with cachingInProgress := true, hasErrors := false } := by
    rw [hstep]
  obtain ⟨htracked, hstack, hsources⟩ :=
    leads_actions hunshared source hrepresents true [] _
      (h.tracked.step (.populate source.name false)) (by rw [hstep])
  have hflags := sameFlags_populate h.flags hpopulates
  have hne : source.processQueries.raised ≠ some .sdBusError := by
    rw [Source.processQueries_eq]
    exact processBlocks_raised_ne _
  rw [hbegun] at hsources
  simp only [populateActions, hpopulates, if_true, List.foldl_cons, List.foldl_append]
  cases hraised : source.processQueries.raised with
  | none =>
      rw [hraised] at hstack
      have hlast := step_populated hcached hstack
      refine ⟨htracked.step .advance, ?_, ?_⟩
      · simp only [List.foldl_cons, List.foldl_nil, hlast]
      · intro name
        have hname := hflags name
        rw [hraised] at hname
        simp only [List.foldl_cons, List.foldl_nil, hlast, hsources]
        exact hname
  | some exception =>
      rw [stackAfter_of_ne hraised hne] at hstack
      refine ⟨htracked, hstack, ?_⟩
      intro name
      have hname := hflags name
      rw [hraised] at hname
      simp only [List.foldl_nil, hsources]
      exact hname

/-- The actions of {lit}`populate` leave the flags that it leaves as a whole. -/
theorem populate (hunshared : Unshared declarations) (hrepresents : Represents declarations source) :
    Agrees declarations ((populateActions sources source).foldl (State.step declarations) state)
      (sources.populate source).2 := by
  cases hpopulates : (sources source.name).populates with
  | false => exact h.populate_of_not hrepresents hpopulates
  | true => exact h.populate_of_populates hunshared hrepresents hpopulates

end Agrees

/-- Every sequence of populations is one of actions, with the same flags in the end. -/
theorem exists_actions_after (hunshared : Unshared declarations) (calls : List CachedSource)
    (hrepresents : ∀ call ∈ calls, Represents declarations call.source) :
    ∃ script, Agrees declarations (State.after declarations script) (Sources.after calls) := by
  induction calls using List.reverseRecOn with
  | nil => exact ⟨[], rfl, rfl, fun _ => ⟨rfl, rfl, rfl⟩⟩
  | append_singleton earlier call ih =>
      obtain ⟨script, hagrees⟩ :=
        ih fun other hother => hrepresents other (List.mem_append_left _ hother)
      have hcall := hrepresents call (List.mem_append_right _ (List.mem_singleton_self _))
      have hafter : Sources.after (earlier ++ [call]) =
          ((Sources.after earlier).populate call.source).2 := by
        unfold Sources.after
        rw [List.foldl_append]
        rfl
      refine ⟨script ++ populateActions (Sources.after earlier) call.source, ?_⟩
      rw [hafter, State.after, List.foldl_append]
      exact hagrees.populate hunshared hcall

end

end Observers
end Entity
end ObmcWebapp
