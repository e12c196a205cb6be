import ObmcWebapp.Entity.Population

/-!
# Entity - Handlers that a population registers

A source configures each of its queries right before it processes it.  A
{lit}`DBusQuery` then registers a handler of created and one of removed objects, and a
cached source subscribes to the events of all its queries.  Nothing takes a handler or
a subscription back.

A provider's queries are processed for each of its owners and for the provider itself,
and a proxy query populates the entity that it copies.  The calls that have not
returned stand on a stack.

Main results:

- Theorem {lit}`registry_after`: the handlers and subscriptions that any sequence of
  actions leaves.
- Theorem {lit}`observed_once_always_iff`: when every query is observed once for each
  entity.
-/

open Library

namespace ObmcWebapp
namespace Entity
namespace Observers

/-! ## Entities and their queries -/

/-- The source that an entity derives from. -/
inductive SourceKind
  | cached
  | shortTimeCached
  | lazy
deriving DecidableEq

/-- The classes of queries. -/
inductive QueryClass
  | dbus
  /-- {lit}`ProxyQuery` and those like it, which populate a provider. -/
  | proxy (provider : Bytes)
  /-- A query that makes its instances itself. -/
  | static
deriving DecidableEq

/-- A query object. -/
structure Query where
  name : Bytes
  queryClass : QueryClass
deriving DecidableEq

namespace Query

/-- Only these queries follow signals. -/
def isDBusQuery (query : Query) : Bool :=
  query.queryClass = .dbus

/-- The entity that {lit}`process` populates. -/
def provider (query : Query) : Option Bytes :=
  match query.queryClass with
  | .proxy provider => some provider
  | _ => none

end Query

/-- What an entity is declared with. -/
structure Declaration where
  kind : SourceKind
  getProviders : List Bytes
  getQueries : List Query

/-- What each entity declares. -/
abbrev Declarations := Bytes → Declaration

/-! ## Registration -/

/-- A query with the entity that it was configured for. -/
abbrev Observed := Query × Bytes

/-- The handlers of all queries, and the subscribers to the events of each. -/
structure Registry where
  instanceCreateHandlers : List Observed := []
  instanceRemoveHandlers : List Observed := []
  subscribers : Query → List Bytes := fun _ => []

namespace Registry

/-- {lit}`registerObjectCreationObserver` -/
def registerObjectCreationObserver (registry : Registry) (query : Query) (entity : Bytes) :
    Registry :=
  { registry with
    instanceCreateHandlers := registry.instanceCreateHandlers ++ [(query, entity)] }

/-- {lit}`registerObjectRemovingObserver` -/
def registerObjectRemovingObserver (registry : Registry) (query : Query) (entity : Bytes) :
    Registry :=
  { registry with
    instanceRemoveHandlers := registry.instanceRemoveHandlers ++ [(query, entity)] }

/-- {lit}`DBusQuery::configure`; the default of {lit}`IQuery` does nothing. -/
def configureQuery (registry : Registry) (query : Query) (entity : Bytes) : Registry :=
  if query.isDBusQuery then
    (registry.registerObjectCreationObserver query entity).registerObjectRemovingObserver
      query entity
  else registry

/-- A {lit}`DBusQuery` is an {lit}`Event`; the default of {lit}`IEvent` does nothing. -/
def addEventSubscriber (registry : Registry) (query : Query) (entity : Bytes) : Registry :=
  if query.isDBusQuery then
    { registry with
      subscribers := fun other =>
        if other = query then registry.subscribers other ++ [entity]
        else registry.subscribers other }
  else registry

/-- {lit}`configureQueryEvents` -/
def configureQueryEvents (registry : Registry) (entity : Bytes) : List Query → Registry
  | [] => registry
  | query :: rest => (registry.addEventSubscriber query entity).configureQueryEvents entity rest

/-- {lit}`configure` of the three sources. -/
def configure (registry : Registry) (declarations : Declarations) (query : Query)
    (entity : Bytes) : Registry :=
  match (declarations entity).kind with
  | .cached =>
      (registry.configureQuery query entity).configureQueryEvents entity
        (declarations entity).getQueries
  | .shortTimeCached => registry.configureQuery query entity
  | .lazy => registry

/-- Each pair of a query and an entity has at most one handler of each sort and one
subscription.  A signal calls every handler. -/
def ObservedOnce (registry : Registry) : Prop :=
  ∀ query entity,
    registry.instanceCreateHandlers.count (query, entity) ≤ 1 ∧
      registry.instanceRemoveHandlers.count (query, entity) ≤ 1 ∧
      (registry.subscribers query).count entity ≤ 1

end Registry

/-! ## Populations -/

/-- A {lit}`processQueries` that has not returned, with the providers and queries that it
has yet to go through.  {lit}`populates` tells whether {lit}`populate` called it or an
owner, and {lit}`pending` is the entity that the query in process has yet to populate. -/
structure Frame where
  entity : Bytes
  populates : Bool
  providers : List Bytes
  queries : List Query
  processing : Option Query := none
  pending : Option Bytes := none

/-- {lit}`configured` records every call of {lit}`configure`; no code reads it. -/
structure State where
  sources : Sources := .initial
  registry : Registry := {}
  stack : List Frame := []
  configured : List Observed := []

/-- What a thread does next. -/
inductive Action
  /-- A reader calls {lit}`populate`, or the query in process does.  {lit}`expired` is
  what a short-time cache finds. -/
  | populate (entity : Bytes) (expired : Bool)
  /-- The next provider, the next query, or the end of the running
  {lit}`processQueries`. -/
  | advance
  /-- The query in process ends, after it emitted {lit}`hasFailures` or not. -/
  | processed (raisedError : Bool) (raised : Option Exception)

namespace State

section Definitions

variable (declarations : Declarations)

/-- Calls {lit}`processQueries` of an entity. -/
def processQueries (state : State) (entity : Bytes) (populates : Bool) : State :=
  { state with
    stack :=
      { entity, populates
        providers := (declarations entity).getProviders
        queries := (declarations entity).getQueries } :: state.stack }

/-- {lit}`populate` of the three sources, up to the call of {lit}`processQueries`. -/
def populate (state : State) (entity : Bytes) (expired : Bool) : State :=
  match (declarations entity).kind with
  | .cached =>
      if (state.sources entity).populates then
        { state with
          sources := state.sources.modify entity fun source =>
            { source with cachingInProgress := true, hasErrors := false } }.processQueries
          declarations entity true
      else state
  | .shortTimeCached => if expired then state.processQueries declarations entity true else state
  | .lazy => state.processQueries declarations entity true

/-- {lit}`populate` after {lit}`processQueries`.  The clock is not part of the state. -/
def populated (state : State) (entity : Bytes) : State :=
  match (declarations entity).kind with
  | .cached =>
      { state with
        sources := state.sources.modify entity fun source =>
          { source with
            cachingInProgress := false
            initialized := source.initialized || !source.hasErrors } }
  | .shortTimeCached => state
  | .lazy => state

/-- The next step of the running {lit}`processQueries`, while no query is in process. -/
def advance (state : State) (frame : Frame) (rest : List Frame) : State :=
  match frame.providers, frame.queries with
  | provider :: providers, _ =>
      { state with stack := { frame with providers } :: rest }.processQueries declarations provider
        false
  | [], query :: queries =>
      { state with
        registry := state.registry.configure declarations query frame.entity
        configured := state.configured ++ [(query, frame.entity)]
        stack :=
          { frame with queries, processing := some query, pending := query.provider } :: rest }
  | [], [] =>
      if frame.populates then { state with stack := rest }.populated declarations frame.entity
      else { state with stack := rest }

/-- The query in process ends.  Its source catches a bus error and returns; another
exception leaves every call. -/
def processed (state : State) (frame : Frame) (rest : List Frame) (query : Query)
    (raisedError : Bool) (raised : Option Exception) : State :=
  let sources :=
    if raisedError then state.sources.invalidate (state.registry.subscribers query)
    else state.sources
  match raised with
  | none => { state with sources, stack := { frame with processing := none } :: rest }
  | some .sdBusError =>
      { state with
        sources
        stack := { frame with processing := none, providers := [], queries := [] } :: rest }
  | some _ => { state with sources, stack := [] }

/-- An action that cannot happen changes nothing. -/
def step (state : State) : Action → State
  | .populate entity expired =>
      match state.stack with
      | [] => state.populate declarations entity expired
      | frame :: rest =>
          if frame.pending = some entity then
            { state with stack := { frame with pending := none } :: rest }.populate declarations
              entity expired
          else state
  | .advance =>
      match state.stack with
      | [] => state
      | frame :: rest =>
          if frame.processing.isSome then state else state.advance declarations frame rest
  | .processed raisedError raised =>
      match state.stack with
      | [] => state
      | frame :: rest =>
          match frame.processing with
          | none => state
          | some query =>
              if frame.pending.isSome then state
              else state.processed frame rest query raisedError raised

/-- The state after some actions. -/
def after (actions : List Action) : State :=
  actions.foldl (step declarations) {}

end Definitions

end State

/-! ## What a list of configurations leaves -/

namespace Registry

variable {declarations : Declarations} {registry : Registry} {query other : Query}
  {entity reader : Bytes} {queries : List Query} {configured : List Observed}

/-- The registry after some calls of {lit}`configure`. -/
def of (declarations : Declarations) (configured : List Observed) : Registry :=
  configured.foldl (fun registry observed => registry.configure declarations observed.1 observed.2)
    {}

/-- The last query is configured last. -/
theorem of_snoc (observed : Observed) :
    of declarations (configured ++ [observed]) =
      (of declarations configured).configure declarations observed.1 observed.2 := by
  unfold of
  rw [List.foldl_append]
  rfl

/-- An entity registers handlers for its query. -/
def Registers (declarations : Declarations) (observed : Observed) : Prop :=
  observed.1.isDBusQuery = true ∧ (declarations observed.2).kind ≠ .lazy

instance (observed : Observed) : Decidable (Registers declarations observed) :=
  inferInstanceAs (Decidable (_ ∧ _))

/-- A query registers no readers. -/
@[simp]
theorem configureQuery_subscribers :
    (registry.configureQuery query entity).subscribers = registry.subscribers := by
  unfold configureQuery
  split
  · rfl
  · rfl

/-- A query registers its handlers once. -/
theorem configureQuery_handlers :
    (registry.configureQuery query entity).instanceCreateHandlers =
        registry.instanceCreateHandlers ++ (if query.isDBusQuery then [(query, entity)] else []) ∧
      (registry.configureQuery query entity).instanceRemoveHandlers =
        registry.instanceRemoveHandlers ++ if query.isDBusQuery then [(query, entity)] else [] := by
  unfold configureQuery
  split
  · exact ⟨rfl, rfl⟩
  · exact ⟨(List.append_nil _).symm, (List.append_nil _).symm⟩

/-- Subscriptions leave the handlers alone. -/
theorem configureQueryEvents_handlers :
    (registry.configureQueryEvents entity queries).instanceCreateHandlers =
        registry.instanceCreateHandlers ∧
      (registry.configureQueryEvents entity queries).instanceRemoveHandlers =
        registry.instanceRemoveHandlers := by
  induction queries generalizing registry with
  | nil => exact ⟨rfl, rfl⟩
  | cons query rest ih =>
      have hadd : (registry.addEventSubscriber query entity).instanceCreateHandlers =
            registry.instanceCreateHandlers ∧
          (registry.addEventSubscriber query entity).instanceRemoveHandlers =
            registry.instanceRemoveHandlers := by
        unfold addEventSubscriber
        split
        · exact ⟨rfl, rfl⟩
        · exact ⟨rfl, rfl⟩
      rw [configureQueryEvents, ih.1, ih.2]
      exact hadd

/-- A reader is subscribed once more. -/
theorem count_addEventSubscriber :
    ((registry.addEventSubscriber query entity).subscribers other).count reader =
      (registry.subscribers other).count reader +
        if other = query ∧ query.isDBusQuery = true ∧ entity = reader then 1 else 0 := by
  unfold addEventSubscriber
  by_cases hdbus : query.isDBusQuery = true
  · by_cases hother : other = query
    · by_cases hreader : entity = reader
      · simp [hdbus, hother, hreader]
      · simp [hdbus, hother, hreader]
    · simp [hdbus, hother]
  · simp [hdbus]

/-- One call subscribes the entity to every query once. -/
theorem count_configureQueryEvents :
    ((registry.configureQueryEvents entity queries).subscribers query).count reader =
      (registry.subscribers query).count reader +
        if query.isDBusQuery = true ∧ entity = reader then queries.count query else 0 := by
  induction queries generalizing registry with
  | nil => simp [configureQueryEvents]
  | cons first rest ih =>
      rw [configureQueryEvents, ih, count_addEventSubscriber, List.count_cons]
      by_cases hfirst : query = first
      · rw [hfirst]
        by_cases hboth : first.isDBusQuery = true ∧ entity = reader
        · simp only [hboth, beq_self_eq_true, and_self, if_true]
          omega
        · simp only [hboth, and_false, if_false, Nat.add_zero]
      · have hne : ¬ first = query := fun heq => hfirst heq.symm
        simp [hfirst, hne]

/-- The handlers after an entity is configured. -/
theorem configure_handlers :
    (registry.configure declarations query entity).instanceCreateHandlers =
        registry.instanceCreateHandlers ++
          (if Registers declarations (query, entity) then [(query, entity)] else []) ∧
      (registry.configure declarations query entity).instanceRemoveHandlers =
        registry.instanceRemoveHandlers ++
          if Registers declarations (query, entity) then [(query, entity)] else [] := by
  have hregisters : Registers declarations (query, entity) ↔
      query.isDBusQuery = true ∧ (declarations entity).kind ≠ .lazy := Iff.rfl
  unfold configure
  cases hkind : (declarations entity).kind with
  | cached =>
      dsimp only
      rw [configureQueryEvents_handlers.1, configureQueryEvents_handlers.2,
        configureQuery_handlers.1, configureQuery_handlers.2]
      simp [hregisters, hkind]
  | shortTimeCached =>
      dsimp only
      rw [configureQuery_handlers.1, configureQuery_handlers.2]
      simp [hregisters, hkind]
  | lazy => simp [hregisters, hkind]

/-- The readers after an entity is configured. -/
theorem count_configure_subscribers :
    ((registry.configure declarations query entity).subscribers other).count reader =
      (registry.subscribers other).count reader +
        if other.isDBusQuery = true ∧ (declarations reader).kind = .cached ∧ entity = reader then
          (declarations reader).getQueries.count other
        else 0 := by
  by_cases hreader : entity = reader
  · rw [hreader]
    unfold configure
    cases hkind : (declarations reader).kind with
    | cached =>
        dsimp only
        rw [count_configureQueryEvents, configureQuery_subscribers]
        simp
    | shortTimeCached => simp
    | lazy => simp
  · unfold configure
    cases hkind : (declarations entity).kind with
    | cached =>
        dsimp only
        rw [count_configureQueryEvents, configureQuery_subscribers]
        simp [hreader]
    | shortTimeCached => simp [hreader]
    | lazy => simp [hreader]

/-- The handlers are those of the configurations that register some. -/
theorem of_handlers :
    (of declarations configured).instanceCreateHandlers =
        configured.filter (fun observed => Registers declarations observed) ∧
      (of declarations configured).instanceRemoveHandlers =
        configured.filter fun observed => Registers declarations observed := by
  induction configured using List.reverseRecOn with
  | nil => exact ⟨rfl, rfl⟩
  | append_singleton earlier observed ih =>
      rw [of_snoc, configure_handlers.1, configure_handlers.2, ih.1, ih.2, List.filter_append,
        List.filter_singleton]
      simp

/-- A cached entity subscribes to each of its queries as often as it configures any. -/
theorem count_of_subscribers :
    ((of declarations configured).subscribers query).count entity =
      if query.isDBusQuery = true ∧ (declarations entity).kind = .cached then
        (configured.map Prod.snd).count entity * (declarations entity).getQueries.count query
      else 0 := by
  induction configured using List.reverseRecOn with
  | nil => simp [of]
  | append_singleton earlier observed ih =>
      rw [of_snoc, count_configure_subscribers, ih, List.map_append, List.count_append]
      by_cases hsubscribes : query.isDBusQuery = true ∧ (declarations entity).kind = .cached
      · by_cases hentity : observed.2 = entity
        · simp [hsubscribes, hentity, Nat.add_mul]
        · simp [hsubscribes, hentity]
      · rw [if_neg hsubscribes, if_neg hsubscribes, if_neg]
        intro hall
        exact hsubscribes ⟨hall.1, hall.2.1⟩

end Registry

/-! ## Queries that are configured for the first time -/

/-- A query that registers handlers was not configured before.  A cached entity with a
{lit}`DBusQuery` configured no query before and lists the {lit}`DBusQuery` once. -/
structure FirstTime (declarations : Declarations) (configured : List Observed)
    (observed : Observed) : Prop where
  handlers : Registry.Registers declarations observed → observed ∉ configured
  subscriptions : (declarations observed.2).kind = .cached →
    ∀ query ∈ (declarations observed.2).getQueries, query.isDBusQuery = true →
      (declarations observed.2).getQueries.count query = 1 ∧
        observed.2 ∉ configured.map Prod.snd

namespace Registry

variable {declarations : Declarations} {configured : List Observed} {observed : Observed}

/-- The handlers are those of the entities that register them. -/
theorem count_of_handlers (other : Observed) :
    (of declarations configured).instanceCreateHandlers.count other =
        (if Registers declarations other then configured.count other else 0) ∧
      (of declarations configured).instanceRemoveHandlers.count other =
        if Registers declarations other then configured.count other else 0 := by
  have hcount : (configured.filter fun observed => Registers declarations observed).count other =
      if Registers declarations other then configured.count other else 0 := by
    split
    · next hregisters => exact List.count_filter (by simpa using hregisters)
    · next hnot =>
        apply List.count_eq_zero_of_not_mem
        intro hmem
        exact hnot (by simpa using (List.mem_filter.mp hmem).2)
  rw [of_handlers.1, of_handlers.2]
  exact ⟨hcount, hcount⟩

/-- Everything is observed once where what is configured registers handlers and
subscriptions once. -/
theorem observedOnce_of_iff :
    (of declarations configured).ObservedOnce ↔
      (∀ other, Registers declarations other → configured.count other ≤ 1) ∧
        ∀ query entity, query.isDBusQuery = true → (declarations entity).kind = .cached →
          (configured.map Prod.snd).count entity * (declarations entity).getQueries.count query ≤
            1 := by
  constructor
  · intro honce
    constructor
    · intro other hregisters
      have hcreate := (honce other.1 other.2).1
      rw [(count_of_handlers (other.1, other.2)).1, if_pos hregisters] at hcreate
      exact hcreate
    · intro query entity hdbus hcached
      have hsubscribers := (honce query entity).2.2
      rw [count_of_subscribers, if_pos ⟨hdbus, hcached⟩] at hsubscribers
      exact hsubscribers
  · intro hboth query entity
    obtain ⟨hhandlers, hsubscriptions⟩ := hboth
    rw [(count_of_handlers (query, entity)).1, (count_of_handlers (query, entity)).2,
      count_of_subscribers]
    have hcount : (if Registers declarations (query, entity) then configured.count (query, entity)
        else 0) ≤ 1 := by
      split
      · next hregisters => exact hhandlers _ hregisters
      · exact Nat.zero_le 1
    refine ⟨hcount, hcount, ?_⟩
    split
    · next hsubscribes => exact hsubscriptions query entity hsubscribes.1 hsubscribes.2
    · exact Nat.zero_le 1

/-- One more configuration registers handlers once if it is new. -/
theorem handlers_snoc_iff
    (honce : ∀ other, Registers declarations other → configured.count other ≤ 1) :
    (∀ other, Registers declarations other → (configured ++ [observed]).count other ≤ 1) ↔
      (Registers declarations observed → observed ∉ configured) := by
  simp only [List.count_append]
  constructor
  · intro hsnoc hregisters hmem
    have hle := hsnoc observed hregisters
    have hpos : 0 < configured.count observed := List.count_pos_iff.mpr hmem
    rw [List.count_singleton_self] at hle
    omega
  · intro hnew other hregisters
    by_cases hother : observed = other
    · subst hother
      rw [List.count_eq_zero_of_not_mem (hnew hregisters), List.count_singleton_self]
    · have hle := honce other hregisters
      have hzero : [observed].count other = 0 := by
        apply List.count_eq_zero_of_not_mem
        intro hmem
        exact hother (List.mem_singleton.mp hmem).symm
      omega

/-- One more configuration subscribes once if it is the entity's first. -/
theorem subscriptions_snoc_iff
    (honce : ∀ query entity, query.isDBusQuery = true → (declarations entity).kind = .cached →
      (configured.map Prod.snd).count entity * (declarations entity).getQueries.count query ≤ 1) :
    (∀ query entity, query.isDBusQuery = true → (declarations entity).kind = .cached →
        ((configured ++ [observed]).map Prod.snd).count entity *
          (declarations entity).getQueries.count query ≤ 1) ↔
      ((declarations observed.2).kind = .cached →
        ∀ query ∈ (declarations observed.2).getQueries, query.isDBusQuery = true →
          (declarations observed.2).getQueries.count query = 1 ∧
            observed.2 ∉ configured.map Prod.snd) := by
  simp only [List.map_append, List.map_cons, List.map_nil, List.count_append]
  constructor
  · intro hsnoc hcached query hquery hdbus
    have hle := hsnoc query observed.2 hdbus hcached
    have hpos : 0 < (declarations observed.2).getQueries.count query :=
      List.count_pos_iff.mpr hquery
    rw [List.count_singleton_self, Nat.add_mul, Nat.one_mul] at hle
    have hnone : (configured.map Prod.snd).count observed.2 *
        (declarations observed.2).getQueries.count query = 0 := by omega
    refine ⟨by omega, ?_⟩
    cases Nat.mul_eq_zero.mp hnone with
    | inl hentity => exact List.count_eq_zero.mp hentity
    | inr hzero => omega
  · intro hfirst query entity hdbus hcached
    by_cases hentity : observed.2 = entity
    · subst hentity
      by_cases hquery : query ∈ (declarations observed.2).getQueries
      · obtain ⟨hone, hfresh⟩ := hfirst hcached query hquery hdbus
        rw [List.count_eq_zero_of_not_mem hfresh, List.count_singleton_self, hone]
      · rw [List.count_eq_zero_of_not_mem hquery, Nat.mul_zero]
        exact Nat.zero_le 1
    · have hle := honce query entity hdbus hcached
      have hzero : [observed.2].count entity = 0 := by
        apply List.count_eq_zero_of_not_mem
        intro hmem
        exact hentity (List.mem_singleton.mp hmem).symm
      rw [hzero, Nat.add_zero]
      exact hle

/-- Everything stays observed once exactly where the configuration is a first one. -/
theorem observedOnce_snoc_iff (honce : (of declarations configured).ObservedOnce) :
    (of declarations (configured ++ [observed])).ObservedOnce ↔
      FirstTime declarations configured observed := by
  obtain ⟨hhandlers, hsubscriptions⟩ := observedOnce_of_iff.mp honce
  rw [observedOnce_of_iff, handlers_snoc_iff hhandlers, subscriptions_snoc_iff hsubscriptions]
  constructor
  · intro hboth
    exact ⟨hboth.1, hboth.2⟩
  · intro hfirst
    exact ⟨hfirst.handlers, hfirst.subscriptions⟩

end Registry

/-! ## Runs -/

namespace State

variable {declarations : Declarations} {state : State} {action : Action}

/-- The query that an action configures, with its entity. -/
def configures (state : State) : Action → Option Observed
  | .advance =>
      match state.stack with
      | [] => none
      | frame :: _ =>
          if frame.processing.isSome then none
          else
            match frame.providers, frame.queries with
            | [], query :: _ => some (query, frame.entity)
            | _, _ => none
  | _ => none

/-- What the action configures is new. -/
def Unobserved (declarations : Declarations) (state : State) (action : Action) : Prop :=
  ∀ observed, state.configures action = some observed →
    FirstTime declarations state.configured observed

/-- {lit}`populate` configures nothing itself. -/
theorem populate_eq (entity : Bytes) (expired : Bool) :
    ∃ sources stack, state.populate declarations entity expired = { state with sources, stack } := by
  unfold populate
  cases (declarations entity).kind with
  | cached =>
      dsimp only
      split
      · exact ⟨_, _, rfl⟩
      · exact ⟨_, _, rfl⟩
  | shortTimeCached =>
      dsimp only
      split
      · exact ⟨_, _, rfl⟩
      · exact ⟨_, _, rfl⟩
  | lazy => exact ⟨_, _, rfl⟩

/-- A population changes the sources alone. -/
theorem populated_eq (entity : Bytes) :
    ∃ sources, state.populated declarations entity = { state with sources } := by
  unfold populated
  cases (declarations entity).kind with
  | cached => exact ⟨_, rfl⟩
  | shortTimeCached => exact ⟨_, rfl⟩
  | lazy => exact ⟨_, rfl⟩

/-- The end of a query changes the sources and the stack alone. -/
theorem processed_eq (frame : Frame) (rest : List Frame) (query : Query) (raisedError : Bool)
    (raised : Option Exception) :
    ∃ sources stack,
      state.processed frame rest query raisedError raised = { state with sources, stack } := by
  unfold processed
  cases raised with
  | none => exact ⟨_, _, rfl⟩
  | some exception =>
      cases exception with
      | sdBusError => exact ⟨_, _, rfl⟩
      | _ => exact ⟨_, _, rfl⟩

/-- What an action does to the handlers. -/
theorem step_eq (action : Action) :
    ∃ sources stack,
      state.step declarations action =
        match state.configures action with
        | none => { state with sources, stack }
        | some observed =>
            { sources, stack
              registry := state.registry.configure declarations observed.1 observed.2
              configured := state.configured ++ [observed] } := by
  cases action with
  | populate entity expired =>
      cases hstack : state.stack with
      | nil =>
          simp only [step, configures, hstack]
          exact state.populate_eq entity expired
      | cons frame rest =>
          simp only [step, configures, hstack]
          split
          · exact populate_eq entity expired
          · exact ⟨_, _, rfl⟩
  | advance =>
      cases hstack : state.stack with
      | nil =>
          simp only [step, configures, hstack]
          exact ⟨_, _, rfl⟩
      | cons frame rest =>
          simp only [step, configures, hstack]
          split
          · exact ⟨_, _, rfl⟩
          · unfold advance
            cases frame.providers with
            | cons provider providers => exact ⟨_, _, rfl⟩
            | nil =>
                cases frame.queries with
                | cons query queries => exact ⟨_, _, rfl⟩
                | nil =>
                    dsimp only
                    split
                    · obtain ⟨sources, hpopulated⟩ :=
                        { state with stack := rest }.populated_eq frame.entity
                      exact ⟨sources, rest, hpopulated⟩
                    · exact ⟨_, _, rfl⟩
  | processed raisedError raised =>
      simp only [step, configures]
      split
      · exact ⟨_, _, rfl⟩
      · split
        · exact ⟨_, _, rfl⟩
        · split
          · exact ⟨_, _, rfl⟩
          · exact processed_eq _ _ _ raisedError raised

/-- The registry is that of the configurations so far. -/
def Tracked (declarations : Declarations) (state : State) : Prop :=
  state.registry = Registry.of declarations state.configured

theorem Tracked.step (htracked : state.Tracked declarations) (action : Action) :
    (state.step declarations action).Tracked declarations := by
  obtain ⟨sources, stack, hstep⟩ := state.step_eq action
  rw [hstep]
  unfold Tracked at htracked ⊢
  cases state.configures action with
  | none => exact htracked
  | some observed =>
      dsimp only
      rw [Registry.of_snoc, htracked]

theorem tracked_after (actions : List Action) : (after declarations actions).Tracked declarations := by
  have hstart : Tracked declarations {} := rfl
  apply (Run.foldl (step declarations) {} actions).invariant hstart
  rintro state action next htracked rfl
  exact htracked.step action

/-- An action keeps every query observed once where it configures for the first time. -/
theorem observedOnce_step_iff (htracked : state.Tracked declarations)
    (honce : state.registry.ObservedOnce) (action : Action) :
    (state.step declarations action).registry.ObservedOnce ↔
      state.Unobserved declarations action := by
  obtain ⟨sources, stack, hstep⟩ := state.step_eq action
  rw [hstep]
  unfold Unobserved
  cases hconfigures : state.configures action with
  | none => simpa using honce
  | some observed =>
      rw [htracked] at honce
      have hsnoc := @Registry.observedOnce_snoc_iff declarations state.configured observed honce
      rw [Registry.of_snoc, ← htracked] at hsnoc
      simpa using hsnoc

end State

/-- After any actions the handlers and subscriptions are those of the calls of
{lit}`configure`: none is taken back, and none is left out because it is there. -/
theorem registry_after (declarations : Declarations) (actions : List Action) :
    (State.after declarations actions).registry =
      Registry.of declarations (State.after declarations actions).configured :=
  State.tracked_after actions

/-- In all states of a sequence of actions each query is observed once for each entity
if and only if every configuration is a first one. -/
theorem observed_once_always_iff (declarations : Declarations) (actions : List Action) :
    (∀ before rest, actions = before ++ rest →
        (State.after declarations before).registry.ObservedOnce) ↔
      ∀ before action rest, actions = before ++ action :: rest →
        (State.after declarations before).Unobserved declarations action := by
  have hstart : State.Tracked declarations {} ∧ ({} : State).registry.ObservedOnce := by
    refine ⟨rfl, ?_⟩
    intro query entity
    simp
  have hstep : ∀ state : State,
      state.Tracked declarations ∧ state.registry.ObservedOnce → ∀ action ∈ actions,
        ((state.step declarations action).Tracked declarations ∧
            (state.step declarations action).registry.ObservedOnce ↔
          state.Unobserved declarations action) := by
    intro state hstate action _
    rw [← State.observedOnce_step_iff hstate.1 hstate.2 action]
    exact and_iff_right (hstate.1.step action)
  have hiff := @foldl_always_iff State Action (State.step declarations)
    (fun state => state.Tracked declarations ∧ state.registry.ObservedOnce)
    (State.Unobserved declarations) {} hstart actions hstep
  unfold State.after
  rw [← hiff]
  constructor
  · intro honce before rest heq
    exact ⟨State.tracked_after before, honce before rest heq⟩
  · intro hboth before rest heq
    exact (hboth before rest heq).2

namespace DomainAccounts

/-- The accounts of a directory keep for two seconds. -/
def query : Query :=
  ⟨bytes "DomainAccounts::Query", .dbus⟩

/-- There is one entity with one query. -/
def declarations : Declarations := fun _ =>
  { kind := .shortTimeCached, getProviders := [], getQueries := [query] }

/-- A reader finds the cache expired, and the query succeeds. -/
def population : List Action :=
  [.populate (bytes "DomainAccounts") true, .advance, .processed false none, .advance]

end DomainAccounts

/-- The second reader after an expiry has every signal handled twice. -/
theorem expired_accounts_observed_twice :
    let state :=
      State.after DomainAccounts.declarations (DomainAccounts.population ++ DomainAccounts.population)
    let observed := (DomainAccounts.query, bytes "DomainAccounts")
    state.stack.length = 0 ∧
      state.registry.instanceCreateHandlers.count observed = 2 ∧
      state.registry.instanceRemoveHandlers.count observed = 2 ∧ ¬ state.registry.ObservedOnce := by
  intro state observed
  have hcreate : state.registry.instanceCreateHandlers.count observed = 2 := by decide
  refine ⟨by decide, hcreate, by decide, ?_⟩
  intro honce
  have hle := (honce observed.1 observed.2).1
  rw [hcreate] at hle
  omega

end Observers
end Entity
end ObmcWebapp
