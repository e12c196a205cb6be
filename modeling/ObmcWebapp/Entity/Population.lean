import Mathlib.Data.List.Infix
import ObmcWebapp.Entity.Queries

/-!
# Entity - Populating a cached source

A {lit}`CachedSource` processes the queries of its providers and its own when it is
populated.  Three flags govern that: one is set while a population goes on, one after
a population without errors, and one by the event of a query that failed.  An event
reaches the source that the query belongs to, a provider's query its provider alone.

A bus error that leaves a query ends the queries of that source without a trace; any
other exception ends the population.

Main results:

- Theorem {lit}`Source.processQueries_eq`: the queries are processed block by block.
- Theorem {lit}`retryable_always_iff`: when every source can be populated again.
- Theorem {lit}`faithful_always_iff`: when the flags tell of a complete population.
-/

open Library

namespace ObmcWebapp
namespace Entity

/-! ## Sources -/

/-- An entity with its providers and its queries, in one population. -/
inductive Source
  | mk (name : Bytes) (providers : List Source) (queries : List QueryRun)

/-- What a part of a population did: the exception that leaves it, the sources whose
{lit}`invalidateCache` was called, the queries that succeeded, and whether an exception
left a query.  The last two are read by no code. -/
structure Processing where
  raised : Option Exception
  invalidated : List Bytes
  succeeded : List QueryRun
  interrupted : Bool

namespace Processing

/-- Nothing is left to be processed. -/
def done : Processing :=
  ⟨none, [], [], false⟩

/-- The second part follows unless an exception leaves the first. -/
def andThen (first second : Processing) : Processing :=
  match first.raised with
  | some _ => first
  | none =>
      { raised := second.raised
        invalidated := first.invalidated ++ second.invalidated
        succeeded := first.succeeded ++ second.succeeded
        interrupted := first.interrupted || second.interrupted }

/-- A bus error ends a block alone. -/
def catchSdBusError (processing : Processing) : Processing :=
  if processing.raised = some .sdBusError then { processing with raised := none } else processing

end Processing

/-- {lit}`configure` subscribes the source to the events of its queries; {lit}`setInstances`
is left out. -/
def visit (name : Bytes) (query : QueryRun) : Processing :=
  let processed := query.process
  { raised := processed.exception
    invalidated := if processed.raisedError then [name] else []
    succeeded := if processed.succeeded then [query] else []
    interrupted := processed.exception.isSome }

/-- The queries of a source in their order. -/
def visitAll (name : Bytes) : List QueryRun → Processing
  | [] => .done
  | query :: rest => (visit name query).andThen (visitAll name rest)

namespace Source

/-- The name of a source. -/
def name : Source → Bytes
  | .mk name _ _ => name

/-- The providers of a source. -/
def providers : Source → List Source
  | .mk _ providers _ => providers

/-- The queries of a source. -/
def queries : Source → List QueryRun
  | .mk _ _ queries => queries

mutual

/-- {lit}`BaseEntity::processQueries` -/
def processQueries : Source → Processing
  | .mk name providers queries =>
      ((processProviders providers).andThen (visitAll name queries)).catchSdBusError

/-- The providers in their order. -/
def processProviders : List Source → Processing
  | [] => .done
  | provider :: rest => (processQueries provider).andThen (processProviders rest)

end

end Source

/-! ## The flags -/

/-- The flags of a {lit}`CachedSource`.  {lit}`lastPopulation` records the last population
that was begun; no code reads it. -/
structure SourceState where
  initialized : Bool := false
  hasErrors : Bool := false
  cachingInProgress : Bool := false
  lastPopulation : Option (Source × Processing) := none

/-- The condition of {lit}`populate`. -/
def SourceState.populates (state : SourceState) : Bool :=
  !state.cachingInProgress && (!state.initialized || state.hasErrors)

/-- The sources by name; providers are shared. -/
abbrev Sources := Bytes → SourceState

namespace Sources

/-- At the start no source is populated. -/
def initial : Sources := fun _ => {}

/-- One source is changed. -/
def modify (sources : Sources) (name : Bytes) (f : SourceState → SourceState) : Sources :=
  fun other => if other = name then f (sources other) else sources other

/-- {lit}`invalidateCache` of some sources. -/
def invalidate (sources : Sources) (names : List Bytes) : Sources :=
  fun other =>
    if other ∈ names then { sources other with hasErrors := true } else sources other

/-- {lit}`CachedSource::populate`, with the exception that it propagates. -/
def populate (sources : Sources) (source : Source) : Option Exception × Sources :=
  let name := source.name
  if !(sources name).populates then (none, sources)
  else
    let sources := sources.modify name fun state =>
      { state with cachingInProgress := true, hasErrors := false }
    let processing := source.processQueries
    let sources := (sources.invalidate processing.invalidated).modify name fun state =>
      { state with lastPopulation := some (source, processing) }
    match processing.raised with
    | some exception => (some exception, sources)
    | none =>
        let sources := sources.modify name fun state => { state with cachingInProgress := false }
        if (sources name).hasErrors then (none, sources)
        else (none, sources.modify name fun state => { state with initialized := true })

end Sources

/-! ## Parts of a population -/

namespace Processing

variable {first second third : Processing}

/-- After an exception nothing follows. -/
theorem andThen_of_raised {exception : Exception} (hraised : first.raised = some exception) :
    first.andThen second = first := by
  simp only [andThen, hraised]

/-- What follows where none is raised. -/
theorem andThen_of_none (hraised : first.raised = none) :
    first.andThen second =
      { raised := second.raised
        invalidated := first.invalidated ++ second.invalidated
        succeeded := first.succeeded ++ second.succeeded
        interrupted := first.interrupted || second.interrupted } := by
  simp only [andThen, hraised]

/-- The first exception counts. -/
theorem raised_andThen : (first.andThen second).raised = first.raised.or second.raised := by
  cases hraised : first.raised with
  | none => rw [andThen_of_none hraised, Option.none_or]
  | some exception => rw [andThen_of_raised hraised, hraised, Option.some_or]

/-- Nothing comes before. -/
theorem done_andThen : done.andThen second = second := by
  rw [andThen_of_none rfl]
  simp [done]

/-- Nothing comes after. -/
theorem andThen_done : first.andThen done = first := by
  cases hraised : first.raised with
  | none =>
      rw [andThen_of_none hraised]
      simp [done, ← hraised]
  | some exception => exact andThen_of_raised hraised

/-- Three parts may be put together in either order. -/
theorem andThen_assoc : (first.andThen second).andThen third = first.andThen (second.andThen third) := by
  cases hfirst : first.raised with
  | some exception =>
      rw [andThen_of_raised hfirst, andThen_of_raised hfirst, andThen_of_raised hfirst]
  | none =>
      cases hsecond : second.raised with
      | some exception =>
          have hboth : (first.andThen second).raised = some exception := by
            rw [raised_andThen, hfirst, hsecond, Option.none_or]
          rw [andThen_of_raised hboth, andThen_of_raised hsecond]
      | none =>
          have hboth : (first.andThen second).raised = none := by
            rw [raised_andThen, hfirst, hsecond, Option.none_or]
          rw [andThen_of_none hboth, andThen_of_none hfirst, andThen_of_none hfirst,
            andThen_of_none hsecond]
          simp only [List.append_assoc, Bool.or_assoc]

/-- Other exceptions are not caught. -/
theorem catchSdBusError_of_ne (hraised : first.raised ≠ some .sdBusError) :
    first.catchSdBusError = first := by
  exact if_neg hraised

/-- A bus error does not get out. -/
theorem catchSdBusError_raised_ne : first.catchSdBusError.raised ≠ some .sdBusError := by
  unfold catchSdBusError
  split
  · simp
  · next hraised => exact hraised

/-- The handler is about the second part, where the first lets out no bus error. -/
theorem catchSdBusError_andThen (hraised : first.raised ≠ some .sdBusError) :
    (first.andThen second).catchSdBusError = first.andThen second.catchSdBusError := by
  cases hfirst : first.raised with
  | some exception =>
      rw [andThen_of_raised hfirst, andThen_of_raised hfirst]
      exact catchSdBusError_of_ne hraised
  | none =>
      rw [andThen_of_none hfirst, andThen_of_none hfirst]
      by_cases hsecond : second.raised = some .sdBusError
      · simp [catchSdBusError, hsecond]
      · simp [catchSdBusError, hsecond]

end Processing

/-! ## Blocks -/

/-- The queries of one source.  A population goes through the blocks of the providers
and ends with the block of the source. -/
structure Block where
  name : Bytes
  queries : List QueryRun

namespace Source

mutual

/-- The blocks of a source: those of its providers, then its own. -/
def blocks : Source → List Block
  | .mk name providers queries => blocksOfAll providers ++ [⟨name, queries⟩]

/-- The blocks of several sources. -/
def blocksOfAll : List Source → List Block
  | [] => []
  | provider :: rest => blocks provider ++ blocksOfAll rest

end

end Source

/-- A block catches bus errors. -/
def Block.process (block : Block) : Processing :=
  (visitAll block.name block.queries).catchSdBusError

/-- The blocks in their order. -/
def processBlocks : List Block → Processing
  | [] => .done
  | block :: rest => block.process.andThen (processBlocks rest)

/-- Blocks may be processed in two parts. -/
theorem processBlocks_append (before after : List Block) :
    processBlocks (before ++ after) = (processBlocks before).andThen (processBlocks after) := by
  induction before with
  | nil => exact Processing.done_andThen.symm
  | cons block rest ih =>
      rw [List.cons_append, processBlocks, processBlocks, ih, Processing.andThen_assoc]

/-- No bus error gets out of the blocks. -/
theorem processBlocks_raised_ne (blocks : List Block) :
    (processBlocks blocks).raised ≠ some .sdBusError := by
  induction blocks with
  | nil => simp [processBlocks, Processing.done]
  | cons block rest ih =>
      rw [processBlocks, Processing.raised_andThen]
      cases hblock : block.process.raised with
      | none =>
          rw [Option.none_or]
          exact ih
      | some exception =>
          rw [Option.some_or, ← hblock]
          exact Processing.catchSdBusError_raised_ne

namespace Source

mutual

/-- The handlers of the providers and of the source itself are those of the blocks. -/
theorem processQueries_eq : (source : Source) →
    source.processQueries = processBlocks source.blocks
  | .mk name providers queries => by
      rw [processQueries, blocks, processBlocks_append, processProviders_eq providers,
        Processing.catchSdBusError_andThen (processBlocks_raised_ne _)]
      congr 1
      exact Processing.andThen_done.symm

/-- Providers are processed as their blocks. -/
theorem processProviders_eq : (providers : List Source) →
    processProviders providers = processBlocks (blocksOfAll providers)
  | [] => rfl
  | provider :: rest => by
      rw [processProviders, blocksOfAll, processBlocks_append, processQueries_eq provider,
        processProviders_eq rest]

end

end Source

/-! ## What a population does -/

/-- The exception of the first query that lets one out; it ends the block. -/
def firstException (queries : List QueryRun) : Option Exception :=
  queries.findSome? fun query => query.process.exception

/-- Some query that is reached emits {lit}`hasFailures`. -/
def reports : List QueryRun → Bool
  | [] => false
  | query :: rest =>
      query.process.raisedError || (query.process.exception.isNone && reports rest)

/-- An exception that {lit}`processQueries` does not catch ends the block. -/
def Block.Escapes (block : Block) : Prop :=
  firstException block.queries ≠ none ∧ firstException block.queries ≠ some .sdBusError

section Visits

variable {name : Bytes} {query : QueryRun} {queries : List QueryRun}

/-- The first exception of the queries gets out. -/
theorem visitAll_raised : (visitAll name queries).raised = firstException queries := by
  induction queries with
  | nil => rfl
  | cons query rest ih =>
      rw [visitAll, Processing.raised_andThen, ih]
      show query.process.exception.or (firstException rest) = firstException (query :: rest)
      rw [firstException, firstException, List.findSome?_cons]
      cases query.process.exception with
      | none => rfl
      | some exception => rfl

/-- The queries are interrupted by an exception. -/
theorem visitAll_interrupted :
    (visitAll name queries).interrupted = (firstException queries).isSome := by
  induction queries with
  | nil => rfl
  | cons query rest ih =>
      rw [visitAll, firstException, List.findSome?_cons]
      cases hexception : query.process.exception with
      | none =>
          rw [Processing.andThen_of_none hexception]
          show (query.process.exception.isSome || _) = _
          rw [hexception, ih]
          rfl
      | some exception =>
          rw [Processing.andThen_of_raised hexception]
          show query.process.exception.isSome = _
          rw [hexception]

/-- The query that reports an error invalidates its source. -/
theorem mem_visit_invalidated {other : Bytes} :
    other ∈ (visit name query).invalidated ↔ other = name ∧ query.process.raisedError = true := by
  unfold visit
  dsimp only
  split
  · next hraised => simp [hraised]
  · next hraised => simp [hraised]

theorem mem_visitAll_invalidated {other : Bytes} :
    other ∈ (visitAll name queries).invalidated ↔ other = name ∧ reports queries = true := by
  induction queries with
  | nil => simp [visitAll, Processing.done, reports]
  | cons query rest ih =>
      rw [visitAll, reports]
      cases hexception : query.process.exception with
      | none =>
          rw [Processing.andThen_of_none hexception, List.mem_append, mem_visit_invalidated, ih]
          simp only [Option.isNone_none, Bool.true_and, Bool.or_eq_true]
          exact and_or_left.symm
      | some exception =>
          rw [Processing.andThen_of_raised hexception, mem_visit_invalidated]
          simp

/-- A query that is counted has succeeded. -/
theorem succeeded_of_mem_visitAll {other : QueryRun}
    (hmem : other ∈ (visitAll name queries).succeeded) : other.process.succeeded = true := by
  induction queries with
  | nil => exact absurd hmem List.not_mem_nil
  | cons query rest ih =>
      have hvisit : other ∈ (visit name query).succeeded → other.process.succeeded = true := by
        intro hother
        unfold visit at hother
        dsimp only at hother
        split at hother
        · next hsucceeded => exact List.mem_singleton.mp hother ▸ hsucceeded
        · exact absurd hother List.not_mem_nil
      rw [visitAll] at hmem
      cases hexception : query.process.exception with
      | none =>
          rw [Processing.andThen_of_none hexception] at hmem
          exact (List.mem_append.mp hmem).elim hvisit ih
      | some exception =>
          rw [Processing.andThen_of_raised hexception] at hmem
          exact hvisit hmem

/-- A query that has succeeded raises nothing. -/
theorem exception_of_succeeded (hsucceeded : query.process.succeeded = true) :
    query.process.exception = none := by
  unfold Processed.succeeded at hsucceeded
  exact Option.isNone_iff_eq_none.mp ((Bool.and_eq_true _ _).mp hsucceeded).2

/-- Where all succeed, all are counted. -/
theorem visitAll_succeeded (hall : ∀ query ∈ queries, query.process.succeeded = true) :
    (visitAll name queries).succeeded = queries := by
  induction queries with
  | nil => rfl
  | cons query rest ih =>
      have hquery := hall query List.mem_cons_self
      have hvisit : (visit name query).succeeded = [query] := if_pos hquery
      rw [visitAll, Processing.andThen_of_none (exception_of_succeeded hquery)]
      show (visit name query).succeeded ++ (visitAll name rest).succeeded = query :: rest
      rw [hvisit, ih fun other hother => hall other (List.mem_cons_of_mem query hother)]
      rfl

end Visits

section Blocks

variable {block : Block} {blocks : List Block}

/-- A block raises nothing unless something escapes it. -/
theorem Block.process_raised_eq_none_iff : block.process.raised = none ↔ ¬ block.Escapes := by
  unfold Block.process Processing.catchSdBusError Block.Escapes
  rw [visitAll_raised]
  split
  · next hbus => simp [hbus]
  · next hbus =>
      rw [visitAll_raised]
      simp [hbus]

/-- Only the exception changes where a bus error is caught. -/
theorem Block.process_invalidated :
    block.process.invalidated = (visitAll block.name block.queries).invalidated := by
  unfold Block.process Processing.catchSdBusError
  split
  · rfl
  · rfl

/-- A block counts the queries that succeed. -/
theorem Block.process_succeeded :
    block.process.succeeded = (visitAll block.name block.queries).succeeded := by
  unfold Block.process Processing.catchSdBusError
  split
  · rfl
  · rfl

/-- A block is interrupted by an exception. -/
theorem Block.process_interrupted :
    block.process.interrupted = (firstException block.queries).isSome := by
  rw [← @visitAll_interrupted block.name block.queries]
  unfold Block.process Processing.catchSdBusError
  split
  · rfl
  · rfl

/-- Blocks raise nothing unless something escapes one of them. -/
theorem processBlocks_raised_eq_none_iff :
    (processBlocks blocks).raised = none ↔ ∀ block ∈ blocks, ¬ block.Escapes := by
  induction blocks with
  | nil => simp [processBlocks, Processing.done]
  | cons block rest ih =>
      rw [processBlocks, Processing.raised_andThen, List.forall_mem_cons, ← ih,
        ← Block.process_raised_eq_none_iff]
      exact Option.or_eq_none_iff

/-- A population that goes to its end, in terms of its blocks. -/
theorem processBlocks_of_none (hraised : (processBlocks blocks).raised = none) :
    (processBlocks blocks).invalidated = blocks.flatMap (·.process.invalidated) ∧
      (processBlocks blocks).succeeded = blocks.flatMap (·.process.succeeded) ∧
      (processBlocks blocks).interrupted = blocks.any (·.process.interrupted) := by
  induction blocks with
  | nil => exact ⟨rfl, rfl, rfl⟩
  | cons block rest ih =>
      rw [processBlocks, Processing.raised_andThen, Option.or_eq_none_iff] at hraised
      obtain ⟨hblock, hrest⟩ := hraised
      obtain ⟨hinvalidated, hsucceeded, hinterrupted⟩ := ih hrest
      rw [processBlocks, Processing.andThen_of_none hblock]
      refine ⟨?_, ?_, ?_⟩
      · rw [List.flatMap_cons, ← hinvalidated]
      · rw [List.flatMap_cons, ← hsucceeded]
      · rw [List.any_cons, ← hinterrupted]

/-- Blocks are interrupted by an exception in one of them. -/
theorem processBlocks_interrupted_iff (hraised : (processBlocks blocks).raised = none) :
    (processBlocks blocks).interrupted = true ↔
      ∃ block ∈ blocks, firstException block.queries ≠ none := by
  rw [(processBlocks_of_none hraised).2.2, List.any_eq_true]
  simp only [Block.process_interrupted, Option.isSome_iff_ne_none]

/-- The sources that the blocks invalidate. -/
theorem mem_processBlocks_invalidated (hraised : (processBlocks blocks).raised = none)
    {name : Bytes} :
    name ∈ (processBlocks blocks).invalidated ↔
      ∃ block ∈ blocks, name = block.name ∧ reports block.queries = true := by
  rw [(processBlocks_of_none hraised).1, List.mem_flatMap]
  simp only [Block.process_invalidated, mem_visitAll_invalidated]

/-- The blocks count all queries where all succeed. -/
theorem processBlocks_succeeded_iff (hraised : (processBlocks blocks).raised = none) :
    (processBlocks blocks).succeeded = blocks.flatMap (·.queries) ↔
      ∀ block ∈ blocks, ∀ query ∈ block.queries, query.process.succeeded = true := by
  rw [(processBlocks_of_none hraised).2.1]
  constructor
  · intro heq block hblock query hquery
    have hmem : query ∈ blocks.flatMap (·.queries) := List.mem_flatMap.mpr ⟨block, hblock, hquery⟩
    rw [← heq] at hmem
    obtain ⟨visited, -, hvisited⟩ := List.mem_flatMap.mp hmem
    rw [Block.process_succeeded] at hvisited
    exact succeeded_of_mem_visitAll hvisited
  · intro hall
    apply List.flatMap_congr
    intro block hblock
    rw [Block.process_succeeded]
    exact visitAll_succeeded (hall block hblock)

end Blocks

/-! ## One call -/

/-- An entity that is not among its providers, nor among theirs. -/
structure CachedSource where
  source : Source
  notOwnProvider : ∀ block ∈ Source.blocksOfAll source.providers, block.name ≠ source.name

namespace CachedSource

/-- The name of the source that is called. -/
abbrev name (call : CachedSource) : Bytes :=
  call.source.name

/-- Its queries. -/
abbrev queries (call : CachedSource) : List QueryRun :=
  call.source.queries

/-- Its blocks. -/
abbrev blocks (call : CachedSource) : List Block :=
  call.source.blocks

/-- Its own block is the last. -/
theorem blocks_eq (call : CachedSource) :
    call.blocks = Source.blocksOfAll call.source.providers ++ [⟨call.name, call.queries⟩] := by
  cases hsource : call.source with
  | mk name providers queries =>
      show call.source.blocks = _ ++ [⟨call.source.name, call.source.queries⟩]
      rw [hsource, Source.blocks, Source.name, Source.queries, Source.providers]

/-- An event of the source comes from one of its own queries. -/
theorem name_mem_invalidated (call : CachedSource)
    (hraised : (processBlocks call.blocks).raised = none) :
    call.name ∈ (processBlocks call.blocks).invalidated ↔ reports call.queries = true := by
  rw [mem_processBlocks_invalidated hraised]
  constructor
  · rintro ⟨block, hblock, hname, hreports⟩
    rw [blocks_eq, List.mem_append] at hblock
    cases hblock with
    | inl hprovider => exact absurd hname.symm (call.notOwnProvider block hprovider)
    | inr hown =>
        rw [List.mem_singleton.mp hown] at hreports
        exact hreports
  · intro hreports
    refine ⟨⟨call.name, call.queries⟩, ?_, rfl, hreports⟩
    rw [blocks_eq]
    exact List.mem_append_right _ (List.mem_singleton_self _)

end CachedSource

namespace Sources

variable {sources : Sources} {call : CachedSource}

/-- A source whose guards are set is not populated. -/
theorem populate_of_not (hnot : (sources call.name).populates = false) :
    sources.populate call.source = (none, sources) := by
  have hguard : (sources call.source.name).populates = false := hnot
  simp [populate, hguard]

/-- The source that is changed. -/
@[simp]
theorem modify_self (name : Bytes) (f : SourceState → SourceState) :
    sources.modify name f name = f (sources name) := by
  exact if_pos rfl

/-- Other sources are as they were. -/
@[simp]
theorem modify_of_ne {name other : Bytes} (hother : other ≠ name) (f : SourceState → SourceState) :
    sources.modify name f other = sources other := by
  exact if_neg hother

/-- An invalidated source has errors. -/
theorem invalidate_apply (names : List Bytes) (other : Bytes) :
    sources.invalidate names other =
      { sources other with
        hasErrors := (sources other).hasErrors || decide (other ∈ names) } := by
  unfold invalidate
  split
  · next hmem => simp [hmem]
  · next hmem => simp [hmem]

/-- The flags of a source after a call that populates it. -/
theorem populate_self (hpopulates : (sources call.name).populates = true) :
    (sources.populate call.source).2 call.name =
      let processing := processBlocks call.blocks
      { initialized := (sources call.name).initialized ||
          (processing.raised.isNone && !decide (call.name ∈ processing.invalidated))
        hasErrors := decide (call.name ∈ processing.invalidated)
        cachingInProgress := processing.raised.isSome
        lastPopulation := some (call.source, processing) } := by
  have hguard : (sources call.source.name).populates = true := hpopulates
  have hprocess : call.source.processQueries = processBlocks call.blocks :=
    call.source.processQueries_eq
  simp only [populate, hguard, hprocess, Bool.not_true, Bool.false_eq_true, if_false]
  cases hraised : (processBlocks call.blocks).raised with
  | some exception => simp [CachedSource.name, invalidate_apply]
  | none =>
      by_cases hmem : call.source.name ∈ (processBlocks call.blocks).invalidated
      · simp [CachedSource.name, invalidate_apply, hmem]
      · simp [CachedSource.name, invalidate_apply, hmem]

/-- Another source may only be invalidated. -/
theorem populate_other {other : Bytes} (hother : other ≠ call.name) :
    (sources.populate call.source).2 other = sources other ∨
      (sources.populate call.source).2 other = { sources other with hasErrors := true } := by
  cases hguard : (sources call.name).populates with
  | false =>
      rw [populate_of_not hguard]
      exact Or.inl rfl
  | true =>
      have hprocess : call.source.processQueries = processBlocks call.blocks :=
        call.source.processQueries_eq
      have hinvalidated : ∀ names,
          sources.invalidate names other = sources other ∨
            sources.invalidate names other = { sources other with hasErrors := true } := by
        intro names
        unfold invalidate
        split
        · exact Or.inr rfl
        · exact Or.inl rfl
      have hsame : (sources.populate call.source).2 other =
          sources.invalidate (processBlocks call.blocks).invalidated other := by
        simp only [populate, hguard, hprocess, Bool.not_true, Bool.false_eq_true, if_false]
        cases hraised : (processBlocks call.blocks).raised with
        | some exception => simp [hother, invalidate_apply]
        | none =>
            by_cases hmem : call.source.name ∈ (processBlocks call.blocks).invalidated
            · simp [hother, invalidate_apply, hmem]
            · simp [hother, invalidate_apply, hmem]
      rw [hsame]
      exact hinvalidated _

end Sources

/-! ## Runs of calls -/

/-- The sources after some calls, whatever they propagated. -/
def Sources.after (calls : List CachedSource) : Sources :=
  calls.foldl (fun sources call => (sources.populate call.source).2) .initial

/-- No exception left a query in the last population. -/
def SourceState.Completed (state : SourceState) : Prop :=
  ∃ source processing, state.lastPopulation = some (source, processing) ∧
    processing.interrupted = false

/-- No population is under way, and the next call processes the queries unless the last
population was completed. -/
def SourceState.Retryable (state : SourceState) : Prop :=
  state.cachingInProgress = false ∧ (state.Completed ∨ state.populates = true)

/-- Where the source is initialised without errors, every query of the last population,
the providers' among them, ran to its end and reported no failure. -/
def SourceState.Faithful (state : SourceState) : Prop :=
  state.initialized = true → state.hasErrors = false →
    ∃ source processing, state.lastPopulation = some (source, processing) ∧
      processing.succeeded = source.blocks.flatMap (·.queries)

namespace CachedSource

/-- Bus errors alone leave the sources' queries, and where one does, some query of the
source itself that is reached reports a failure. -/
def Recoverable (call : CachedSource) : Prop :=
  (∀ block ∈ call.blocks, ¬ block.Escapes) ∧
    ((∃ block ∈ call.blocks, firstException block.queries ≠ none) → reports call.queries = true)

/-- Every query succeeds, or some query of the source itself that is reached reports a
failure. -/
def Honest (call : CachedSource) : Prop :=
  (∀ block ∈ call.blocks, ∀ query ∈ block.queries, query.process.succeeded = true) ∨
    reports call.queries = true

/-- What leaves a query is a bus error. -/
def OnlyBusErrors (call : CachedSource) : Prop :=
  ∀ block ∈ call.blocks, ∀ query ∈ block.queries, ∀ exception,
    query.process.exception = some exception → exception = .sdBusError

/-- Bus errors do not escape. -/
theorem OnlyBusErrors.not_escapes {call : CachedSource} (hbus : call.OnlyBusErrors) :
    ∀ block ∈ call.blocks, ¬ block.Escapes := by
  rintro block hblock ⟨hsome, hne⟩
  obtain ⟨exception, hexception⟩ := Option.ne_none_iff_exists'.mp hsome
  obtain ⟨query, hquery, hleft⟩ := List.exists_of_findSome?_eq_some hexception
  rw [hexception, hbus block hblock query hquery exception hleft] at hne
  exact hne rfl

end CachedSource

namespace Sources

variable {sources : Sources}

variable {call : CachedSource}

/-- The population that was taken is recorded. -/
private theorem completed_populate (hpopulates : (sources call.name).populates = true) :
    ((sources.populate call.source).2 call.name).Completed ↔
      (processBlocks call.blocks).interrupted = false := by
  rw [populate_self hpopulates]
  constructor
  · rintro ⟨source, processing, hlast, hinterrupted⟩
    have heq := Option.some.inj hlast
    rw [(Prod.mk.inj heq).2]
    exact hinterrupted
  · intro hinterrupted
    exact ⟨call.source, processBlocks call.blocks, rfl, hinterrupted⟩

/-- The source is populated again where the population went to its end with an event. -/
private theorem populates_populate (hpopulates : (sources call.name).populates = true) :
    ((sources.populate call.source).2 call.name).populates = true ↔
      (processBlocks call.blocks).raised = none ∧
        call.name ∈ (processBlocks call.blocks).invalidated := by
  rw [populate_self hpopulates]
  unfold SourceState.populates
  dsimp only
  cases (processBlocks call.blocks).raised with
  | some exception => simp
  | none =>
      by_cases hmem : call.name ∈ (processBlocks call.blocks).invalidated
      · simp [hmem]
      · simp [hmem]

/-- The flag is left where something is raised. -/
private theorem cachingInProgress_populate (hpopulates : (sources call.name).populates = true) :
    ((sources.populate call.source).2 call.name).cachingInProgress = false ↔
      (processBlocks call.blocks).raised = none := by
  rw [populate_self hpopulates]
  dsimp only
  cases (processBlocks call.blocks).raised with
  | some exception => simp
  | none => simp

/-- When the called source can be populated again. -/
theorem retryable_populate_self (hpopulates : (sources call.name).populates = true) :
    ((sources.populate call.source).2 call.name).Retryable ↔ call.Recoverable := by
  unfold SourceState.Retryable CachedSource.Recoverable
  rw [cachingInProgress_populate hpopulates, completed_populate hpopulates,
    populates_populate hpopulates, ← processBlocks_raised_eq_none_iff]
  apply and_congr_right
  intro hraised
  rw [← processBlocks_interrupted_iff hraised, call.name_mem_invalidated hraised]
  cases (processBlocks call.blocks).interrupted with
  | false => simp
  | true => simp [hraised]

/-- Other sources can be populated as before. -/
theorem retryable_populate_other {other : Bytes} (hother : other ≠ call.name)
    (hretryable : (sources other).Retryable) :
    ((sources.populate call.source).2 other).Retryable := by
  cases @populate_other sources call other hother with
  | inl hsame => exact hsame ▸ hretryable
  | inr hinvalidated =>
      rw [hinvalidated]
      obtain ⟨hcaching, -⟩ := hretryable
      refine ⟨hcaching, Or.inr ?_⟩
      simp [SourceState.populates, hcaching]

/-- When all sources can be populated again. -/
theorem retryable_populate_iff (hretryable : ∀ name, (sources name).Retryable)
    (call : CachedSource) :
    (∀ name, ((sources.populate call.source).2 name).Retryable) ↔
      ((sources call.name).populates = true → call.Recoverable) := by
  constructor
  · intro hall hpopulates
    exact (retryable_populate_self hpopulates).mp (hall call.name)
  · intro hrecoverable name
    cases hpopulates : (sources call.name).populates with
    | false =>
        rw [populate_of_not hpopulates]
        exact hretryable name
    | true =>
        by_cases hname : name = call.name
        · rw [hname]
          exact (retryable_populate_self hpopulates).mpr (hrecoverable hpopulates)
        · exact retryable_populate_other hname (hretryable name)

/-- When the called source is faithful. -/
theorem faithful_populate_self (hbus : call.OnlyBusErrors)
    (hpopulates : (sources call.name).populates = true) :
    ((sources.populate call.source).2 call.name).Faithful ↔ call.Honest := by
  have hraised : (processBlocks call.blocks).raised = none :=
    processBlocks_raised_eq_none_iff.mpr hbus.not_escapes
  have hsucceeded := processBlocks_succeeded_iff hraised
  have hreports := call.name_mem_invalidated hraised
  unfold SourceState.Faithful CachedSource.Honest
  rw [populate_self hpopulates, ← hsucceeded, ← hreports]
  by_cases hmem : call.name ∈ (processBlocks call.blocks).invalidated
  · simp [hmem]
  · simp [hmem, hraised, CachedSource.blocks]

/-- Other sources are faithful as before. -/
theorem faithful_populate_other {other : Bytes} (hother : other ≠ call.name)
    (hfaithful : (sources other).Faithful) :
    ((sources.populate call.source).2 other).Faithful := by
  cases @populate_other sources call other hother with
  | inl hsame => exact hsame ▸ hfaithful
  | inr hinvalidated =>
      rw [hinvalidated]
      intro _ herrors
      exact absurd herrors (by simp)

/-- When all sources are faithful. -/
theorem faithful_populate_iff (hfaithful : ∀ name, (sources name).Faithful)
    (hbus : call.OnlyBusErrors) :
    (∀ name, ((sources.populate call.source).2 name).Faithful) ↔
      ((sources call.name).populates = true → call.Honest) := by
  constructor
  · intro hall hpopulates
    exact (faithful_populate_self hbus hpopulates).mp (hall call.name)
  · intro hhonest name
    cases hpopulates : (sources call.name).populates with
    | false =>
        rw [populate_of_not hpopulates]
        exact hfaithful name
    | true =>
        by_cases hname : name = call.name
        · rw [hname]
          exact (faithful_populate_self hbus hpopulates).mpr (hhonest hpopulates)
        · exact faithful_populate_other hname (hfaithful name)

end Sources

/-- The operation of a run. -/
abbrev Sources.call (sources : Sources) (call : CachedSource) : Sources :=
  (sources.populate call.source).2

/-- After every call of a sequence all sources can be populated again if and only if every
call that populates lets it be so. -/
theorem retryable_always_iff (calls : List CachedSource) :
    (∀ before rest, calls = before ++ rest → ∀ name, (Sources.after before name).Retryable) ↔
      ∀ before call rest, calls = before ++ call :: rest →
        (Sources.after before call.name).populates = true → call.Recoverable := by
  have hstart : ∀ name, (Sources.initial name).Retryable :=
    fun _ => ⟨rfl, Or.inr rfl⟩
  exact @foldl_always_iff Sources CachedSource Sources.call
    (fun sources => ∀ name, (sources name).Retryable)
    (fun sources call => (sources call.name).populates = true → call.Recoverable)
    .initial hstart calls
    (fun _ hretryable call _ => Sources.retryable_populate_iff hretryable call)

/-- Where only bus errors leave the queries, the flags of all sources tell of complete
populations after every call of a sequence if and only if every call that populates is
honest. -/
theorem faithful_always_iff (calls : List CachedSource)
    (hbus : ∀ call ∈ calls, call.OnlyBusErrors) :
    (∀ before rest, calls = before ++ rest → ∀ name, (Sources.after before name).Faithful) ↔
      ∀ before call rest, calls = before ++ call :: rest →
        (Sources.after before call.name).populates = true → call.Honest := by
  have hstart : ∀ name, (Sources.initial name).Faithful :=
    fun _ hinitialized => absurd hinitialized (by simp [Sources.initial])
  exact @foldl_always_iff Sources CachedSource Sources.call
    (fun sources => ∀ name, (sources name).Faithful)
    (fun sources call => (sources call.name).populates = true → call.Honest)
    .initial hstart calls
    (fun _ hfaithful call hmem => Sources.faithful_populate_iff hfaithful (hbus call hmem))

/-! ## The processors -/

/-- A setter without formatters. -/
def fieldsOnly (propertyName memberName : String) : PropertySetter :=
  ⟨bytes propertyName, bytes memberName, []⟩

/-- The text of a field that {lit}`ENTITY_DECL_FIELD` declares as a string; a value of
another type raises an exception. -/
def InstanceData.getStringField (self : InstanceData) (memberName : Bytes) :
    Except Exception Bytes :=
  match self.memberInstances memberName with
  | none | some .null => .ok fieldValueNotAvailable
  | some (.string value) => .ok value
  | some _ => .error .badVariantAccess

namespace CpuSMBiosProvider

/-- {lit}`FormatType`, with the enumerators {lit}`cpu` and {lit}`unknown`. -/
def formatType : Formatter :=
  formatValueFromDict DbusVariant.getString .int32 [(bytes "Central Processor", 0)] 1

/-- {lit}`setISetAndArch`; the enumerators come in the order {lit}`x86`, {lit}`power`,
{lit}`unknown`. -/
def setISetAndArch (self : InstanceData) : InstanceData :=
  let manufacturer := Field.getStringValue (self.memberInstances (bytes "Manufacturer"))
  let detected : Int32 :=
    if bytes "IBM" <:+: manufacturer then 1
    else if bytes "Intel" <:+: manufacturer then 0
    else 2
  (self.supplementOrUpdate (bytes "InstructionSet") (.int32 detected)).supplementOrUpdate
    (bytes "Arch") (.int32 detected)

/-- The query for processors. -/
def query (doubleText : UInt64 → Bytes) : EndpointQuery where
  getSearchPropertiesMap :=
    [(bytes "xyz.openbmc_project.Inventory.Item.Cpu",
      [fieldsOnly "ProcessorCharacteristics" "Characteristics",
        fieldsOnly "ProcessorCoreCount" "CoreCount",
        fieldsOnly "ProcessorFamily" "Family",
        ⟨bytes "ProcessorId", bytes "IdentityReg", [numberToStringFormatter doubleText]⟩,
        fieldsOnly "ProcessorManufacturer" "Manufacturer",
        fieldsOnly "ProcessorMaxSpeed" "MaxSpeed",
        fieldsOnly "ProcessorSocket" "Socket",
        fieldsOnly "ProcessorThreadCount" "ThreadCount",
        fieldsOnly "ProcessorVersion" "Model",
        ⟨bytes "ProcessorType", bytes "ProcessorType", [formatType]⟩])]
  supplementByStaticFields := fun self =>
    let name := getNameFromLastSegmentObjectPath self.objectPath true
    (none, setISetAndArch (self.supplementOrUpdate (bytes "Name") (.string name)))

/-- The service that describes the processors. -/
def cpuService : Bytes := bytes "xyz.openbmc_project.Smbios.MDR_V2"

/-- The reply that names one processor. -/
def subTree : SubTree :=
  [(bytes "/xyz/openbmc_project/inventory/system/chassis/motherboard/cpu0",
    [(cpuService, [bytes "xyz.openbmc_project.Inventory.Item.Cpu"])])]

end CpuSMBiosProvider

namespace Processor

/-- {lit}`FormatState`, with the enumerators {lit}`enabled` and {lit}`absent`. -/
def formatState : Formatter :=
  formatValueFromDict
    (fun value => match value.val with
      | .bool present => some present
      | _ => none)
    .int32 [(false, 1), (true, 0)] 1

/-- The query for the state of a processor. -/
def query : EndpointQuery where
  getSearchPropertiesMap :=
    [(bytes "xyz.openbmc_project.Inventory.Item",
      [fieldsOnly "PrettyName" "PrettyName", ⟨bytes "Present", bytes "State", [formatState]⟩])]
  supplementByStaticFields := fun self =>
    match self.getStringField (bytes "PrettyName") with
    | .error exception => (some exception, self)
    | .ok prettyName => (none, self.supplementOrUpdate (bytes "Id") (.string prettyName))

/-- The service of the processors' sensors. -/
def cpuSensorsService : Bytes := bytes "xyz.openbmc_project.CPUSensor"

/-- A population of the processors, given what the bus answers to the search of the
provider and to the calls of its instances.  The other search finds nothing. -/
def populated (getSubTree : Option SubTree) (bus : ObjectBus) : CachedSource where
  source :=
    .mk (bytes "Processor")
      [.mk (bytes "CpuSMBiosProvider") []
        [.findObject (CpuSMBiosProvider.query fun _ => [])
          (some CpuSMBiosProvider.cpuService) getSubTree bus]]
      [.findObject query (some cpuSensorsService) (some []) bus]
  notOwnProvider := by
    intro block hblock
    rw [List.mem_singleton.mp hblock]
    exact (by decide : bytes "CpuSMBiosProvider" ≠ bytes "Processor")

/-- The identity of the processor is a text. -/
def textualId : ObjectBus where
  getAll := fun _ _ _ => some [(bytes "ProcessorId", .string (bytes "0x806F8"))]
  createWatcher := fun _ _ => true

end Processor

/-- The formatter of a number raises a logic error at the text, which leaves the provider
and the processors: their population is under way for good. -/
theorem textualId_not_retryable :
    let call := Processor.populated (some CpuSMBiosProvider.subTree) Processor.textualId
    let sources := Sources.after [call]
    (Sources.initial.populate call.source).1 = some .logicError ∧
      (sources (bytes "Processor")).cachingInProgress = true ∧
      (sources (bytes "Processor")).populates = false ∧
      ¬ (sources (bytes "Processor")).Retryable := by
  intro call sources
  have hcaching : (sources (bytes "Processor")).cachingInProgress = true := by decide
  refine ⟨by decide, hcaching, by decide, ?_⟩
  intro hretryable
  exact absurd (hcaching.symm.trans hretryable.1) (by simp)

/-- No call of the bus succeeds for an object. -/
def ObjectBus.failing : ObjectBus where
  getAll := fun _ _ _ => none
  createWatcher := fun _ _ => false

/-- Nothing leaves the queries where the search of the provider fails. -/
theorem onlyBusErrors_populated (bus : ObjectBus) :
    (Processor.populated none bus).OnlyBusErrors := by
  intro block hblock query hquery exception hexception
  have hnone : query.process.exception = none := by
    cases List.mem_cons.mp hblock with
    | inl hprovider =>
        rw [hprovider] at hquery
        rw [List.mem_singleton.mp hquery]
        rfl
    | inr hown =>
        rw [List.mem_singleton.mp hown] at hquery
        rw [List.mem_singleton.mp hquery]
        rfl
  exact absurd (hnone.symm.trans hexception) (by simp)

/-- The failed population is not faithful, and reports its error. -/
theorem faithful_always_processors :
    (∀ before rest, [Processor.populated none .failing] = before ++ rest →
        ∀ name, (Sources.after before name).Faithful) ↔
      ∀ before call rest, [Processor.populated none .failing] = before ++ call :: rest →
        (Sources.after before call.name).populates = true → call.Honest := by
  apply faithful_always_iff
  intro call hcall
  rw [List.mem_singleton.mp hcall]
  exact onlyBusErrors_populated .failing

/-- The search of the provider fails, and the processors are initialised without errors. -/
theorem failed_provider_not_faithful :
    let call := Processor.populated none .failing
    let state := Sources.after [call] (bytes "Processor")
    call.OnlyBusErrors ∧ state.initialized = true ∧ state.hasErrors = false ∧
      (Sources.after [call] (bytes "CpuSMBiosProvider")).hasErrors = true ∧ ¬ state.Faithful := by
  intro call state
  have hinitialized : state.initialized = true := by decide
  have herrors : state.hasErrors = false := by decide
  refine ⟨onlyBusErrors_populated .failing, hinitialized, herrors, by decide, ?_⟩
  intro hfaithful
  have hhonest : call.Honest :=
    (Sources.faithful_populate_self (onlyBusErrors_populated .failing) rfl).mp hfaithful
  cases hhonest with
  | inl hall =>
      have hprovider := hall ⟨bytes "CpuSMBiosProvider",
        [.findObject (CpuSMBiosProvider.query fun _ => []) (some CpuSMBiosProvider.cpuService)
          none .failing]⟩ List.mem_cons_self _ List.mem_cons_self
      exact absurd hprovider (by decide)
  | inr hreports => exact absurd hreports (by decide)

end Entity
end ObmcWebapp
