import ObmcWebapp.Graphql.Totality

/-!
# GraphQL - From the body to the response

The body of a request is parsed as JSON, its query as a document of operations and
fragments, and each operation of the document is visited.  The two parsers stand
outside: the one of JSON gives nothing for bad input, and that of GraphQL gives a
document or none.

Reading a key of the JSON value is outside every handler of exceptions, and it raises
one for an array, a text, a number or a truth value.  The handlers of the visitor know
some of the exceptions that the population of an entity raises; the others leave {lit}`run`.

Main results:

- Theorem {lit}`acceptSelections_eq`: fields in an inline fragment are visited as if
  they stood in its place.
- Theorem {lit}`GraphqlRouter.run_responds_iff`: the documents that have a response.
- Theorem {lit}`GraphqlRouter.handle_responds_iff`: the bodies that have a response.
-/

open Library

namespace ObmcWebapp
namespace Graphql

open Entity

variable {ε : Type}

/-! ## Documents -/

/-- What a selection set holds. -/
inductive Selection
  | leaf (name : Name) (fieldAlias : Option Name)
  | node (name : Name) (fieldAlias : Option Name) (selectionSet : List Selection)
  | fragmentSpread
  | inlineFragment (selectionSet : List Selection)

/-- {lit}`getOperation` -/
inductive OperationType
  | query
  | mutation
  | subscription
deriving DecidableEq

/-- The word for an operation. -/
def OperationType.text : OperationType → Bytes
  | .query => bytes "query"
  | .mutation => bytes "mutation"
  | .subscription => bytes "subscription"

/-- An operation of a document. -/
structure OperationDefinition where
  operation : OperationType
  hasVariables : Bool
  selectionSet : List Selection

/-- A definition; the visitor of a document passes over those of fragments. -/
inductive Definition
  | operation (definition : OperationDefinition)
  | fragment (selectionSet : List Selection)

/-! ## Visiting -/

mutual

/-- The fields of a selection set, those of inline fragments in their place. -/
def Selection.fields : Selection → List AstField
  | .leaf name fieldAlias => [.leaf name fieldAlias]
  | .node name fieldAlias selectionSet => [.node name fieldAlias (Selection.allFields selectionSet)]
  | .fragmentSpread => []
  | .inlineFragment selectionSet => Selection.allFields selectionSet

/-- The fields of several selections. -/
def Selection.allFields : List Selection → List AstField
  | [] => []
  | selection :: rest => selection.fields ++ Selection.allFields rest

end

mutual

/-- The visitor of a query has callbacks for fields only. -/
def acceptSelection (manager : EntityManager ε) (course : Nat → Moment ε) :
    Selection → Visitor ε → Except (Exception × Visitor ε) (Visitor ε)
  | .leaf name fieldAlias, visitor => acceptField manager course (.leaf name fieldAlias) visitor
  | .node name fieldAlias selectionSet, visitor => do
      let field := AstField.node name fieldAlias (Selection.allFields selectionSet)
      let visitor ← callback course (Visitor.visitField manager field) visitor
      let visitor ← acceptSelections manager course selectionSet visitor
      callback course (Visitor.endVisitField manager field) visitor
  | .fragmentSpread, visitor => .ok visitor
  | .inlineFragment selectionSet, visitor => acceptSelections manager course selectionSet visitor

/-- Selections are visited in their order. -/
def acceptSelections (manager : EntityManager ε) (course : Nat → Moment ε) :
    List Selection → Visitor ε → Except (Exception × Visitor ε) (Visitor ε)
  | [], visitor => .ok visitor
  | selection :: rest, visitor => do
      let visitor ← acceptSelection manager course selection visitor
      acceptSelections manager course rest visitor

end

/-- The course from a moment on. -/
def fromMoment (course : Nat → Moment ε) (start : Nat) : Nat → Moment ε :=
  fun moment => course (start + moment)

/-- Store a value over the last member, {lit}`back()`. -/
def setBack (json value : Json) : Json :=
  match json with
  | .object members =>
      .object (members.dropLast ++ (members.getLast?.map fun last => (last.1, value)).toList)
  | other => other

/-- The traversal of an operation; variables are not supported. -/
def acceptOperation (manager : EntityManager ε) (course : Nat → Moment ε)
    (definition : OperationDefinition) : Except (Exception × Visitor ε) (Visitor ε) :=
  if definition.hasVariables then .error (.gqlException, .initial)
  else acceptSelections manager course definition.selectionSet .initial

/-- {lit}`visitOperationDefinition`: the visitor of the operation stores its document
in the result when it is destroyed.  Only that of a query is registered. -/
def visitOperationDefinition (manager : EntityManager ε) (course : Nat → Moment ε)
    (definition : OperationDefinition) (result : Json) (clock : Nat) :
    Except Outcome (Json × Nat) := do
  let result ← (pushPair result definition.operation.text (.object [])).mapError Outcome.escaped
  if definition.operation = .query then
    let course := fromMoment course clock
    match acceptOperation manager course definition with
    | .ok visitor =>
        match visitor.document manager (course visitor.clock).cache with
        | .ok document => return (setBack result document, clock + visitor.clock + 1)
        | .error _ => throw .terminated
    | .error (exception, visitor) =>
        match visitor.document manager (course visitor.clock).cache with
        | .ok _ => throw (if exception = .gqlException then .error else .escaped exception)
        | .error _ => throw .terminated
  else
    throw .error

/-- The definitions of a document one after the other. -/
def acceptDocument (manager : EntityManager ε) (course : Nat → Moment ε) :
    List Definition → Json → Nat → Except Outcome Json
  | [], result, _ => .ok result
  | .fragment _ :: rest, result, clock => acceptDocument manager course rest result clock
  | .operation definition :: rest, result, clock => do
      let (result, clock) ← visitOperationDefinition manager course definition result clock
      acceptDocument manager course rest result clock

/-! ## The handler -/

/-- The parsers, with what they give for a text. -/
structure Parsers where
  /-- {lit}`json::parse` without exceptions; none is a discarded value. -/
  parseJson : Bytes → Option Json
  /-- {lit}`parseString` -/
  parseString : Bytes → Option (List Definition)

/-- A text as its {lit}`c_str()` is read. -/
def cString (text : Bytes) : Bytes :=
  text.takeWhile (· ≠ 0)

/-- {lit}`operator[]` with a key: null becomes an object, and a missing member is null. -/
def subscript (key : Bytes) : Json → Except Exception Json
  | .null => .ok .null
  | .object members => .ok ((members.lookup key).getD .null)
  | _ => .error .jsonTypeError

namespace GraphqlRouter

/-- What is parsed is kept as {lit}`gqlNode`. -/
def preHandlers (parsers : Parsers) (postBuffer : Bytes) (gqlNode : Option (List Definition)) :
    Except Exception (Option (List Definition)) :=
  if postBuffer = [] then .ok gqlNode
  else
    match parsers.parseJson (cString postBuffer) with
    | none => .ok gqlNode
    | some jsonData => do
        match ← subscript (bytes "query") jsonData with
        | .string astData => return parsers.parseString (cString astData)
        | _ => return gqlNode

/-- {lit}`run` with the moments of its callbacks. -/
def run (manager : EntityManager ε) (course : Nat → Moment ε)
    (gqlNode : Option (List Definition)) : Outcome :=
  match gqlNode with
  | none => .error
  | some document =>
      match acceptDocument manager course document (.object []) 0 with
      | .ok result =>
          if (Json.object [(bytes "data", result)]).utf8Valid then .data result
          else .escaped .jsonTypeError
      | .error outcome => outcome

/-- A request before and after it is authenticated. -/
def handle (manager : EntityManager ε) (course : Nat → Moment ε) (parsers : Parsers)
    (postBuffer : Bytes) (gqlNode : Option (List Definition)) : Except Exception Outcome := do
  let gqlNode ← preHandlers parsers postBuffer gqlNode
  return run manager course gqlNode

end GraphqlRouter

/-- A response that holds data or an error. -/
def Outcome.Responds : Outcome → Prop
  | .data _ | .error => True
  | .escaped _ | .terminated => False

/-! ## Inline fragments -/

/-- Fields may be visited in two parts. -/
theorem acceptAll_append (manager : EntityManager ε) (course : Nat → Moment ε)
    (first second : List AstField) (visitor : Visitor ε) :
    acceptAll manager course (first ++ second) visitor =
      (acceptAll manager course first visitor).bind (acceptAll manager course second) := by
  induction first generalizing visitor with
  | nil => rfl
  | cons field rest ih =>
      rw [List.cons_append, acceptAll, acceptAll]
      cases hfield : acceptField manager course field visitor with
      | error stopped => rfl
      | ok next => exact ih next

/-- Nothing is left to be visited. -/
theorem bind_acceptAll_nil {manager : EntityManager ε} {course : Nat → Moment ε}
    (result : Except (Exception × Visitor ε) (Visitor ε)) :
    (result >>= acceptAll manager course []) = result := by
  cases result with
  | error stopped => rfl
  | ok visitor => rfl

mutual

/-- A selection is visited as its fields. -/
theorem acceptSelection_eq (manager : EntityManager ε) (course : Nat → Moment ε) :
    (selection : Selection) → (visitor : Visitor ε) →
    acceptSelection manager course selection visitor =
      acceptAll manager course selection.fields visitor
  | .leaf name fieldAlias, visitor => by
      rw [acceptSelection, Selection.fields, acceptAll]
      exact (bind_acceptAll_nil _).symm
  | .node name fieldAlias selectionSet, visitor => by
      have hbelow := acceptSelections_eq manager course selectionSet
      rw [acceptSelection, Selection.fields, acceptAll]
      refine Eq.trans ?_ (bind_acceptAll_nil _).symm
      rw [acceptField]
      simp only [hbelow]
  | .fragmentSpread, visitor => by
      rw [acceptSelection, Selection.fields, acceptAll]
  | .inlineFragment selectionSet, visitor => by
      rw [acceptSelection, Selection.fields, acceptSelections_eq manager course selectionSet visitor]

/-- A selection set is visited like the list of its fields. -/
theorem acceptSelections_eq (manager : EntityManager ε) (course : Nat → Moment ε) :
    (selections : List Selection) → (visitor : Visitor ε) →
    acceptSelections manager course selections visitor =
      acceptAll manager course (Selection.allFields selections) visitor
  | [], visitor => by
      rw [acceptSelections, Selection.allFields, acceptAll]
  | selection :: rest, visitor => by
      rw [acceptSelections, Selection.allFields, acceptAll_append,
        acceptSelection_eq manager course selection visitor]
      cases acceptAll manager course selection.fields visitor with
      | error stopped => rfl
      | ok next => exact acceptSelections_eq manager course rest next

end

/-! ## Every document has a response -/

/-- The result of a document so far: an object that can be written out. -/
structure Answering (result : Json) : Prop where
  object : result.isObject = true
  texts : result.AllTexts Utf8.Valid

namespace Answering

variable {result : Json}

/-- A member is added to what answers. -/
theorem pushed (h : Answering result) {key : Bytes} {value : Json} (hkey : Utf8.Valid key)
    (hvalue : value.AllTexts Utf8.Valid) :
    ∃ next, pushPair result key value = .ok next ∧ Answering next := by
  obtain ⟨hobject, htexts⟩ := h
  cases result with
  | object members =>
      refine ⟨_, rfl, ?_, ?_⟩
      · split
        · exact hobject
        · exact Json.isObject_set hobject key value
      · split
        · exact htexts
        · exact Json.allTexts_set htexts hkey hvalue
  | _ => cases hobject

/-- A member is set back. -/
theorem setBack (h : Answering result) {value : Json} (hvalue : value.AllTexts Utf8.Valid) :
    Answering (Graphql.setBack result value) := by
  obtain ⟨hobject, htexts⟩ := h
  cases result with
  | object members =>
      refine ⟨rfl, Json.allTexts_object.mpr ?_⟩
      have hmembers := Json.allTexts_object.mp htexts
      intro entry hmem
      rcases List.mem_append.mp hmem with hbefore | hlast
      · exact hmembers entry (List.dropLast_subset _ hbefore)
      · obtain ⟨last, hfound, rfl⟩ := Option.map_eq_some_iff.mp (Option.mem_toList.mp hlast)
        exact ⟨(hmembers last (List.mem_of_getLast? hfound)).1, hvalue⟩
  | _ => cases hobject

/-- The document has valid texts. -/
theorem utf8Valid (h : Answering result) :
    (Json.object [(bytes "data", result)]).utf8Valid = true := by
  have hname : Utf8.Valid (bytes "data") := by
    decide
  apply (Json.utf8Valid_iff _).mpr
  apply Json.allTexts_object.mpr
  intro entry hmem
  rw [List.mem_singleton.mp hmem]
  exact ⟨hname, h.texts⟩

end Answering

/-- The empty object has no texts. -/
theorem emptyObject_texts : (Json.object []).AllTexts Utf8.Valid :=
  Json.allTexts_object.mpr fun _ hmem => absurd hmem List.not_mem_nil

/-- The words for the operations are valid. -/
theorem OperationType.text_valid (operation : OperationType) : Utf8.Valid operation.text := by
  cases operation with
  | query => decide
  | mutation => decide
  | subscription => decide

/-! ## The operations of a document -/

/-- The fields of an operation, those of inline fragments in their place. -/
def OperationDefinition.fields (definition : OperationDefinition) : List AstField :=
  Selection.allFields definition.selectionSet

/-- Only a query without variables is visited. -/
def OperationDefinition.Supported (definition : OperationDefinition) : Prop :=
  definition.operation = .query ∧ definition.hasVariables = false

/-- The visitor of a query begins at a moment: the operations before it have been visited
to their end. -/
inductive Begun (manager : EntityManager ε) (course : Nat → Moment ε) :
    Nat → List Definition → Nat → OperationDefinition → Prop
  | first {clock : Nat} {definition : OperationDefinition} {rest : List Definition}
      (hsupported : definition.Supported) :
      Begun manager course clock (.operation definition :: rest) clock definition
  | next {clock start : Nat} {before definition : OperationDefinition} {rest : List Definition}
      (hsupported : before.Supported) (hreadable : ReadableAll manager none before.fields)
      (hpopulated : PopulatedAll manager (fromMoment course clock) none 0 before.fields)
      (hbegun : Begun manager course (clock + spanAll before.fields + 1) rest start definition) :
      Begun manager course clock (.operation before :: rest) start definition
  | fragment {clock start : Nat} {selectionSet : List Selection}
      {definition : OperationDefinition} {rest : List Definition}
      (hbegun : Begun manager course clock rest start definition) :
      Begun manager course clock (.fragment selectionSet :: rest) start definition

/-- No instance appears while a field is open that leads to its entity. -/
def QuietDocument (manager : EntityManager ε) (course : Nat → Moment ε) (clock : Nat)
    (document : List Definition) : Prop :=
  ∀ start definition, Begun manager course clock document start definition →
    Quiet manager (fromMoment course start) 0 definition.fields

/-- The visitor turns what the populations raise into an exception of its own. -/
def ContainedDocument (manager : EntityManager ε) (course : Nat → Moment ε) (clock : Nat)
    (document : List Definition) : Prop :=
  ∀ start definition, Begun manager course clock document start definition →
    Contained manager (fromMoment course start) 0 definition.fields

section

variable {manager : EntityManager ε} {course : Nat → Moment ε}

/-- The query of a document that is visited next. -/
theorem Begun.rest_of {definition : OperationDefinition} {rest : List Definition} {clock : Nat}
    {P : Nat → OperationDefinition → Prop} (hsupported : definition.Supported)
    (hreadable : ReadableAll manager none definition.fields)
    (hpopulated : PopulatedAll manager (fromMoment course clock) none 0 definition.fields)
    (h : ∀ start other, Begun manager course clock (.operation definition :: rest) start other →
      P start other) (start : Nat) (other : OperationDefinition)
    (hbegun : Begun manager course (clock + spanAll definition.fields + 1) rest start other) :
    P start other :=
  h start other (.next hsupported hreadable hpopulated hbegun)

variable (hcomparable : ∀ moment, Comparable manager.toSchema (course moment).cache)

include hcomparable

/-- A query without variables that can be visited to its end. -/
theorem acceptOperation_visited (htexts : ∀ moment, TextsValid (course moment).cache)
    {definition : OperationDefinition} (hvariables : definition.hasVariables = false)
    (hreadable : ReadableAll manager none definition.fields)
    (hpopulated : PopulatedAll manager course none 0 definition.fields)
    (hquiet : Quiet manager course 0 definition.fields) :
    ∃ visitor document, acceptOperation manager course definition = .ok visitor ∧
      visitor.clock = spanAll definition.fields ∧
      visitor.document manager (course visitor.clock).cache = .ok document ∧
      document.AllTexts Utf8.Valid := by
  obtain ⟨visitor, haccept, hdocument⟩ := run_responds hcomparable hreadable
    (hquiet.steady.all hreadable hpopulated) hpopulated
  obtain ⟨fragment, rfl⟩ := acceptAll_ok definition.fields haccept
  refine ⟨_, _, ?_, Nat.zero_add _, hdocument, allTexts_response htexts _ 0⟩
  rw [acceptOperation, hvariables, if_neg Bool.false_ne_true, acceptSelections_eq]
  exact haccept

/-- A query that is not visited to its end. -/
theorem acceptOperation_refused {definition : OperationDefinition}
    (hnot : ¬ (definition.hasVariables = false ∧ ReadableAll manager none definition.fields ∧
      PopulatedAll manager course none 0 definition.fields))
    (hquiet : definition.hasVariables = false → Quiet manager course 0 definition.fields)
    (hcontained : definition.hasVariables = false →
      Contained manager course 0 definition.fields) :
    Refused manager course (acceptOperation manager course definition) := by
  unfold acceptOperation
  cases hvariables : definition.hasVariables with
  | true => exact ⟨_, rfl, document_root rfl⟩
  | false =>
      rw [if_neg Bool.false_ne_true, acceptSelections_eq]
      exact refused_of_not_visited hcomparable (hquiet hvariables) (hcontained hvariables)
        fun hvisited => hnot ⟨hvariables, hvisited⟩

/-- The data of one more query are stored. -/
theorem visitOperationDefinition_visited (htexts : ∀ moment, TextsValid (course moment).cache)
    {definition : OperationDefinition} {result : Json} (h : Answering result) {clock : Nat}
    (hsupported : definition.Supported) (hreadable : ReadableAll manager none definition.fields)
    (hpopulated : PopulatedAll manager (fromMoment course clock) none 0 definition.fields)
    (hquiet : Quiet manager (fromMoment course clock) 0 definition.fields) :
    ∃ next, visitOperationDefinition manager course definition result clock =
      .ok (next, clock + spanAll definition.fields + 1) ∧ Answering next := by
  obtain ⟨hquery, hvariables⟩ := hsupported
  obtain ⟨pushed, hpushed, hanswering⟩ :=
    h.pushed definition.operation.text_valid emptyObject_texts
  obtain ⟨visitor, document, haccept, hclock, hdocument, htext⟩ :=
    @acceptOperation_visited ε manager (fromMoment course clock) (fun _ => hcomparable _)
      (fun _ => htexts _) definition hvariables hreadable hpopulated hquiet
  refine ⟨setBack pushed document, ?_, hanswering.setBack htext⟩
  rw [← hclock]
  unfold visitOperationDefinition
  rw [hpushed]
  simp only [Except.mapError, bind, Except.bind, if_pos hquery, haccept, hdocument]
  rfl

/-- Any other operation ends the document with an error. -/
theorem visitOperationDefinition_refused {definition : OperationDefinition} {result : Json}
    (h : Answering result) {clock : Nat}
    (hnot : ¬ (definition.Supported ∧ ReadableAll manager none definition.fields ∧
      PopulatedAll manager (fromMoment course clock) none 0 definition.fields))
    (hquiet : definition.Supported →
      Quiet manager (fromMoment course clock) 0 definition.fields)
    (hcontained : definition.Supported →
      Contained manager (fromMoment course clock) 0 definition.fields) :
    visitOperationDefinition manager course definition result clock = .error .error := by
  obtain ⟨pushed, hpushed, -⟩ := h.pushed definition.operation.text_valid emptyObject_texts
  unfold visitOperationDefinition
  rw [hpushed]
  simp only [Except.mapError, bind, Except.bind]
  by_cases hquery : definition.operation = .query
  · obtain ⟨stopped, hstopped, document, hdocument⟩ :=
      @acceptOperation_refused ε manager (fromMoment course clock) (fun _ => hcomparable _)
        definition (fun hvisited => hnot ⟨⟨hquery, hvisited.1⟩, hvisited.2⟩)
        (fun hvariables => hquiet ⟨hquery, hvariables⟩)
        (fun hvariables => hcontained ⟨hquery, hvariables⟩)
    rw [if_pos hquery, hstopped]
    simp only [hdocument]
    rfl
  · rw [if_neg hquery]
    rfl

/-- A document whose populations are contained is answered, or it ends with an error. -/
theorem acceptDocument_cases (htexts : ∀ moment, TextsValid (course moment).cache)
    (document : List Definition) {result : Json} (h : Answering result) (clock : Nat)
    (hquiet : QuietDocument manager course clock document)
    (hcontained : ContainedDocument manager course clock document) :
    (∃ final, acceptDocument manager course document result clock = .ok final ∧
      Answering final) ∨
    acceptDocument manager course document result clock = .error .error := by
  induction document generalizing result clock with
  | nil => exact Or.inl ⟨result, rfl, h⟩
  | cons definition rest ih =>
      cases definition with
      | fragment selectionSet =>
          exact ih h clock (fun _ _ hbegun => hquiet _ _ (.fragment hbegun))
            fun _ _ hbegun => hcontained _ _ (.fragment hbegun)
      | operation definition =>
          unfold acceptDocument
          by_cases hvisited : definition.Supported ∧ ReadableAll manager none definition.fields ∧
              PopulatedAll manager (fromMoment course clock) none 0 definition.fields
          · obtain ⟨hsupported, hreadable, hpopulated⟩ := hvisited
            obtain ⟨next, hnext, hanswering⟩ := visitOperationDefinition_visited hcomparable htexts
              h hsupported hreadable hpopulated (hquiet _ _ (.first hsupported))
            rw [hnext]
            exact ih hanswering _ (Begun.rest_of hsupported hreadable hpopulated hquiet)
              (Begun.rest_of hsupported hreadable hpopulated hcontained)
          · rw [visitOperationDefinition_refused hcomparable h hvisited
              (fun hsupported => hquiet _ _ (.first hsupported))
              (fun hsupported => hcontained _ _ (.first hsupported))]
            exact Or.inr rfl

/-- An exception that no handler of the visitor knows leaves the operation. -/
theorem visitOperationDefinition_escapes {definition : OperationDefinition} {result : Json}
    (h : Answering result) {clock : Nat} (hsupported : definition.Supported)
    (hquiet : Quiet manager (fromMoment course clock) 0 definition.fields)
    (hnot : ¬ Contained manager (fromMoment course clock) 0 definition.fields) :
    ∃ exception, visitOperationDefinition manager course definition result clock =
      .error (.escaped exception) := by
  obtain ⟨pushed, hpushed, -⟩ := h.pushed definition.operation.text_valid emptyObject_texts
  obtain ⟨exception, stopped, hstopped, hne, hroot⟩ :=
    @escapes_of_not_contained ε manager (fromMoment course clock) (fun _ => hcomparable _)
      definition.fields hquiet hnot
  obtain ⟨hquery, hvariables⟩ := hsupported
  obtain ⟨stored, hstored⟩ : ∃ stored, stopped.document manager
      (fromMoment course clock stopped.clock).cache = .ok stored := document_root hroot
  have haccept : acceptOperation manager (fromMoment course clock) definition =
      .error (exception, stopped) := by
    rw [acceptOperation, hvariables, if_neg Bool.false_ne_true, acceptSelections_eq]
    exact hstopped
  refine ⟨exception, ?_⟩
  unfold visitOperationDefinition
  rw [hpushed]
  simp only [Except.mapError, bind, Except.bind, if_pos hquery, haccept, hstored, if_neg hne]
  rfl

/-- An exception that no handler of the visitor knows leaves the document. -/
theorem acceptDocument_escapes (htexts : ∀ moment, TextsValid (course moment).cache)
    {document : List Definition} {clock start : Nat} {definition : OperationDefinition}
    (hbegun : Begun manager course clock document start definition)
    (hquiet : QuietDocument manager course clock document)
    (hnot : ¬ Contained manager (fromMoment course start) 0 definition.fields) {result : Json}
    (h : Answering result) :
    ∃ exception, acceptDocument manager course document result clock =
      .error (.escaped exception) := by
  induction hbegun generalizing result with
  | @first clock definition rest hsupported =>
      obtain ⟨exception, hvisit⟩ := visitOperationDefinition_escapes hcomparable h hsupported
        (hquiet _ _ (.first hsupported)) hnot
      refine ⟨exception, ?_⟩
      rw [acceptDocument, hvisit]
      rfl
  | @next clock start before definition rest hsupported hreadable hpopulated hbegun ih =>
      obtain ⟨next, hnext, hanswering⟩ := visitOperationDefinition_visited hcomparable htexts h
        hsupported hreadable hpopulated (hquiet _ _ (.first hsupported))
      obtain ⟨exception, hescapes⟩ :=
        ih (Begun.rest_of hsupported hreadable hpopulated hquiet) hnot hanswering
      refine ⟨exception, ?_⟩
      rw [acceptDocument, hnext]
      exact hescapes
  | @fragment clock start selectionSet definition rest hbegun ih =>
      exact ih (fun _ _ hbegun => hquiet _ _ (.fragment hbegun)) hnot h

namespace GraphqlRouter

/-- Whatever was parsed, {lit}`run` returns a response with data or with an error if and
only if the handlers of the visitor know what the populations raise. -/
theorem run_responds_iff (htexts : ∀ moment, TextsValid (course moment).cache)
    (gqlNode : Option (List Definition))
    (hquiet : ∀ document ∈ gqlNode, QuietDocument manager course 0 document) :
    (run manager course gqlNode).Responds ↔
      ∀ document ∈ gqlNode, ContainedDocument manager course 0 document := by
  cases gqlNode with
  | none => exact iff_of_true trivial fun _ hmem => absurd hmem (Option.not_mem_none _)
  | some document =>
      have hempty : Answering (.object []) := ⟨rfl, emptyObject_texts⟩
      have hquiet := hquiet document rfl
      constructor
      · intro hresponds other hother
        cases Option.mem_some_iff.mp hother
        intro start definition hbegun
        by_contra hnot
        obtain ⟨exception, hescapes⟩ :=
          acceptDocument_escapes hcomparable htexts hbegun hquiet hnot hempty
        simp only [run, hescapes] at hresponds
        exact hresponds
      · intro hcontained
        unfold run
        dsimp only
        rcases acceptDocument_cases hcomparable htexts document hempty 0 hquiet
            (hcontained document rfl) with ⟨final, hfinal, hanswering⟩ | hrefused
        · rw [hfinal]
          dsimp only
          rw [if_pos hanswering.utf8Valid]
          trivial
        · rw [hrefused]
          trivial

end GraphqlRouter

end

namespace GraphqlRouter

/-- A document of one query is visited like the list of its fields. -/
theorem run_query (manager : EntityManager ε) (course : Nat → Moment ε)
    (selectionSet : List Selection) :
    run manager course (some [.operation ⟨.query, false, selectionSet⟩]) =
      Graphql.run manager course (Selection.allFields selectionSet) := by
  have hstart : fromMoment course 0 = course := by
    funext moment
    rw [fromMoment, Nat.zero_add]
  have hvalid : ∀ result : Json, (Json.object [(bytes "data", result)]).utf8Valid =
      result.utf8Valid := by
    intro result
    have hname : Utf8.Valid (bytes "data") := by
      decide
    simp [Json.utf8Valid, Json.membersUtf8Valid, hname]
  unfold run Graphql.run acceptDocument visitOperationDefinition acceptOperation
  simp only [acceptSelections_eq, hstart, pushPair, Except.mapError, bind, Except.bind, hvalid,
    Outcome.ofTraversal, if_true, Bool.false_eq_true, if_false]
  cases acceptAll manager course (Selection.allFields selectionSet) .initial with
  | ok visitor =>
      cases hdocument : visitor.document manager (course visitor.clock).cache with
      | ok document =>
          simp only [hdocument]
          rfl
      | error exception =>
          simp only [hdocument]
          rfl
  | error stopped =>
      obtain ⟨exception, visitor⟩ := stopped
      cases hdocument : visitor.document manager (course visitor.clock).cache with
      | ok document =>
          simp only [hdocument]
          rfl
      | error exception =>
          simp only [hdocument]
          rfl

/-- The JSON value of a body can be read by a key. -/
def Subscriptable : Json → Prop
  | .null | .object _ => True
  | _ => False

/-- When a subscript returns. -/
theorem subscript_ok_iff {key : Bytes} {json : Json} :
    (∃ value, subscript key json = .ok value) ↔ Subscriptable json := by
  cases json <;> simp [subscript, Subscriptable]

/-- The query text of a body. -/
def queryText (parsers : Parsers) (postBuffer : Bytes) : Option Bytes :=
  if postBuffer = [] then none
  else
    match parsers.parseJson (cString postBuffer) with
    | some (.object members) =>
        match members.lookup (bytes "query") with
        | some (.string astData) => some astData
        | _ => none
    | _ => none

/-- The document that is visited: that of the query text, or the one kept before. -/
def visited (parsers : Parsers) (postBuffer : Bytes) (gqlNode : Option (List Definition)) :
    Option (List Definition) :=
  match queryText parsers postBuffer with
  | some astData => parsers.parseString (cString astData)
  | none => gqlNode

/-- A body with a value that can be read by a key leaves the document to be visited. -/
theorem preHandlers_eq_ok_iff {parsers : Parsers} {postBuffer : Bytes}
    {gqlNode node : Option (List Definition)} :
    preHandlers parsers postBuffer gqlNode = .ok node ↔
      (postBuffer = [] ∨
        ∀ jsonData ∈ parsers.parseJson (cString postBuffer), Subscriptable jsonData) ∧
      visited parsers postBuffer gqlNode = node := by
  unfold preHandlers visited queryText
  by_cases hempty : postBuffer = []
  · simp [hempty]
  · rw [if_neg hempty, if_neg hempty, or_iff_right hempty]
    cases parsers.parseJson (cString postBuffer) with
    | none => simp
    | some jsonData =>
        cases jsonData with
        | object members =>
            cases hquery : members.lookup (bytes "query") with
            | none => simp [subscript, Subscriptable, hquery, bind, Except.bind, pure, Except.pure]
            | some query =>
                cases query <;>
                  simp [subscript, Subscriptable, hquery, bind, Except.bind, pure, Except.pure]
        | null => simp [subscript, Subscriptable, bind, Except.bind, pure, Except.pure]
        | _ => simp [subscript, Subscriptable, bind, Except.bind]

/-- A query for the names of the fans. -/
def fanDocument : List Definition :=
  [.operation ⟨.query, false,
    [.node ⟨bytes "Fan", fan_letters⟩ none [.leaf ⟨bytes "Id", id_letters⟩ none]]⟩]

/-- A query for the identifiers of the fans. -/
def fanText : Bytes := bytes "\x7bFan\x7bId\x7d\x7d"

/-- The body with the query. -/
def fanBody : Bytes := bytes "\x7b\"query\":\"\x7bFan\x7bId\x7d\x7d\"\x7d"

/-- Parsers that know two bodies and one query. -/
def sampleParsers : Parsers where
  parseJson body :=
    if body = bytes "[]" then some (.array [])
    else if body = fanBody then some (.object [(bytes "query", .string fanText)])
    else none
  parseString astData := if astData = fanText then some fanDocument else none

/-- A fan vanishes while its query is visited. -/
theorem fanDocument_quiet :
    QuietDocument inventoryManager (fun moment => fanVanishes moment) 0 fanDocument := by
  intro start definition hbegun
  cases hbegun with
  | next _ _ _ hbegun => cases hbegun
  | first hsupported =>
      intro entry field hentered _
      obtain ⟨rfl, rfl⟩ := hentered.of_singleton
      intro target hresolve
      obtain rfl : Target.entity .fan = target := Option.some.inj hresolve
      refine ⟨?_, trivial, trivial⟩
      intro moment later _ hlater _ hash hpresent
      cases moment with
      | zero =>
          cases later with
          | zero => exact hpresent
          | succ later => exact present_twoFans hpresent
      | succ moment =>
          cases later with
          | zero => cases hlater
          | succ later => exact hpresent

/-- The population of the fans meets a value of another type than the code expects. -/
example : handle inventoryManager
    (fun _ => { cache := twoFans, populate := fun _ => some .badVariantAccess }) sampleParsers
      fanBody none = .ok (.escaped .badVariantAccess) := by
  rfl

end GraphqlRouter

end Graphql
end ObmcWebapp
