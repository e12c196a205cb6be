import ObmcWebapp.Json
import ObmcWebapp.Entity.Instances

/-!
# GraphQL - The visitor and its builders

The visitor of a query builds its answer by callbacks: entering a field with a
selection set makes a builder with one item for each cached instance, a leaf adds
a member to the items, and leaving the field hands the selected items to the items
of the parent.  Every callback reads the cache as it is at its own moment, and so
does the destructor of the visitor, which takes the answer out of the builder that
is current then.  A field at the root has its entity populated first, and what the
population raises goes through the handlers of the callback.

Arguments are visited without effect and left out, as are the texts of the errors.
-/

open Library

namespace ObmcWebapp
namespace Graphql

open Entity

variable {ε : Type}

/-! ## Queries -/

/-- A name as the parser delivers it. -/
structure Name where
  value : Bytes
  letters : ∀ c ∈ value, isAlnum c = true ∨ c = 0x5F
deriving DecidableEq

/-- A field; one with a selection set of its own is a node. -/
inductive AstField
  | leaf (name : Name) (fieldAlias : Option Name)
  | node (name : Name) (fieldAlias : Option Name) (selectionSet : List AstField)

namespace AstField

/-- The name of a field. -/
def name : AstField → Bytes
  | leaf name _ | node name _ _ => name.value

/-- The name or the alias, under which the answer holds the field. -/
def responseKey : AstField → Bytes
  | leaf name fieldAlias | node name fieldAlias _ => (fieldAlias.getD name).value

end AstField

/-! ## Entities -/

/-- The entities and where they are found by their names. -/
structure EntityManager (ε : Type) extends Schema ε where
  entityDictionary : Bytes → Option ε
  entityDictionary_eq_some_iff : ∀ entityName entity,
    entityDictionary entityName = some entity ↔ name entity = entityName

/-- What a callback finds: the cache, after the population that it may ask for, and the
exception that the population of an entity raises. -/
structure Moment (ε : Type) where
  cache : Cache ε
  populate : ε → Option Exception := fun _ => none

/-- A cache whose populations raise nothing. -/
instance : Coe (Cache ε) (Moment ε) := ⟨fun cache => { cache }⟩

/-- {lit}`EntityManager::getEntity`, which populates the entity before it is returned. -/
def EntityManager.getEntity (manager : EntityManager ε) (moment : Moment ε) (entityName : Bytes) :
    Except Exception ε :=
  match manager.entityDictionary entityName with
  | none => .error .entityException
  | some entity =>
      match moment.populate entity with
      | some exception => .error exception
      | none => .ok entity

/-! ## JSON of the fields -/

/-- {lit}`toJson` of a value. -/
def toJson : FieldType → Json
  | .associations value => .array (value.map fun association =>
      .array [.string association.1, .string association.2.1, .string association.2.2])
  | .strings value => .array (value.map .string)
  | .doubles value => .array (value.map .numberFloat)
  | .ints value => .array (value.map fun number => .numberInteger number.toInt64)
  | .string value => .string value
  | .int64 value => .numberInteger value
  | .uint64 value => .numberUnsigned value
  | .double value => .numberFloat value
  | .int32 value => .numberInteger value.toInt64
  | .uint32 value => .numberUnsigned value.toUInt64
  | .int16 value => .numberInteger value.toInt64
  | .uint16 value => .numberUnsigned value.toUInt64
  | .uint8 value => .numberUnsigned value.toUInt64
  | .bool value => .boolean value
  | .null => .null

/-- The value of a leaf; a field that is not set is null. -/
def leafValue (field : Field) : Json :=
  if field.isNull then .null else toJson field.getValue

/-- {lit}`push_back({key, value})`: an object takes a member that it lacks, null and
an array take an array of the two. -/
def pushPair (json : Json) (key : Bytes) (value : Json) : Except Exception Json :=
  match json with
  | .object members =>
      .ok (if (members.lookup key).isSome then json else json.set key value)
  | .null => .ok (.array [.array [.string key, value]])
  | .array values => .ok (.array (values ++ [.array [.string key, value]]))
  | _ => .error .jsonTypeError

/-! ## Builders -/

/-- The items of a builder.  An instance's item is found by its hash, whose decimal
text is the key in the source; the item of the root, {lit}`query`, has none. -/
abbrev Fragment := List (Option UInt64 × Json)

namespace Fragment

/-- {lit}`fragment.at(...)` -/
def atHash (fragment : Fragment) (hash : UInt64) : Except Exception Json :=
  match fragment.lookup (some hash) with
  | some item => .ok item
  | none => .error .jsonOutOfRange

/-- Change {lit}`fragment[...]`, which is null where there was none. -/
def modify (fragment : Fragment) (hash : UInt64) (update : Json → Except Exception Json) :
    Except Exception Fragment :=
  match fragment with
  | [] => (update .null).map fun item => [(some hash, item)]
  | (key, item) :: rest =>
      if key = some hash then (update item).map fun item => (key, item) :: rest
      else (modify rest hash update).map fun rest => (key, item) :: rest

end Fragment

/-- What a builder is made for. -/
inductive Target (ε : Type)
  | root
  | entity (entity : ε)
  | relation (source : ε) (relation : Relation ε)

/-- {lit}`getEntity` of a target. -/
def Target.getEntity : Target ε → Option ε
  | .root => none
  | .entity target => some target
  | .relation _ link => some link.destination

/-- {lit}`GqlObjectBuild` -/
structure GqlObjectBuild (ε : Type) where
  name : Bytes
  target : Target ε
  fragment : Fragment
  fieldAlias : Option Bytes := none

/-- Run a part of the program whose handlers turn exceptions into others. -/
def catching {α : Type} (handler : Exception → Exception) (result : Except Exception α) :
    Except Exception α :=
  result.mapError handler

namespace GqlObjectBuild

/-- The name of the root. -/
def visitorName : Bytes := bytes "query"

/-- The builder of the root. -/
def root : GqlObjectBuild ε :=
  { name := visitorName, target := .root, fragment := [(none, .object [])] }

/-- The constructors for an entity and for a relation. -/
def construct (cache : Cache ε) (objectName : Bytes) (target : Target ε) :
    Except Exception (GqlObjectBuild ε) :=
  match target.getEntity with
  | none => .ok { name := objectName, target, fragment := [] }
  | some targetEntity => do
      let instances ← cache.getInstances targetEntity []
      let fragment := instances.map fun instance_ => (some instance_.hash, Json.object [])
      return { name := objectName, target, fragment }

/-- {lit}`getEntity` -/
def getEntity (builder : GqlObjectBuild ε) : Option ε :=
  builder.target.getEntity

/-- {lit}`getFieldName` -/
def getFieldName (builder : GqlObjectBuild ε) : Bytes :=
  builder.fieldAlias.getD builder.name

/-- {lit}`supplement` by a leaf. -/
def supplement (manager : EntityManager ε) (cache : Cache ε) (builder : GqlObjectBuild ε)
    (fieldName : Bytes) : Except Exception (GqlObjectBuild ε) :=
  match builder.getEntity with
  | none => .error .gqlException
  | some targetEntity =>
      catching (fun | .entityException | .outOfRange => .gqlException | exception => exception) do
        if fieldName ∈ manager.members targetEntity then
          let instances ← cache.getInstances targetEntity []
          let fragment ← instances.foldlM (fun (fragment : Fragment) instance_ =>
            fragment.modify instance_.hash fun jsonObject =>
              pushPair jsonObject fieldName (leafValue (instance_.getField fieldName)))
            builder.fragment
          return { builder with fragment }
        else
          throw .entityException

/-- The instances that {lit}`getFragment` reads: a parent's hash matters only for a
relation. -/
def selectInstances (manager : EntityManager ε) (cache : Cache ε) (target : Target ε)
    (parentInstanceHash : Option UInt64) : Except Exception (List Instance) :=
  match target, parentInstanceHash with
  | .root, _ => .ok []
  | .entity entity, _ => cache.getInstances entity []
  | .relation _ relation, none => cache.getInstances relation.destination []
  | .relation source relation, some hash => do
      let conditions ← relation.getConditions manager.toSchema cache.toCached source hash
      cache.getInstances relation.destination conditions

/-- {lit}`getFragment` -/
def getFragment (manager : EntityManager ε) (cache : Cache ε) (builder : GqlObjectBuild ε)
    (parentInstanceHash : Option UInt64) : Except Exception Json :=
  catching (fun | .outOfRange => .gqlException | exception => exception) do
    match builder.getEntity with
    | none => return (builder.fragment.getLast?.map Prod.snd).getD .null
    | some entity =>
        let instances ← selectInstances manager cache builder.target parentInstanceHash
        match instances, decide (manager.type entity = .array) with
        | [instance_], false => builder.fragment.atHash instance_.hash
        | [], false => return .object []
        | instances, _ =>
            let items ← instances.mapM fun instance_ => builder.fragment.atHash instance_.hash
            return .array items

/-- {lit}`supplement` by the builder of a child. -/
def supplementChild (manager : EntityManager ε) (cache : Cache ε) (builder : GqlObjectBuild ε)
    (fieldName : Bytes) (child : GqlObjectBuild ε) : Except Exception (GqlObjectBuild ε) := do
  let fragment ← builder.fragment.mapM fun (hash, item) => do
    let childJsonNode ← child.getFragment manager cache hash
    let item ← pushPair item fieldName childJsonNode
    return (hash, item)
  return { builder with fragment }

end GqlObjectBuild

/-! ## The visitor -/

/-- The builder that is current, the parents behind it, and how many callbacks have
been made. -/
structure Visitor (ε : Type) where
  current : GqlObjectBuild ε
  parents : List (GqlObjectBuild ε)
  clock : Nat

namespace Visitor

/-- At the start the root is current. -/
def initial : Visitor ε :=
  { current := .root, parents := [], clock := 0 }

/-- What the builder of a field is made for: at the root the entity of its name, below
an entity the relation to it. -/
def findTarget (manager : EntityManager ε) (moment : Moment ε) (entity : Option ε)
    (fieldName : Bytes) : Except Exception (Target ε) :=
  match entity with
  | none => (manager.getEntity moment fieldName).map .entity
  | some entity =>
      match manager.getRelation entity fieldName with
      | none => .error .gqlException
      | some relation => .ok (.relation entity relation)

/-- The handlers of {lit}`visitField`; other exceptions leave the callback. -/
def handler : Exception → Exception
  | .entityException | .jsonTypeError => .gqlException
  | exception => exception

/-- A leaf is added to the items; any other field gets a builder, which becomes current. -/
def visitField (manager : EntityManager ε) (field : AstField) (moment : Moment ε)
    (visitor : Visitor ε) : Except Exception (Visitor ε) :=
  match field with
  | .leaf fieldName fieldAlias => do
      let current ←
        visitor.current.supplement manager moment.cache (fieldAlias.getD fieldName).value
      return { visitor with current }
  | .node fieldName fieldAlias _ =>
      catching handler do
        let target ← findTarget manager moment visitor.current.getEntity fieldName.value
        let child ← GqlObjectBuild.construct moment.cache fieldName.value target
        let current := { child with fieldAlias := fieldAlias.map Name.value }
        return { visitor with current, parents := visitor.current :: visitor.parents }

/-- {lit}`pushFragmentToParent`, after which the parent is current again. -/
def endVisitField (manager : EntityManager ε) (field : AstField) (moment : Moment ε)
    (visitor : Visitor ε) : Except Exception (Visitor ε) :=
  match field with
  | .leaf _ _ => .ok visitor
  | .node _ _ _ =>
      match visitor.parents with
      | [] => .ok visitor
      | parent :: parents => do
          let current ← parent.supplementChild manager moment.cache
            visitor.current.getFieldName visitor.current
          return { visitor with current, parents }

/-- What the destructor stores. -/
def document (manager : EntityManager ε) (cache : Cache ε) (visitor : Visitor ε) :
    Except Exception Json :=
  visitor.current.getFragment manager cache none

end Visitor

/-- One callback at its moment; an exception leaves the visitor as it was when the
callback began. -/
def callback (course : Nat → Moment ε)
    (action : Moment ε → Visitor ε → Except Exception (Visitor ε)) (visitor : Visitor ε) :
    Except (Exception × Visitor ε) (Visitor ε) :=
  match action (course visitor.clock) visitor with
  | .ok next => .ok { next with clock := visitor.clock + 1 }
  | .error exception => .error (exception, { visitor with clock := visitor.clock + 1 })

mutual

/-- A field is entered, the fields below it are visited, and it is left. -/
def acceptField (manager : EntityManager ε) (course : Nat → Moment ε) :
    AstField → Visitor ε → Except (Exception × Visitor ε) (Visitor ε)
  | .leaf name fieldAlias, visitor => do
      let field := AstField.leaf name fieldAlias
      let visitor ← callback course (Visitor.visitField manager field) visitor
      callback course (Visitor.endVisitField manager field) visitor
  | .node name fieldAlias selectionSet, visitor => do
      let field := AstField.node name fieldAlias selectionSet
      let visitor ← callback course (Visitor.visitField manager field) visitor
      let visitor ← acceptAll manager course selectionSet visitor
      callback course (Visitor.endVisitField manager field) visitor

/-- Fields are visited in their order. -/
def acceptAll (manager : EntityManager ε) (course : Nat → Moment ε) :
    List AstField → Visitor ε → Except (Exception × Visitor ε) (Visitor ε)
  | [], visitor => .ok visitor
  | field :: rest, visitor => do
      let visitor ← acceptField manager course field visitor
      acceptAll manager course rest visitor

end

/-! ## The response -/

/-- How {lit}`run` ends: with a response that holds data or an error, with an
exception, or with the whole program, because the destructor has thrown. -/
inductive Outcome
  | data (result : Json)
  | error
  | escaped (exception : Exception)
  | terminated

/-- The end of {lit}`run` after the traversal. -/
def Outcome.ofTraversal (manager : EntityManager ε) (course : Nat → Moment ε)
    (traversal : Except (Exception × Visitor ε) (Visitor ε)) : Outcome :=
  match traversal with
  | .ok visitor =>
      match visitor.document manager (course visitor.clock).cache with
      | .ok document =>
          let result := Json.object [(GqlObjectBuild.visitorName, document)]
          if result.utf8Valid then .data result else .escaped .jsonTypeError
      | .error _ => .terminated
  | .error (exception, visitor) =>
      match visitor.document manager (course visitor.clock).cache with
      | .ok _ => if exception = .gqlException then .error else .escaped exception
      | .error _ => .terminated

/-- {lit}`GraphqlRouter::run` for a query while the cache changes. -/
def run (manager : EntityManager ε) (course : Nat → Moment ε) (fields : List AstField) :
    Outcome :=
  .ofTraversal manager course (acceptAll manager course fields .initial)

end Graphql
end ObmcWebapp
