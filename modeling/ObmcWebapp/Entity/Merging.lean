import Mathlib.Data.List.Sort
import ObmcWebapp.Entity.DBusInstance
import ObmcWebapp.Entity.Properties
import ObmcWebapp.Entity.Supplement

/-!
# Entity - Merging D-Bus instances

The instances of an entity as shared objects: the cache refers to them under their
hashes, and an object that is merged, supplemented or changed is the same object
wherever it is referred to.  Merging one into another moves the interfaces that the
other one lacks.

What the program stores by member name is never one of the two fields that hold an
object's path and service.

Main results:

- Theorem {lit}`MemberInstances.getField_takeOver`: the members after another instance is
  taken over.
- Theorem {lit}`State.Sound.apply`: an operation keeps the cache sound.
- Theorem {lit}`merging_sound`: what holds of the cache and of a merge after any operations.
-/

open Library

namespace ObmcWebapp
namespace Entity
namespace Merging

/-! ## Members -/

/-- The members of an instance with their values. -/
abbrev MemberInstances := Table (Prod.fst : Bytes × FieldType → Bytes)

/-- The names that a merge passes over. -/
def IsMeta (memberName : Bytes) : Prop :=
  (bytes "__meta_").isPrefixOf memberName = true

instance : DecidablePred IsMeta :=
  fun _ => inferInstanceAs (Decidable (_ = true))

/-- The fields with which a {lit}`DBusInstance` is constructed. -/
def IsIdentity (memberName : Bytes) : Prop :=
  memberName = metaObjectPath ∨ memberName = metaObjectService

instance : DecidablePred IsIdentity :=
  fun _ => inferInstanceAs (Decidable (_ ∨ _))

/-- The identity of an object is about the object itself. -/
theorem IsIdentity.isMeta {memberName : Bytes} (h : IsIdentity memberName) : IsMeta memberName := by
  rcases h with rfl | rfl <;> decide

/-- A value that was read is read as itself. -/
theorem Field.getValue_getValue (field : Field) :
    Field.getValue (some field.getValue) = field.getValue := by
  rcases field with _ | value
  · rfl
  · cases value <;> rfl

namespace MemberInstances

variable {self destination : MemberInstances} {memberName other : Bytes} {value : FieldType}

/-- A member that is not there has no value. -/
def getField (self : MemberInstances) (memberName : Bytes) : Field :=
  (self.find memberName).map Prod.snd

/-- {lit}`getMemberNames` -/
def getMemberNames (self : MemberInstances) : List Bytes :=
  self.rows.map Prod.fst

/-- {lit}`supplementOrUpdate` -/
def supplementOrUpdate (self : MemberInstances) (memberName : Bytes) (value : FieldType) :
    MemberInstances :=
  self.insertOrAssign (memberName, value)

/-- A field after an update. -/
@[simp]
theorem getField_supplementOrUpdate :
    (self.supplementOrUpdate memberName value).getField other =
      if other = memberName then some value else self.getField other := by
  unfold getField supplementOrUpdate
  rw [Table.find_insertOrAssign]
  split <;> rfl

/-- The names are those of the fields that are there. -/
theorem mem_getMemberNames_iff : memberName ∈ self.getMemberNames ↔ self.getField memberName ≠ none := by
  unfold getMemberNames getField
  rw [Ne, Option.map_eq_none_iff, Table.find_eq_none_iff, not_not]
  exact List.mem_map

/-- Named fields one after the other. -/
def setFields (self : MemberInstances) (fields : List (Bytes × FieldType)) : MemberInstances :=
  fields.foldl (fun self field => self.supplementOrUpdate field.1 field.2) self

/-- Fields that are not set are as they were. -/
theorem getField_setFields_of_not_mem {fields : List (Bytes × FieldType)}
    (hother : ∀ field ∈ fields, other ≠ field.1) :
    (self.setFields fields).getField other = self.getField other := by
  induction fields generalizing self with
  | nil => rfl
  | cons field rest ih =>
      rw [List.forall_mem_cons] at hother
      refine (ih hother.2).trans ?_
      rw [getField_supplementOrUpdate, if_neg hother.1]

/-- The values that {lit}`fillMembers` stores, one after the other. -/
theorem getField_setFields_eq_resolveAll {data : InstanceData}
    (hdata : self.getField = data.memberInstances) (values : List (Bytes × DbusVariant)) :
    (self.setFields (values.map fun value => (value.1, value.2.val))).getField =
      (data.resolveAll values).memberInstances := by
  induction values generalizing self data with
  | nil => exact hdata
  | cons value rest ih =>
      refine ih ?_
      ext memberName : 1
      rw [getField_supplementOrUpdate, hdata]
      rfl

/-- {lit}`DBusInstance::supplementOrUpdate` by another instance. -/
def takeOver (self destination : MemberInstances) : MemberInstances :=
  destination.getMemberNames.foldl (fun self memberName =>
    if IsMeta memberName then self
    else self.supplementOrUpdate memberName (destination.getField memberName).getValue) self

/-- The loop of {lit}`supplementOrUpdate` over some names. -/
theorem getField_foldl_takeOver (names : List Bytes) :
    (names.foldl (fun self memberName =>
      if IsMeta memberName then self
      else self.supplementOrUpdate memberName (destination.getField memberName).getValue)
        self).getField other =
      if other ∈ names ∧ ¬ IsMeta other then some (destination.getField other).getValue
      else self.getField other := by
  induction names generalizing self with
  | nil => simp
  | cons name rest ih =>
      rw [List.foldl_cons, ih]
      by_cases hmeta : IsMeta name
      · rw [if_pos hmeta]
        by_cases hother : other = name
        · subst hother
          simp [hmeta]
        · simp [hother]
      · rw [if_neg hmeta, getField_supplementOrUpdate]
        by_cases hother : other = name
        · subst hother
          simp [hmeta]
        · simp [hother]

/-- A field that is not passed over has the value that the other instance gives for it. -/
theorem getField_takeOver :
    (self.takeOver destination).getField memberName =
      if destination.getField memberName ≠ none ∧ ¬ IsMeta memberName then
        some (destination.getField memberName).getValue
      else self.getField memberName := by
  unfold takeOver
  rw [getField_foldl_takeOver]
  simp only [mem_getMemberNames_iff]

/-- Taking the same instance over again changes no field. -/
theorem getField_takeOver_takeOver :
    ((self.takeOver destination).takeOver destination).getField memberName =
      (self.takeOver destination).getField memberName := by
  rw [getField_takeOver]
  split
  · next htaken => rw [getField_takeOver, if_pos htaken]
  · rfl

/-- Taking itself over changes no value, only that a null is then the text of a value that
is not available. -/
theorem getValue_getField_takeOver_self :
    ((self.takeOver self).getField memberName).getValue = (self.getField memberName).getValue := by
  rw [getField_takeOver]
  split
  · exact Field.getValue_getValue _
  · rfl

/-- An instance that takes over its own fields has the same ones. -/
theorem isSome_getField_takeOver_self :
    ((self.takeOver self).getField memberName).isSome = (self.getField memberName).isSome := by
  rw [getField_takeOver]
  split
  · next htaken =>
      rw [Option.isSome_some]
      exact (Option.isSome_iff_ne_none.mpr htaken.1).symm
  · rfl

/-- Taking them over again changes nothing. -/
theorem getField_takeOver_self :
    ((self.takeOver self).takeOver (self.takeOver self)).getField memberName =
      (self.takeOver self).getField memberName := by
  by_cases htaken : self.getField memberName ≠ none ∧ ¬ IsMeta memberName
  · have hfield : (self.takeOver self).getField memberName =
        some (self.getField memberName).getValue := by rw [getField_takeOver, if_pos htaken]
    rw [getField_takeOver, hfield, if_pos ⟨by simp, htaken.2⟩, Field.getValue_getValue]
  · have hfield : (self.takeOver self).getField memberName = self.getField memberName := by
      rw [getField_takeOver, if_neg htaken]
    rw [getField_takeOver, hfield, if_neg htaken]

/-- The fields are those of {lit}`Instance.supplied` written over. -/
theorem getField_takeOver_eq_write (hash : UInt64) :
    (self.takeOver destination).getField =
      Store.write self.getField (Instance.supplied ⟨hash, destination.getField⟩ false) := by
  ext memberName : 1
  rw [getField_takeOver, Store.write_apply, Instance.supplied]
  by_cases hmeta : IsMeta memberName
  · have hstarts : (bytes "__meta_").isPrefixOf memberName = true := hmeta
    simp [hmeta, hstarts]
  · have hstarts : (bytes "__meta_").isPrefixOf memberName = false := Bool.eq_false_iff.mpr hmeta
    simp only [hmeta, hstarts, not_false_eq_true, and_true, Bool.and_false, Bool.false_eq_true,
      if_false]
    cases destination.getField memberName <;> rfl

end MemberInstances

/-! ## Objects -/

/-- A {lit}`DBusInstance` with its members. -/
structure Object where
  serviceName : Bytes
  objectPath : Bytes
  targetProperties : DBusPropertyEndpointMap
  memberInstances : MemberInstances

namespace Object

/-- The constructor, which supplements the two meta fields. -/
def construct (serviceName objectPath : Bytes) (targetProperties : DBusPropertyEndpointMap) :
    Object where
  serviceName := serviceName
  objectPath := objectPath
  targetProperties := targetProperties
  memberInstances := (Table.empty.emplace (metaObjectPath, .string objectPath)).emplace
    (metaObjectService, .string serviceName)

/-- The hash under which an object is cached. -/
def getHash (stdHash : Bytes → UInt64) (object : Object) : UInt64 :=
  Entity.getHash stdHash object.serviceName object.objectPath

/-- {lit}`getField` -/
def getField (object : Object) (memberName : Bytes) : Field :=
  object.memberInstances.getField memberName

/-- The two meta fields hold the object's own path and service. -/
structure Identified (object : Object) : Prop where
  path : object.getField metaObjectPath = some (.string object.objectPath)
  service : object.getField metaObjectService = some (.string object.serviceName)

/-- A new object has its own identity. -/
theorem identified_construct (serviceName objectPath : Bytes)
    (targetProperties : DBusPropertyEndpointMap) :
    (construct serviceName objectPath targetProperties).Identified := by
  have hne : metaObjectPath ≠ metaObjectService := by decide
  have hfree : ¬ ((Table.empty : MemberInstances).emplace
      (metaObjectPath, .string objectPath)).Has metaObjectService := by
    rw [Table.has_emplace_iff]
    rintro (hold | hnew)
    · exact Table.not_has_empty _ hold
    · exact hne hnew
  have hpath : (metaObjectPath, FieldType.string objectPath) ∈
      (construct serviceName objectPath targetProperties).memberInstances :=
    Table.mem_emplace_of_mem (Table.mem_emplace_iff.mpr (Or.inr ⟨rfl, Table.not_has_empty _⟩))
  have hservice : (metaObjectService, FieldType.string serviceName) ∈
      (construct serviceName objectPath targetProperties).memberInstances :=
    Table.mem_emplace_iff.mpr (Or.inr ⟨rfl, hfree⟩)
  constructor
  · unfold getField MemberInstances.getField
    rw [Table.find_eq_some_iff.mpr ⟨hpath, rfl⟩]
    rfl
  · unfold getField MemberInstances.getField
    rw [Table.find_eq_some_iff.mpr ⟨hservice, rfl⟩]
    rfl

/-- {lit}`std::map::merge`: the target takes over the interfaces that it lacks, and the
source keeps the others. -/
def mergeProperties (target source : DBusPropertyEndpointMap) :
    DBusPropertyEndpointMap × DBusPropertyEndpointMap :=
  let moved := source.filter fun endpoint => endpoint.1 ∉ target.map Prod.fst
  let kept := source.filter fun endpoint => endpoint.1 ∈ target.map Prod.fst
  (moved.foldl (fun target endpoint => target.orderedInsert (fun a b => a.1 ≤ b.1) endpoint)
    target, kept)

/-- Interfaces that are there stay. -/
theorem mem_foldl_orderedInsert (target moved : DBusPropertyEndpointMap)
    {endpoint : Bytes × List PropertySetter} (hmem : endpoint ∈ target) :
    endpoint ∈ moved.foldl
      (fun target endpoint => target.orderedInsert (fun a b => a.1 ≤ b.1) endpoint) target := by
  induction moved generalizing target with
  | nil => exact hmem
  | cons first rest ih => exact ih _ ((List.mem_orderedInsert _).mpr (Or.inr hmem))

/-- What is left of a merged map has nothing more to give. -/
theorem mergeProperties_again (target source : DBusPropertyEndpointMap) :
    mergeProperties (mergeProperties target source).1 (mergeProperties target source).2 =
      mergeProperties target source := by
  have hknown : ∀ endpoint ∈ (mergeProperties target source).2,
      endpoint.1 ∈ (mergeProperties target source).1.map Prod.fst := by
    intro endpoint hmem
    obtain ⟨old, hold, hkey⟩ := List.mem_map.mp (of_decide_eq_true (List.mem_filter.mp hmem).2)
    exact List.mem_map.mpr ⟨old, mem_foldl_orderedInsert target _ hold, hkey⟩
  generalize mergeProperties target source = merged at hknown
  have hmoved : (merged.2.filter fun endpoint => endpoint.1 ∉ merged.1.map Prod.fst) = [] :=
    List.filter_eq_nil_iff.mpr fun endpoint hmem => by simpa using hknown endpoint hmem
  have hkept : (merged.2.filter fun endpoint => endpoint.1 ∈ merged.1.map Prod.fst) = merged.2 :=
    List.filter_eq_self.mpr fun endpoint hmem => by simpa using hknown endpoint hmem
  unfold mergeProperties
  rw [hmoved, hkept]
  rfl

end Object

/-! ## Operations -/

/-- What property changes and static fields store into an object, by its members. -/
structure Update where
  fields : MemberInstances → List (Bytes × FieldType)
  spares : ∀ members, ∀ field ∈ fields members, ¬ IsIdentity field.1

/-- A step of a link rule: it takes the other instance over, or stores one field. -/
inductive LinkStep
  | supplementOrUpdate
  | setField (field : Bytes × FieldType)

/-- The rule by which an instance of a provider supplements a target. -/
structure LinkRule where
  steps : MemberInstances → MemberInstances → List LinkStep
  spares : ∀ supplementer target field, .setField field ∈ steps supplementer target →
    ¬ IsIdentity field.1

/-- A step of a link rule at the target. -/
def LinkStep.apply (supplementer target : MemberInstances) : LinkStep → MemberInstances
  | .supplementOrUpdate => target.takeOver supplementer
  | .setField field => target.supplementOrUpdate field.1 field.2

/-- A link rule at the target. -/
def LinkRule.apply (rule : LinkRule) (supplementer target : MemberInstances) : MemberInstances :=
  (rule.steps supplementer target).foldl (LinkStep.apply supplementer) target

/-- {lit}`BaseEntity::defaultLinkProvider` takes the instance of the provider over. -/
def defaultLinkProvider : LinkRule where
  steps _ _ := [.supplementOrUpdate]
  spares _ _ _ hmem := (nomatch List.mem_singleton.mp hmem)

/-- The default rule takes over the supplementer. -/
theorem apply_defaultLinkProvider (supplementer target : MemberInstances) :
    defaultLinkProvider.apply supplementer target = target.takeOver supplementer :=
  rfl

/-- An update writes its fields. -/
def Update.apply (update : Update) (members : MemberInstances) : MemberInstances :=
  members.setFields (update.fields members)

/-- The objects by their numbers, and the cache of one entity. -/
structure State where
  objects : List Object := []
  instances : UInt64 → Option Nat := fun _ => none

/-- What is done to the objects and to the cache. -/
inductive Operation
  /-- An object is constructed. -/
  | construct (serviceName objectPath : Bytes) (targetProperties : DBusPropertyEndpointMap)
  | setInstances (ids : List Nat)
  | mergeInstance (id : Nat)
  | removeInstance (hash : UInt64)
  /-- {lit}`supplementInstance` of a provider with some instances. -/
  | supplementInstance (id : Nat) (supplementers : List Nat) (rule : LinkRule)
  /-- {lit}`fillMembers` or {lit}`supplementByStaticFields`. -/
  | update (id : Nat) (update : Update)

namespace State

/-- The members of one object are changed. -/
def modifyMembers (s : State) (id : Nat) (f : MemberInstances → MemberInstances) : State :=
  { s with
    objects := s.objects.modify id fun object =>
      { object with memberInstances := f object.memberInstances } }

/-- The interfaces of one object are changed. -/
def setProperties (s : State) (id : Nat) (targetProperties : DBusPropertyEndpointMap) : State :=
  { s with objects := s.objects.modify id fun object => { object with targetProperties } }

/-- {lit}`insert_or_assign` of an object under its hash. -/
def assign (stdHash : Bytes → UInt64) (s : State) (id : Nat) : State :=
  match s.objects[id]? with
  | none => s
  | some object =>
      { s with instances := Function.update s.instances (object.getHash stdHash) (some id) }

/-- {lit}`setInstances` -/
def setInstances (stdHash : Bytes → UInt64) (s : State) (ids : List Nat) : State :=
  ids.foldl (assign stdHash) s

/-- {lit}`mergeInternalMetadata`; a map merged with itself stays as it is. -/
def mergeInternalMetadata (s : State) (cachedId id : Nat) : State :=
  if cachedId = id then s
  else
    match s.objects[cachedId]?, s.objects[id]? with
    | some cached, some object =>
        let merged := Object.mergeProperties cached.targetProperties object.targetProperties
        (s.setProperties cachedId merged.1).setProperties id merged.2
    | _, _ => s

/-- {lit}`mergeInstance` -/
def mergeInstance (stdHash : Bytes → UInt64) (s : State) (id : Nat) : State :=
  match s.objects[id]? with
  | none => s
  | some object =>
      match s.instances (object.getHash stdHash) with
      | none => s.assign stdHash id
      | some cachedId =>
          (s.modifyMembers cachedId fun members =>
            members.takeOver object.memberInstances).mergeInternalMetadata cachedId id

/-- {lit}`removeInstance` -/
def removeInstance (s : State) (hash : UInt64) : State :=
  { s with instances := Function.update s.instances hash none }

/-- One instance of a provider after the other. -/
def supplementInstance (s : State) (id : Nat) (supplementers : List Nat) (rule : LinkRule) :
    State :=
  supplementers.foldl (fun s supplementer =>
    match s.objects[supplementer]? with
    | none => s
    | some supplement => s.modifyMembers id fun members =>
        rule.apply supplement.memberInstances members) s

/-- The state after an operation. -/
def apply (stdHash : Bytes → UInt64) (s : State) : Operation → State
  | .construct serviceName objectPath targetProperties =>
      { s with
        objects := s.objects ++ [Object.construct serviceName objectPath targetProperties] }
  | .setInstances ids => s.setInstances stdHash ids
  | .mergeInstance id => s.mergeInstance stdHash id
  | .removeInstance hash => s.removeInstance hash
  | .supplementInstance id supplementers rule => s.supplementInstance id supplementers rule
  | .update id update => s.modifyMembers id update.apply

/-- The state after some operations, from an empty cache. -/
def after (stdHash : Bytes → UInt64) (operations : List Operation) : State :=
  operations.foldl (apply stdHash) {}

end State

/-! ## The invariant -/

/-- A change of the members leaves the two meta fields alone. -/
def Spares (f : MemberInstances → MemberInstances) : Prop :=
  ∀ members memberName, IsIdentity memberName →
    (f members).getField memberName = members.getField memberName

/-- Taking over leaves the identity. -/
theorem spares_takeOver (supplementer : MemberInstances) : Spares (·.takeOver supplementer) := by
  intro members memberName hidentity
  rw [MemberInstances.getField_takeOver, if_neg]
  exact fun h => h.2 hidentity.isMeta

theorem spares_supplementOrUpdate {field : Bytes × FieldType} (hfield : ¬ IsIdentity field.1) :
    Spares (·.supplementOrUpdate field.1 field.2) := by
  intro members memberName hidentity
  rw [MemberInstances.getField_supplementOrUpdate, if_neg]
  rintro rfl
  exact hfield hidentity

theorem Update.spares_apply (update : Update) : Spares update.apply := by
  intro members memberName hidentity
  apply MemberInstances.getField_setFields_of_not_mem
  rintro field hmem rfl
  exact update.spares members field hmem hidentity

theorem LinkRule.spares_apply (rule : LinkRule) (supplementer : MemberInstances) :
    Spares (rule.apply supplementer) := by
  intro members memberName hidentity
  have hfold : ∀ (steps : List LinkStep) (target : MemberInstances),
      (∀ field, .setField field ∈ steps → ¬ IsIdentity field.1) →
        (steps.foldl (LinkStep.apply supplementer) target).getField memberName =
          target.getField memberName := by
    intro steps
    induction steps with
    | nil => exact fun _ _ => rfl
    | cons step rest ih =>
        intro target hspares
        refine (ih _ fun field hmem => hspares field (List.mem_cons_of_mem _ hmem)).trans ?_
        cases step with
        | supplementOrUpdate => exact spares_takeOver supplementer target memberName hidentity
        | setField field =>
            exact spares_supplementOrUpdate (hspares field List.mem_cons_self) target memberName
              hidentity
  exact hfold _ members (rule.spares supplementer members)

/-- Every object has its own path and service in its meta fields, and every entry of the
cache stands under the hash of its own path and service. -/
structure State.Sound (stdHash : Bytes → UInt64) (s : State) : Prop where
  identified : ∀ (id : Nat) (object : Object), s.objects[id]? = some object → object.Identified
  placed : ∀ hash id, s.instances hash = some id →
    ∃ object : Object, s.objects[id]? = some object ∧ object.getHash stdHash = hash

/-- The same path, service and meta fields. -/
structure Object.Keeps (object changed : Object) : Prop where
  serviceName : changed.serviceName = object.serviceName
  objectPath : changed.objectPath = object.objectPath
  getField : ∀ memberName, IsIdentity memberName →
    changed.getField memberName = object.getField memberName

/-- An object that keeps its identity has its own. -/
theorem Object.Keeps.identified {object changed : Object} (h : object.Keeps changed)
    (hidentified : object.Identified) : changed.Identified where
  path := by rw [h.getField _ (Or.inl rfl), h.objectPath, hidentified.path]
  service := by rw [h.getField _ (Or.inr rfl), h.serviceName, hidentified.service]

namespace State

variable {stdHash : Bytes → UInt64} {s : State} {id : Nat}

/-- A change that keeps identities leaves a sound state. -/
theorem Sound.modify {f : Object → Object} (h : s.Sound stdHash)
    (hf : ∀ object : Object, object.Keeps (f object)) :
    Sound stdHash { s with objects := s.objects.modify id f } where
  identified other changed hchanged := by
    simp only [List.getElem?_modify, Option.map_eq_map, Option.map_eq_some_iff] at hchanged
    obtain ⟨object, hobject, rfl⟩ := hchanged
    split
    · exact (hf object).identified (h.identified other object hobject)
    · exact h.identified other object hobject
  placed hash other hother := by
    obtain ⟨object, hobject, hhash⟩ := h.placed hash other hother
    refine ⟨if id = other then f object else object, ?_, ?_⟩
    · simp [List.getElem?_modify, hobject]
    · split
      · unfold Object.getHash
        rw [(hf object).serviceName, (hf object).objectPath]
        exact hhash
      · exact hhash

theorem Sound.modifyMembers {f : MemberInstances → MemberInstances} (h : s.Sound stdHash)
    (hf : Spares f) : (s.modifyMembers id f).Sound stdHash :=
  h.modify fun object => ⟨rfl, rfl, hf object.memberInstances⟩

theorem Sound.setProperties {targetProperties : DBusPropertyEndpointMap} (h : s.Sound stdHash) :
    (s.setProperties id targetProperties).Sound stdHash :=
  h.modify fun _ => ⟨rfl, rfl, fun _ _ => rfl⟩

theorem Sound.assign (h : s.Sound stdHash) : (s.assign stdHash id).Sound stdHash := by
  unfold State.assign
  split
  · exact h
  · next object hobject =>
      refine ⟨h.identified, fun hash other hother => ?_⟩
      dsimp only at hother
      by_cases hhash : hash = object.getHash stdHash
      · subst hhash
        rw [Function.update_self] at hother
        obtain rfl := Option.some.inj hother
        exact ⟨object, hobject, rfl⟩
      · rw [Function.update_of_ne hhash] at hother
        exact h.placed hash other hother

theorem Sound.setInstances (h : s.Sound stdHash) (ids : List Nat) :
    (s.setInstances stdHash ids).Sound stdHash := by
  induction ids generalizing s with
  | nil => exact h
  | cons id rest ih => exact ih h.assign

theorem Sound.mergeInternalMetadata {cachedId : Nat} (h : s.Sound stdHash) :
    (s.mergeInternalMetadata cachedId id).Sound stdHash := by
  unfold State.mergeInternalMetadata
  split
  · exact h
  · split
    · exact h.setProperties.setProperties
    · exact h

theorem Sound.mergeInstance (h : s.Sound stdHash) : (s.mergeInstance stdHash id).Sound stdHash := by
  unfold State.mergeInstance
  split
  · exact h
  · split
    · exact h.assign
    · exact (h.modifyMembers (spares_takeOver _)).mergeInternalMetadata

theorem Sound.removeInstance (h : s.Sound stdHash) (hash : UInt64) :
    (s.removeInstance hash).Sound stdHash := by
  refine ⟨h.identified, fun other id hid => ?_⟩
  dsimp only [State.removeInstance] at hid
  by_cases hother : other = hash
  · rw [hother, Function.update_self] at hid
    exact absurd hid (by simp)
  · rw [Function.update_of_ne hother] at hid
    exact h.placed other id hid

theorem Sound.supplementInstance (h : s.Sound stdHash) (supplementers : List Nat)
    (rule : LinkRule) : (s.supplementInstance id supplementers rule).Sound stdHash := by
  induction supplementers generalizing s with
  | nil => exact h
  | cons supplementer rest ih =>
      refine ih ?_
      dsimp only
      split
      · exact h
      · exact h.modifyMembers (rule.spares_apply _)

theorem Sound.construct (h : s.Sound stdHash) (serviceName objectPath : Bytes)
    (targetProperties : DBusPropertyEndpointMap) :
    Sound stdHash { s with
      objects := s.objects ++ [Object.construct serviceName objectPath targetProperties] } where
  identified id object hobject := by
    rcases List.mem_append.mp (List.mem_of_getElem? hobject) with hold | hnew
    · obtain ⟨old, hold⟩ := List.mem_iff_getElem?.mp hold
      exact h.identified old object hold
    · rw [List.mem_singleton.mp hnew]
      exact Object.identified_construct serviceName objectPath targetProperties
  placed hash id hid := by
    obtain ⟨object, hobject, hhash⟩ := h.placed hash id hid
    refine ⟨object, ?_, hhash⟩
    rw [List.getElem?_append_left (List.getElem?_eq_some_iff.mp hobject).1]
    exact hobject

/-- Every operation keeps the cache sound. -/
theorem Sound.apply (h : s.Sound stdHash) (operation : Operation) :
    (s.apply stdHash operation).Sound stdHash := by
  cases operation with
  | construct serviceName objectPath targetProperties =>
      exact h.construct serviceName objectPath targetProperties
  | setInstances ids => exact h.setInstances ids
  | mergeInstance id => exact h.mergeInstance
  | removeInstance hash => exact h.removeInstance hash
  | supplementInstance id supplementers rule => exact h.supplementInstance supplementers rule
  | update id update => exact h.modifyMembers update.spares_apply

/-- The run lemma: every state is sound. -/
theorem sound_after (stdHash : Bytes → UInt64) (operations : List Operation) :
    (after stdHash operations).Sound stdHash := by
  have hstart : State.Sound stdHash {} := by
    refine ⟨fun id object hobject => ?_, fun hash id hid => ?_⟩
    · rw [List.getElem?_nil] at hobject
      exact absurd hobject (by simp)
    · exact absurd hid (by simp)
  have hrun := Run.foldl (apply stdHash) {} operations
  refine hrun.invariant hstart ?_
  rintro s operation t hs rfl
  exact hs.apply operation

/-! ## What a merge does -/

variable {cachedId : Nat} {object cached : Object}

/-- An object that is not in the cache is put there. -/
theorem mergeInstance_of_absent (hobject : s.objects[id]? = some object)
    (habsent : s.instances (object.getHash stdHash) = none) :
    s.mergeInstance stdHash id =
      { s with instances := Function.update s.instances (object.getHash stdHash) (some id) } := by
  simp [mergeInstance, assign, hobject, habsent]

/-- The cached object itself is merged into itself. -/
theorem mergeInstance_of_self (hobject : s.objects[id]? = some object)
    (hself : s.instances (object.getHash stdHash) = some id) :
    s.mergeInstance stdHash id =
      s.modifyMembers id fun members => members.takeOver object.memberInstances := by
  simp [mergeInstance, hobject, hself, mergeInternalMetadata]

/-- Another object is merged into the cached one, and gives it the interfaces that it
lacks. -/
theorem mergeInstance_of_other (hobject : s.objects[id]? = some object)
    (hother : s.instances (object.getHash stdHash) = some cachedId) (hne : cachedId ≠ id)
    (hcached : s.objects[cachedId]? = some cached) :
    s.mergeInstance stdHash id =
      let properties := Object.mergeProperties cached.targetProperties object.targetProperties
      ((s.modifyMembers cachedId fun members =>
        members.takeOver object.memberInstances).setProperties cachedId properties.1).setProperties
          id properties.2 := by
  simp [mergeInstance, hobject, hother, mergeInternalMetadata, hne, modifyMembers, hcached]

end State

/-- The same object but for the order of its members. -/
structure Object.SameFields (object other : Object) : Prop where
  serviceName : other.serviceName = object.serviceName
  objectPath : other.objectPath = object.objectPath
  targetProperties : other.targetProperties = object.targetProperties
  getField : ∀ memberName, other.getField memberName = object.getField memberName

/-- The same object as far as {lit}`getValue` tells. -/
structure Object.SameValues (object other : Object) : Prop where
  serviceName : other.serviceName = object.serviceName
  objectPath : other.objectPath = object.objectPath
  targetProperties : other.targetProperties = object.targetProperties
  hasField : ∀ memberName,
    (other.getField memberName).isSome = (object.getField memberName).isSome
  getValue : ∀ memberName,
    (other.getField memberName).getValue = (object.getField memberName).getValue

/-- The same fields have the same values. -/
theorem Object.SameFields.sameValues {object other : Object} (h : object.SameFields other) :
    object.SameValues other :=
  ⟨h.serviceName, h.objectPath, h.targetProperties, fun memberName => by rw [h.getField],
    fun memberName => by rw [h.getField]⟩

/-- An object has its own fields. -/
theorem Object.SameFields.refl (object : Object) : object.SameFields object :=
  ⟨rfl, rfl, rfl, fun _ => rfl⟩

namespace State

variable {stdHash : Bytes → UInt64} {s : State} {id cachedId : Nat} {object cached : Object}

/-- The same cache of objects that are related one by one. -/
structure Same (R : Object → Object → Prop) (s t : State) : Prop where
  instances : t.instances = s.instances
  objects : ∀ id : Nat, Option.Rel R s.objects[id]? t.objects[id]?

/-- Only one object is changed. -/
theorem Same.modifyMembers {R : Object → Object → Prop} {f : MemberInstances → MemberInstances}
    (hrefl : ∀ object, R object object)
    (h : ∀ object, s.objects[id]? = some object →
      R object { object with memberInstances := f object.memberInstances }) :
    Same R s (s.modifyMembers id f) where
  instances := rfl
  objects other := by
    unfold State.modifyMembers
    rw [List.getElem?_modify]
    cases hobject : s.objects[other]? with
    | none => exact .none
    | some object =>
        refine .some ?_
        dsimp only
        by_cases hid : id = other
        · subst hid
          rw [if_pos rfl]
          exact h object hobject
        · rw [if_neg hid]
          exact hrefl object

/-- Properties that the object has already. -/
theorem setProperties_eq_self {targetProperties : DBusPropertyEndpointMap}
    (h : ∀ object, s.objects[id]? = some object → object.targetProperties = targetProperties) :
    s.setProperties id targetProperties = s := by
  unfold setProperties
  congr 1
  apply List.ext_getElem?
  intro other
  rw [List.getElem?_modify]
  cases hobject : s.objects[other]? with
  | none => rfl
  | some object =>
      by_cases hid : id = other
      · subst hid
        simp [← h object hobject]
      · simp [hid]

/-- The properties of an object are not among its members. -/
theorem targetProperties_modifyMembers {f : MemberInstances → MemberInstances} {other : Nat}
    (hobject : s.objects[other]? = some object) {changed : Object}
    (hchanged : (s.modifyMembers id f).objects[other]? = some changed) :
    changed.targetProperties = object.targetProperties := by
  unfold modifyMembers at hchanged
  rw [List.getElem?_modify, hobject] at hchanged
  obtain rfl := Option.some.inj hchanged
  split <;> rfl

/-! ## Merging again -/

/-- The object that is merged is another one than the cached: its second merge changes
nothing. -/
theorem same_mergeInstance_of_other (hobject : s.objects[id]? = some object)
    (hother : s.instances (object.getHash stdHash) = some cachedId) (hne : cachedId ≠ id)
    (hcached : s.objects[cachedId]? = some cached) :
    Same Object.SameFields (s.mergeInstance stdHash id)
      ((s.mergeInstance stdHash id).mergeInstance stdHash id) := by
  have hfirst := mergeInstance_of_other hobject hother hne hcached
  have hobject' : (s.mergeInstance stdHash id).objects[id]? = some { object with
      targetProperties :=
        (Object.mergeProperties cached.targetProperties object.targetProperties).2 } := by
    simp [hfirst, modifyMembers, setProperties, hne, hobject]
  have hcached' : (s.mergeInstance stdHash id).objects[cachedId]? = some { cached with
      memberInstances := cached.memberInstances.takeOver object.memberInstances
      targetProperties :=
        (Object.mergeProperties cached.targetProperties object.targetProperties).1 } := by
    simp [hfirst, modifyMembers, setProperties, hne.symm, hcached]
  have hinstances : (s.mergeInstance stdHash id).instances = s.instances := by
    rw [hfirst]
    rfl
  rw [mergeInstance_of_other hobject' (hinstances ▸ hother) hne hcached']
  dsimp only
  rw [Object.mergeProperties_again]
  rw [setProperties_eq_self fun _ => targetProperties_modifyMembers hcached',
    setProperties_eq_self fun _ => targetProperties_modifyMembers hobject']
  apply Same.modifyMembers Object.SameFields.refl
  intro merged hmerged
  obtain rfl := Option.some.inj (hcached'.symm.trans hmerged)
  exact ⟨rfl, rfl, rfl, fun _ => MemberInstances.getField_takeOver_takeOver⟩

/-- The cached object is merged into itself: the second time changes nothing. -/
theorem same_mergeInstance_of_self (hobject : s.objects[id]? = some object)
    (hself : s.instances (object.getHash stdHash) = some id) :
    Same Object.SameFields (s.mergeInstance stdHash id)
      ((s.mergeInstance stdHash id).mergeInstance stdHash id) := by
  have hfirst := mergeInstance_of_self hobject hself
  have hobject' : (s.mergeInstance stdHash id).objects[id]? = some { object with
      memberInstances := object.memberInstances.takeOver object.memberInstances } := by
    simp [hfirst, modifyMembers, hobject]
  have hinstances : (s.mergeInstance stdHash id).instances = s.instances := by
    rw [hfirst]
    rfl
  rw [mergeInstance_of_self hobject' (hinstances ▸ hself)]
  apply Same.modifyMembers Object.SameFields.refl
  intro merged hmerged
  obtain rfl := Option.some.inj (hobject'.symm.trans hmerged)
  refine ⟨rfl, rfl, rfl, fun memberName => ?_⟩
  exact MemberInstances.getField_takeOver_self

/-- The first merge puts the object into the cache, and the second one merges it into
itself. -/
theorem same_mergeInstance_of_absent (hobject : s.objects[id]? = some object)
    (habsent : s.instances (object.getHash stdHash) = none) :
    Same Object.SameValues (s.mergeInstance stdHash id)
      ((s.mergeInstance stdHash id).mergeInstance stdHash id) := by
  have hfirst := mergeInstance_of_absent hobject habsent
  have hobject' : (s.mergeInstance stdHash id).objects[id]? = some object := by
    rw [hfirst]
    exact hobject
  have hself : (s.mergeInstance stdHash id).instances (object.getHash stdHash) = some id := by
    simp [hfirst]
  rw [mergeInstance_of_self hobject' hself]
  apply Same.modifyMembers fun object => (Object.SameFields.refl object).sameValues
  intro merged hmerged
  obtain rfl := Option.some.inj (hobject'.symm.trans hmerged)
  exact ⟨rfl, rfl, rfl, fun _ => MemberInstances.isSome_getField_takeOver_self,
    fun _ => MemberInstances.getValue_getField_takeOver_self⟩

end State

/-! ## The cache after any operations -/

/-- What a merge makes of the cached object: its own meta fields, and every field that the
other object has. -/
structure Object.MergedFrom (cached object merged : Object) : Prop where
  serviceName : merged.serviceName = cached.serviceName
  objectPath : merged.objectPath = cached.objectPath
  taken : ∀ memberName, ¬ IsMeta memberName → object.getField memberName ≠ none →
    merged.getField memberName = some (object.getField memberName).getValue
  kept : ∀ memberName, IsMeta memberName ∨ object.getField memberName = none →
    merged.getField memberName = cached.getField memberName

/-- A merged object has what it takes over. -/
theorem Object.MergedFrom.of_takeOver {cached object merged : Object}
    (hserviceName : merged.serviceName = cached.serviceName)
    (hobjectPath : merged.objectPath = cached.objectPath)
    (hmembers : merged.memberInstances =
      cached.memberInstances.takeOver object.memberInstances) :
    cached.MergedFrom object merged where
  serviceName := hserviceName
  objectPath := hobjectPath
  taken memberName hmeta hfield := by
    unfold getField at *
    rw [hmembers, MemberInstances.getField_takeOver, if_pos ⟨hfield, hmeta⟩]
  kept memberName hkept := by
    unfold getField at *
    rw [hmembers, MemberInstances.getField_takeOver, if_neg]
    rintro ⟨hfield, hmeta⟩
    exact hkept.elim hmeta hfield

namespace State

variable {stdHash : Bytes → UInt64} {s : State} {id cachedId : Nat} {object cached : Object}

/-- One merge into an object that is cached. -/
theorem mergedFrom_mergeInstance (hobject : s.objects[id]? = some object)
    (hentry : s.instances (object.getHash stdHash) = some cachedId)
    (hcached : s.objects[cachedId]? = some cached) :
    ∃ merged, (s.mergeInstance stdHash id).objects[cachedId]? = some merged ∧
      cached.MergedFrom object merged := by
  by_cases hself : cachedId = id
  · subst hself
    obtain rfl := Option.some.inj (hcached.symm.trans hobject)
    rw [mergeInstance_of_self hobject hentry]
    refine ⟨{ cached with
      memberInstances := cached.memberInstances.takeOver cached.memberInstances }, ?_,
      .of_takeOver rfl rfl rfl⟩
    simp [modifyMembers, hobject]
  · rw [mergeInstance_of_other hobject hentry hself hcached]
    refine ⟨{ cached with
      memberInstances := cached.memberInstances.takeOver object.memberInstances
      targetProperties :=
        (Object.mergeProperties cached.targetProperties object.targetProperties).1 }, ?_,
      .of_takeOver rfl rfl rfl⟩
    simp [modifyMembers, setProperties, Ne.symm hself, hcached]

/-- What the merge of an object relies on. -/
structure MergesSoundly (stdHash : Bytes → UInt64) (s : State) (id : Nat) (object : Object) :
    Prop where
  into : ∀ cachedId, s.instances (object.getHash stdHash) = some cachedId →
    ∃ cached merged, s.objects[cachedId]? = some cached ∧
      (s.mergeInstance stdHash id).objects[cachedId]? = some merged ∧
      cached.MergedFrom object merged
  twice : s.instances (object.getHash stdHash) ≠ none →
    Same Object.SameFields (s.mergeInstance stdHash id)
      ((s.mergeInstance stdHash id).mergeInstance stdHash id)
  first : s.instances (object.getHash stdHash) = none →
    Same Object.SameValues (s.mergeInstance stdHash id)
      ((s.mergeInstance stdHash id).mergeInstance stdHash id)

/-- In a sound state objects are merged soundly. -/
theorem Sound.mergesSoundly (h : s.Sound stdHash) (hobject : s.objects[id]? = some object) :
    s.MergesSoundly stdHash id object where
  into cachedId hentry := by
    obtain ⟨cached, hcached, -⟩ := h.placed _ cachedId hentry
    obtain ⟨merged, hmerged, hfrom⟩ := mergedFrom_mergeInstance hobject hentry hcached
    exact ⟨cached, merged, hcached, hmerged, hfrom⟩
  twice hpresent := by
    obtain ⟨cachedId, hentry⟩ := Option.ne_none_iff_exists'.mp hpresent
    by_cases hself : cachedId = id
    · exact same_mergeInstance_of_self hobject (hself ▸ hentry)
    · obtain ⟨cached, hcached, -⟩ := h.placed _ cachedId hentry
      exact same_mergeInstance_of_other hobject hentry hself hcached
  first habsent := same_mergeInstance_of_absent hobject habsent

end State

/-- After any operations the entries of the cache stand under the hashes of their own paths
and services, which their meta fields hold, and merges do as they should. -/
theorem merging_sound (stdHash : Bytes → UInt64) (operations : List Operation) :
    (∀ hash id, (State.after stdHash operations).instances hash = some id →
      ∃ object, (State.after stdHash operations).objects[id]? = some object ∧
        object.getHash stdHash = hash ∧ object.Identified) ∧
      ∀ id object, (State.after stdHash operations).objects[id]? = some object →
        (State.after stdHash operations).MergesSoundly stdHash id object := by
  have hsound := State.sound_after stdHash operations
  refine ⟨fun hash id hid => ?_, fun id object hobject => hsound.mergesSoundly hobject⟩
  obtain ⟨object, hobject, hhash⟩ := hsound.placed hash id hid
  exact ⟨object, hobject, hhash, hsound.identified id object hobject⟩

/-- The member that keeps the host's state as it was read. -/
def metaStatus : Bytes := bytes "__meta__raw_dbus_status"

/-- The status of a host is stored. -/
def storeStatus (status : String) : Update where
  fields _ := [(metaStatus, .string (bytes status))]
  spares := by
    intro _ field hmem
    rw [List.mem_singleton.mp hmem]
    show ¬ IsIdentity metaStatus
    decide

/-- The host's state is read twice into two objects, of which the first is cached. -/
def hostStates : List Operation :=
  [.construct (bytes "xyz.openbmc_project.State.Host") (bytes "/xyz/openbmc_project/state/host0") [],
    .update 0 (storeStatus "Off"), .setInstances [0],
    .construct (bytes "xyz.openbmc_project.State.Host") (bytes "/xyz/openbmc_project/state/host0") [],
    .update 1 (storeStatus "Running")]

/-- A merge passes over this member too, though it is none of the two. -/
theorem metaStatus_not_taken :
    ¬ ∀ (stdHash : Bytes → UInt64) (operations : List Operation) (id cachedId : Nat)
      (object merged : Object) (memberName : Bytes),
      (State.after stdHash operations).objects[id]? = some object →
      (State.after stdHash operations).instances (object.getHash stdHash) = some cachedId →
      ((State.after stdHash operations).mergeInstance stdHash id).objects[cachedId]? =
        some merged →
      ¬ IsIdentity memberName → object.getField memberName ≠ none →
      (merged.getField memberName).getValue = (object.getField memberName).getValue := by
  intro h
  have htaken := h (fun _ => 0) hostStates 1 0 _ _ metaStatus rfl rfl rfl (by decide) (by decide)
  exact absurd htaken (by decide)

end Merging
end Entity
end ObmcWebapp
