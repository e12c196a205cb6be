import ObmcWebapp.Redfish.Collections

/-!
# Redfish - The getters that raise

Whether an exception leaves the getters of a node is decided by the tree of getters
alone: by the values that they were given, by the texts that cannot be serialised, and,
for an annotation with a number of items, by what was written before it.

Main results:

- Theorems {lit}`Action.process_settles`, {lit}`Action.processAll_settles`: what an action has
  written when it ends normally, and when an exception leaves it.
-/

open Library

namespace ObmcWebapp
namespace Redfish

namespace Action

/-! ## What is written -/

/-- The members that were written, the last one first, and which of them are arrays. -/
abbrev Kinds := List (Bytes × Bool)

/-- The members after the errors that {lit}`childs` reports. -/
def Kinds.reported (errors : List Bytes) (kinds : Kinds) : Kinds :=
  errors.foldl (fun kinds property => (Action.annotation property, true) :: kinds) kinds

mutual

/-- The members after an action that ends normally. -/
def written (kinds : Kinds) : Action → Kinds
  | .field name (.ok value) => (name, value.isArray) :: kinds
  | .enum name _ => (name, false) :: kinds
  | .scalar name (.ok none) => (name, false) :: kinds
  | .scalar name (.ok (some value)) =>
      if value.getString = some [] then kinds else (name, value.isArray) :: kinds
  | .scalar name (.error _) | .entityEnum name (.error _) =>
      (name, false) :: (Action.annotation name, true) :: kinds
  | .entityEnum name (.ok _) => (name, false) :: kinds
  | .object name errors childs =>
      if writtenAll (Kinds.reported errors []) childs = [] then kinds else (name, false) :: kinds
  | .collection name _ _ => (name, true) :: kinds
  | .collectionSize itemFieldName => (countName itemFieldName, false) :: kinds
  | .entity errors childs => writtenAll (kinds.reported errors) childs
  | .field _ (.error _) | .raise _ => kinds

/-- What several getters write. -/
def writtenAll (kinds : Kinds) : List Action → Kinds
  | [] => kinds
  | action :: rest => writtenAll (action.written kinds) rest

end

/-! ## What raises -/

mutual

/-- An exception leaves an action that follows others. -/
def Raises (kinds : Kinds) : Action → Prop
  | .field _ (.ok value) | .scalar _ (.ok (some value)) => value.utf8Valid = false
  | .field _ (.error _) | .raise _ => True
  | .scalar _ (.error exception) => exception.isRuntimeError = false
  | .object _ errors childs =>
      -- the object is added as a whole, with the names of its members
      RaisesAny (Kinds.reported errors []) childs ∨
        ∃ entry ∈ writtenAll (Kinds.reported errors []) childs, ¬ Utf8.Valid entry.1
  | .collection _ _ childs => RaisesEach childs
  | .collectionSize itemFieldName => kinds.lookup itemFieldName = some false
  | .entity errors childs => RaisesAny (kinds.reported errors) childs
  | _ => False

/-- One of some actions in one context. -/
def RaisesAny (kinds : Kinds) : List Action → Prop
  | [] => False
  | action :: rest => action.Raises kinds ∨ RaisesAny (action.written kinds) rest

/-- One of the children of a collection, or its missing field name. -/
def RaisesEach : List Action → Prop
  | [] => False
  | child :: rest => child.Raises [] ∨ child.fieldName = none ∨ RaisesEach rest

end

/-! ## Payloads that follow the actions -/

/-- A payload has the members that were written, all with valid values. -/
structure Follows (r : RedfishResponse) (kinds : Kinds) : Prop where
  isObject : r.payload.isObject = true
  kind : ∀ name, (r.payload.member name).map Json.isArray = kinds.lookup name
  valid : ∀ entry ∈ r.payload.items,
    (kinds.lookup entry.1).isSome = true ∧ entry.2.AllTexts Utf8.Valid

/-- A name is there with some kind. -/
private theorem lookup_isSome_iff {kinds : Kinds} {name : Bytes} :
    (kinds.lookup name).isSome = true ↔ ∃ entry ∈ kinds, entry.1 = name := by
  induction kinds with
  | nil => simp
  | cons entry rest ih =>
      rw [List.lookup_cons, List.exists_mem_cons_iff]
      by_cases hname : entry.1 = name
      · simp [hname]
      · rw [beq_eq_false_iff_ne.mpr (Ne.symm hname)]
        simp only [hname, false_or]
        exact ih

namespace Follows

variable {r r' : RedfishResponse} {kinds : Kinds} {name : Bytes} {value : Json}

/-- The first response has no members. -/
theorem initial (prettyOutput : Bool) : Follows { prettyOutput } [] :=
  ⟨rfl, fun _ => rfl, fun _ hmem => absurd hmem List.not_mem_nil⟩

/-- The head does not count. -/
theorem setResponse (h : Follows r kinds) (response : Response) :
    Follows { r with response } kinds :=
  ⟨h.isObject, h.kind, h.valid⟩

/-- A member that is set is written. -/
theorem set (h : Follows r kinds) (hvalue : value.AllTexts Utf8.Valid) (response : Response) :
    Follows { r with payload := r.payload.set name value, response }
      ((name, value.isArray) :: kinds) where
  isObject := Json.isObject_set h.isObject name value
  kind := by
    intro other
    rw [Json.member_set h.isObject, List.lookup_cons]
    by_cases hname : other = name
    · simp [hname]
    · rw [if_neg hname, beq_eq_false_iff_ne.mpr hname]
      exact h.kind other
  valid := by
    obtain ⟨members, hpayload⟩ : ∃ members, r.payload = .object members := by
      cases hpayload : r.payload with
      | object members => exact ⟨members, rfl⟩
      | _ => exact absurd (hpayload ▸ h.isObject) (by simp [Json.isObject])
    have hold := h.valid
    rw [hpayload] at hold ⊢
    intro entry hmem
    rw [List.lookup_cons]
    rcases Json.mem_insertMember hmem with rfl | hmember
    · simp [hvalue]
    · obtain ⟨hsome, hvalid⟩ := hold entry hmember
      refine ⟨?_, hvalid⟩
      split
      · rfl
      · exact hsome

/-- A member has valid texts. -/
theorem member_valid (h : Follows r kinds) (hmember : r.payload.member name = some value) :
    value.AllTexts Utf8.Valid := by
  cases hpayload : r.payload with
  | object members =>
      rw [hpayload] at hmember
      obtain ⟨before, after, hmembers, -⟩ := List.lookup_eq_some_iff.mp hmember
      apply (h.valid (name, value) _).2
      rw [hpayload, Json.items, hmembers]
      simp
  | _ => exact absurd (hpayload ▸ h.isObject) (by simp [Json.isObject])

/-- A payload can be serialised exactly if the names of its members are valid. -/
theorem utf8Valid_iff (h : Follows r kinds) :
    r.payload.utf8Valid = true ↔ ∀ entry ∈ kinds, Utf8.Valid entry.1 := by
  have hitems := h.valid
  have hkind := h.kind
  cases hpayload : r.payload with
  | object members =>
      rw [hpayload] at hitems hkind
      rw [Json.utf8Valid_iff, Json.allTexts_object]
      constructor
      · intro hvalid entry hentry
        have hsome := hkind entry.1
        have hlookup := lookup_isSome_iff.mpr ⟨entry, hentry, rfl⟩
        rw [← hsome, Option.isSome_map, Json.member, Option.isSome_iff_exists] at hlookup
        obtain ⟨value, hvalue⟩ := hlookup
        obtain ⟨before, after, hmembers, -⟩ := List.lookup_eq_some_iff.mp hvalue
        exact (hvalid (entry.1, value) (by rw [hmembers]; simp)).1
      · intro hvalid entry hentry
        obtain ⟨hsome, htexts⟩ := hitems entry hentry
        obtain ⟨other, hother, hname⟩ := lookup_isSome_iff.mp hsome
        exact ⟨hname ▸ hvalid other hother, htexts⟩
  | _ => exact absurd (hpayload ▸ h.isObject) (by simp [Json.isObject])

/-- The payload is empty where nothing is written. -/
theorem payload_empty_iff (h : Follows r kinds) : r.payload = .object [] ↔ kinds = [] := by
  constructor
  · intro hempty
    apply List.eq_nil_iff_forall_not_mem.mpr
    intro entry hentry
    have hsome := lookup_isSome_iff.mpr ⟨entry, hentry, rfl⟩
    rw [← h.kind, hempty] at hsome
    exact absurd hsome (by simp [Json.member])
  · rintro rfl
    have hitems := h.valid
    cases hpayload : r.payload with
    | object members =>
        rw [hpayload] at hitems
        cases members with
        | nil => rfl
        | cons entry rest => exact absurd (hitems entry List.mem_cons_self).1 (by simp)
    | _ => exact absurd (hpayload ▸ h.isObject) (by simp [Json.isObject])

/-- A value that is added is written. -/
theorem add (h : Follows r kinds) (hadd : r.add name value = .ok r') :
    value.utf8Valid = true ∧ Follows r' ((name, value.isArray) :: kinds) := by
  unfold RedfishResponse.add at hadd
  split at hadd
  · next hvalid =>
      have htexts := (Json.utf8Valid_iff value).mp hvalid
      refine ⟨hvalid, ?_⟩
      split at hadd
      · next values =>
          split at hadd
          · next old hold =>
              cases hadd
              have hold := Json.allTexts_array.mp (h.member_valid hold)
              exact h.set (Json.allTexts_array.mpr (List.forall_mem_append.mpr
                ⟨hold, Json.allTexts_array.mp htexts⟩)) r.response
          · cases hadd
            exact h.set htexts r.response
      · cases hadd
        exact h.set htexts r.response
  · cases hadd

theorem add_null (h : Follows r kinds) (response : Response) :
    Follows { r with payload := r.payload.set name .null, response } ((name, false) :: kinds) :=
  h.set (by simp [Json.AllTexts]) response

/-- A report writes its annotation. -/
theorem report (h : Follows r kinds) (property : Bytes) :
    Follows (messages.internalErrorOf property r) ((Action.annotation property, true) :: kinds) := by
  have hmessage := messages.internalErrorMessage_valid
  have hset : ∀ values, (∀ value ∈ values, value.AllTexts Utf8.Valid) →
      Follows { r with
        payload := r.payload.set (Action.annotation property)
          ((Json.array values).pushBack messages.internalErrorMessage)
        response := (r.setStatus .internalServerError).response }
        ((Action.annotation property, true) :: kinds) := by
    intro values hvalues
    exact h.set (Json.allTexts_array.mpr (List.forall_mem_append.mpr
      ⟨hvalues, List.forall_mem_singleton.mpr hmessage⟩)) _
  have harray : ∃ values, RedfishResponse.asArray (r.payload.member (Action.annotation property)) =
      .array values ∧ ∀ value ∈ values, value.AllTexts Utf8.Valid := by
    unfold RedfishResponse.asArray
    split
    · next values hmember => exact ⟨values, rfl, Json.allTexts_array.mp (h.member_valid hmember)⟩
    · exact ⟨[], rfl, fun _ hmem => absurd hmem List.not_mem_nil⟩
  obtain ⟨values, heq, hvalues⟩ := harray
  have hreport := hset values hvalues
  rw [← heq] at hreport
  exact hreport

/-- A report about a value writes both. -/
theorem reported (h : Follows r kinds) (name : Bytes) :
    Follows (Step.reported name r) ((name, false) :: (Action.annotation name, true) :: kinds) :=
  (h.report name).add_null _

/-- Each report writes its annotation. -/
theorem reportAll (h : Follows r kinds) (errors : List Bytes) :
    Follows (Redfish.reportAll errors r) (kinds.reported errors) := by
  induction errors generalizing r kinds with
  | nil => exact h
  | cons property rest ih => exact ih (h.report property)

end Follows

/-! ## How actions end -/

/-- A step that ends normally raises nothing and leaves what is written; an exception
leaves only one that raises. -/
structure Settles (kinds : Kinds) (raises : Prop)
    (outcome : Except Failure Unit × RedfishResponse) : Prop where
  returned : outcome.1 = .ok () → ¬ raises ∧ Follows outcome.2 kinds
  raised : ∀ exception, outcome.1 = .error (.raised exception) → raises

namespace Settles

variable {r : RedfishResponse} {kinds : Kinds} {name : Bytes} {value : Json} {raises : Prop}

/-- What returns without an exception. -/
theorem returns (h : Follows r kinds) : Settles kinds False (.ok (), r) :=
  ⟨fun _ => ⟨id, h⟩, fun _ heq => by cases heq⟩

/-- What raises in any case. -/
theorem raise (hraises : raises) (exception : Exception) :
    Settles kinds raises (Step.raise exception r) :=
  ⟨fun heq => (by cases heq), fun _ _ => hraises⟩

/-- Adding raises where the value is not valid. -/
theorem add (h : Follows r kinds) :
    Settles ((name, value.isArray) :: kinds) (value.utf8Valid = false) (Step.add name value r) := by
  unfold Step.add
  cases hadd : r.add name value with
  | ok added =>
      obtain ⟨hvalid, hfollows⟩ := h.add hadd
      exact ⟨fun _ => ⟨by simp [hvalid], hfollows⟩, fun _ heq => by cases heq⟩
  | error failure =>
      refine ⟨fun heq => (by cases heq), fun _ _ => ?_⟩
      unfold RedfishResponse.add at hadd
      split at hadd
      · split at hadd
        · split at hadd
          · cases hadd
          · cases hadd
        · cases hadd
      · next hvalid => simpa using hvalid

/-- A step that answers its exceptions and writes one member. -/
theorem answered (h : Follows r kinds) (hvalue : value.AllTexts Utf8.Valid)
    (harray : value.isArray = false) :
    Settles ((name, false) :: kinds) False
      (.ok (), { r with payload := r.payload.set name value }) :=
  returns (harray ▸ h.set hvalue r.response)

end Settles

/-- The text of an enumeration is valid and no list. -/
theorem enumJson_valid (value : Except Exception Bytes) :
    (Step.enumJson value).AllTexts Utf8.Valid ∧ (Step.enumJson value).isArray = false := by
  cases value with
  | error exception => exact ⟨by simp [Step.enumJson, Json.AllTexts], rfl⟩
  | ok text =>
      rw [Step.enumJson]
      split
      · next hvalid => exact ⟨(Json.utf8Valid_iff _).mp hvalid, rfl⟩
      · exact ⟨by simp [Json.AllTexts], rfl⟩

/-- Only an exception of the step itself leaves it; the context ends by none. -/
theorem destroyAfter_eq_raised {α : Type} {library : JsonLibrary} {mockContext : RedfishResponse}
    {result : Except Failure α} {exception : Exception}
    (h : destroyAfter library mockContext result = .error (.raised exception)) :
    result = .error (.raised exception) := by
  unfold destroyAfter at h
  split at h
  · cases h
  · cases h
  · split at h
    · exact h
    · next failure hdestroy =>
        unfold RedfishResponse.destroyContext at hdestroy
        split at hdestroy
        · cases hdestroy
          cases h
        · next hflash =>
            cases h
            exact absurd hdestroy (hflash _)

variable {library : JsonLibrary}

/-- An object is written where one of its members is. -/
theorem addUnlessEmpty_settles {r mockContext : RedfishResponse} {kinds filled : Kinds}
    (name : Bytes) (h : Follows r kinds) (hfilled : Follows mockContext filled) :
    Settles (if filled = [] then kinds else (name, false) :: kinds)
      (∃ entry ∈ filled, ¬ Utf8.Valid entry.1) (addUnlessEmpty name mockContext.payload r) := by
  by_cases hempty : filled = []
  · rw [if_pos hempty, hfilled.payload_empty_iff.mpr hempty]
    subst hempty
    exact ⟨fun _ => ⟨by simp, h⟩, fun _ heq => by cases heq⟩
  · rw [if_neg hempty, addUnlessEmpty_of_ne fun hnone => hempty (hfilled.payload_empty_iff.mp hnone)]
    have hobject : mockContext.payload.isArray = false := by
      have hisObject := hfilled.isObject
      cases hpayload : mockContext.payload with
      | array values => exact absurd (hpayload ▸ hisObject) (by simp [Json.isObject])
      | _ => rfl
    have hadd := @Settles.add r kinds name mockContext.payload h
    rw [hobject] at hadd
    have hraises : mockContext.payload.utf8Valid = false ↔
        ∃ entry ∈ filled, ¬ Utf8.Valid entry.1 := by
      rw [← Bool.not_eq_true, hfilled.utf8Valid_iff]
      simp only [not_forall, exists_prop]
    rwa [hraises] at hadd

/-- The number of elements raises where there is no list. -/
theorem countItems_settles {r : RedfishResponse} {kinds : Kinds} (itemFieldName : Bytes)
    (h : Follows r kinds) :
    Settles ((countName itemFieldName, false) :: kinds) (kinds.lookup itemFieldName = some false)
      (countItems itemFieldName r) := by
  have hkind := h.kind itemFieldName
  unfold countItems
  split
  · exact ⟨fun heq => (by cases heq), fun _ heq => by cases heq⟩
  · next values hmember =>
      rw [hmember] at hkind
      have hlookup : kinds.lookup itemFieldName ≠ some false := by
        rw [← hkind]
        simp [Json.isArray]
      have hadd := @Settles.add r kinds (countName itemFieldName)
        (.numberUnsigned values.length.toUInt64) h
      exact ⟨fun heq => ⟨hlookup, (hadd.returned heq).2⟩,
        fun exception heq => absurd (hadd.raised exception heq) (by simp [Json.utf8Valid])⟩
  · next value hother hmember =>
      refine Settles.raise ?_ _
      rw [← hkind, hmember]
      cases value with
      | array values => exact absurd rfl (hother values)
      | _ => rfl

/-- A scalar field raises what is no runtime error, and a text that is not valid. -/
theorem scalar_settles {r : RedfishResponse} {kinds : Kinds} (name : Bytes)
    (value : Except Exception (Option Json)) (h : Follows r kinds) :
    Settles ((scalar name value).written kinds) ((scalar name value).Raises kinds)
      (Step.scalar name value r) := by
  cases value with
  | ok value =>
      cases value with
      | none =>
          simp only [written, Raises]
          exact Settles.returns (h.add_null r.response)
      | some json =>
          simp only [written, Raises]
          by_cases hempty : json.getString = some []
          · have hvalid : json.utf8Valid = true := by
              cases json with
              | string text =>
                  cases hempty
                  decide
              | _ => exact absurd hempty (by simp [Json.getString])
            simp only [Step.scalar, Step.visitScalar, if_pos hempty, Step.catching, Step.skip,
              hvalid]
            exact ⟨fun _ => ⟨by simp, h⟩, fun _ heq => by cases heq⟩
          · have hadd := @Settles.add r kinds name json h
            have hscalar : Step.scalar name (.ok (some json)) r = Step.add name json r := by
              simp only [Step.scalar, Step.visitScalar, if_neg hempty, Step.catching, Step.add]
              cases hadd : r.add name json with
              | ok added => rfl
              | error failure =>
                  rw [RedfishResponse.add_error hadd]
                  rfl
            rw [hscalar, if_neg hempty]
            exact hadd
  | error exception =>
      simp only [written, Raises, Step.scalar, Step.catching, Step.raise]
      cases hruntime : exception.isRuntimeError with
      | true =>
          rw [if_pos rfl]
          exact ⟨fun _ => ⟨by simp, h.reported name⟩, fun _ heq => by cases heq⟩
      | false =>
          rw [if_neg (by simp)]
          exact Settles.raise rfl exception

/-- An enumeration of an entity does not raise. -/
theorem entityEnum_settles {r : RedfishResponse} {kinds : Kinds} (name : Bytes)
    (value : Except Exception (Option (Except Exception Bytes))) (h : Follows r kinds) :
    Settles ((entityEnum name value).written kinds) False (Step.entityEnum name value r) := by
  cases value with
  | ok value =>
      cases value with
      | none => exact Settles.returns (h.add_null r.response)
      | some text =>
          have heq : Step.entityEnum name (.ok (some text)) r =
              (.ok (), { r with payload := r.payload.set name (Step.enumJson text) }) := by
            simp only [Step.entityEnum, Step.catching, Step.enum_eq name text r]
          rw [heq]
          exact Settles.answered h (enumJson_valid text).1 (enumJson_valid text).2
  | error exception => exact Settles.returns (h.reported name)

/-- An object raises what its childs raise, and a member name that is not valid. -/
theorem object_settles {r : RedfishResponse} {kinds : Kinds} (name : Bytes)
    (errors : List Bytes) (childs : List Action) (h : Follows r kinds)
    (hchilds : Settles (writtenAll (Kinds.reported errors []) childs)
      (RaisesAny (Kinds.reported errors []) childs)
      (processAll library childs
        (Redfish.reportAll errors { prettyOutput := r.prettyOutput }))) :
    Settles ((object name errors childs).written kinds) ((object name errors childs).Raises kinds)
      (process library (.object name errors childs) r) := by
  simp only [written, Raises]
  constructor
  · intro heq
    obtain ⟨mockContext, hfilled, hadd⟩ := object_eq_ok (Prod.ext heq rfl)
    rw [hfilled] at hchilds
    obtain ⟨hquiet, hfollows⟩ := hchilds.returned rfl
    have hadded := addUnlessEmpty_settles name h hfollows
    rw [hadd] at hadded
    obtain ⟨hnames, hafter⟩ := hadded.returned rfl
    exact ⟨not_or.mpr ⟨hquiet, hnames⟩, hafter⟩
  · intro exception heq
    rw [process] at heq
    have hraised := destroyAfter_eq_raised heq
    cases hfilled : processAll library childs
        (Redfish.reportAll errors { prettyOutput := r.prettyOutput }) with
    | mk result mockContext =>
        rw [hfilled] at hraised hchilds
        cases result with
        | error failure => exact .inl (hchilds.raised exception hraised)
        | ok done =>
            have hfollows := (hchilds.returned rfl).2
            exact .inr ((addUnlessEmpty_settles name h hfollows).raised exception hraised)

/-- What elements have given when they end normally, and when an exception leaves one. -/
structure ElementsSettle (raises : Prop) (outcome : Except Failure (List Json)) : Prop where
  returned : ∀ array, outcome = .ok array →
    ¬ raises ∧ ∀ value ∈ array, value.AllTexts Utf8.Valid
  raised : ∀ exception, outcome = .error (.raised exception) → raises

/-- A list raises what its elements raise. -/
theorem collection_settles {r : RedfishResponse} {kinds : Kinds} (name : Bytes)
    (errors : List Bytes) (childs : List Action) (h : Follows r kinds)
    (helements : ElementsSettle (RaisesEach childs)
      (processElements library r.prettyOutput childs)) :
    Settles ((collection name errors childs).written kinds)
      ((collection name errors childs).Raises kinds)
      (process library (.collection name errors childs) r) := by
  simp only [written, Raises]
  constructor
  · intro heq
    obtain ⟨array, harray, hadd⟩ := collection_eq_ok (Prod.ext heq rfl)
    exact ⟨(helements.returned array harray).1, (h.add hadd).2⟩
  · intro exception heq
    rw [process] at heq
    have hraised := destroyAfter_eq_raised heq
    cases hresult : processElements library r.prettyOutput childs with
    | error failure =>
        rw [hresult] at hraised
        cases hraised
        exact helements.raised exception hresult
    | ok array =>
        -- the elements are valid, so that adding them raises nothing
        rw [hresult] at hraised
        have hvalid := (helements.returned array hresult).2
        have hinvalid := (@Settles.add r kinds name (.array (sorted library array)) h).raised
          exception hraised
        have hsorted : (Json.array (sorted library array)).utf8Valid = true := by
          rw [Json.utf8Valid_iff, Json.allTexts_array]
          intro value hmem
          exact hvalid value (List.mem_mergeSort.mp hmem)
        rw [hsorted] at hinvalid
        cases hinvalid

/-- One element more. -/
theorem elements_cons_settle {child : Action} {rest : List Action} {pretty : Bool}
    (hchild : Settles (child.written []) (child.Raises [])
      (process library child { prettyOutput := pretty }))
    (hrest : ElementsSettle (RaisesEach rest) (processElements library pretty rest)) :
    ElementsSettle (RaisesEach (child :: rest))
      (processElements library pretty (child :: rest)) := by
  simp only [RaisesEach]
  constructor
  · intro array heq
    obtain ⟨mockContext, payload, later, hprocess, helement, hlater, rfl⟩ :=
      processElements_cons_eq_ok heq
    rw [hprocess] at hchild
    obtain ⟨hquiet, hfollows⟩ := hchild.returned rfl
    obtain ⟨name, hname, hmember⟩ := element_eq_ok helement
    obtain ⟨hquietRest, hvalid⟩ := hrest.returned later hlater
    refine ⟨?_, List.forall_mem_cons.mpr ⟨hfollows.member_valid hmember, hvalid⟩⟩
    rintro (hraises | hnone | hraises)
    · exact hquiet hraises
    · rw [hname] at hnone
      cases hnone
    · exact hquietRest hraises
  · intro exception heq
    rw [processElements] at heq
    dsimp only at heq
    split at heq
    · next failure hfailed =>
        cases heq
        have hraised := destroyAfter_eq_raised hfailed
        split at hraised
        · next failure hresult =>
            cases hraised
            exact .inl (hchild.raised exception hresult)
        · unfold element at hraised
          split at hraised
          · next hnone => exact .inr (.inl hnone)
          · split at hraised
            · cases hraised
            · cases hraised
    · split at heq
      · next failure hfailed =>
          cases heq
          exact .inr (.inr (hrest.raised exception hfailed))
      · cases heq

mutual

/-- What an action has written when it ends normally, and when an exception leaves it. -/
theorem process_settles (library : JsonLibrary) : (action : Action) → {kinds : Kinds} →
    {r : RedfishResponse} → Follows r kinds →
      Settles (action.written kinds) (action.Raises kinds) (process library action r)
  | .field name (.ok value), kinds, r, h => by
      simp only [process, written, Raises]
      exact Settles.add h
  | .field _ (.error exception), kinds, r, h => by
      simp only [process, written, Raises]
      exact Settles.raise trivial exception
  | .enum name value, kinds, r, h => by
      simp only [process, written, Raises, Step.enum_eq]
      exact Settles.answered h (enumJson_valid value).1 (enumJson_valid value).2
  | .scalar name value, kinds, r, h => by
      rw [process]
      exact scalar_settles name value h
  | .entityEnum name value, kinds, r, h => by
      rw [process]
      simp only [Raises]
      exact entityEnum_settles name value h
  | .object name errors childs, kinds, r, h =>
      object_settles name errors childs h
        (processAll_settles library childs ((Follows.initial r.prettyOutput).reportAll errors))
  | .collection name errors childs, kinds, r, h =>
      collection_settles name errors childs h
        (processElements_settles library childs r.prettyOutput)
  | .collectionSize itemFieldName, kinds, r, h => by
      simp only [process, written, Raises]
      exact countItems_settles itemFieldName h
  | .entity errors childs, kinds, r, h => by
      simp only [process, written, Raises]
      exact processAll_settles library childs (h.reportAll errors)
  | .raise exception, kinds, r, h => by
      simp only [process, written, Raises]
      exact Settles.raise trivial exception

/-- Getters one after the other. -/
theorem processAll_settles (library : JsonLibrary) : (actions : List Action) → {kinds : Kinds} →
    {r : RedfishResponse} → Follows r kinds →
      Settles (writtenAll kinds actions) (RaisesAny kinds actions) (processAll library actions r)
  | [], kinds, r, h => by
      simp only [processAll, writtenAll, RaisesAny]
      exact Settles.returns h
  | action :: rest, kinds, r, h => by
      have hfirst := process_settles library action h
      simp only [processAll, writtenAll, RaisesAny]
      cases hprocess : process library action r with
      | mk result middle =>
          rw [hprocess] at hfirst
          cases result with
          | ok done =>
              obtain ⟨hquiet, hfollows⟩ := hfirst.returned rfl
              have hrest := processAll_settles library rest hfollows
              refine ⟨?_, fun exception heq => .inr (hrest.raised exception heq)⟩
              intro heq
              obtain ⟨hlater, hafter⟩ := hrest.returned heq
              exact ⟨not_or.mpr ⟨hquiet, hlater⟩, hafter⟩
          | error failure =>
              refine ⟨fun heq => ?_, fun exception heq => .inl (hfirst.raised exception heq)⟩
              cases heq

/-- Elements one after the other. -/
theorem processElements_settles (library : JsonLibrary) : (childs : List Action) →
    (pretty : Bool) → ElementsSettle (RaisesEach childs) (processElements library pretty childs)
  | [], pretty => by
      simp only [processElements, RaisesEach]
      refine ⟨?_, fun _ heq => by cases heq⟩
      intro array heq
      cases heq
      exact ⟨id, fun _ hmem => absurd hmem List.not_mem_nil⟩
  | child :: rest, pretty =>
      elements_cons_settle (process_settles library child (Follows.initial pretty))
        (processElements_settles library rest pretty)

end

end Action
end Redfish
end ObmcWebapp
