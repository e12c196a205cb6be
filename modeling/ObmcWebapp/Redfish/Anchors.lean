import Mathlib.Data.List.Sort
import ObmcWebapp.Redfish.Collections
import ObmcWebapp.Redfish.DumpInteger
import ObmcWebapp.Library.Numerals

/-!
# Redfish - Anchors of the members of a collection

A fragment of a collection is named after its index, its anchor is the path of the context
with this name at the end, and only then are the fragments put in the order of the JSON
library.  The identifier is the least of a fragment's keys, so the anchors decide that
order, and they are compared as texts.

Main results:

- Theorem {lit}`Action.processAll_sets`: an action writes members of its own keys only.
- Theorem {lit}`fragment_payload`: the identifier comes first in a fragment.
- Theorem {lit}`anchors_name_places_iff`: the anchors of a collection name the places of
  its members exactly where there are ten members at most.
-/

open Library

namespace ObmcWebapp
namespace Redfish

/-! ## Anchors -/

/-- The key with the identifier of a resource. -/
def nameFieldODataID : Bytes := bytes "@odata.id"

/-- {lit}`initAnchor`: the path without a slash at its end, and a number sign. -/
def initAnchor (uri : Bytes) : Bytes :=
  if uri.getLast? = some 0x2F then uri.dropLast ++ bytes "#" else uri ++ bytes "#"

/-- {lit}`addAnchorSegment` -/
def addAnchorSegment (anchor segment : Bytes) : Bytes :=
  anchor ++ bytes "/" ++ segment

/-- What a fragment of an instance is filled with, around the annotation that gives its
identifier. -/
structure Fragment where
  errors : List Bytes := []
  before : List Action := []
  after : List Action := []

/-- A fragment under a name, in a context with an anchor. -/
def fragmentGetter (anchor name : Bytes) (fragment : Fragment) : Action :=
  .object name fragment.errors (fragment.before ++
    .field nameFieldODataID (.ok (.string (addAnchorSegment anchor name))) :: fragment.after)

/-- {lit}`CollectionGetter` with a fragment for every instance. -/
def collectionGetter (anchor field : Bytes) (fragments : List Fragment) : Action :=
  .collection field [] (fragments.mapIdx fun index fragment =>
    fragmentGetter (addAnchorSegment anchor field) (decimal index) fragment)

/-! ## What an action writes -/

namespace Action

mutual

/-- The keys under which an action can write. -/
def keys : Action → List Bytes
  | .field name _ | .enum name _ | .object name _ _ | .collection name _ _ => [name]
  | .scalar name _ | .entityEnum name _ => [Action.annotation name, name]
  | .collectionSize itemFieldName => [countName itemFieldName]
  | .entity errors childs => errors.map annotation ++ keysAll childs
  | .raise _ => []

/-- The keys of several getters. -/
def keysAll : List Action → List Bytes
  | [] => []
  | action :: rest => action.keys ++ keysAll rest

end

end Action

/-- A payload after some members have been set. -/
inductive Sets (keys : List Bytes) (payload : Json) : Json → Prop
  | refl : Sets keys payload payload
  | set {written : Json} (h : Sets keys payload written) {key : Bytes} (hkey : key ∈ keys)
      (value : Json) : Sets keys payload (written.set key value)

namespace Sets

variable {keys keys' : List Bytes} {payload written later : Json}

/-- More keys may be named than are set. -/
theorem mono (h : Sets keys payload written) (hsub : keys ⊆ keys') :
    Sets keys' payload written := by
  induction h with
  | refl => exact refl
  | set _ hkey value ih => exact ih.set (hsub hkey) value

/-- Keys may be set in two parts. -/
theorem trans (hfirst : Sets keys payload written) (hsecond : Sets keys written later) :
    Sets keys payload later := by
  induction hsecond with
  | refl => exact hfirst
  | set _ hkey value ih => exact ih.set hkey value

/-- A single key is set. -/
theorem single {key : Bytes} (value : Json) : Sets [key] payload (payload.set key value) :=
  refl.set (List.mem_singleton_self key) value

/-- The keys of both parts are set. -/
theorem append (hfirst : Sets keys payload written) (hsecond : Sets keys' written later) :
    Sets (keys ++ keys') payload later :=
  (hfirst.mono (List.subset_append_left _ _)).trans (hsecond.mono (List.subset_append_right _ _))

/-- {lit}`add` sets its key. -/
theorem add {r r' : RedfishResponse} {key : Bytes} {json : Json} (h : r.add key json = .ok r') :
    Sets [key] r.payload r'.payload := by
  unfold RedfishResponse.add at h
  split at h
  · split at h
    · split at h
      · obtain rfl := Except.ok.inj h
        exact single _
      · obtain rfl := Except.ok.inj h
        exact single _
    · obtain rfl := Except.ok.inj h
      exact single _
  · cases h

/-- Each report sets its annotation. -/
theorem reportAll (errors : List Bytes) (r : RedfishResponse) :
    Sets (errors.map Action.annotation) r.payload (Redfish.reportAll errors r).payload := by
  induction errors generalizing r with
  | nil => exact refl
  | cons property rest ih =>
      have hfirst : Sets [Action.annotation property] r.payload
          (messages.internalErrorOf property r).payload := single _
      exact hfirst.append (ih (messages.internalErrorOf property r))

/-- A report about a value sets the value to null. -/
theorem reported (name : Bytes) (r : RedfishResponse) :
    Sets [Action.annotation name, name] r.payload (Step.reported name r).payload := by
  have hreport : Sets [Action.annotation name] r.payload
      (messages.internalErrorOf name r).payload := single _
  exact hreport.append (single .null)

end Sets

namespace Action

mutual

/-- An action that ends normally has only set members under its own keys. -/
theorem process_sets (library : JsonLibrary) : (action : Action) → {r r' : RedfishResponse} →
    process library action r = (.ok (), r') → Sets action.keys r.payload r'.payload
  | .field name (.ok value), r, r', hok => by
      rw [process] at hok
      exact Sets.add (Step.add_eq_ok.mp hok)
  | .field _ (.error exception), _, _, hok => by
      rw [process] at hok
      cases hok
  | .enum name value, r, r', hok => by
      rw [process, Step.enum_eq, Prod.mk.injEq] at hok
      rw [← hok.2]
      exact Sets.single _
  | .scalar name value, r, r', hok => by
      rw [process] at hok
      rw [keys]
      have hsub : [name] ⊆ [Action.annotation name, name] := List.subset_cons_self _ _
      rcases Step.scalar_eq_ok hok with ⟨-, hadd⟩ | ⟨json, -, -, rfl⟩ | ⟨json, -, -, hadd⟩ |
        ⟨exception, -, -, rfl⟩
      · exact (Sets.add hadd).mono hsub
      · exact Sets.refl
      · exact (Sets.add hadd).mono hsub
      · exact Sets.reported name r
  | .entityEnum name value, r, r', hok => by
      rw [process] at hok
      rw [keys]
      rcases Step.entityEnum_eq_ok hok with ⟨text, -, rfl⟩ | ⟨exception, -, rfl⟩
      · exact (Sets.single _).mono (List.subset_cons_self _ _)
      · exact Sets.reported name r
  | .object name errors childs, r, r', hok => by
      obtain ⟨mockContext, -, hadd⟩ := object_eq_ok hok
      by_cases hpayload : mockContext.payload = .object []
      · rw [hpayload, addUnlessEmpty, Step.skip, Prod.mk.injEq] at hadd
        rw [← hadd.2]
        exact Sets.refl
      · rw [addUnlessEmpty_of_ne hpayload] at hadd
        exact Sets.add (Step.add_eq_ok.mp hadd)
  | .collection name errors childs, r, r', hok => by
      obtain ⟨array, -, hadd⟩ := collection_eq_ok hok
      exact Sets.add hadd
  | .collectionSize itemFieldName, r, r', hok => by
      rw [process, countItems] at hok
      split at hok
      · cases hok
      · exact Sets.add (Step.add_eq_ok.mp hok)
      · cases hok
  | .entity errors childs, r, r', hok => by
      rw [process] at hok
      exact (Sets.reportAll errors r).append (processAll_sets library childs hok)
  | .raise exception, _, _, hok => by
      rw [process] at hok
      cases hok

/-- Getters set their keys. -/
theorem processAll_sets (library : JsonLibrary) : (actions : List Action) →
    {r r' : RedfishResponse} → processAll library actions r = (.ok (), r') →
      Sets (keysAll actions) r.payload r'.payload
  | [], r, r', hok => by
      rw [processAll, Prod.mk.injEq] at hok
      rw [← hok.2]
      exact Sets.refl
  | action :: rest, r, r', hok => by
      obtain ⟨middle, hfirst, hrest⟩ := processAll_cons_eq_ok hok
      rw [keysAll]
      exact (process_sets library action hfirst).append (processAll_sets library rest hrest)

end

/-- Getters may be processed in two parts. -/
theorem processAll_append_eq_ok {library : JsonLibrary} {first second : List Action}
    {r r' : RedfishResponse} (h : processAll library (first ++ second) r = (.ok (), r')) :
    ∃ middle, processAll library first r = (.ok (), middle) ∧
      processAll library second middle = (.ok (), r') := by
  induction first generalizing r with
  | nil => exact ⟨r, by rw [processAll], h⟩
  | cons action rest ih =>
      rw [List.cons_append] at h
      obtain ⟨next, hfirst, hrest⟩ := processAll_cons_eq_ok h
      obtain ⟨middle, hmiddle, hsecond⟩ := ih hrest
      refine ⟨middle, ?_, hsecond⟩
      rw [processAll, hfirst]
      exact hmiddle

/-- Each element of a collection is what its child has left under its name. -/
theorem processElements_forall₂ {library : JsonLibrary} {pretty : Bool} {childs : List Action}
    {array : List Json} (h : processElements library pretty childs = .ok array) :
    List.Forall₂ (fun child payload => ∃ name mockContext,
      process library child { prettyOutput := pretty } = (.ok (), mockContext) ∧
        child.fieldName = some name ∧ mockContext.payload.member name = some payload)
      childs array := by
  induction childs generalizing array with
  | nil =>
      rw [processElements] at h
      cases h
      exact .nil
  | cons child rest ih =>
      obtain ⟨mockContext, payload, later, hchild, helement, hlater, rfl⟩ :=
        processElements_cons_eq_ok h
      obtain ⟨name, hname, hmember⟩ := element_eq_ok helement
      exact .cons ⟨name, mockContext, hchild, hname, hmember⟩ (ih hlater)

end Action

/-! ## The first member of a fragment -/

/-- What is no array is set as it is. -/
theorem add_of_not_array {r r' : RedfishResponse} {key : Bytes} {json : Json}
    (hjson : ∀ values, json ≠ .array values) (h : r.add key json = .ok r') :
    r' = { r with payload := r.payload.set key json } := by
  unfold RedfishResponse.add at h
  split at h
  · split at h
    · next values _ => exact absurd rfl (hjson values)
    · exact (Except.ok.inj h).symm
  · cases h

/-- All keys come after the identifier. -/
def Later (keys : List Bytes) : Prop :=
  ∀ key ∈ keys, nameFieldODataID < key

/-- The identifier is the first member of an object. -/
def Headed (identifier : Bytes) (json : Json) : Prop :=
  ∃ rest, json = .object ((nameFieldODataID, .string identifier) :: rest)

/-- All later keys sort behind the identifier. -/
theorem Sets.later {keys : List Bytes} (hlater : Later keys) {written : Json}
    (h : Sets keys (.object []) written) :
    ∃ members, written = .object members ∧ ∀ entry ∈ members, nameFieldODataID < entry.1 := by
  induction h with
  | refl => exact ⟨[], rfl, fun _ hmem => absurd hmem List.not_mem_nil⟩
  | @set written _ key hkey value ih =>
      obtain ⟨members, rfl, hmembers⟩ := ih
      refine ⟨_, rfl, fun entry hmem => ?_⟩
      rcases Json.mem_insertMember hmem with rfl | hold
      · exact hlater key hkey
      · exact hmembers entry hold

/-- An object with its identifier is headed by it. -/
theorem headed_set {members : List (Bytes × Json)}
    (h : ∀ entry ∈ members, nameFieldODataID < entry.1) (identifier : Bytes) :
    Headed identifier ((Json.object members).set nameFieldODataID (.string identifier)) := by
  cases members with
  | nil => exact ⟨[], rfl⟩
  | cons first rest =>
      have hfirst := h first List.mem_cons_self
      have hne : nameFieldODataID ≠ first.1 :=
        fun heq => List.lt_irrefl first.1 (heq ▸ hfirst)
      refine ⟨first :: rest, ?_⟩
      rw [Json.set, Json.insertMember, if_neg hne, if_pos hfirst]

theorem Sets.headed {keys : List Bytes} (hlater : Later keys) {identifier : Bytes}
    {payload written : Json} (h : Sets keys payload written)
    (hpayload : Headed identifier payload) :
    Headed identifier written := by
  induction h with
  | refl => exact hpayload
  | @set written _ key hkey value ih =>
      obtain ⟨rest, rfl⟩ := ih
      have hafter := hlater key hkey
      have hne : key ≠ nameFieldODataID :=
        fun heq => List.lt_irrefl nameFieldODataID (heq ▸ hafter)
      refine ⟨Json.insertMember key value rest, ?_⟩
      rw [Json.set, Json.insertMember, if_neg hne, if_neg (List.lt_asymm hafter)]

/-- The annotation gives its identifier, and all other members come after it. -/
def Fragment.IdentifierFirst (fragment : Fragment) : Prop :=
  Later (fragment.errors.map Action.annotation ++ Action.keysAll fragment.before) ∧
    Later (Action.keysAll fragment.after)

/-- The payload of a fragment is headed by its anchor. -/
theorem fragment_payload {library : JsonLibrary} {anchor name : Bytes} {fragment : Fragment}
    (hfirst : fragment.IdentifierFirst) {pretty : Bool} {mockContext : RedfishResponse}
    {payload : Json}
    (h : (fragmentGetter anchor name fragment).process library { prettyOutput := pretty } =
      (.ok (), mockContext))
    (hpayload : mockContext.payload.member name = some payload) :
    Headed (addAnchorSegment anchor name) payload := by
  obtain ⟨filled, hfilled, hadd⟩ := Action.object_eq_ok h
  obtain ⟨before, hbefore, hrest⟩ := Action.processAll_append_eq_ok hfilled
  obtain ⟨annotated, hannotated, hafter⟩ := Action.processAll_cons_eq_ok hrest
  -- the members before the identifier, the identifier, and the members after it
  have hwritten := (Sets.reportAll fragment.errors { prettyOutput := pretty }).append
    (Action.processAll_sets library fragment.before hbefore)
  obtain ⟨members, hmembers, hlater⟩ := Sets.later hfirst.1 hwritten
  have hidentified : Headed (addAnchorSegment anchor name) annotated.payload := by
    rw [Action.process, Step.add_eq_ok] at hannotated
    obtain rfl := add_of_not_array (by simp) hannotated
    dsimp only
    rw [hmembers]
    exact headed_set hlater _
  have hheaded := Sets.headed hfirst.2 (Action.processAll_sets library fragment.after hafter)
    hidentified
  obtain ⟨rest, hobject⟩ := hheaded
  rw [hobject, Action.addUnlessEmpty_of_ne (by simp), Step.add_eq_ok] at hadd
  obtain rfl := add_of_not_array (by simp) hadd
  rw [Json.member_set rfl, if_pos rfl] at hpayload
  obtain rfl := Option.some.inj hpayload
  exact ⟨rest, rfl⟩

/-! ## The order of the anchors -/

/-- The digits of a number are read as the number. -/
theorem readNumber_decimal (n : Nat) : Numerals.readNumber (decimal n) = some n := by
  induction n using Nat.strongRecOn with
  | ind n ih =>
      have hdigit : ∀ k, digit k = Numerals.digit k := fun _ => rfl
      by_cases hn : n < 10
      · rw [decimal_of_lt hn, hdigit]
        simpa using @Numerals.readNumber_append_digit [] 0 n _ rfl (Numerals.digitValue_digit hn)
      · have hvalue := Numerals.digitValue_digit (Nat.mod_lt n (by decide : 10 > 0))
        rw [decimal_of_le (by omega), hdigit,
          Numerals.readNumber_append_digit (ih (n / 10) (by omega)) hvalue]
        exact congrArg some (by omega)

/-- Numbers differ in their digits. -/
theorem decimal_injective : Function.Injective decimal := by
  intro n m heq
  have hread := readNumber_decimal n
  rw [heq, readNumber_decimal] at hread
  exact (Option.some.inj hread).symm

/-- The anchor of a member by its index. -/
def anchorOf (anchor field : Bytes) (index : Nat) : Bytes :=
  addAnchorSegment (addAnchorSegment anchor field) (decimal index)

/-- Places differ in their anchors. -/
theorem anchorOf_injective (anchor field : Bytes) : Function.Injective (anchorOf anchor field) :=
  fun _ _ heq => decimal_injective (List.append_cancel_left heq)

/-- Anchors sort as the digits of their places. -/
theorem anchorOf_lt {anchor field : Bytes} {index other : Nat}
    (h : decimal index < decimal other) :
    anchorOf anchor field index < anchorOf anchor field other :=
  List.append_left_lt h

/-- Indexes of one digit are in the order of their texts. -/
theorem decimal_lt_of_lt {index other : Nat} (hless : index < other) (hother : other < 10) :
    decimal index < decimal other := by
  have hall : ∀ i j : Fin 10, i < j → [digit i] < [digit j] := by decide
  rw [decimal_of_lt (by omega), decimal_of_lt hother]
  exact hall ⟨index, by omega⟩ ⟨other, hother⟩ hless

/-- The order of the JSON library on objects: their first members are compared first. -/
structure ComparesFirst (library : JsonLibrary) : Prop where
  irrefl : ∀ value, library.less value value = false
  first : ∀ key text other rest otherRest, text ≠ other →
    library.less (.object ((key, .string text) :: rest))
      (.object ((key, .string other) :: otherRest)) = decide (text < other)

/-- The text under the identifier. -/
def identifier (json : Json) : Bytes :=
  ((json.member nameFieldODataID).bind Json.getString).getD []

/-- The identifier of a headed object. -/
theorem identifier_of_headed {text : Bytes} {json : Json} (h : Headed text json) :
    identifier json = text := by
  obtain ⟨rest, rfl⟩ := h
  simp [identifier, Json.member, Json.getString]

theorem member_of_headed {text : Bytes} {json : Json} (h : Headed text json) :
    json.member nameFieldODataID = some (.string text) := by
  obtain ⟨rest, rfl⟩ := h
  simp [Json.member]

/-- Headed objects sort by their identifiers. -/
theorem less_of_headed {library : JsonLibrary} (hlibrary : ComparesFirst library)
    {text other : Bytes} {value otherValue : Json} (h : Headed text value)
    (hother : Headed other otherValue) (hne : text ≠ other) :
    library.less value otherValue = decide (text < other) := by
  obtain ⟨rest, rfl⟩ := h
  obtain ⟨otherRest, rfl⟩ := hother
  exact hlibrary.first nameFieldODataID text other rest otherRest hne

/-! ## The array of a collection -/

/-- The elements before they are put in order. -/
def HeadedEach (anchor field : Bytes) (array : List Json) : Prop :=
  ∀ (index : Nat) (value : Json), array[index]? = some value →
    Headed (anchorOf anchor field index) value

/-- The elements of a list are headed by the anchors of their places. -/
theorem headedEach_elements {library : JsonLibrary} {anchor field : Bytes}
    {fragments : List Fragment} (hfragments : ∀ fragment ∈ fragments, fragment.IdentifierFirst)
    {pretty : Bool} {array : List Json}
    (h : Action.processElements library pretty (fragments.mapIdx fun index fragment =>
      fragmentGetter (addAnchorSegment anchor field) (decimal index) fragment) = .ok array) :
    array.length = fragments.length ∧ HeadedEach anchor field array := by
  have hall := Action.processElements_forall₂ h
  have hlength := hall.length_eq
  rw [List.length_mapIdx] at hlength
  refine ⟨hlength.symm, fun index value hvalue => ?_⟩
  obtain ⟨hindex, rfl⟩ := List.getElem?_eq_some_iff.mp hvalue
  have hbound : index < fragments.length := hlength ▸ hindex
  obtain ⟨name, mockContext, hprocess, hname, hmember⟩ :=
    hall.get (by simpa using hbound) hindex
  simp only [List.get_eq_getElem, List.getElem_mapIdx] at hprocess hname hmember
  cases hname
  exact fragment_payload (hfragments _ (List.getElem_mem hbound)) hprocess hmember

theorem identifiers_eq {anchor field : Bytes} {array : List Json}
    (h : HeadedEach anchor field array) :
    array.map identifier = (List.range array.length).map (anchorOf anchor field) := by
  apply List.ext_getElem (by simp)
  intro index hindex _
  rw [List.length_map] at hindex
  simp only [List.getElem_map, List.getElem_range]
  exact identifier_of_headed (h index _ (List.getElem?_eq_getElem hindex))

/-- The identifiers are put in the order of their texts. -/
theorem identifiers_sorted {library : JsonLibrary} (hlibrary : ComparesFirst library)
    {anchor field : Bytes} {array : List Json} (h : HeadedEach anchor field array) :
    (Action.sorted library array).map identifier =
      ((List.range array.length).map (anchorOf anchor field)).mergeSort
        fun text other => !decide (other < text) := by
  rw [← identifiers_eq h, Action.sorted]
  apply List.map_mergeSort
  intro value hvalue other hother
  obtain ⟨index, hindex, rfl⟩ := List.getElem_of_mem hvalue
  obtain ⟨otherIndex, hotherIndex, rfl⟩ := List.getElem_of_mem hother
  have hheaded := h index _ (List.getElem?_eq_getElem hindex)
  have hotherHeaded := h otherIndex _ (List.getElem?_eq_getElem hotherIndex)
  rw [identifier_of_headed hheaded, identifier_of_headed hotherHeaded]
  by_cases heq : otherIndex = index
  · subst heq
    simp [hlibrary.irrefl, List.lt_irrefl]
  · rw [less_of_headed hlibrary hotherHeaded hheaded
      fun htext => heq (anchorOf_injective anchor field htext)]

/-- The anchors of up to ten members are in order, and those of more are not. -/
theorem anchors_pairwise_iff (anchor field : Bytes) (count : Nat) :
    ((List.range count).map (anchorOf anchor field)).Pairwise
      (fun text other => (!decide (other < text)) = true) ↔ count ≤ 10 := by
  constructor
  · intro hpairwise
    by_contra hmany
    rw [List.pairwise_iff_getElem] at hpairwise
    have hplaces := hpairwise 2 10 (by simp; omega) (by simp; omega) (by omega)
    have hless : anchorOf anchor field 10 < anchorOf anchor field 2 := anchorOf_lt (by decide)
    simp [hless] at hplaces
  · intro hfew
    rw [List.pairwise_map]
    apply List.pairwise_lt_range.imp_of_mem
    intro index other _ hother hless
    have htexts : anchorOf anchor field index < anchorOf anchor field other := by
      apply anchorOf_lt (decimal_lt_of_lt hless _)
      have := List.mem_range.mp hother
      omega
    simpa using List.lt_asymm htexts

/-- A member is found at the place that its identifier names. -/
def NamesPlaces (anchor field : Bytes) (values : List Json) : Prop :=
  ∀ (place : Nat) (value : Json), values[place]? = some value →
    value.member nameFieldODataID = some (.string (anchorOf anchor field place))

/-- Sorted elements name their places if and only if the digits sort as the numbers. -/
theorem namesPlaces_sorted_iff {library : JsonLibrary} (hlibrary : ComparesFirst library)
    {anchor field : Bytes} {array : List Json} (h : HeadedEach anchor field array) :
    NamesPlaces anchor field (Action.sorted library array) ↔ array.length ≤ 10 := by
  have hsorted := identifiers_sorted hlibrary h
  rw [← anchors_pairwise_iff anchor field]
  constructor
  · intro hnames
    -- the identifiers are those of the places, and they have been sorted
    have hplaces : (Action.sorted library array).map identifier =
        (List.range array.length).map (anchorOf anchor field) := by
      apply List.ext_getElem (by simp [Action.sorted])
      intro place hplace _
      rw [List.length_map] at hplace
      have hmember := hnames place _ (List.getElem?_eq_getElem hplace)
      simp [identifier, hmember, Json.getString]
    rw [← hplaces, hsorted]
    exact List.pairwise_mergeSort
      (fun a b c hab hbc => by
        simp only [Bool.not_eq_true', decide_eq_false_iff_not, List.not_lt] at hab hbc ⊢
        exact List.le_trans hab hbc)
      (fun a b => by simpa using List.le_total a b) _
  · intro hpairwise place value hvalue
    have hmem : value ∈ array :=
      (Action.sorted_perm library array).subset (List.mem_of_getElem? hvalue)
    obtain ⟨index, hindex, rfl⟩ := List.getElem_of_mem hmem
    have hheaded := h index _ (List.getElem?_eq_getElem hindex)
    rw [List.mergeSort_of_pairwise hpairwise] at hsorted
    have hplace : ((Action.sorted library array).map identifier)[place]? =
        some (identifier array[index]) := by
      rw [List.getElem?_map, hvalue, Option.map_some]
    rw [hsorted, List.getElem?_map, identifier_of_headed hheaded] at hplace
    obtain ⟨place', hplace', hanchor⟩ := Option.map_eq_some_iff.mp hplace
    obtain ⟨hlt, hrange⟩ := List.getElem?_eq_some_iff.mp hplace'
    rw [List.getElem_range] at hrange
    rw [member_of_headed hheaded, ← hanchor, hrange]

/-- A collection ends normally where its children do and give values fit for {lit}`dump`. -/
theorem collection_ok {library : JsonLibrary} {name : Bytes} {childs : List Action}
    {r : RedfishResponse}
    (h : (Action.processElements library r.prettyOutput childs).toOption.any
      (fun array => (Json.array array).utf8Valid) = true) :
    ((Action.collection name [] childs).process library r).1 = .ok () := by
  cases helements : Action.processElements library r.prettyOutput childs with
  | error failure =>
      rw [helements] at h
      cases h
  | ok array =>
      rw [helements] at h
      have hsorted : (Json.array (Action.sorted library array)).utf8Valid = true :=
        Json.utf8Valid_array.mpr fun value hmem =>
          Json.utf8Valid_array.mp h value ((Action.sorted_perm library array).subset hmem)
      have hadd : (Step.add name (.array (Action.sorted library array)) r).1 = .ok () := by
        unfold Step.add RedfishResponse.add
        rw [if_pos hsorted]
        rcases r.payload.member name with - | (- | - | - | - | - | - | old | -) <;> rfl
      rw [Action.process]
      dsimp only
      rw [helements]
      dsimp only
      rw [hadd]
      exact destroyAfter_clean library (RedfishResponse.clean_initial r.prettyOutput) _

/-- The identifiers of a collection name the places of its members as long as there are
ten members at most. -/
theorem anchors_name_places_iff {library : JsonLibrary} (hlibrary : ComparesFirst library)
    {anchor field : Bytes} {fragments : List Fragment}
    (hfragments : ∀ fragment ∈ fragments, fragment.IdentifierFirst) {r r' : RedfishResponse}
    (hobject : r.payload.isObject = true) (hfresh : r.payload.member field = none)
    (h : (collectionGetter anchor field fragments).process library r = (.ok (), r')) :
    ∃ values, r'.payload.member field = some (.array values) ∧
      values.length = fragments.length ∧
      (NamesPlaces anchor field values ↔ fragments.length ≤ 10) := by
  obtain ⟨array, helements, hadd⟩ := Action.collection_eq_ok h
  obtain ⟨hlength, hheaded⟩ := headedEach_elements hfragments helements
  refine ⟨Action.sorted library array, ?_, ?_, ?_⟩
  · rw [RedfishResponse.add, hfresh] at hadd
    split at hadd
    · obtain rfl := Except.ok.inj hadd
      exact (Json.member_set hobject field field _).trans (if_pos rfl)
    · cases hadd
  · rw [(Action.sorted_perm library array).length_eq, hlength]
  · rw [namesPlaces_sorted_iff hlibrary hheaded, hlength]

/-- The order on objects that begin with a text. -/
private def lessByFirst : Json → Json → Bool
  | .object ((_, .string text) :: _), .object ((_, .string other) :: _) => decide (text < other)
  | _, _ => false

/-- No value is less than itself. -/
private theorem lessByFirst_irrefl (value : Json) : lessByFirst value value = false := by
  match value with
  | .object ((_, .string text) :: _) => exact decide_eq_false (List.lt_irrefl text)
  | .object [] | .object ((_, .null) :: _) | .object ((_, .boolean _) :: _)
  | .object ((_, .numberInteger _) :: _) | .object ((_, .numberUnsigned _) :: _)
  | .object ((_, .numberFloat _) :: _) | .object ((_, .array _) :: _)
  | .object ((_, .object _) :: _) | .null | .boolean _ | .numberInteger _
  | .numberUnsigned _ | .numberFloat _ | .string _ | .array _ => rfl

/-- A library that compares by the first member. -/
private def plainLibrary : JsonLibrary := ⟨fun _ => [], fun _ => [], lessByFirst⟩

/-- Eleven temperatures of a chassis. -/
private def temperatures : Action :=
  collectionGetter (initAnchor (bytes "/redfish/v1/Chassis/1/Thermal/")) (bytes "Temperatures")
    (List.replicate 11 { after := [.field (bytes "MemberId") (.ok (.string (bytes "CPU0")))] })

/-- The eleven temperatures are listed. -/
private theorem temperatures_ok :
    (temperatures.process plainLibrary { prettyOutput := false }).1 = .ok () :=
  collection_ok (by decide +kernel)

/-- The eleventh temperature stands in the place of the third. -/
theorem anchors_name_places_eleven :
    ∃ values, ¬ NamesPlaces (initAnchor (bytes "/redfish/v1/Chassis/1/Thermal/"))
      (bytes "Temperatures") values ∧
      (temperatures.process plainLibrary { prettyOutput := false }).2.payload.member
        (bytes "Temperatures") = some (.array values) := by
  have hprocess : temperatures.process plainLibrary { prettyOutput := false } =
      (.ok (), (temperatures.process plainLibrary { prettyOutput := false }).2) :=
    Prod.ext temperatures_ok rfl
  obtain ⟨values, hmember, -, hiff⟩ := anchors_name_places_iff
    ⟨lessByFirst_irrefl, fun _ _ _ _ _ _ => rfl⟩
    (fun fragment hmem => by
      rw [List.eq_of_mem_replicate hmem]
      exact ⟨fun _ hkey => absurd hkey List.not_mem_nil, fun key hkey => by
        rw [List.mem_singleton.mp hkey]
        decide⟩)
    rfl rfl hprocess
  exact ⟨values, fun hnames => absurd (hiff.mp hnames) (by decide), hmember⟩

end Redfish
end ObmcWebapp
