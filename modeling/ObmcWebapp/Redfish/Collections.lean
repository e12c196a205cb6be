import ObmcWebapp.Redfish.Getters

/-!
# Redfish - The entries of a collection

{lit}`StaticCollectionGetter` lets every child write into a context of its own and reads
the child's field back.  An object without members and an empty text write nothing, so
that the field is missing there.

Main results:

- Theorem {lit}`Action.process_fills`: the members after an action that ends normally.
- Theorem {lit}`Action.collection_sound_iff`: which collections read only members that
  are there.
-/

open Library

namespace ObmcWebapp
namespace Redfish

/-! ## Steps that end normally -/

namespace Step

/-- Adding returns where {lit}`add` does. -/
theorem add_eq_ok {key : Bytes} {json : Json} {r r' : RedfishResponse} :
    Step.add key json r = (.ok (), r') ↔ r.add key json = .ok r' := by
  unfold Step.add
  cases r.add key json <;> simp

/-- Null can always be added to an object. -/
theorem add_null (name : Bytes) (r : RedfishResponse) :
    Step.add name .null r = (.ok (), { r with payload := r.payload.set name .null }) := rfl

/-- What an enumeration writes: its text where it is valid, and else null. -/
def enumJson : Except Exception Bytes → Json
  | .ok text => if (Json.string text).utf8Valid then .string text else .null
  | .error _ => .null

/-- An exception is answered with a null field. -/
theorem enum_eq (name : Bytes) (value : Except Exception Bytes) (r : RedfishResponse) :
    Step.enum name value r =
      (.ok (), { r with payload := r.payload.set name (enumJson value) }) := by
  cases value with
  | error exception => rfl
  | ok text =>
      by_cases hvalid : (Json.string text).utf8Valid = true
      · rw [enumJson, if_pos hvalid]
        simp only [Step.enum, Step.catching, Step.add, RedfishResponse.add, if_pos hvalid]
      · rw [enumJson, if_neg hvalid]
        simp only [Step.enum, Step.catching, Step.add, RedfishResponse.add, if_neg hvalid]
        rfl

/-- The response after {lit}`internalError` and a null field. -/
def reported (name : Bytes) (r : RedfishResponse) : RedfishResponse :=
  { messages.internalErrorOf name r with
    payload := (messages.internalErrorOf name r).payload.set name .null }

/-- A report and a null member are one step. -/
theorem reportAndNull_eq (name : Bytes) (r : RedfishResponse) :
    (Step.report name).andThen (Step.add name .null) r = (.ok (), reported name r) := rfl

/-- How a scalar field ends normally. -/
theorem scalar_eq_ok {name : Bytes} {value : Except Exception (Option Json)}
    {r r' : RedfishResponse} (h : Step.scalar name value r = (.ok (), r')) :
    (value = .ok none ∧ r.add name .null = .ok r') ∨
      (∃ json, value = .ok (some json) ∧ json.getString = some [] ∧ r' = r) ∨
      (∃ json, value = .ok (some json) ∧ json.getString ≠ some [] ∧ r.add name json = .ok r') ∨
      ∃ exception, value = .error exception ∧ exception.isRuntimeError = true ∧
        r' = reported name r := by
  match value with
  | .ok none => exact .inl ⟨rfl, add_eq_ok.mp h⟩
  | .ok (some json) =>
      refine .inr ?_
      by_cases hempty : json.getString = some []
      · simp only [Step.scalar, Step.visitScalar, if_pos hempty, Step.catching, Step.skip,
          Prod.mk.injEq, true_and] at h
        exact .inl ⟨json, rfl, hempty, h.symm⟩
      · refine .inr (.inl ⟨json, rfl, hempty, ?_⟩)
        simp only [Step.scalar, Step.visitScalar, if_neg hempty, Step.catching, Step.add] at h
        cases hadd : r.add name json with
        | ok added =>
            rw [hadd] at h
            simpa using h
        | error failure =>
            -- the exception of {lit}`dump` is no runtime error
            rw [hadd, RedfishResponse.add_error hadd] at h
            exact absurd h (by simp [Exception.isRuntimeError])
  | .error exception =>
      refine .inr (.inr (.inr ⟨exception, rfl, ?_⟩))
      simp only [Step.scalar, Step.catching, Step.raise] at h
      split_ifs at h with hruntime
      · rw [reportAndNull_eq, Prod.mk.injEq] at h
        exact ⟨hruntime, h.2.symm⟩
      · exact absurd h (by simp)

/-- Every exception of an entity's enumeration is answered. -/
theorem entityEnum_eq_ok {name : Bytes} {value : Except Exception (Option (Except Exception Bytes))}
    {r r' : RedfishResponse} (h : Step.entityEnum name value r = (.ok (), r')) :
    (∃ text, value = .ok text ∧
        r' = { r with payload := r.payload.set name ((text.map enumJson).getD .null) }) ∨
      ∃ exception, value = .error exception ∧ r' = reported name r := by
  match value with
  | .ok none =>
      rw [Step.entityEnum, add_null, Prod.mk.injEq] at h
      exact .inl ⟨none, rfl, h.2.symm⟩
  | .ok (some text) =>
      simp only [Step.entityEnum, Step.catching, enum_eq name text r, Prod.mk.injEq, true_and] at h
      exact .inl ⟨some text, rfl, h.symm⟩
  | .error exception =>
      simp only [Step.entityEnum, Step.catching, Step.raise, if_true] at h
      rw [reportAndNull_eq, Prod.mk.injEq] at h
      exact .inr ⟨exception, rfl, h.2.symm⟩

end Step

/-- The mock context is destroyed where the getter returns. -/
theorem destroyAfter_eq_ok {α : Type} {library : JsonLibrary} {mockContext : RedfishResponse}
    {result : Except Failure α} {a : α} (h : destroyAfter library mockContext result = .ok a) :
    result = .ok a := by
  unfold destroyAfter at h
  split at h
  · cases h
  · cases h
  · split at h
    · exact h
    · cases h

namespace Action

variable {library : JsonLibrary} {r r' : RedfishResponse}

/-- The first getter returns, then the others. -/
theorem processAll_cons_eq_ok {action : Action} {rest : List Action}
    (h : processAll library (action :: rest) r = (.ok (), r')) :
    ∃ middle, process library action r = (.ok (), middle) ∧
      processAll library rest middle = (.ok (), r') := by
  rw [processAll] at h
  split at h
  · next middle hfirst => exact ⟨middle, hfirst, h⟩
  · cases h

/-- An object returns where its members and the addition do. -/
theorem object_eq_ok {name : Bytes} {errors : List Bytes} {childs : List Action}
    (h : process library (.object name errors childs) r = (.ok (), r')) :
    ∃ mockContext,
      processAll library childs (reportAll errors { prettyOutput := r.prettyOutput }) =
        (.ok (), mockContext) ∧ addUnlessEmpty name mockContext.payload r = (.ok (), r') := by
  rw [process] at h
  obtain ⟨hresult, hr⟩ := Prod.mk.inj h
  have hok := destroyAfter_eq_ok hresult
  match hfilled : processAll library childs (reportAll errors { prettyOutput := r.prettyOutput })
    with
  | (.ok (), mockContext) =>
      rw [hfilled] at hok hr
      exact ⟨mockContext, rfl, Prod.ext hok hr⟩
  | (.error failure, mockContext) =>
      rw [hfilled] at hok
      cases hok

/-- A collection returns where its elements and the addition do. -/
theorem collection_eq_ok {name : Bytes} {errors : List Bytes} {childs : List Action}
    (h : process library (.collection name errors childs) r = (.ok (), r')) :
    ∃ array, processElements library r.prettyOutput childs = .ok array ∧
      r.add name (.array (sorted library array)) = .ok r' := by
  rw [process] at h
  obtain ⟨hresult, hr⟩ := Prod.mk.inj h
  have hok := destroyAfter_eq_ok hresult
  cases helements : processElements library r.prettyOutput childs with
  | error failure =>
      rw [helements] at hok
      cases hok
  | ok array =>
      rw [helements] at hok hr
      exact ⟨array, rfl, Step.add_eq_ok.mp (Prod.ext hok hr)⟩

/-- An element is the member of its child. -/
theorem element_eq_ok {child : Action} {mockContext : RedfishResponse} {payload : Json}
    (h : child.element mockContext = .ok payload) :
    ∃ name, child.fieldName = some name ∧ mockContext.payload.member name = some payload := by
  unfold element at h
  split at h
  · cases h
  · next name hname =>
      split at h
      · cases h
      · next value hvalue =>
          cases h
          exact ⟨name, hname, hvalue⟩

/-- The first element returns, then the others. -/
theorem processElements_cons_eq_ok {pretty : Bool} {child : Action} {rest : List Action}
    {array : List Json} (h : processElements library pretty (child :: rest) = .ok array) :
    ∃ mockContext payload later,
      process library child { prettyOutput := pretty } = (.ok (), mockContext) ∧
        child.element mockContext = .ok payload ∧
        processElements library pretty rest = .ok later ∧ array = payload :: later := by
  rw [processElements] at h
  rcases hchild : process library child { prettyOutput := pretty } with
    ⟨failure | ⟨⟨⟩⟩, mockContext⟩
  · simp only [hchild] at h
    split at h
    · cases h
    · next payload hpayload => cases destroyAfter_eq_ok hpayload
  · simp only [hchild] at h
    split at h
    · cases h
    · next payload hpayload =>
        split at h
        · cases h
        · next later hlater =>
            cases h
            exact ⟨mockContext, payload, later, rfl, destroyAfter_eq_ok hpayload, hlater, rfl⟩

end Action

/-! ## Members after an action -/

/-- The old members and the given ones stand in the payload. -/
structure Fills (r : RedfishResponse) (names : List Bytes) (r' : RedfishResponse) : Prop where
  isObject : r'.payload.isObject = true
  keeps : ∀ name, (r.payload.member name).isSome = true → (r'.payload.member name).isSome = true
  gives : Gives r' names

namespace Fills

variable {r middle r' : RedfishResponse} {names later : List Bytes}

/-- Nothing is filled by nothing. -/
theorem refl (h : r.payload.isObject = true) : Fills r [] r :=
  ⟨h, fun _ hname => hname, fun _ hmem => absurd hmem List.not_mem_nil⟩

/-- Members are filled one after the other. -/
theorem trans (hfirst : Fills r names middle) (hsecond : Fills middle later r') :
    Fills r (names ++ later) r' where
  isObject := hsecond.isObject
  keeps := fun name hname => hsecond.keeps name (hfirst.keeps name hname)
  gives := by
    intro name hmem
    rcases List.mem_append.mp hmem with hold | hnew
    · exact hsecond.keeps name (hfirst.gives name hold)
    · exact hsecond.gives name hnew

/-- Fewer members may be named than are filled. -/
theorem mono (h : Fills r names r') (hsub : later ⊆ names) : Fills r later r' :=
  ⟨h.isObject, h.keeps, fun name hmem => h.gives name (hsub hmem)⟩

/-- A member that is set is filled. -/
theorem set (h : r.payload.isObject = true) (key : Bytes) (value : Json) (response : Response) :
    Fills r [key] { r with payload := r.payload.set key value, response } where
  isObject := Json.isObject_set h key value
  keeps := fun _ hname => RedfishResponse.member_setPayload_isSome h key value (.inr hname)
  gives := fun _ hmem =>
    RedfishResponse.member_setPayload_isSome h key value (.inl (List.mem_singleton.mp hmem))

/-- A member that is added is filled. -/
theorem add (h : r.payload.isObject = true) {key : Bytes} {json : Json}
    (hadd : r.add key json = .ok r') : Fills r [key] r' where
  isObject := by
    unfold RedfishResponse.add at hadd
    split at hadd
    · split at hadd
      · split at hadd
        · cases hadd
          exact Json.isObject_set h key _
        · cases hadd
          exact Json.isObject_set h key _
      · cases hadd
        exact Json.isObject_set h key _
    · cases hadd
  keeps := fun _ hname => RedfishResponse.add_member h hadd (.inr hname)
  gives := fun _ hmem => RedfishResponse.add_member h hadd (.inl (List.mem_singleton.mp hmem))

/-- A report fills its annotation. -/
theorem report (h : r.payload.isObject = true) (property : Bytes) :
    Fills r [Action.annotation property] (messages.internalErrorOf property r) :=
  set h _ _ _

/-- A value that is reported is null. -/
theorem reported (h : r.payload.isObject = true) (name : Bytes) :
    Fills r [name] (Step.reported name r) := by
  have hreport := report h name
  have hnull := set hreport.isObject name .null (messages.internalErrorOf name r).response
  exact (hreport.trans hnull).mono (List.subset_append_right _ _)

/-- Each report fills its annotation. -/
theorem reportAll (h : r.payload.isObject = true) (errors : List Bytes) :
    Fills r (errors.map Action.annotation) (Redfish.reportAll errors r) := by
  induction errors generalizing r with
  | nil => exact refl h
  | cons property rest ih =>
      have hfirst := report h property
      exact hfirst.trans (ih hfirst.isObject)

end Fills

namespace Action

/-! ## Children that write nothing -/

mutual

/-- An empty text, and an object without anything to write. -/
def ComesOutEmpty : Action → Prop
  | .scalar _ (.ok (some value)) => value.getString = some []
  | .object _ errors childs | .entity errors childs => errors = [] ∧ AllComeOutEmpty childs
  | _ => False

/-- The same for several getters. -/
def AllComeOutEmpty : List Action → Prop
  | [] => True
  | action :: rest => action.ComesOutEmpty ∧ AllComeOutEmpty rest

end

variable {library : JsonLibrary} {r r' : RedfishResponse}

mutual

/-- An action that comes out empty ends normally and changes nothing. -/
theorem process_of_comesOutEmpty (library : JsonLibrary) : (action : Action) →
    action.ComesOutEmpty → (r : RedfishResponse) → process library action r = (.ok (), r)
  | .scalar name (.ok (some value)), h, r => by
      simp only [ComesOutEmpty] at h
      simp only [process, Step.scalar, Step.visitScalar, if_pos h, Step.catching, Step.skip]
  | .object name errors childs, h, r => by
      simp only [ComesOutEmpty] at h
      obtain ⟨rfl, hchilds⟩ := h
      have hclean := RedfishResponse.clean_initial r.prettyOutput
      have hfilled := processAll_of_comesOutEmpty library childs hchilds
        { prettyOutput := r.prettyOutput }
      simp only [process, reportAll, List.foldl_nil, hfilled, addUnlessEmpty, Step.skip,
        destroyAfter_clean library hclean]
  | .entity errors childs, h, r => by
      simp only [ComesOutEmpty] at h
      obtain ⟨rfl, hchilds⟩ := h
      simp only [process, reportAll, List.foldl_nil]
      exact processAll_of_comesOutEmpty library childs hchilds r

/-- Getters that come out empty leave the response. -/
theorem processAll_of_comesOutEmpty (library : JsonLibrary) : (actions : List Action) →
    AllComeOutEmpty actions → (r : RedfishResponse) →
      processAll library actions r = (.ok (), r)
  | [], _, r => by rw [processAll]
  | action :: rest, h, r => by
      simp only [AllComeOutEmpty] at h
      rw [processAll, process_of_comesOutEmpty library action h.1 r]
      exact processAll_of_comesOutEmpty library rest h.2 r

end

/-- An object is filled where one of its members is. -/
theorem addUnlessEmpty_fills {name : Bytes} {payload : Json} {names : List Bytes}
    (h : r.payload.isObject = true) (hempty : payload = .object [] → names = [])
    (hadd : addUnlessEmpty name payload r = (.ok (), r')) :
    Fills r (if names = [] then [] else [name]) r' := by
  by_cases hpayload : payload = .object []
  · rw [hpayload, addUnlessEmpty, Step.skip, Prod.mk.injEq] at hadd
    rw [if_pos (hempty hpayload), ← hadd.2]
    exact Fills.refl h
  · rw [addUnlessEmpty_of_ne hpayload] at hadd
    apply (Fills.add h (Step.add_eq_ok.mp hadd)).mono
    split
    · exact List.nil_subset _
    · exact List.Subset.refl _

mutual

/-- What an action gives is there once it has ended. -/
theorem process_fills (library : JsonLibrary) : (action : Action) → {r r' : RedfishResponse} →
    r.payload.isObject = true → process library action r = (.ok (), r') →
      Fills r action.given r'
  | .field name (.ok value), r, r', h, hok => by
      rw [process] at hok
      exact Fills.add h (Step.add_eq_ok.mp hok)
  | .field _ (.error exception), _, _, _, hok => by
      rw [process] at hok
      cases hok
  | .enum name value, r, r', h, hok => by
      rw [process, Step.enum_eq, Prod.mk.injEq] at hok
      rw [← hok.2]
      exact Fills.set h name _ r.response
  | .scalar name value, r, r', h, hok => by
      rw [process] at hok
      rcases Step.scalar_eq_ok hok with ⟨rfl, hadd⟩ | ⟨json, rfl, hempty, rfl⟩ |
        ⟨json, rfl, hempty, hadd⟩ | ⟨exception, rfl, -, rfl⟩
      · exact Fills.add h hadd
      · rw [given, if_pos hempty]
        exact Fills.refl h
      · rw [given, if_neg hempty]
        exact Fills.add h hadd
      · exact Fills.reported h name
  | .entityEnum name value, r, r', h, hok => by
      rw [process] at hok
      rcases Step.entityEnum_eq_ok hok with ⟨text, -, rfl⟩ | ⟨exception, -, rfl⟩
      · exact Fills.set h name _ r.response
      · exact Fills.reported h name
  | .object name errors childs, r, r', h, hok => by
      obtain ⟨mockContext, hfilled, hadd⟩ := object_eq_ok hok
      have hreported := @Fills.reportAll { prettyOutput := r.prettyOutput } rfl errors
      have hall := hreported.trans (processAll_fills library childs hreported.isObject hfilled)
      rw [given]
      apply addUnlessEmpty_fills h _ hadd
      intro hempty
      apply List.eq_nil_iff_forall_not_mem.mpr
      intro other hmem
      have hsome := hall.gives other hmem
      rw [hempty] at hsome
      exact absurd hsome (by simp [Json.member])
  | .collection name errors childs, r, r', h, hok => by
      obtain ⟨array, -, hadd⟩ := collection_eq_ok hok
      exact Fills.add h hadd
  | .collectionSize itemFieldName, r, r', h, hok => by
      rw [process, countItems] at hok
      split at hok
      · cases hok
      · exact Fills.add h (Step.add_eq_ok.mp hok)
      · cases hok
  | .entity errors childs, r, r', h, hok => by
      rw [process] at hok
      have hreported := Fills.reportAll h errors
      rw [given]
      exact hreported.trans (processAll_fills library childs hreported.isObject hok)
  | .raise exception, _, _, _, hok => by
      rw [process] at hok
      cases hok

/-- Getters fill what they give. -/
theorem processAll_fills (library : JsonLibrary) : (actions : List Action) →
    {r r' : RedfishResponse} → r.payload.isObject = true →
      processAll library actions r = (.ok (), r') → Fills r (givenAll actions) r'
  | [], r, r', h, hok => by
      rw [processAll, Prod.mk.injEq] at hok
      rw [givenAll, ← hok.2]
      exact Fills.refl h
  | action :: rest, r, r', h, hok => by
      obtain ⟨middle, hfirst, hrest⟩ := processAll_cons_eq_ok hok
      have hfills := process_fills library action h hfirst
      rw [givenAll]
      exact hfills.trans (processAll_fills library rest hfills.isObject hrest)

end

mutual

/-- An action that ends normally and gives nothing comes out empty. -/
theorem comesOutEmpty_of_given (library : JsonLibrary) : (action : Action) →
    {r r' : RedfishResponse} → process library action r = (.ok (), r') → action.given = [] →
      action.ComesOutEmpty
  | .field _ _, _, _, _, hnone | .enum _ _, _, _, _, hnone | .entityEnum _ _, _, _, _, hnone
  | .collection _ _ _, _, _, _, hnone | .collectionSize _, _, _, _, hnone => by
      rw [given] at hnone
      cases hnone
  | .scalar name value, _, _, _, hnone => by
      match value with
      | .ok none | .error exception => exact absurd hnone (by simp [given])
      | .ok (some json) => simpa [given, ComesOutEmpty] using hnone
  | .object name errors childs, r, r', hok, hnone => by
      obtain ⟨mockContext, hfilled, -⟩ := object_eq_ok hok
      rw [given] at hnone
      split_ifs at hnone with hempty
      obtain ⟨herrors, hchilds⟩ := List.append_eq_nil_iff.mp hempty
      rw [ComesOutEmpty]
      exact ⟨List.map_eq_nil_iff.mp herrors,
        allComeOutEmpty_of_given library childs hfilled hchilds⟩
  | .entity errors childs, r, r', hok, hnone => by
      rw [process] at hok
      rw [given] at hnone
      obtain ⟨herrors, hchilds⟩ := List.append_eq_nil_iff.mp hnone
      rw [ComesOutEmpty]
      exact ⟨List.map_eq_nil_iff.mp herrors,
        allComeOutEmpty_of_given library childs hok hchilds⟩
  | .raise exception, _, _, hok, _ => by
      rw [process] at hok
      cases hok

/-- Getters that give nothing come out empty. -/
theorem allComeOutEmpty_of_given (library : JsonLibrary) : (actions : List Action) →
    {r r' : RedfishResponse} → processAll library actions r = (.ok (), r') →
      givenAll actions = [] → AllComeOutEmpty actions
  | [], _, _, _, _ => by rw [AllComeOutEmpty]; trivial
  | action :: rest, r, r', hok, hnone => by
      obtain ⟨middle, hfirst, hrest⟩ := processAll_cons_eq_ok hok
      rw [givenAll] at hnone
      obtain ⟨hfirstNone, hrestNone⟩ := List.append_eq_nil_iff.mp hnone
      rw [AllComeOutEmpty]
      exact ⟨comesOutEmpty_of_given library action hfirst hfirstNone,
        allComeOutEmpty_of_given library rest hrest hrestNone⟩

end

/-! ## What a collection reads -/

/-- The value that a child leaves under its own name in a context of its own. -/
def produced (library : JsonLibrary) (prettyOutput : Bool) (child : Action) : Option Json :=
  match process library child { prettyOutput } with
  | (.ok (), mockContext) => child.fieldName.bind fun name => mockContext.payload.member name
  | (.error _, _) => none

/-- The loop comes to a child when all children before it have given an element. -/
def Reached (library : JsonLibrary) (prettyOutput : Bool) (before : List Action) : Prop :=
  ∃ array, processElements library prettyOutput before = .ok array

/-- A collection reads only members that are there, and its array holds one entry for
each child that has produced a value. -/
structure CollectionSound (library : JsonLibrary) (name : Bytes) (errors : List Bytes)
    (childs : List Action) (r : RedfishResponse) : Prop where
  present : ∀ before child after key mockContext, childs = before ++ child :: after →
    Reached library r.prettyOutput before →
    process library child { prettyOutput := r.prettyOutput } = (.ok (), mockContext) →
    child.fieldName = some key → (mockContext.payload.member key).isSome = true
  entries : ∀ r', process library (.collection name errors childs) r = (.ok (), r') →
    ∃ values, values.Perm (childs.filterMap (produced library r.prettyOutput)) ∧
      r.add name (.array values) = .ok r'

/-- A child that gives something gives its own key. -/
theorem mem_given {child : Action} {key : Bytes} (hname : child.fieldName = some key)
    (hgiven : child.given ≠ []) : key ∈ child.given := by
  cases child with
  | field | enum | entityEnum | collection | collectionSize =>
      cases hname
      exact List.mem_singleton_self _
  | scalar name value =>
      cases hname
      match value with
      | .ok none | .error exception => exact List.mem_singleton_self _
      | .ok (some json) =>
          rw [given] at hgiven ⊢
          split_ifs at hgiven ⊢
          · exact absurd rfl hgiven
          · exact List.mem_singleton_self _
  | object name errors childs =>
      cases hname
      rw [given] at hgiven ⊢
      split_ifs at hgiven ⊢
      · exact absurd rfl hgiven
      · exact List.mem_singleton_self _
  | entity | raise => cases hname

/-- A child that does not come out empty has written its own field. -/
theorem member_isSome_of_not_empty {pretty : Bool} {child : Action} {key : Bytes}
    {mockContext : RedfishResponse}
    (hok : process library child { prettyOutput := pretty } = (.ok (), mockContext))
    (hname : child.fieldName = some key) (hempty : ¬ child.ComesOutEmpty) :
    (mockContext.payload.member key).isSome = true := by
  have hgiven : child.given ≠ [] :=
    fun hnone => hempty (comesOutEmpty_of_given library child hok hnone)
  exact (process_fills library child rfl hok).gives key (mem_given hname hgiven)

/-- The elements are what the children have produced. -/
theorem processElements_eq_filterMap {pretty : Bool} {childs : List Action} {array : List Json}
    (h : processElements library pretty childs = .ok array) :
    array = childs.filterMap (produced library pretty) := by
  induction childs generalizing array with
  | nil =>
      rw [processElements] at h
      cases h
      rfl
  | cons child rest ih =>
      obtain ⟨mockContext, payload, later, hchild, helement, hlater, rfl⟩ :=
        processElements_cons_eq_ok h
      obtain ⟨name, hname, hmember⟩ := element_eq_ok helement
      have hproduced : produced library pretty child = some payload := by
        rw [produced, hchild]
        dsimp only
        rw [hname, Option.bind_some, hmember]
      rw [List.filterMap_cons, hproduced, ih hlater]

/-- Sorting keeps the elements. -/
theorem sorted_perm (library : JsonLibrary) (values : List Json) :
    (sorted library values).Perm values :=
  List.mergeSort_perm values _

/-- The loop reads a member that is missing, and the assertion ends the program. -/
theorem processElements_of_missing {pretty : Bool} {before after : List Action} {child : Action}
    (hreached : Reached library pretty before) (hname : child.fieldName.isSome = true)
    (hempty : child.ComesOutEmpty) :
    processElements library pretty (before ++ child :: after) = .error .terminated := by
  obtain ⟨array, harray⟩ := hreached
  induction before generalizing array with
  | nil =>
      obtain ⟨name, hname⟩ := Option.isSome_iff_exists.mp hname
      have hprocess := process_of_comesOutEmpty library child hempty { prettyOutput := pretty }
      have helement : child.element { prettyOutput := pretty } = .error .terminated := by
        rw [element, hname]
        rfl
      rw [List.nil_append, processElements, hprocess]
      dsimp only
      rw [helement]
      rfl
  | cons earlier before ih =>
      obtain ⟨mockContext, payload, later, hearlier, helement, hlater, -⟩ :=
        processElements_cons_eq_ok harray
      rw [processElements, hearlier] at harray
      rw [List.cons_append, processElements, hearlier]
      dsimp only at harray ⊢
      rw [helement] at harray ⊢
      cases hdestroy : destroyAfter library mockContext (Except.ok payload) with
      | error failure =>
          rw [hdestroy] at harray
          cases harray
      | ok value =>
          dsimp only
          rw [ih later hlater]

/-- A list fails where an element does not have its key. -/
theorem collection_of_missing {name : Bytes} {errors : List Bytes} {before after : List Action}
    {child : Action} (hreached : Reached library r.prettyOutput before)
    (hname : child.fieldName.isSome = true) (hempty : child.ComesOutEmpty) :
    process library (.collection name errors (before ++ child :: after)) r =
      (.error .terminated, r) := by
  rw [process, processElements_of_missing hreached hname hempty]
  rfl

/-- A collection is sound as long as no child that it comes to is empty. -/
theorem collection_sound_iff (library : JsonLibrary) (name : Bytes) (errors : List Bytes)
    (childs : List Action) (r : RedfishResponse) :
    CollectionSound library name errors childs r ↔
      ∀ before child after, childs = before ++ child :: after →
        Reached library r.prettyOutput before → child.fieldName.isSome = true →
          ¬ child.ComesOutEmpty := by
  constructor
  · intro hsound before child after hsplit hreached hname hempty
    obtain ⟨key, hkey⟩ := Option.isSome_iff_exists.mp hname
    have hprocess := process_of_comesOutEmpty library child hempty
      { prettyOutput := r.prettyOutput }
    have hsome := hsound.present before child after key _ hsplit hreached hprocess hkey
    exact absurd hsome (by simp [Json.member])
  · intro hnone
    refine ⟨?_, ?_⟩
    · intro before child after key mockContext hsplit hreached hok hkey
      apply member_isSome_of_not_empty hok hkey
      exact hnone before child after hsplit hreached (Option.isSome_iff_exists.mpr ⟨key, hkey⟩)
    · intro r' hok
      obtain ⟨array, harray, hadd⟩ := collection_eq_ok hok
      refine ⟨_, ?_, hadd⟩
      rw [← processElements_eq_filterMap harray]
      exact sorted_perm library array

/-- A fragment whose only text is empty. -/
theorem empty_fragment_missing :
    ¬ ∀ library name errors childs r, CollectionSound library name errors childs r := by
  intro h
  let fragment : Action :=
    .object (bytes "0") [] [.scalar (bytes "Name") (.ok (some (.string [])))]
  have hempty : fragment.ComesOutEmpty := by
    simp [fragment, ComesOutEmpty, AllComeOutEmpty, Json.getString]
  have hsound := h ⟨fun _ => [], fun _ => [], fun _ _ => false⟩ (bytes "Members") [] [fragment]
    { prettyOutput := false }
  have hsome := hsound.present [] fragment [] _ _ rfl ⟨[], by rw [processElements]⟩
    (process_of_comesOutEmpty _ fragment hempty _) rfl
  exact absurd hsome (by simp [Json.member])

end Action
end Redfish
end ObmcWebapp
