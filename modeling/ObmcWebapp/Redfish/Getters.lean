import ObmcWebapp.Redfish.Response

/-!
# Redfish - The getters of a node

The actions that fill the payload on {lit}`GET`.  What they read from the entities
is given with them, already looked up: a value, an exception, or the fields for which
{lit}`childs` reports an internal error while it builds the child actions.  Objects
and collections are filled in contexts of their own, which are destroyed, and thereby
flashed, when the action ends or is left by an exception.

Main results:

- Theorems {lit}`process_orderly`, {lit}`processAll_orderly`: well-formed actions keep
  the payload serialisable and end normally or by an exception.
-/

open Library

namespace ObmcWebapp
namespace Redfish

/-- The classes derived from {lit}`IAction`.  Every list of field names stands for the
errors that {lit}`childs` reports. -/
inductive Action
  /-- {lit}`FieldGetter` and its aliases. -/
  | field (name : Bytes) (value : Except Exception Json)
  /-- {lit}`EnumGetter` with the result of {lit}`castEnumToString`. -/
  | enum (name : Bytes) (value : Except Exception Bytes)
  /-- {lit}`ScalarFieldGetter`; a field that is null or absent gives none. -/
  | scalar (name : Bytes) (value : Except Exception (Option Json))
  | entityEnum (name : Bytes) (value : Except Exception (Option (Except Exception Bytes)))
  /-- {lit}`ObjectGetter`, with it the links, references, fragments and extensions. -/
  | object (name : Bytes) (errors : List Bytes) (childs : List Action)
  /-- {lit}`StaticCollectionGetter`, with it the lists of fields, links and references. -/
  | collection (name : Bytes) (errors : List Bytes) (childs : List Action)
  | collectionSize (itemFieldName : Bytes)
  | entity (errors : List Bytes) (childs : List Action)
  /-- {lit}`childs` throws. -/
  | raise (exception : Exception)

/-- The way in which a step ends, and the response it leaves. -/
abbrev Step := RedfishResponse → Except Failure Unit × RedfishResponse

namespace Step

/-- The step that does nothing. -/
def skip : Step := fun r => (.ok (), r)

/-- The step that raises. -/
def raise (exception : Exception) : Step := fun r => (.error (.raised exception), r)

/-- {lit}`add` of the response. -/
def add (key : Bytes) (json : Json) : Step := fun r =>
  match r.add key json with
  | .ok added => (.ok (), added)
  | .error failure => (.error failure, r)

/-- A report about a property. -/
def report (property : Bytes) : Step := fun r => (.ok (), messages.internalErrorOf property r)

/-- The second step follows where the first returns. -/
def andThen (first second : Step) : Step := fun r =>
  match first r with
  | (.ok (), r) => second r
  | (.error failure, r) => (.error failure, r)

/-- A {lit}`try` block and its handler. -/
def catching (step : Step) (catches : Exception → Bool) (handler : Step) : Step := fun r =>
  match step r with
  | (.error (.raised exception), r) =>
      if catches exception then handler r else (.error (.raised exception), r)
  | outcome => outcome

/-- The visitor of {lit}`ScalarFieldGetter` leaves out empty texts. -/
def visitScalar (name : Bytes) (value : Json) : Step :=
  if value.getString = some [] then skip else add name value

/-- A text or, after an exception, null. -/
def enum (name : Bytes) (value : Except Exception Bytes) : Step :=
  catching
    (match value with
      | .ok text => add name (.string text)
      | .error exception => raise exception)
    (fun _ => true) (add name .null)

/-- A value, null where there is none, and a report where it cannot be read. -/
def scalar (name : Bytes) (value : Except Exception (Option Json)) : Step :=
  match value with
  | .ok none => add name .null
  | .ok (some value) =>
      catching (visitScalar name value) Exception.isRuntimeError
        ((report name).andThen (add name .null))
  | .error exception =>
      catching (raise exception) Exception.isRuntimeError
        ((report name).andThen (add name .null))

/-- The text of an enumeration, null where there is none, and a report where it cannot be
read. -/
def entityEnum (name : Bytes) (value : Except Exception (Option (Except Exception Bytes))) :
    Step :=
  match value with
  | .ok none => add name .null
  | .ok (some text) =>
      catching (enum name text) (fun _ => true) ((report name).andThen (add name .null))
  | .error exception =>
      catching (raise exception) (fun _ => true) ((report name).andThen (add name .null))

end Step

/-- {lit}`childs` reports its errors to the context it is given. -/
def reportAll (errors : List Bytes) (r : RedfishResponse) : RedfishResponse :=
  errors.foldl (fun r property => messages.internalErrorOf property r) r

/-- A context of its own is destroyed when a step ends or throws. -/
def destroyAfter {α : Type} (library : JsonLibrary) (mockContext : RedfishResponse)
    (result : Except Failure α) : Except Failure α :=
  match result with
  | .error .terminated => .error .terminated
  | .error .overrun => .error .overrun
  | result =>
      match mockContext.destroyContext library with
      | .ok _ => result
      | .error failure => .error failure

namespace Action

/-- The key with the number of elements of a list. -/
def countName (itemFieldName : Bytes) : Bytes :=
  itemFieldName ++ bytes "@odata.count"

/-- {lit}`getFieldName`, none where it throws. -/
def fieldName : Action → Option Bytes
  | .field name _ | .enum name _ | .scalar name _ | .entityEnum name _ => some name
  | .object name _ _ | .collection name _ _ => some name
  | .collectionSize itemFieldName => some (countName itemFieldName)
  | .entity _ _ | .raise _ => none

/-- The element that a collection takes from the context of a child; a missing key
of a constant value fails an assertion. -/
def element (child : Action) (mockContext : RedfishResponse) : Except Failure Json :=
  match child.fieldName with
  | none => .error (.raised .runtimeError)
  | some name =>
      match mockContext.payload.member name with
      | none => .error .terminated
      | some payload => .ok payload

/-- {lit}`std::sort` by the order of the JSON library. -/
def sorted (library : JsonLibrary) (values : List Json) : List Json :=
  values.mergeSort fun a b => !library.less b a

/-- The member that {lit}`CollectionSizeAnnotation` counts. -/
def countItems (itemFieldName : Bytes) : Step := fun r =>
  match r.payload.member itemFieldName with
  | none => (.error .terminated, r)
  | some (.array values) =>
      Step.add (countName itemFieldName) (.numberUnsigned values.length.toUInt64) r
  | some _ => (.error (.raised .runtimeError), r)

/-- An object without members is left out. -/
def addUnlessEmpty (name : Bytes) (payload : Json) : Step :=
  match payload with
  | .object [] => Step.skip
  | payload => Step.add name payload

mutual

/-- A getter at the response. -/
def process (library : JsonLibrary) : Action → Step
  | .field name (.ok value), r => Step.add name value r
  | .field _ (.error exception), r => Step.raise exception r
  | .enum name value, r => Step.enum name value r
  | .scalar name value, r => Step.scalar name value r
  | .entityEnum name value, r => Step.entityEnum name value r
  | .object name errors childs, r =>
      let (result, mockContext) :=
        processAll library childs (reportAll errors { prettyOutput := r.prettyOutput })
      let (result, r) :=
        match result with
        | .error failure => (.error failure, r)
        | .ok () =>
            addUnlessEmpty name mockContext.payload r
      (destroyAfter library mockContext result, r)
  | .collection name errors childs, r =>
      let mockComplexContext := reportAll errors { prettyOutput := r.prettyOutput }
      let (result, r) :=
        match processElements library r.prettyOutput childs with
        | .error failure => (.error failure, r)
        | .ok array => Step.add name (.array (sorted library array)) r
      (destroyAfter library mockComplexContext result, r)
  | .collectionSize itemFieldName, r => countItems itemFieldName r
  | .entity errors childs, r => processAll library childs (reportAll errors r)
  | .raise exception, r => Step.raise exception r

/-- The getters of a node in their order. -/
def processAll (library : JsonLibrary) : List Action → Step
  | [], r => (.ok (), r)
  | action :: rest, r =>
      match process library action r with
      | (.ok (), r) => processAll library rest r
      | (.error failure, r) => (.error failure, r)

/-- The elements of a collection, each filled in a context of its own. -/
def processElements (library : JsonLibrary) (prettyOutput : Bool) :
    List Action → Except Failure (List Json)
  | [] => .ok []
  | child :: rest =>
      let (result, mockContext) := process library child { prettyOutput }
      let payload :=
        match result with
        | .error failure => .error failure
        | .ok () => child.element mockContext
      match destroyAfter library mockContext payload with
      | .error failure => .error failure
      | .ok payload =>
          match processElements library prettyOutput rest with
          | .error failure => .error failure
          | .ok array => .ok (payload :: array)

end

/-! ## Well-formed actions -/

/-- The key under which reports about a property stand. -/
def annotation (property : Bytes) : Bytes :=
  property ++ RedfishResponse.messageAnnotation

mutual

/-- The members that are in the payload once the action has ended. -/
def given : Action → List Bytes
  | .field name _ | .enum name _ | .entityEnum name _ | .collection name _ _ => [name]
  | .scalar name (.ok (some value)) => if value.getString = some [] then [] else [name]
  | .scalar name _ => [name]
  | .object name errors childs =>
      if errors.map annotation ++ givenAll childs = [] then [] else [name]
  | .collectionSize itemFieldName => [countName itemFieldName]
  | .entity errors childs => errors.map annotation ++ givenAll childs
  | .raise _ => []

/-- The keys that the getters give. -/
def givenAll : List Action → List Bytes
  | [] => []
  | action :: rest => action.given ++ givenAll rest

end

mutual

/-- Names are texts, only members that are there are counted, and every child of a
collection gives its own field. -/
def WellFormed (present : List Bytes) : Action → Prop
  | .field name _ | .enum name _ | .scalar name _ | .entityEnum name _ => Utf8.Valid name
  | .object name errors childs =>
      Utf8.Valid name ∧ (∀ property ∈ errors, Utf8.Valid property) ∧
        WellFormedAll (errors.map annotation) childs
  | .collection name errors childs =>
      Utf8.Valid name ∧ (∀ property ∈ errors, Utf8.Valid property) ∧ WellFormedEach childs
  | .collectionSize itemFieldName => Utf8.Valid itemFieldName ∧ itemFieldName ∈ present
  | .entity errors childs =>
      (∀ property ∈ errors, Utf8.Valid property) ∧
        WellFormedAll (present ++ errors.map annotation) childs
  | .raise _ => True

/-- Actions one after the other in one context. -/
def WellFormedAll (present : List Bytes) : List Action → Prop
  | [] => True
  | action :: rest => action.WellFormed present ∧ WellFormedAll (present ++ action.given) rest

/-- The children of a collection. -/
def WellFormedEach : List Action → Prop
  | [] => True
  | child :: rest =>
      child.WellFormed [] ∧ (∀ name, child.fieldName = some name → name ∈ child.given) ∧
        WellFormedEach rest

end

end Action

/-! ## Orderly steps -/

/-- The members are in the payload. -/
def Gives (r : RedfishResponse) (names : List Bytes) : Prop :=
  ∀ name ∈ names, (r.payload.member name).isSome = true

/-- A step ends normally or by an exception, keeps the payload serialisable and its
members, and gives its own ones where it ends normally. -/
structure Orderly (r : RedfishResponse) (names : List Bytes)
    (outcome : Except Failure Unit × RedfishResponse) : Prop where
  clean : outcome.2.Clean
  pretty : outcome.2.prettyOutput = r.prettyOutput
  keeps : ∀ name, (r.payload.member name).isSome = true →
    (outcome.2.payload.member name).isSome = true
  gives : outcome.1 = .ok () → Gives outcome.2 names
  raised : ∀ failure, outcome.1 = .error failure → ∃ exception, failure = .raised exception

namespace RedfishResponse

/-- A member that is set, or was there before, is there. -/
theorem member_setPayload_isSome {r : RedfishResponse} (h : r.payload.isObject = true)
    (key : Bytes) (value : Json) {name : Bytes}
    (hname : name = key ∨ (r.payload.member name).isSome = true) :
    ((r.payload.set key value).member name).isSome = true := by
  rw [Json.member_set h]
  split
  · rfl
  · next hne => exact hname.resolve_left hne

/-- The members after {lit}`add`. -/
theorem add_member {r added : RedfishResponse} (h : r.payload.isObject = true) {key : Bytes}
    {json : Json} (hadd : r.add key json = .ok added) {name : Bytes}
    (hname : name = key ∨ (r.payload.member name).isSome = true) :
    (added.payload.member name).isSome = true := by
  unfold RedfishResponse.add at hadd
  split at hadd
  · split at hadd
    · split at hadd
      · cases hadd
        exact member_setPayload_isSome h key _ hname
      · cases hadd
        exact member_setPayload_isSome h key _ hname
    · cases hadd
      exact member_setPayload_isSome h key _ hname
  · cases hadd

/-- Adding a member leaves the choice of the output. -/
theorem add_prettyOutput {r added : RedfishResponse} {key : Bytes} {json : Json}
    (hadd : r.add key json = .ok added) : added.prettyOutput = r.prettyOutput := by
  unfold RedfishResponse.add at hadd
  split at hadd
  · split at hadd
    · split at hadd
      · cases hadd
        rfl
      · cases hadd
        rfl
    · cases hadd
      rfl
  · cases hadd

/-- Adding fails where the payload is no object. -/
theorem add_error {r : RedfishResponse} {key : Bytes} {json : Json} {failure : Failure}
    (hadd : r.add key json = .error failure) : failure = .raised .jsonTypeError := by
  unfold RedfishResponse.add at hadd
  split at hadd
  · split at hadd
    · split at hadd
      · cases hadd
      · cases hadd
    · cases hadd
  · cases hadd
    rfl

end RedfishResponse

namespace Orderly

variable {r : RedfishResponse} {names : List Bytes}

/-- Nothing is given by nothing. -/
theorem skip (h : r.Clean) : Orderly r [] (Step.skip r) where
  clean := h
  pretty := rfl
  keeps := fun _ hname => hname
  gives := fun _ _ hmem => absurd hmem List.not_mem_nil
  raised := fun _ heq => nomatch heq

/-- A step that raises needs to give nothing. -/
theorem raise (h : r.Clean) (exception : Exception) : Orderly r names (Step.raise exception r) where
  clean := h
  pretty := rfl
  keeps := fun _ hname => hname
  gives := fun heq => nomatch heq
  raised := by
    intro failure heq
    cases heq
    exact ⟨exception, rfl⟩

/-- A member with a valid key is given. -/
theorem add (h : r.Clean) {key : Bytes} (hkey : Utf8.Valid key) (json : Json) :
    Orderly r [key] (Step.add key json r) := by
  unfold Step.add
  cases hadd : r.add key json with
  | ok added =>
      refine ⟨h.add hkey hadd, RedfishResponse.add_prettyOutput hadd, ?_, ?_, ?_⟩
      · intro name hname
        exact RedfishResponse.add_member h.isObject hadd (Or.inr hname)
      · intro _ name hmem
        exact RedfishResponse.add_member h.isObject hadd (Or.inl (List.mem_singleton.mp hmem))
      · intro failure heq
        cases heq
  | error failure =>
      refine ⟨h, rfl, fun _ hname => hname, fun heq => (nomatch heq), ?_⟩
      intro failure' heq
      cases heq
      exact ⟨_, RedfishResponse.add_error hadd⟩

/-- A report gives the annotation of its property. -/
theorem report (h : r.Clean) {property : Bytes} (hproperty : Utf8.Valid property) :
    Orderly r [Action.annotation property] (Step.report property r) where
  clean := messages.internalErrorOf_clean h hproperty
  pretty := rfl
  keeps := fun _ hname => RedfishResponse.member_setPayload_isSome h.isObject _ _ (Or.inr hname)
  gives := by
    intro _ name hmem
    exact RedfishResponse.member_setPayload_isSome h.isObject _ _ (Or.inl (List.mem_singleton.mp hmem))
  raised := fun _ heq => nomatch heq

/-- A step that gives some keys gives fewer. -/
theorem mono {names' : List Bytes} {outcome : Except Failure Unit × RedfishResponse}
    (h : Orderly r names outcome) (hsub : names' ⊆ names) : Orderly r names' outcome :=
  ⟨h.clean, h.pretty, h.keeps, fun heq name hmem => h.gives heq name (hsub hmem), h.raised⟩

/-- One step after the other. -/
theorem trans {middle : RedfishResponse} {names' : List Bytes}
    {outcome : Except Failure Unit × RedfishResponse} (hfirst : Orderly r names (.ok (), middle))
    (hsecond : Orderly middle names' outcome) : Orderly r (names ++ names') outcome where
  clean := hsecond.clean
  pretty := hsecond.pretty.trans hfirst.pretty
  keeps := fun name hname => hsecond.keeps name (hfirst.keeps name hname)
  gives := by
    intro heq name hmem
    rcases List.mem_append.mp hmem with hold | hnew
    · exact hsecond.keeps name (hfirst.gives rfl name hold)
    · exact hsecond.gives heq name hnew
  raised := hsecond.raised

/-- A step that has failed gives whatever is wanted. -/
theorem failed {middle : RedfishResponse} {failure : Failure}
    (hfirst : Orderly r names (.error failure, middle)) (names' : List Bytes) :
    Orderly r names' (.error failure, middle) :=
  ⟨hfirst.clean, hfirst.pretty, hfirst.keeps, fun heq => (nomatch heq), hfirst.raised⟩

/-- Steps in a row give what each of them gives. -/
theorem andThen {first second : Step} {names' : List Bytes} (hfirst : Orderly r names (first r))
    (hsecond : ∀ middle : RedfishResponse, middle.Clean → Orderly middle names' (second middle)) :
    Orderly r (names ++ names') (first.andThen second r) := by
  unfold Step.andThen
  match hresult : first r with
  | (.ok (), middle) =>
      rw [hresult] at hfirst
      exact hfirst.trans (hsecond middle hfirst.clean)
  | (.error failure, middle) =>
      rw [hresult] at hfirst
      exact hfirst.failed _

/-- The step or its handler gives the keys. -/
theorem catching {step handler : Step} {catches : Exception → Bool}
    (hstep : Orderly r names (step r))
    (hhandler : ∀ middle : RedfishResponse, middle.Clean → Orderly middle names (handler middle)) :
    Orderly r names (Step.catching step catches handler r) := by
  unfold Step.catching
  split
  · next exception middle hresult =>
      rw [hresult] at hstep
      split
      · have hcaught := hhandler middle hstep.clean
        exact ⟨hcaught.clean, hcaught.pretty.trans hstep.pretty,
          fun name hname => hcaught.keeps name (hstep.keeps name hname), hcaught.gives,
          hcaught.raised⟩
      · exact hstep
  · exact hstep

/-- A report is followed by a null member. -/
theorem reportAndNull (h : r.Clean) {name : Bytes} (hname : Utf8.Valid name) :
    Orderly r [name] ((Step.report name).andThen (Step.add name .null) r) := by
  have hboth := andThen (report h hname) fun middle hmiddle => add hmiddle hname .null
  exact hboth.mono (List.subset_append_right _ _)

/-- An enumeration gives its member. -/
theorem enum (h : r.Clean) {name : Bytes} (hname : Utf8.Valid name)
    (value : Except Exception Bytes) : Orderly r [name] (Step.enum name value r) := by
  apply catching
  · cases value with
    | ok text => exact add h hname _
    | error exception => exact raise h exception
  · intro middle hmiddle
    exact add hmiddle hname .null

/-- An enumeration of an entity gives its member. -/
theorem entityEnum (h : r.Clean) {name : Bytes} (hname : Utf8.Valid name)
    (value : Except Exception (Option (Except Exception Bytes))) :
    Orderly r [name] (Step.entityEnum name value r) := by
  have hhandler : ∀ middle : RedfishResponse, middle.Clean →
      Orderly middle [name] ((Step.report name).andThen (Step.add name .null) middle) :=
    fun middle hmiddle => reportAndNull hmiddle hname
  match value with
  | .ok none => exact add h hname .null
  | .ok (some text) => exact catching (enum h hname text) hhandler
  | .error exception =>
      unfold Step.entityEnum
      exact catching (raise h exception) hhandler

/-- A value gives its member and what it may report. -/
theorem scalar (h : r.Clean) {name : Bytes} (hname : Utf8.Valid name)
    (value : Except Exception (Option Json)) :
    Orderly r (Action.scalar name value).given (Step.scalar name value r) := by
  match value with
  | .ok none => exact add h hname .null
  | .ok (some value) =>
      unfold Action.given
      by_cases hempty : value.getString = some []
      · rw [if_pos hempty]
        apply catching
        · rw [Step.visitScalar, if_pos hempty]
          exact skip h
        · intro middle hmiddle
          exact (reportAndNull hmiddle hname).mono (List.nil_subset _)
      · rw [if_neg hempty]
        apply catching
        · rw [Step.visitScalar, if_neg hempty]
          exact add h hname value
        · intro middle hmiddle
          exact reportAndNull hmiddle hname
  | .error exception =>
      exact catching (raise h exception) fun middle hmiddle => reportAndNull hmiddle hname

/-- Each report gives an annotation. -/
theorem reportAll {errors : List Bytes} (h : r.Clean)
    (herrors : ∀ property ∈ errors, Utf8.Valid property) :
    Orderly r (errors.map Action.annotation) (.ok (), Redfish.reportAll errors r) := by
  induction errors generalizing r with
  | nil => exact skip h
  | cons property rest ih =>
      have hfirst := report h (herrors property (List.mem_cons_self ..))
      exact hfirst.trans (ih hfirst.clean fun other hmem =>
        herrors other (List.mem_cons_of_mem _ hmem))

end Orderly

/-- Destroying a serialisable context changes nothing. -/
theorem destroyAfter_clean {α : Type} (library : JsonLibrary) {mockContext : RedfishResponse}
    (h : mockContext.Clean) (result : Except Failure α) :
    destroyAfter library mockContext result = result := by
  obtain ⟨flashed, hflashed⟩ := h.destroyContext library
  unfold destroyAfter
  split
  · rfl
  · rfl
  · rw [hflashed]

namespace Action

/-- The number of elements is given where the list is there. -/
theorem countItems_orderly {r : RedfishResponse} (h : r.Clean) {itemFieldName : Bytes}
    (hvalid : Utf8.Valid itemFieldName)
    (hpresent : (r.payload.member itemFieldName).isSome = true) :
    Orderly r [countName itemFieldName] (countItems itemFieldName r) := by
  have hcount : Utf8.Valid (countName itemFieldName) := hvalid.append (by decide)
  unfold countItems
  split
  · next hnone =>
      rw [hnone] at hpresent
      exact absurd hpresent (by simp)
  · exact Orderly.add h hcount _
  · exact Orderly.raise h .runtimeError

/-- A child that gives its own field fails only by {lit}`getFieldName`. -/
theorem element_raised {child : Action} {mockContext : RedfishResponse} {failure : Failure}
    (hown : ∀ name, child.fieldName = some name → name ∈ child.given)
    (hgives : Gives mockContext child.given) (heq : child.element mockContext = .error failure) :
    ∃ exception, failure = .raised exception := by
  unfold element at heq
  split at heq
  · cases heq
    exact ⟨_, rfl⟩
  · next name hname =>
      have hsome := hgives name (hown name hname)
      split at heq
      · next hnone =>
          rw [hnone] at hsome
          exact absurd hsome (by simp)
      · cases heq

/-- An object with members is added. -/
theorem addUnlessEmpty_of_ne {name : Bytes} {payload : Json} (hne : payload ≠ .object []) :
    addUnlessEmpty name payload = Step.add name payload := by
  unfold addUnlessEmpty
  split
  · contradiction
  · rfl

/-- An object is added where one of its members is given. -/
theorem addUnlessEmpty_orderly {r : RedfishResponse} (h : r.Clean) {name : Bytes}
    (hname : Utf8.Valid name) {payload : Json} {names : List Bytes}
    (hempty : payload = .object [] → names = []) :
    Orderly r (if names = [] then [] else [name]) (addUnlessEmpty name payload r) := by
  by_cases hpayload : payload = .object []
  · rw [if_pos (hempty hpayload), hpayload]
    exact Orderly.skip h
  · rw [addUnlessEmpty_of_ne hpayload]
    apply (Orderly.add h hname payload).mono
    split
    · exact List.nil_subset _
    · exact List.Subset.refl _

mutual

/-- Every getter gives its keys and leaves the response clean. -/
theorem process_orderly (library : JsonLibrary) : (action : Action) → {present : List Bytes} →
    action.WellFormed present → {r : RedfishResponse} → r.Clean → Gives r present →
      Orderly r action.given (action.process library r)
  | .field _ (.ok value), _, hwf, _, h, _ => by
      simp only [process, given, WellFormed] at hwf ⊢
      exact Orderly.add h hwf value
  | .field _ (.error exception), _, _, _, h, _ => by
      simp only [process, given]
      exact Orderly.raise h exception
  | .enum _ value, _, hwf, _, h, _ => by
      simp only [process, given, WellFormed] at hwf ⊢
      exact Orderly.enum h hwf value
  | .scalar _ value, _, hwf, _, h, _ => by
      simp only [WellFormed] at hwf
      simp only [process]
      exact Orderly.scalar h hwf value
  | .entityEnum _ value, _, hwf, _, h, _ => by
      simp only [process, given, WellFormed] at hwf ⊢
      exact Orderly.entityEnum h hwf value
  | .object name errors childs, _, hwf, r, h, _ => by
      simp only [WellFormed] at hwf
      obtain ⟨hname, herrors, hchilds⟩ := hwf
      have hreported := Orderly.reportAll
        (RedfishResponse.clean_initial r.prettyOutput) herrors
      have hfilled := processAll_orderly library childs hchilds hreported.clean
        (hreported.gives rfl)
      have hall := hreported.trans hfilled
      simp only [process, given]
      rw [destroyAfter_clean library hall.clean]
      match hresult : processAll library childs
          (reportAll errors { prettyOutput := r.prettyOutput }) with
      | (.error failure, mockContext) =>
          rw [hresult] at hall
          obtain ⟨exception, rfl⟩ := hall.raised failure rfl
          exact Orderly.raise h exception
      | (.ok (), mockContext) =>
          rw [hresult] at hall
          apply addUnlessEmpty_orderly h hname
          intro hempty
          -- an empty object has no member, so nothing was to be given
          have hnone : ∀ other, other ∉ errors.map annotation ++ givenAll childs := by
            intro other hmem
            have hsome := hall.gives rfl other hmem
            rw [hempty] at hsome
            exact absurd hsome (by simp [Json.member])
          exact List.eq_nil_iff_forall_not_mem.mpr hnone
  | .collection name errors childs, _, hwf, r, h, _ => by
      simp only [WellFormed] at hwf
      obtain ⟨hname, herrors, hchilds⟩ := hwf
      have hreported := Orderly.reportAll
        (RedfishResponse.clean_initial r.prettyOutput) herrors
      simp only [process, given]
      rw [destroyAfter_clean library hreported.clean]
      have helements := processElements_raised library childs hchilds r.prettyOutput
      cases hresult : processElements library r.prettyOutput childs with
      | error failure =>
          obtain ⟨exception, rfl⟩ := helements failure hresult
          exact Orderly.raise h exception
      | ok array => exact Orderly.add h hname _
  | .collectionSize _, _, hwf, _, h, hpresent => by
      simp only [WellFormed] at hwf
      simp only [process, given]
      exact countItems_orderly h hwf.1 (hpresent _ hwf.2)
  | .entity errors childs, present, hwf, r, h, hpresent => by
      simp only [WellFormed] at hwf
      simp only [process, given]
      have hreported := Orderly.reportAll h hwf.1
      apply hreported.trans
      apply processAll_orderly library childs hwf.2 hreported.clean
      intro name hmem
      rcases List.mem_append.mp hmem with hold | hnew
      · exact hreported.keeps name (hpresent name hold)
      · exact hreported.gives rfl name hnew
  | .raise exception, _, _, _, h, _ => by
      simp only [process]
      exact Orderly.raise h exception

theorem processAll_orderly (library : JsonLibrary) : (actions : List Action) →
    {present : List Bytes} → WellFormedAll present actions → {r : RedfishResponse} → r.Clean →
      Gives r present → Orderly r (givenAll actions) (processAll library actions r)
  | [], _, _, _, h, _ => by
      simp only [processAll, givenAll]
      exact Orderly.skip h
  | action :: rest, present, hwf, r, h, hpresent => by
      simp only [WellFormedAll] at hwf
      have hfirst := process_orderly library action hwf.1 h hpresent
      rw [processAll, givenAll]
      match hresult : process library action r with
      | (.error failure, middle) =>
          rw [hresult] at hfirst
          exact hfirst.failed _
      | (.ok (), middle) =>
          rw [hresult] at hfirst
          apply hfirst.trans
          apply processAll_orderly library rest hwf.2 hfirst.clean
          intro name hmem
          rcases List.mem_append.mp hmem with hold | hnew
          · exact hfirst.keeps name (hpresent name hold)
          · exact hfirst.gives rfl name hnew

/-- The elements of a list fail by an exception alone. -/
theorem processElements_raised (library : JsonLibrary) : (childs : List Action) →
    WellFormedEach childs → (prettyOutput : Bool) → ∀ failure,
      processElements library prettyOutput childs = .error failure →
        ∃ exception, failure = .raised exception
  | [], _, _, failure, heq => by
      simp only [processElements] at heq
      exact nomatch heq
  | child :: rest, hwf, prettyOutput, failure, heq => by
      simp only [WellFormedEach] at hwf
      obtain ⟨hchild, hown, hrest⟩ := hwf
      have horderly := process_orderly library child hchild
        (RedfishResponse.clean_initial prettyOutput) fun _ hmem => absurd hmem List.not_mem_nil
      rw [processElements] at heq
      match hresult : process library child { prettyOutput } with
      | (.error failure', mockContext) =>
          rw [hresult] at horderly
          simp only [hresult, destroyAfter_clean library horderly.clean] at heq
          cases heq
          exact horderly.raised _ rfl
      | (.ok (), mockContext) =>
          rw [hresult] at horderly
          simp only [hresult, destroyAfter_clean library horderly.clean] at heq
          cases helement : child.element mockContext with
          | error failure' =>
              rw [helement] at heq
              cases heq
              exact element_raised hown (horderly.gives rfl) helement
          | ok payload =>
              rw [helement] at heq
              dsimp only at heq
              split at heq
              · next failure' hfailed =>
                  cases heq
                  exact processElements_raised library rest hrest prettyOutput _ hfailed
              · cases heq

end

end Action
end Redfish
end ObmcWebapp
