import ObmcWebapp.Redfish.Router

/-!
# Redfish - The head of a response

The nodes fill the payload and set the status.  No action of a node and no error message
sets a header, and the content type changes only when the page of a browser is printed.

Main results:

- Theorems {lit}`process_keepsHead`, {lit}`processAll_keepsHead`: an action leaves the
  headers and the content type alone.
- Theorem {lit}`resolveAndProcess_keepsHead`: so does the handling of a whole request.
-/

open Library

namespace ObmcWebapp
namespace Redfish

/-- Two responses with the same headers, content type and kind of output. -/
structure SameHead (r r' : RedfishResponse) : Prop where
  headers : r'.response.headers = r.response.headers
  contentType : r'.response.contentType = r.response.contentType
  prettyOutput : r'.prettyOutput = r.prettyOutput

/-- A response has its own head. -/
theorem SameHead.rfl {r : RedfishResponse} : SameHead r r :=
  ⟨Eq.refl _, Eq.refl _, Eq.refl _⟩

/-- The head stays through both. -/
theorem SameHead.trans {r r' r'' : RedfishResponse} (hfirst : SameHead r r')
    (hsecond : SameHead r' r'') : SameHead r r'' :=
  ⟨hsecond.headers.trans hfirst.headers, hsecond.contentType.trans hfirst.contentType,
    hsecond.prettyOutput.trans hfirst.prettyOutput⟩

/-- The step leaves the head of the response alone. -/
def Step.KeepsHead (step : Step) : Prop :=
  ∀ r : RedfishResponse, SameHead r (step r).2

namespace Step.KeepsHead

/-- Doing nothing keeps the head. -/
theorem skip : KeepsHead Step.skip := fun _ => .rfl

/-- Raising keeps the head. -/
theorem raise (exception : Exception) : KeepsHead (Step.raise exception) := fun _ => .rfl

/-- A report keeps the head. -/
theorem report (property : Bytes) : KeepsHead (Step.report property) := fun _ => ⟨rfl, rfl, rfl⟩

/-- Adding keeps the head. -/
theorem add (key : Bytes) (json : Json) : KeepsHead (Step.add key json) := by
  intro r
  unfold Step.add RedfishResponse.add
  by_cases hvalid : json.utf8Valid = true
  · rw [if_pos hvalid]
    cases json with
    | array values =>
        dsimp only
        cases r.payload.member key with
        | none => exact ⟨rfl, rfl, rfl⟩
        | some old => cases old <;> exact ⟨rfl, rfl, rfl⟩
    | _ => exact ⟨rfl, rfl, rfl⟩
  · rw [if_neg hvalid]
    exact .rfl

/-- Two steps keep the head. -/
theorem andThen {first second : Step} (hfirst : first.KeepsHead) (hsecond : second.KeepsHead) :
    (first.andThen second).KeepsHead := by
  intro r
  have hkept := hfirst r
  unfold Step.andThen
  match hresult : first r with
  | (.ok (), middle) =>
      rw [hresult] at hkept
      exact hkept.trans (hsecond middle)
  | (.error failure, middle) =>
      rw [hresult] at hkept
      exact hkept

/-- A step and its handler keep the head. -/
theorem catching {step handler : Step} (hstep : step.KeepsHead) (catches : Exception → Bool)
    (hhandler : handler.KeepsHead) : (step.catching catches handler).KeepsHead := by
  intro r
  have hkept := hstep r
  unfold Step.catching
  split
  · next exception middle hresult =>
      rw [hresult] at hkept
      split
      · exact hkept.trans (hhandler middle)
      · exact hkept
  · exact hkept

/-- A report and null keep the head. -/
theorem reportAndNull (name : Bytes) :
    ((Step.report name).andThen (Step.add name .null)).KeepsHead :=
  (report name).andThen (add name .null)

/-- An enumeration keeps the head. -/
theorem enum (name : Bytes) (value : Except Exception Bytes) :
    (Step.enum name value).KeepsHead := by
  refine catching ?_ _ (add name .null)
  cases value with
  | ok text => exact add name (.string text)
  | error exception => exact raise exception

/-- A value keeps the head. -/
theorem scalar (name : Bytes) (value : Except Exception (Option Json)) :
    (Step.scalar name value).KeepsHead := by
  match value with
  | .ok none => exact add name .null
  | .ok (some value) =>
      refine catching ?_ _ (reportAndNull name)
      unfold Step.visitScalar
      split
      · exact skip
      · exact add name value
  | .error exception => exact catching (raise exception) _ (reportAndNull name)

/-- An enumeration of an entity keeps the head. -/
theorem entityEnum (name : Bytes) (value : Except Exception (Option (Except Exception Bytes))) :
    (Step.entityEnum name value).KeepsHead := by
  match value with
  | .ok none => exact add name .null
  | .ok (some text) => exact catching (enum name text) _ (reportAndNull name)
  | .error exception => exact catching (raise exception) _ (reportAndNull name)

end Step.KeepsHead

/-- Reports keep the head. -/
theorem reportAll_head (errors : List Bytes) (r : RedfishResponse) :
    SameHead r (reportAll errors r) := by
  induction errors generalizing r with
  | nil => exact .rfl
  | cons property rest ih =>
      exact (Step.KeepsHead.report property r).trans (ih (messages.internalErrorOf property r))

namespace Action

open Step (KeepsHead)

/-- The number of elements keeps the head. -/
theorem countItems_keepsHead (itemFieldName : Bytes) : KeepsHead (countItems itemFieldName) := by
  intro r
  unfold countItems
  split
  · exact .rfl
  · exact KeepsHead.add _ _ r
  · exact .rfl

/-- An object keeps the head. -/
theorem addUnlessEmpty_keepsHead (name : Bytes) (payload : Json) :
    KeepsHead (addUnlessEmpty name payload) := by
  unfold addUnlessEmpty
  split
  · exact KeepsHead.skip
  · exact KeepsHead.add name _

mutual

/-- Objects and collections are filled in contexts of their own, and what comes of them is
added like a field. -/
theorem process_keepsHead (library : JsonLibrary) : (action : Action) →
    KeepsHead (action.process library)
  | .field name (.ok value) => by
      intro r
      simp only [process]
      exact KeepsHead.add name value r
  | .field _ (.error exception) => by
      intro r
      simp only [process]
      exact KeepsHead.raise exception r
  | .enum name value => by
      intro r
      simp only [process]
      exact KeepsHead.enum name value r
  | .scalar name value => by
      intro r
      simp only [process]
      exact KeepsHead.scalar name value r
  | .entityEnum name value => by
      intro r
      simp only [process]
      exact KeepsHead.entityEnum name value r
  | .object name errors childs => by
      intro r
      simp only [process]
      match processAll library childs (reportAll errors { prettyOutput := r.prettyOutput }) with
      | (.error failure, mockContext) => exact .rfl
      | (.ok (), mockContext) => exact addUnlessEmpty_keepsHead name mockContext.payload r
  | .collection name errors childs => by
      intro r
      simp only [process]
      match processElements library r.prettyOutput childs with
      | .error failure => exact .rfl
      | .ok array => exact KeepsHead.add name _ r
  | .collectionSize itemFieldName => by
      intro r
      simp only [process]
      exact countItems_keepsHead itemFieldName r
  | .entity errors childs => by
      intro r
      simp only [process]
      exact (reportAll_head errors r).trans
        (processAll_keepsHead library childs (reportAll errors r))
  | .raise exception => by
      intro r
      simp only [process]
      exact KeepsHead.raise exception r

/-- Getters keep the head. -/
theorem processAll_keepsHead (library : JsonLibrary) : (actions : List Action) →
    KeepsHead (processAll library actions)
  | [] => by
      intro r
      rw [processAll]
      exact .rfl
  | action :: rest => by
      intro r
      have hfirst := process_keepsHead library action r
      rw [processAll]
      match hresult : process library action r with
      | (.error failure, middle) =>
          rw [hresult] at hfirst
          exact hfirst
      | (.ok (), middle) =>
          rw [hresult] at hfirst
          exact hfirst.trans (processAll_keepsHead library rest middle)

end

end Action

/-! ## A whole request -/

section

variable {κ : Type} (library : JsonLibrary)

/-- An error keeps the head. -/
theorem addError_head (r : RedfishResponse) (message : Json) : SameHead r (r.addError message) := by
  unfold RedfishResponse.addError
  dsimp only
  split <;> exact ⟨rfl, rfl, rfl⟩

/-- The status keeps the head. -/
theorem setStatus_head (r : RedfishResponse) (status : StatusCode) :
    SameHead r (r.setStatus status) :=
  ⟨rfl, rfl, rfl⟩

/-- An error message sets the status and adds its text to the payload. -/
theorem apply_keepsHead (status : StatusCode) (message : Json) :
    (Step.apply fun r => (r.setStatus status).addError message).KeepsHead := fun r =>
  (setStatus_head r status).trans (addError_head _ message)

/-- An internal error keeps the head. -/
theorem internalError_keepsHead : (Step.apply messages.internalError).KeepsHead :=
  apply_keepsHead .internalServerError messages.internalErrorMessage

/-- {lit}`methodGet` keeps the head. -/
theorem Handler.methodGet_keepsHead (handler : Handler κ) (ctx : κ) (env : Environment) :
    (handler.methodGet library ctx env).KeepsHead := by
  have hgetters : (handler.processGetters library ctx env).KeepsHead := by
    intro r
    unfold Handler.processGetters
    split
    · exact Step.KeepsHead.raise _ r
    · exact Action.processAll_keepsHead library _ r
  have hstatus : (Step.apply fun r : RedfishResponse => r.setStatus .ok).KeepsHead :=
    fun r => setStatus_head r .ok
  unfold Handler.methodGet
  dsimp only
  split
  · exact (hstatus.andThen hgetters).catching _ internalError_keepsHead
  · exact hstatus.andThen hgetters

theorem INode.process_keepsHead (node : INode κ (Handler κ)) (ctx : κ) (env : Environment) :
    (node.process library ctx env).KeepsHead := by
  cases node with
  | notFound => exact apply_keepsHead .notFound (messages.uriNotFoundMessage env.getUriPath)
  | found node =>
      unfold INode.process
      dsimp only
      split
      · exact node.handler.methodGet_keepsHead library ctx env
      · exact apply_keepsHead .methodNotAllowed (messages.methodNotAllowedMessage env.getUriPath)

theorem RedfishRouter.resolveAndProcess_keepsHead (redfishV1 : NodeType κ (Handler κ)) (ctx : κ)
    (env : Environment) : (resolveAndProcess library redfishV1 ctx env).KeepsHead := by
  intro r
  unfold resolveAndProcess
  split
  · exact .rfl
  · next node ctx _ => exact node.process_keepsHead library ctx env r

end

namespace RedfishResponse

variable {library : JsonLibrary} {r printed flashed : RedfishResponse}

/-- A printed page has its own type and the same headers. -/
theorem prettyPrintRedfish_head (h : r.prettyPrintRedfish library = .ok printed) :
    printed.response.headers = r.response.headers ∧
      printed.response.contentType = bytes "text/html; charset=UTF-8" := by
  unfold prettyPrintRedfish at h
  split at h
  · cases h
  · obtain rfl := Except.ok.inj h
    exact ⟨rfl, rfl⟩

/-- What is flashed has no other header, and its type is that of a page or the old one. -/
theorem destroyContext_head (h : r.destroyContext library = .ok flashed) :
    flashed.response.headers = r.response.headers ∧
      flashed.response.contentType =
        if r.prettyOutput then bytes "text/html; charset=UTF-8" else r.response.contentType := by
  have hflash : r.flash library = .ok flashed := by
    unfold destroyContext at h
    split at h
    · cases h
    · exact h
  unfold flash at hflash
  dsimp only at hflash
  by_cases hpretty : r.prettyOutput = true
  · rw [if_pos hpretty] at hflash ⊢
    have hprinted := prettyPrintRedfish_head hflash
    exact hprinted
  · rw [if_neg hpretty] at hflash ⊢
    split at hflash
    · obtain rfl := Except.ok.inj hflash
      exact ⟨rfl, rfl⟩
    · cases hflash

end RedfishResponse
end Redfish
end ObmcWebapp
