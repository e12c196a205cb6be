import ObmcWebapp.Redfish.Raising
import ObmcWebapp.Redfish.Router

/-!
# Redfish - The status of an answered GET

A getter that fails reports an internal error to the response of its context.  Objects
and collections give their children contexts with responses of their own, from which
only the payload is carried up.

Main results:

- Theorem {lit}`Action.process_status`: which reports an action leaves in the status.
- Theorem {lit}`status_eq_iff`: the status tells of the top reports and of exceptions.
- Theorem {lit}`status_iff_reports_iff`: which requests are answered with the status
  that their failing fields call for.
-/

open Library

namespace ObmcWebapp
namespace Redfish

namespace Action

/-! ## Reports -/

mutual

/-- The fields whose getters report an internal error, at any depth. -/
def reports : Action → List Bytes
  | .scalar name (.error exception) => if exception.isRuntimeError then [name] else []
  | .entityEnum name (.error _) => [name]
  | .object _ errors childs | .collection _ errors childs | .entity errors childs =>
      errors ++ reportsAll childs
  | _ => []

/-- The reports of several getters. -/
def reportsAll : List Action → List Bytes
  | [] => []
  | action :: rest => action.reports ++ reportsAll rest

end

mutual

/-- The fields among them that lie in no object and no collection. -/
def topReports : Action → List Bytes
  | .scalar name (.error exception) => if exception.isRuntimeError then [name] else []
  | .entityEnum name (.error _) => [name]
  | .entity errors childs => errors ++ topReportsAll childs
  | _ => []

/-- The reports of several getters at the top. -/
def topReportsAll : List Action → List Bytes
  | [] => []
  | action :: rest => action.topReports ++ topReportsAll rest

end

/-- Two parts are contained in two parts. -/
private theorem subset_append {names more wider widerMore : List Bytes} (h : names ⊆ wider)
    (hmore : more ⊆ widerMore) : names ++ more ⊆ wider ++ widerMore :=
  List.append_subset.mpr ⟨List.subset_append_of_subset_left _ h,
    List.subset_append_of_subset_right _ hmore⟩

mutual

/-- The reports at the top are reports. -/
theorem topReports_subset : (action : Action) → action.topReports ⊆ action.reports
  | .scalar name value | .entityEnum name value => by
      match value with
      | .ok _ | .error _ => exact List.Subset.refl _
  | .entity errors childs => by
      rw [topReports, reports]
      exact subset_append (List.Subset.refl _) (topReportsAll_subset childs)
  | .object _ _ _ | .collection _ _ _ | .field _ _ | .enum _ _ | .collectionSize _ | .raise _ =>
      List.nil_subset _

theorem topReportsAll_subset : (actions : List Action) →
    topReportsAll actions ⊆ reportsAll actions
  | [] => List.nil_subset _
  | action :: rest => by
      rw [topReportsAll, reportsAll]
      exact subset_append (topReports_subset action) (topReportsAll_subset rest)

end

/-! ## What reaches the status -/

variable {library : JsonLibrary} {r r' : RedfishResponse}

/-- {lit}`add` leaves the status and the headers. -/
theorem add_response {key : Bytes} {json : Json} (h : r.add key json = .ok r') :
    r'.response = r.response := by
  unfold RedfishResponse.add at h
  split at h
  · split at h
    · split at h
      · cases h
        rfl
      · cases h
        rfl
    · cases h
      rfl
  · cases h

theorem addUnlessEmpty_response {name : Bytes} {payload : Json}
    (h : addUnlessEmpty name payload r = (.ok (), r')) : r'.response = r.response := by
  unfold addUnlessEmpty at h
  split at h
  · rw [Step.skip, Prod.mk.injEq] at h
    rw [h.2]
  · exact add_response (Step.add_eq_ok.mp h)

/-- The status says that an internal error was reported. -/
def IsError (r : RedfishResponse) : Prop :=
  r.response.status = .internalServerError

/-- Reports make the response an error. -/
theorem isError_reportAll_iff (errors : List Bytes) (r : RedfishResponse) :
    IsError (reportAll errors r) ↔ IsError r ∨ errors ≠ [] := by
  induction errors generalizing r with
  | nil => simp [reportAll]
  | cons property rest ih =>
      have hreport : IsError (messages.internalErrorOf property r) := rfl
      have hrest : reportAll (property :: rest) r =
          reportAll rest (messages.internalErrorOf property r) := rfl
      rw [hrest, ih]
      simp [hreport]

/-- Only the status counts. -/
theorem isError_congr (h : r'.response = r.response) : IsError r' ↔ IsError r := by
  rw [IsError, h, IsError]

mutual

/-- An action that ends normally leaves its top reports in the status, and no others. -/
theorem process_status (library : JsonLibrary) : (action : Action) → {r r' : RedfishResponse} →
    process library action r = (.ok (), r') →
      (IsError r' ↔ IsError r ∨ action.topReports ≠ [])
  | .field name (.ok value), r, r', hok => by
      rw [process] at hok
      simpa [topReports] using isError_congr (add_response (Step.add_eq_ok.mp hok))
  | .field _ (.error exception), _, _, hok => by
      rw [process] at hok
      cases hok
  | .enum name value, r, r', hok => by
      rw [process, Step.enum_eq, Prod.mk.injEq] at hok
      rw [← hok.2]
      simp [topReports, IsError]
  | .scalar name value, r, r', hok => by
      rw [process] at hok
      rcases Step.scalar_eq_ok hok with ⟨rfl, hadd⟩ | ⟨json, rfl, -, rfl⟩ | ⟨json, rfl, -, hadd⟩ |
        ⟨exception, rfl, hruntime, rfl⟩
      · simpa [topReports] using isError_congr (add_response hadd)
      · simp [topReports]
      · simpa [topReports] using isError_congr (add_response hadd)
      · have herror : IsError (Step.reported name r) := rfl
        simp [topReports, hruntime, herror]
  | .entityEnum name value, r, r', hok => by
      rw [process] at hok
      rcases Step.entityEnum_eq_ok hok with ⟨text, rfl, rfl⟩ | ⟨exception, rfl, rfl⟩
      · simp [topReports, IsError]
      · have herror : IsError (Step.reported name r) := rfl
        simp [topReports, herror]
  | .object name errors childs, r, r', hok => by
      obtain ⟨mockContext, -, hadd⟩ := object_eq_ok hok
      simpa [topReports] using isError_congr (addUnlessEmpty_response hadd)
  | .collection name errors childs, r, r', hok => by
      obtain ⟨array, -, hadd⟩ := collection_eq_ok hok
      simpa [topReports] using isError_congr (add_response hadd)
  | .collectionSize itemFieldName, r, r', hok => by
      rw [process, countItems] at hok
      split at hok
      · cases hok
      · simpa [topReports] using isError_congr (add_response (Step.add_eq_ok.mp hok))
      · cases hok
  | .entity errors childs, r, r', hok => by
      rw [process] at hok
      rw [processAll_status library childs hok, isError_reportAll_iff, topReports, or_assoc,
        ne_eq, ne_eq, ne_eq, List.append_eq_nil_iff, not_and_or]
  | .raise exception, _, _, hok => by
      rw [process] at hok
      cases hok

/-- Getters make the response an error where they report at the top. -/
theorem processAll_status (library : JsonLibrary) : (actions : List Action) →
    {r r' : RedfishResponse} → processAll library actions r = (.ok (), r') →
      (IsError r' ↔ IsError r ∨ topReportsAll actions ≠ [])
  | [], r, r', hok => by
      rw [processAll, Prod.mk.injEq] at hok
      rw [← hok.2]
      simp [topReportsAll]
  | action :: rest, r, r', hok => by
      obtain ⟨middle, hfirst, hrest⟩ := processAll_cons_eq_ok hok
      rw [processAll_status library rest hrest, process_status library action hfirst,
        topReportsAll, or_assoc, ne_eq, ne_eq, ne_eq, List.append_eq_nil_iff, not_and_or]

end

end Action

/-! ## The answer to a GET -/

/-- A {lit}`try` block that answers every exception with an internal error. -/
def catchAll (step : Step) : Step :=
  step.catching (fun _ => true) (Step.apply messages.internalError)

/-- What the router does around the node, up to the destruction of the context. -/
def answer (library : JsonLibrary) (env : Environment) (step : Step) : Except Failure Response :=
  match catchAll step (RedfishRouter.initial env) with
  | (.ok (), r) => (r.destroyContext library).map RedfishResponse.response
  | (.error failure, _) => .error failure

/-- The getters of a node, or the exception that leaves {lit}`getFieldsGetters`. -/
abbrev Getters := Except Exception (List Action)

/-- The getters of a node, or the exception before them. -/
def processGetters (library : JsonLibrary) : Getters → Step
  | .ok actions => Action.processAll library actions
  | .error exception => Step.raise exception

/-- What {lit}`methodGet` does over any getters. -/
def getBody (library : JsonLibrary) (getters : Getters) : Step :=
  (Step.apply fun r => r.setStatus .ok).andThen (processGetters library getters)

/-- The getters are processed after the status is set. -/
theorem getBody_ok (library : JsonLibrary) (actions : List Action) (r : RedfishResponse) :
    getBody library (.ok actions) r = Action.processAll library actions (r.setStatus .ok) := rfl

/-- {lit}`methodGet`, with or without its handler. -/
def methodGet (library : JsonLibrary) (getters : Getters) (catches : Bool) : Step :=
  if catches then catchAll (getBody library getters) else getBody library getters

/-- The router answers a GET of a node by its getters. -/
theorem run_get {κ : Type} (library : JsonLibrary) {redfishV1 : NodeType κ (Handler κ)}
    {ctx ctx' : κ} {env : Environment} {node : NodeType κ (Handler κ)}
    (hresolved : uriResolver env.pathInfo (RedfishRootNode redfishV1) 0 ctx =
      .ok (.found node, ctx')) (hget : env.requestMethod = .get) :
    RedfishRouter.run library redfishV1 ctx env =
      answer library env (methodGet library (node.handler.getFieldsGetters ctx' env)
        node.handler.catches) := by
  have hgetters : processGetters library (node.handler.getFieldsGetters ctx' env) =
      node.handler.processGetters library ctx' env := by
    funext r
    unfold Handler.processGetters
    cases node.handler.getFieldsGetters ctx' env <;> rfl
  have hresolve : RedfishRouter.resolveAndProcess library redfishV1 ctx env =
      node.handler.methodGet library ctx' env := by
    funext r
    unfold RedfishRouter.resolveAndProcess
    rw [hresolved]
    dsimp only
    rw [INode.process, hget]
  unfold answer methodGet getBody
  rw [hgetters]
  unfold RedfishRouter.run
  rw [hresolve]
  rfl

/-! ## The status of the answer -/

/-- The properties about which the getters report. -/
def Getters.reports : Getters → List Bytes
  | .ok actions => Action.reportsAll actions
  | .error _ => []

/-- The properties about which they report at the top. -/
def Getters.topReports : Getters → List Bytes
  | .ok actions => Action.topReportsAll actions
  | .error _ => []

/-- An exception leaves {lit}`getFieldsGetters`, or one of the getters. -/
def Getters.Raises : Getters → Prop
  | .ok actions => Action.RaisesAny [] actions
  | .error _ => True

/-- The getters settle what is written and whether they raise. -/
theorem getBody_settles (library : JsonLibrary) (env : Environment) (actions : List Action) :
    Action.Settles (Action.writtenAll [] actions) (Action.RaisesAny [] actions)
      (getBody library (.ok actions) (RedfishRouter.initial env)) := by
  have hstart : Action.Follows ((RedfishRouter.initial env).setStatus .ok) [] :=
    (Action.Follows.initial env.isBrowserRequest).setResponse _
  rw [getBody_ok]
  exact Action.processAll_settles library actions hstart

/-- What returns is not caught. -/
theorem catchAll_of_ok {step : Step} {r r' : RedfishResponse} (h : step r = (.ok (), r')) :
    catchAll step r = (.ok (), r') := by
  unfold catchAll Step.catching
  rw [h]

/-- What raises is reported as an internal error. -/
theorem catchAll_of_raised {step : Step} {r r' : RedfishResponse} {exception : Exception}
    (h : step r = (.error (.raised exception), r')) :
    catchAll step r = (.ok (), messages.internalError r') := by
  unfold catchAll Step.catching
  rw [h]
  rfl

/-- A step that ends the program is not caught. -/
theorem catchAll_of_fatal {step : Step} {r r' : RedfishResponse} {failure : Failure}
    (h : step r = (.error failure, r')) (hfatal : ∀ exception, failure ≠ .raised exception) :
    catchAll step r = (.error failure, r') := by
  unfold catchAll Step.catching
  rw [h]
  cases failure with
  | raised exception => exact absurd rfl (hfatal exception)
  | terminated => rfl
  | overrun => rfl

/-- A second {lit}`try` block has nothing left to catch. -/
theorem catchAll_catchAll (step : Step) (r : RedfishResponse) :
    catchAll (catchAll step) r = catchAll step r := by
  match h : step r with
  | (.ok (), r') => rw [catchAll_of_ok h, catchAll_of_ok (catchAll_of_ok h)]
  | (.error (.raised exception), r') =>
      rw [catchAll_of_raised h, catchAll_of_ok (catchAll_of_raised h)]
  | (.error .terminated, r') | (.error .overrun, r') =>
      rw [catchAll_of_fatal h (by simp), catchAll_of_fatal (catchAll_of_fatal h (by simp)) (by simp)]

/-- Catching twice is catching once. -/
theorem catchAll_methodGet (library : JsonLibrary) (getters : Getters) (catches : Bool)
    (r : RedfishResponse) :
    catchAll (methodGet library getters catches) r = catchAll (getBody library getters) r := by
  cases catches with
  | false => rfl
  | true => exact catchAll_catchAll _ r

/-- The status of an internal error. -/
theorem internalError_status (r : RedfishResponse) :
    (messages.internalError r).response.status = .internalServerError := by
  unfold messages.internalError RedfishResponse.addError
  dsimp only
  split <;> rfl

/-- Printing leaves the status. -/
theorem prettyPrintRedfish_status {library : JsonLibrary} {r printed : RedfishResponse}
    (h : r.prettyPrintRedfish library = .ok printed) :
    printed.response.status = r.response.status := by
  unfold RedfishResponse.prettyPrintRedfish at h
  split at h
  · cases h
  · cases h
    simp only [Response.status_setContentType, Response.status_push]

theorem flash_status {library : JsonLibrary} {r flashed : RedfishResponse}
    (h : r.flash library = .ok flashed) : flashed.response.status = r.response.status := by
  unfold RedfishResponse.flash at h
  dsimp only at h
  split_ifs at h
  · rw [prettyPrintRedfish_status h, Response.status_clear]
  · cases h
    simp only [Response.status_push, Response.status_clear]

/-- The destruction of the context keeps the status. -/
theorem destroyContext_status {library : JsonLibrary} {r flashed : RedfishResponse}
    (h : r.destroyContext library = .ok flashed) :
    flashed.response.status = r.response.status := by
  unfold RedfishResponse.destroyContext at h
  split at h
  · cases h
  · exact flash_status h

/-- When a request is answered. -/
theorem answer_eq_ok {library : JsonLibrary} {env : Environment} {step : Step}
    {response : Response} (h : answer library env step = .ok response) :
    ∃ r, catchAll step (RedfishRouter.initial env) = (.ok (), r) ∧
      response.status = r.response.status := by
  unfold answer at h
  split at h
  · next r hcaught =>
      cases hdestroy : r.destroyContext library with
      | error failure =>
          rw [hdestroy] at h
          cases h
      | ok flashed =>
          rw [hdestroy] at h
          cases h
          exact ⟨r, hcaught, destroyContext_status hdestroy⟩
  · cases h

/-- The status of an answer tells of the top reports and of exceptions. -/
theorem status_eq_iff {library : JsonLibrary} {env : Environment} {getters : Getters}
    {catches : Bool} {response : Response}
    (h : answer library env (methodGet library getters catches) = .ok response) :
    response.status = .internalServerError ↔ getters.topReports ≠ [] ∨ getters.Raises := by
  obtain ⟨r, hcaught, hstatus⟩ := answer_eq_ok h
  rw [catchAll_methodGet] at hcaught
  rw [hstatus]
  match getters with
  | .error exception =>
      have hend : getBody library (.error exception) (RedfishRouter.initial env) =
          (.error (.raised exception), (RedfishRouter.initial env).setStatus .ok) := rfl
      rw [catchAll_of_raised hend, Prod.mk.injEq] at hcaught
      rw [← hcaught.2]
      exact iff_of_true (internalError_status _) (.inr trivial)
  | .ok actions =>
      have hsettles := getBody_settles library env actions
      match hend : getBody library (.ok actions) (RedfishRouter.initial env) with
      | (.ok (), r') =>
          rw [hend] at hsettles
          rw [catchAll_of_ok hend, Prod.mk.injEq] at hcaught
          have hquiet : ¬ Getters.Raises (.ok actions) := (hsettles.returned rfl).1
          rw [← hcaught.2, or_iff_left hquiet]
          have hstart : ¬ Action.IsError ((RedfishRouter.initial env).setStatus .ok) := nofun
          have hprocess := Action.processAll_status library actions hend
          rwa [or_iff_right hstart] at hprocess
      | (.error (.raised exception), r') =>
          rw [hend] at hsettles
          rw [catchAll_of_raised hend, Prod.mk.injEq] at hcaught
          rw [← hcaught.2]
          exact iff_of_true (internalError_status r') (.inr (hsettles.raised exception rfl))
      | (.error .terminated, r') | (.error .overrun, r') =>
          rw [catchAll_of_fatal hend (by simp)] at hcaught
          cases hcaught

/-- The reports at the top are reports. -/
theorem Getters.topReports_subset (getters : Getters) :
    getters.topReports ⊆ getters.reports := by
  cases getters with
  | error exception => exact List.nil_subset _
  | ok actions => exact Action.topReportsAll_subset actions

/-- The answer where neither a getter nor the end of the context raises anything. -/
theorem answer_of_clean {library : JsonLibrary} {env : Environment} {getters : Getters}
    {r : RedfishResponse} (catches : Bool)
    (hend : getBody library getters (RedfishRouter.initial env) = (.ok (), r)) (hclean : r.Clean) :
    ∃ response, answer library env (methodGet library getters catches) = .ok response := by
  obtain ⟨flashed, hflashed⟩ := hclean.destroyContext library
  unfold answer
  rw [catchAll_methodGet, catchAll_of_ok hend]
  dsimp only
  rw [hflashed]
  exact ⟨flashed.response, rfl⟩

/-- The status says whether some field reports an error exactly if one that does lies in no
object and no collection, or an exception leaves the getters, and no exception leaves
them without such a field. -/
theorem status_iff_reports_iff {library : JsonLibrary} {env : Environment} {getters : Getters}
    {catches : Bool} {response : Response}
    (h : answer library env (methodGet library getters catches) = .ok response) :
    (response.status = .internalServerError ↔ getters.reports ≠ []) ↔
      (getters.reports ≠ [] → getters.topReports ≠ [] ∨ getters.Raises) ∧
        (getters.Raises → getters.reports ≠ []) := by
  have hsubset : getters.topReports ≠ [] → getters.reports ≠ [] := fun htop hnone =>
    htop (List.eq_nil_of_subset_nil (hnone ▸ getters.topReports_subset))
  rw [status_eq_iff h]
  constructor
  · intro hiff
    exact ⟨hiff.mpr, fun hraises => hiff.mp (.inr hraises)⟩
  · rintro ⟨hreported, hraised⟩
    exact ⟨fun hcause => hcause.elim hsubset hraised, hreported⟩

/-- A field outside of objects that reports an error. -/
theorem top_report_answered :
    ∃ response, answer ⟨fun _ => [], fun _ => [], fun _ _ => false⟩ {}
        (methodGet ⟨fun _ => [], fun _ => [], fun _ _ => false⟩
          (.ok [.entity [bytes "Name"] []]) true) = .ok response ∧
      response.status = .internalServerError := by
  have hstart : ((RedfishRouter.initial {}).setStatus .ok).Clean :=
    (RedfishRouter.initial_clean {}).setStatus .ok
  have hclean := (@Orderly.reportAll _ [bytes "Name"] hstart (by decide)).clean
  obtain ⟨response, hanswer⟩ := @answer_of_clean ⟨fun _ => [], fun _ => [], fun _ _ => false⟩ {}
    (.ok [.entity [bytes "Name"] []]) _ true rfl hclean
  have htop : Getters.topReports (.ok [.entity [bytes "Name"] []]) ≠ [] := by
    simp [Getters.topReports, Action.topReportsAll, Action.topReports]
  have hreports : Getters.reports (.ok [.entity [bytes "Name"] []]) ≠ [] := by
    simp [Getters.reports, Action.reportsAll, Action.reports]
  have hfaithful := (status_iff_reports_iff hanswer).mpr
    ⟨fun _ => .inl htop, fun _ => hreports⟩
  exact ⟨response, hanswer, hfaithful.mpr hreports⟩

/-- An object in a payload without members. -/
theorem object_added (library : JsonLibrary) {r : RedfishResponse} (name : Bytes)
    {errors : List Bytes} {members : List (Bytes × Json)}
    (hclean : (reportAll errors { prettyOutput := r.prettyOutput }).Clean)
    (hpayload : (reportAll errors { prettyOutput := r.prettyOutput }).payload = .object members)
    (hmembers : members ≠ []) :
    Action.process library (.object name errors []) r =
      (.ok (), { r with payload := r.payload.set name (.object members) }) := by
  have hvalid : (Json.object members).utf8Valid = true :=
    (Json.utf8Valid_iff _).mpr (hpayload ▸ hclean.valid)
  have hne : Json.object members ≠ .object [] := fun h => hmembers (Json.object.inj h)
  rw [Action.process, Action.processAll]
  simp only [hpayload]
  rw [destroyAfter_clean library hclean, Action.addUnlessEmpty_of_ne hne]
  simp only [Step.add, RedfishResponse.add, if_pos hvalid]

/-- A link without a target is reported in the context of its object, which is dropped. -/
theorem nested_report_dropped :
    ¬ ∀ library env getters catches response,
      answer library env (methodGet library getters catches) = .ok response →
        (response.status = .internalServerError ↔ getters.reports ≠ []) := by
  intro h
  let library : JsonLibrary := ⟨fun _ => [], fun _ => [], fun _ _ => false⟩
  let getters : Getters := .ok [.object (bytes "Chassis") [bytes "Chassis"] []]
  have hstart := (RedfishRouter.initial_clean {}).setStatus .ok
  have hmock := (@Orderly.reportAll { prettyOutput := false } [bytes "Chassis"]
    (RedfishResponse.clean_initial false) (by decide)).clean
  obtain ⟨added, hadded, hclean⟩ : ∃ added : RedfishResponse,
      Action.process library (.object (bytes "Chassis") [bytes "Chassis"] [])
        ((RedfishRouter.initial {}).setStatus .ok) = (.ok (), added) ∧ added.Clean :=
    ⟨_, object_added library _ hmock rfl (List.cons_ne_nil _ _),
      hstart.setPayload (by decide) hmock.valid⟩
  have hend : getBody library getters (RedfishRouter.initial {}) = (.ok (), added) := by
    rw [getBody_ok, Action.processAll, hadded]
    dsimp only
    rw [Action.processAll]
  obtain ⟨response, hanswer⟩ := answer_of_clean false hend hclean
  have hreports : getters.reports ≠ [] := by
    simp [getters, Getters.reports, Action.reportsAll, Action.reports]
  have herror := (h library {} getters false response hanswer).mpr hreports
  have hquiet := ((getBody_settles library {} _).returned (congrArg Prod.fst hend)).1
  rcases (status_eq_iff hanswer).mp herror with htop | hraises
  · exact htop rfl
  · exact hquiet hraises

end Redfish
end ObmcWebapp
