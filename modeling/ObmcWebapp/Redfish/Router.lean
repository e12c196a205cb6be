import ObmcWebapp.Redfish.Getters
import ObmcWebapp.Redfish.Resolver

/-!
# Redfish - The router

{lit}`RedfishRouter::run` resolves the path, lets the node process the request and
destroys the context, which serialises the response outside the {lit}`try` block.

Main results:

- Theorem {lit}`RedfishRouter.run_isOk_iff`: which requests end with a response.
-/

open Library

namespace ObmcWebapp
namespace Redfish

/-- What a generated class adds to {lit}`Node`: its getters, which the generator puts
together well-formed. -/
structure Handler (κ : Type) where
  getFieldsGetters : κ → Environment → Except Exception (List Action)
  /-- {lit}`methodGet` has a {lit}`try` block of its own. -/
  catches : Bool := false
  wellFormed : ∀ ctx env actions,
    getFieldsGetters ctx env = .ok actions → Action.WellFormedAll [] actions

/-- A step that only changes the response. -/
def Step.apply (change : RedfishResponse → RedfishResponse) : Step := fun r => (.ok (), change r)

namespace Handler

variable {κ : Type}

/-- The getters of a node, or the exception before them. -/
def processGetters (library : JsonLibrary) (handler : Handler κ) (ctx : κ) (env : Environment) :
    Step := fun r =>
  match handler.getFieldsGetters ctx env with
  | .error exception => Step.raise exception r
  | .ok actions => Action.processAll library actions r

/-- {lit}`methodGet` -/
def methodGet (library : JsonLibrary) (handler : Handler κ) (ctx : κ) (env : Environment) : Step :=
  let body := (Step.apply fun r => r.setStatus .ok).andThen
    (handler.processGetters library ctx env)
  if handler.catches then
    body.catching (fun _ => true) (Step.apply messages.internalError)
  else
    body

end Handler

namespace INode

variable {κ : Type}

/-- {lit}`process`: of the methods only {lit}`GET` has a handler of its own. -/
def process (library : JsonLibrary) (node : INode κ (Handler κ)) (ctx : κ) (env : Environment) :
    Step :=
  match node with
  | .notFound => Step.apply (messages.uriNotFound env)
  | .found node =>
      match env.requestMethod with
      | .get => node.handler.methodGet library ctx env
      | _ => Step.apply (messages.methodNotAllowed env)

end INode

/-- The root over the class {lit}`RedfishV1`. -/
def RedfishRootNode {κ : Type} (redfishV1 : NodeType κ (Handler κ)) : NodeType κ (Handler κ) :=
  .node (.static (bytes "redfish")) []
    { getFieldsGetters := fun _ _ =>
        .ok [.field (bytes "v1") (.ok (.string (bytes "/redfish/v1/")))]
      catches := true
      wellFormed := by
        intro _ _ actions heq
        cases heq
        simp only [Action.WellFormedAll, Action.WellFormed, and_true]
        decide }
    [redfishV1]

namespace RedfishRouter

variable {κ : Type}

/-- The response of a new context. -/
def initial (env : Environment) : RedfishResponse :=
  { response := (({} : Response).setStatus .badRequest).setContentType (bytes "application/json")
    prettyOutput := env.isBrowserRequest }

/-- {lit}`resolveAndProcess` -/
def resolveAndProcess (library : JsonLibrary) (redfishV1 : NodeType κ (Handler κ)) (ctx : κ)
    (env : Environment) : Step := fun r =>
  match uriResolver env.pathInfo (RedfishRootNode redfishV1) 0 ctx with
  | .error exception => Step.raise exception r
  | .ok (node, ctx) => node.process library ctx env r

/-- {lit}`run` and the destruction of its context. -/
def run (library : JsonLibrary) (redfishV1 : NodeType κ (Handler κ)) (ctx : κ)
    (env : Environment) : Except Failure Response :=
  let handled := (resolveAndProcess library redfishV1 ctx env).catching (fun _ => true)
    (Step.apply messages.internalError)
  match handled (initial env) with
  | (.ok (), r) => (r.destroyContext library).map RedfishResponse.response
  | (.error failure, _) => .error failure

/-! ## The requests that end with a response -/

/-- The texts around the path can be serialised: on a page they fit the buffer, as
JSON every segment is valid. -/
def PathPresentable (env : Environment) (texts : List Bytes) : Prop :=
  if env.isBrowserRequest then ∀ text ∈ texts, FitsBuffer text
  else ∀ segment ∈ env.pathInfo, Utf8.Valid segment

/-- The requests that end with a response: only the two errors that quote the path
may fail. -/
def Answered (redfishV1 : NodeType κ (Handler κ)) (ctx : κ) (env : Environment) : Prop :=
  match uriResolver env.pathInfo (RedfishRootNode redfishV1) 0 ctx with
  | .error _ => True
  | .ok (.found _, _) =>
      env.requestMethod = .get ∨
        PathPresentable env [messages.methodNotAllowedText env.getUriPath]
  | .ok (.notFound, _) =>
      PathPresentable env [messages.uriNotFoundText env.getUriPath, env.getUriPath]

/-- A path is valid if its segments are. -/
private theorem flatMap_valid_iff (pathInfo : List Bytes) :
    Utf8.Valid (pathInfo.flatMap fun segment => segment ++ bytes "/") ↔
      ∀ segment ∈ pathInfo, Utf8.Valid segment := by
  have hslash : Utf8.Valid (bytes "/") := by decide
  induction pathInfo with
  | nil => simp
  | cons segment rest ih =>
      rw [List.flatMap_cons, List.forall_mem_cons, List.append_assoc]
      constructor
      · intro hvalid
        have hsegment := Utf8.valid_of_append_ascii (by decide) hvalid
        rw [Utf8.valid_append_iff hsegment, Utf8.valid_append_iff hslash] at hvalid
        exact ⟨hsegment, ih.mp hvalid⟩
      · intro hboth
        exact hboth.1.append (hslash.append (ih.mpr hboth.2))

/-- The path of a request is valid if its segments are. -/
theorem getUriPath_valid_iff (env : Environment) :
    Utf8.Valid env.getUriPath ↔ ∀ segment ∈ env.pathInfo, Utf8.Valid segment := by
  unfold Environment.getUriPath
  rw [Utf8.valid_append_iff (by decide)]
  exact flatMap_valid_iff env.pathInfo

/-- A text that quotes the path between two valid ones. -/
theorem quoted_valid_iff {before after : Bytes} (hbefore : Utf8.Valid before)
    (hafter : Utf8.Valid after) (env : Environment) {c : UInt8} {rest : Bytes}
    (hascii : after = c :: rest) (hc : c ≤ 0x7F) :
    Utf8.Valid (before ++ env.getUriPath ++ after) ↔ Utf8.Valid env.getUriPath := by
  rw [List.append_assoc, Utf8.valid_append_iff hbefore]
  constructor
  · intro hvalid
    rw [hascii] at hvalid
    exact Utf8.valid_of_append_ascii hc hvalid
  · intro hvalid
    exact hvalid.append hafter

/-- The text is valid if the path is. -/
theorem methodNotAllowedText_valid_iff (env : Environment) :
    Utf8.Valid (messages.methodNotAllowedText env.getUriPath) ↔ Utf8.Valid env.getUriPath :=
  quoted_valid_iff (by decide) (by decide) env rfl (by decide)

theorem uriNotFoundText_valid_iff (env : Environment) :
    Utf8.Valid (messages.uriNotFoundText env.getUriPath) ↔ Utf8.Valid env.getUriPath :=
  quoted_valid_iff (by decide) (by decide) env rfl (by decide)

/-! ## The steps of a request -/

/-- A step ends normally or by an exception and leaves a serialisable payload. -/
structure Settled (outcome : Except Failure Unit × RedfishResponse) : Prop where
  clean : outcome.2.Clean
  raised : ∀ failure, outcome.1 = .error failure → ∃ exception, failure = .raised exception

/-- What is orderly is settled. -/
theorem settled_of_orderly {r : RedfishResponse} {names : List Bytes}
    {outcome : Except Failure Unit × RedfishResponse} (h : Orderly r names outcome) :
    Settled outcome :=
  ⟨h.clean, h.raised⟩

/-- Whatever a settled step raises is answered with an internal error. -/
theorem catchAll_clean {r : RedfishResponse} {step : Step} (hstep : Settled (step r)) :
    ∃ answered : RedfishResponse,
      step.catching (fun _ => true) (Step.apply messages.internalError) r = (.ok (), answered) ∧
        answered.Clean := by
  unfold Step.catching
  match hresult : step r with
  | (.ok (), answered) =>
      rw [hresult] at hstep
      exact ⟨answered, rfl, hstep.clean⟩
  | (.error failure, middle) =>
      rw [hresult] at hstep
      obtain ⟨exception, rfl⟩ := hstep.raised failure rfl
      exact ⟨_, rfl, messages.internalError_clean hstep.clean⟩

/-- The getters of a node are settled. -/
theorem processGetters_settled (library : JsonLibrary) (handler : Handler κ) (ctx : κ)
    (env : Environment) {r : RedfishResponse} (h : r.Clean) :
    Settled (handler.processGetters library ctx env r) := by
  unfold Handler.processGetters
  split
  · exact settled_of_orderly (@Orderly.raise _ [] h _)
  · next actions hactions =>
      have hwf := handler.wellFormed ctx env actions hactions
      exact settled_of_orderly (Action.processAll_orderly library actions hwf h
        fun _ hmem => absurd hmem List.not_mem_nil)

/-- {lit}`methodGet` is settled. -/
theorem methodGet_settled (library : JsonLibrary) (handler : Handler κ) (ctx : κ)
    (env : Environment) {r : RedfishResponse} (h : r.Clean) :
    Settled (handler.methodGet library ctx env r) := by
  have hbody := processGetters_settled library handler ctx env (h.setStatus .ok)
  unfold Handler.methodGet
  split
  · have hsettled : Settled ((Step.apply fun r => r.setStatus .ok).andThen
        (handler.processGetters library ctx env) r) := hbody
    obtain ⟨answered, heq, hclean⟩ := catchAll_clean hsettled
    rw [heq]
    exact ⟨hclean, fun _ herror => (nomatch herror)⟩
  · exact hbody

/-- The first response is clean. -/
theorem initial_clean (env : Environment) : (initial env).Clean :=
  ⟨rfl, (RedfishResponse.clean_initial env.isBrowserRequest).valid⟩

/-- A settled request is answered. -/
theorem run_of_settled (library : JsonLibrary) {redfishV1 : NodeType κ (Handler κ)} {ctx : κ}
    {env : Environment}
    (h : Settled (resolveAndProcess library redfishV1 ctx env (initial env))) :
    ∃ response, run library redfishV1 ctx env = .ok response := by
  obtain ⟨answered, heq, hclean⟩ := catchAll_clean h
  obtain ⟨flashed, hflashed⟩ := hclean.destroyContext library
  unfold run
  dsimp only
  rw [heq]
  dsimp only
  rw [hflashed]
  exact ⟨flashed.response, rfl⟩

/-- A request that only reports an error is answered when its payload can be
serialised. -/
theorem run_of_apply (library : JsonLibrary) {redfishV1 : NodeType κ (Handler κ)} {ctx : κ}
    {env : Environment} {change : RedfishResponse → RedfishResponse}
    (h : resolveAndProcess library redfishV1 ctx env (initial env) =
      (.ok (), change (initial env))) :
    (∃ response, run library redfishV1 ctx env = .ok response) ↔
      (change (initial env)).payload.AllTexts
        (RedfishResponse.Presentable (change (initial env)).prettyOutput) := by
  rw [← RedfishResponse.destroyContext_isOk_iff library]
  unfold run Step.catching
  dsimp only
  rw [h]
  dsimp only
  cases (change (initial env)).destroyContext library with
  | ok flashed => simp [Except.map]
  | error failure => simp [Except.map]

/-- What quotes the path can be shown where the path can. -/
theorem presentable_iff {env : Environment} {text : Bytes} {rest : List Bytes}
    (hvalid : ∀ quoting ∈ text :: rest, (Utf8.Valid quoting ↔ Utf8.Valid env.getUriPath)) :
    (∀ quoting ∈ text :: rest, RedfishResponse.Presentable env.isBrowserRequest quoting) ↔
      PathPresentable env (text :: rest) := by
  unfold RedfishResponse.Presentable PathPresentable
  split
  · rfl
  · rw [← getUriPath_valid_iff]
    constructor
    · intro hall
      exact (hvalid text (List.mem_cons_self ..)).mp (hall text (List.mem_cons_self ..))
    · intro hpath quoting hmem
      exact (hvalid quoting hmem).mpr hpath

/-- A valid text can be shown. -/
theorem presentable_of_valid (pretty : Bool) (text : Bytes) (hvalid : Utf8.Valid text) :
    RedfishResponse.Presentable pretty text := by
  unfold RedfishResponse.Presentable
  split
  · exact fitsBuffer_of_valid hvalid
  · exact hvalid

/-- When the first error can be shown. -/
theorem methodNotAllowed_presentable_iff (env : Environment) :
    (messages.methodNotAllowed env (initial env)).payload.AllTexts
        (RedfishResponse.Presentable env.isBrowserRequest) ↔
      PathPresentable env [messages.methodNotAllowedText env.getUriPath] := by
  unfold messages.methodNotAllowed messages.methodNotAllowedMessage
  rw [messages.allTexts_addError_iff (presentable_of_valid _) rfl (by decide)
    (by decide), ← presentable_iff]
  · simp
  · intro quoting hmem
    rw [List.mem_singleton.mp hmem]
    exact methodNotAllowedText_valid_iff env

/-- When the other can be shown. -/
theorem uriNotFound_presentable_iff (env : Environment) :
    (messages.uriNotFound env (initial env)).payload.AllTexts
        (RedfishResponse.Presentable env.isBrowserRequest) ↔
      PathPresentable env [messages.uriNotFoundText env.getUriPath, env.getUriPath] := by
  unfold messages.uriNotFound messages.uriNotFoundMessage
  rw [messages.allTexts_addError_iff (presentable_of_valid _) rfl (by decide)
    (by decide), ← presentable_iff]
  · simp
  · intro quoting hmem
    rcases List.mem_pair.mp hmem with htext | hpath
    · rw [htext]
      exact uriNotFoundText_valid_iff env
    · rw [hpath]

/-- A request ends with a response exactly when the path that an error quotes can be
serialised. -/
theorem run_isOk_iff (library : JsonLibrary) (redfishV1 : NodeType κ (Handler κ)) (ctx : κ)
    (env : Environment) :
    (∃ response, run library redfishV1 ctx env = .ok response) ↔ Answered redfishV1 ctx env := by
  have hclean := initial_clean env
  unfold Answered
  match hresolved : uriResolver env.pathInfo (RedfishRootNode redfishV1) 0 ctx with
  | .error exception =>
      have hsettled : Settled (resolveAndProcess library redfishV1 ctx env (initial env)) := by
        unfold resolveAndProcess
        rw [hresolved]
        exact settled_of_orderly (@Orderly.raise _ [] hclean exception)
      simp only [iff_true]
      exact run_of_settled library hsettled
  | .ok (.found node, ctx') =>
      by_cases hget : env.requestMethod = .get
      · have hsettled : Settled (resolveAndProcess library redfishV1 ctx env (initial env)) := by
          unfold resolveAndProcess
          rw [hresolved]
          simp only [INode.process, hget]
          exact methodGet_settled library node.handler ctx' env hclean
        simp only [hget, true_or, iff_true]
        exact run_of_settled library hsettled
      · have happly : resolveAndProcess library redfishV1 ctx env (initial env) =
            (.ok (), messages.methodNotAllowed env (initial env)) := by
          unfold resolveAndProcess
          rw [hresolved]
          simp only [INode.process]
          rfl
        simp only [hget, false_or]
        rw [run_of_apply library happly]
        exact methodNotAllowed_presentable_iff env
  | .ok (.notFound, ctx') =>
      have happly : resolveAndProcess library redfishV1 ctx env (initial env) =
          (.ok (), messages.uriNotFound env (initial env)) := by
        unfold resolveAndProcess
        rw [hresolved]
        rfl
      rw [run_of_apply library happly]
      exact uriNotFound_presentable_iff env

/-- An unknown segment that is no UTF-8 ends the process. -/
theorem invalid_segment_terminates :
    ∃ (redfishV1 : NodeType Unit (Handler Unit)) (env : Environment),
      env.pathInfo.head? = some (bytes "redfish") ∧
        ∀ library, run library redfishV1 () env = .error .terminated := by
  let handler : Handler Unit :=
    { getFieldsGetters := fun _ _ => .ok []
      wellFormed := by
        intro _ _ actions heq
        cases heq
        exact trivial }
  refine ⟨.node (.static (bytes "v1")) [] handler [],
    { pathInfo := [bytes "redfish", [0xFF]] }, rfl, ?_⟩
  intro library
  rfl

end RedfishRouter
end Redfish
end ObmcWebapp
