import ObmcWebapp.Graphql.Handler
import ObmcWebapp.Http.Output
import ObmcWebapp.Redfish.ResponseHead
import ObmcWebapp.Service.Redirect

/-!
# HTTP - From a connection to the text it sends

A connection validates the content type, lets the router find a handler for the path and
prepare it with the body, and only then, in {lit}`response`, is the request authenticated and
the handler run.  What is sent is the text of the response.  The library that calls the
connection stands outside: it may go on to {lit}`response` whatever {lit}`inProcessor` returns.

Main results:

- Theorem {lit}`find_registered`: the handler of a path.
- Theorem {lit}`prepared_handler`: the handler that a connection has when it responds.
- Theorem {lit}`served_message`: the text that a connection sends is read as one message; it
  is a refusal without a body, or it has the length of its body.
- Theorem {lit}`refused_independent`: what a client without credentials is sent does not
  depend on the entities.
-/

open Library Library.HttpMessage

namespace ObmcWebapp
namespace Http

open Service (Outside World)

/-! ## Requests -/

/-- A request as the connection gets it. -/
structure Incoming where
  environment : Environment
  contentType : Bytes := []
  postBuffer : Bytes := []

/-- The types that a body may have. -/
def allowedContentTypes : List Bytes :=
  [bytes "application/json", bytes "text/plain"]

/-- {lit}`Request::validate` -/
def Incoming.validate (request : Incoming) : Bool :=
  request.contentType.isEmpty || allowedContentTypes.contains request.contentType

/-- The lower-case letter of an upper-case one in the C locale. -/
def tolower (c : UInt8) : UInt8 :=
  if 0x41 ≤ c ∧ c ≤ 0x5A then c + 0x20 else c

/-- {lit}`toLower` -/
def toLower (data : Bytes) : Bytes :=
  data.map tolower

/-! ## Handlers -/

/-- How a request ends that gets no response. -/
inductive Failure
  /-- An exception from the files of the session store. -/
  | write (failure : Service.WriteFailure)
  | raised (exception : Exception)
  | terminated
  | overrun

/-- What the handlers read besides the request, and the clock. -/
structure Site (ε κ : Type) where
  manager : Graphql.EntityManager ε
  course : Nat → Graphql.Moment ε
  /-- The indented text of what a query ends with. -/
  resultText : Graphql.Outcome → Bytes
  library : Redfish.JsonLibrary
  redfishV1 : Redfish.NodeType κ (Redfish.Handler κ)
  ctx : κ
  localtime : Int → Tm
  time : Int

/-- The two handlers of routes, with what is kept from a body. -/
inductive RouteHandler
  | graphqlRouter (gqlNode : Option (List Graphql.Definition))
  | redfishRouter

section

variable {ε κ : Type}

/-- {lit}`GraphqlRouter::run` -/
def runGraphql (site : Site ε κ) (gqlNode : Option (List Graphql.Definition)) :
    Except Failure Response :=
  match Graphql.GraphqlRouter.run site.manager site.course gqlNode with
  | .escaped exception => .error (.raised exception)
  | .terminated => .error .terminated
  | outcome =>
      .ok (((({} : Response).push (site.resultText outcome)).setStatus .ok).setContentType
        content_types.applicationJson)

/-- {lit}`RedfishRouter::run` and the destruction of its context. -/
def runRedfish (site : Site ε κ) (env : Environment) : Except Failure Response :=
  let context : Redfish.RedfishResponse := {
    response := (({} : Response).setStatus .badRequest).setContentType content_types.applicationJson
    prettyOutput := env.isBrowserRequest }
  let handled :=
    (Redfish.RedfishRouter.resolveAndProcess site.library site.redfishV1 site.ctx env).catching
      (fun _ => true) (Redfish.Step.apply Redfish.messages.internalError)
  let ended :=
    match handled context with
    | (.ok (), r) => (r.destroyContext site.library).map Redfish.RedfishResponse.response
    | (.error failure, _) => .error failure
  ended.mapError fun
    | .raised exception => .raised exception
    | .terminated => .terminated
    | .overrun => .overrun

namespace RouteHandler

/-- {lit}`run` of a handler. -/
def run (site : Site ε κ) (env : Environment) : RouteHandler → Except Failure Response
  | .graphqlRouter gqlNode => runGraphql site gqlNode
  | .redfishRouter => runRedfish site env

/-- Both handlers always return true, if they return. -/
def preHandlers (parsers : Graphql.Parsers) (postBuffer : Bytes) :
    RouteHandler → Except Exception (Bool × RouteHandler)
  | .graphqlRouter gqlNode => do
      let gqlNode ← Graphql.GraphqlRouter.preHandlers parsers postBuffer gqlNode
      return (true, .graphqlRouter gqlNode)
  | .redfishRouter => return (true, .redfishRouter)

end RouteHandler

/-! ## Routes -/

/-- The static routes by the hash of their pattern, and the dynamic ones in order. -/
structure Routes where
  routerHandlers : List (Nat × (Bytes → RouteHandler)) := []
  dynamicRouterHandlers : List ((List Bytes → Bool) × (Environment → RouteHandler)) := []

namespace Routes

/-- None where the hash of the pattern is already there. -/
def registerUri (hash : Bytes → Nat) (routes : Routes) (pattern : Bytes)
    (builder : Bytes → RouteHandler) : Option Routes :=
  let hashPattern := hash (toLower pattern)
  if (routes.routerHandlers.lookup hashPattern).isSome then none
  else some { routes with routerHandlers := routes.routerHandlers ++ [(hashPattern, builder)] }

/-- {lit}`registerDynamicUri` -/
def registerDynamicUri (routes : Routes) (rule : List Bytes → Bool)
    (builder : Environment → RouteHandler) : Routes :=
  { routes with dynamicRouterHandlers := routes.dynamicRouterHandlers ++ [(rule, builder)] }

/-- The handler of a request, by its whole path or else by its segments. -/
def find (routes : Routes) (hash : Bytes → Nat) (env : Environment) : Option RouteHandler :=
  let uri := toLower env.getUriPath
  match routes.routerHandlers.lookup (hash uri) with
  | some builder => some (builder uri)
  | none => (routes.dynamicRouterHandlers.find? fun route => route.1 env.pathInfo).map
      fun route => route.2 env

end Routes

/-- {lit}`RedfishRouter::searchRouteHandler` -/
def searchRouteHandler (segments : List Bytes) : Bool :=
  segments.head? = some (bytes "redfish")

/-- The path of the GraphQL handler. -/
def graphqlPattern : Bytes := bytes "/api/graphql/"

/-- {lit}`Application::registerAllRoutes` -/
def registerAllRoutes (hash : Bytes → Nat) : Option Routes := do
  let routes ← ({} : Routes).registerUri hash graphqlPattern fun _ => .graphqlRouter none
  return routes.registerDynamicUri searchRouteHandler fun _ => .redfishRouter

/-! ## The router -/

/-- {lit}`Router` -/
structure Router where
  handler : Option RouteHandler := none

namespace Router

/-- {lit}`preHandler` -/
def preHandler (routes : Routes) (hash : Bytes → Nat) (parsers : Graphql.Parsers)
    (request : Incoming) (router : Router) : Except Exception (Bool × Router) := do
  let handler ←
    match router.handler with
    | none => pure none
    | some handler => do
        let (_, handler) ← handler.preHandlers parsers request.postBuffer
        pure (some handler)
  match routes.find hash request.environment with
  | some found => do
      let (result, found) ← found.preHandlers parsers request.postBuffer
      return (result, { handler := some found })
  | none => return (true, { handler })

/-- {lit}`Router::process` -/
def process (site : Site ε κ) (outside : Outside) (request : Incoming) (router : Router)
    (w : World) : Except Failure Response × World :=
  match Service.readData outside.loadFaults outside.uuid outside.now w with
  | (.error failure, w) => (.error (.write failure), w)
  | (.ok (), w) =>
      match Service.authenticate outside { environment := request.environment } {} w with
      | (.error failure, w) => (.error (.write failure), w)
      | (.ok (false, _, authResponse), w) => (.ok authResponse, w)
      | (.ok (true, _, authResponse), w) =>
          match router.handler with
          | none =>
              (.ok ((setGeneralHeaders site.localtime site.time authResponse).setStatus .notFound), w)
          | some handler =>
              match handler.run site request.environment with
              | .error failure => (.error failure, w)
              | .ok response => (.ok (setGeneralHeaders site.localtime site.time response), w)

end Router

/-! ## The connection -/

/-- {lit}`Connection` -/
structure Connection where
  router : Option Router := none

namespace Connection

/-- False for a request that the connection does not take. -/
def inProcessor (routes : Routes) (hash : Bytes → Nat) (parsers : Graphql.Parsers)
    (request : Incoming) (connection : Connection) : Except Exception (Bool × Connection) :=
  let router := connection.router.getD {}
  if request.validate then do
    let (result, router) ← router.preHandler routes hash parsers request
    return (result, { router := some router })
  else
    return (false, { router := some router })

/-- What is put out; none without a router. -/
def response (site : Site ε κ) (outside : Outside) (request : Incoming) (connection : Connection)
    (w : World) : Except Failure (Option Bytes) × World :=
  match connection.router with
  | none => (.ok none, w)
  | some router =>
      match router.process site outside request w with
      | (.error failure, w) => (.error failure, w)
      | (.ok response, w) => (.ok (some (output response)), w)

/-- What a new connection may be before {lit}`response`: any number of calls of
{lit}`inProcessor` have returned, with any result. -/
inductive Prepared (routes : Routes) (hash : Bytes → Nat) (parsers : Graphql.Parsers)
    (request : Incoming) : Connection → Prop
  | new : Prepared routes hash parsers request {}
  | next {connection connection' : Connection} {result : Bool}
      (hprepared : Prepared routes hash parsers request connection)
      (hreturns : connection.inProcessor routes hash parsers request =
        .ok (result, connection')) :
      Prepared routes hash parsers request connection'

end Connection

end

/-! ## The handler of a path -/

/-- The path is in lower case. -/
theorem toLower_graphqlPattern : toLower graphqlPattern = graphqlPattern := by
  decide

/-- The routes of the program: the one static path by its hash, then the first segment. -/
theorem find_registered (hash : Bytes → Nat) :
    ∃ routes, registerAllRoutes hash = some routes ∧ ∀ env, routes.find hash env =
      if hash (toLower env.getUriPath) = hash graphqlPattern then some (.graphqlRouter none)
      else if searchRouteHandler env.pathInfo then some .redfishRouter
      else none := by
  refine ⟨_, rfl, fun env => ?_⟩
  simp only [Routes.find, Routes.registerDynamicUri, List.nil_append, toLower_graphqlPattern]
  by_cases hpath : hash (toLower env.getUriPath) = hash graphqlPattern
  · rw [if_pos hpath, List.lookup_cons, hpath, beq_self_eq_true]
  · rw [if_neg hpath, List.lookup_cons, beq_eq_false_iff_ne.mpr hpath, List.lookup_nil]
    cases hrule : searchRouteHandler env.pathInfo with
    | true => simp [hrule]
    | false => simp [hrule]

/-! ## The responses of the handlers -/

section

variable {ε κ : Type} {site : Site ε κ} {env : Environment} {response : Response}

/-- A handler sets no header, and its content type is one line. -/
structure Bare (response : Response) : Prop where
  headers : response.headers = []
  contentType : OneLine response.contentType

/-- A bare response can be sent. -/
theorem Bare.sendable (h : Bare response) : Sendable response where
  contentType := h.contentType
  headers := by
    rw [h.headers]
    exact fun _ hmem => absurd hmem List.not_mem_nil

/-- The reply of the GraphQL handler. -/
theorem runGraphql_ok {gqlNode : Option (List Graphql.Definition)}
    (h : runGraphql site gqlNode = .ok response) :
    response.headers = [] ∧ response.status = .ok ∧
      response.contentType = content_types.applicationJson := by
  unfold runGraphql at h
  split at h
  · cases h
  · cases h
  · obtain rfl := Except.ok.inj h
    exact ⟨rfl, rfl, rfl⟩

/-- The response that the nodes fill keeps its head until it is flashed. -/
theorem runRedfish_ok (h : runRedfish site env = .ok response) :
    response.headers = [] ∧ response.contentType =
      if env.isBrowserRequest then content_types.textHtml else content_types.applicationJson := by
  have hkept :=
    (Redfish.RedfishRouter.resolveAndProcess_keepsHead site.library site.redfishV1 site.ctx
      env).catching (fun _ => true) Redfish.internalError_keepsHead {
        response := (({} : Response).setStatus .badRequest).setContentType
          content_types.applicationJson
        prettyOutput := env.isBrowserRequest }
  unfold runRedfish at h
  dsimp only at h
  split at h
  · next r hhandled =>
      rw [hhandled] at hkept
      cases hdestroyed : r.destroyContext site.library with
      | error failure =>
          rw [hdestroyed] at h
          cases h
      | ok flashed =>
          rw [hdestroyed] at h
          obtain rfl := Except.ok.inj h
          obtain ⟨hheaders, htype⟩ := Redfish.RedfishResponse.destroyContext_head hdestroyed
          rw [hheaders, htype, hkept.headers, hkept.contentType, hkept.prettyOutput]
          exact ⟨rfl, rfl⟩
  · cases h

/-- The reply of a handler is bare. -/
theorem run_bare {handler : RouteHandler} (h : handler.run site env = .ok response) :
    Bare response := by
  cases handler with
  | graphqlRouter gqlNode =>
      obtain ⟨hheaders, -, htype⟩ := runGraphql_ok h
      refine ⟨hheaders, ?_⟩
      rw [htype]
      decide
  | redfishRouter =>
      obtain ⟨hheaders, htype⟩ := runRedfish_ok h
      refine ⟨hheaders, ?_⟩
      rw [htype]
      split <;> decide

end

/-! ## Refused requests -/

section

variable {outside : Outside} {env : Environment}

/-- The request needs no credentials, or it has some that are valid. -/
def Authorized (outside : Outside) (env : Environment) (store : Service.SessionStore) : Prop :=
  Service.Whitelisted env ∨ Service.TokenFound env outside.now store ∨
    (Service.BasicCredential outside env store ∧ Service.drawIdentifiers outside.draws ≠ none)

/-- The search for a session leaves the request's environment. -/
theorem findSession_environment {w next : World} {request : Service.Request}
    (h : Service.findSession outside { environment := env } w = (.ok request, next))
    (hempty : request.isSessionEmpty = true) : request.environment = env := by
  rcases Service.findSession_cases outside env w with
    ⟨-, stale, found, store, -, heq, session, -, hset, -⟩ |
    ⟨-, -, stale, store, -, -, opened, -, -, hresult⟩ |
    ⟨-, -, stale, found, store, -, heq, hunset, -⟩
  · rw [heq] at h
    cases h
    rw [show request = _ from hset] at hempty
    cases hempty
  · rw [h] at hresult
    rcases hresult with ⟨failure, -, hfail⟩ | ⟨stored, -, hstored⟩
    · cases hfail
    · cases hstored
      cases hempty
  · rw [heq] at h
    cases h
    rw [show request = _ from hunset]

/-- Where {lit}`authenticate` returns, it leaves the response to the handler or refuses. -/
theorem authenticate_returns {response response' : Response} {w w' : World} {result : Bool}
    {request' : Service.Request}
    (h : Service.authenticate outside { environment := env } response w =
      (.ok (result, request', response'), w')) :
    (result = true ∧ response' = response ∧ Authorized outside env w.store) ∨
      (result = false ∧ response' = Service.rejectRequest env response ∧
        ¬ Authorized outside env w.store) := by
  unfold Service.authenticate at h
  dsimp only at h
  by_cases hwhite : Service.Whitelisted env
  · rw [if_pos ((Service.isOnWhitelist_iff env).mpr hwhite)] at h
    cases h
    exact Or.inl ⟨rfl, rfl, Or.inl hwhite⟩
  · rw [if_neg (mt (Service.isOnWhitelist_iff env).mp hwhite)] at h
    rcases hfind : Service.findSession outside { environment := env } w with ⟨_ | request, next⟩
    · rw [hfind] at h
      cases h
    · have hsession := Service.findSession_session_iff hfind
      rw [hfind] at h
      cases hempty : request.isSessionEmpty with
      | true =>
          have hnone : ¬ Authorized outside env w.store := by
            rintro (hlisted | hcredential)
            · exact hwhite hlisted
            · have hfull := hsession.mpr hcredential
              rw [hempty] at hfull
              cases hfull
          have henv := findSession_environment hfind hempty
          simp only [hempty, if_true] at h
          cases h
          exact Or.inr ⟨rfl, by rw [henv], hnone⟩
      | false =>
          simp only [hempty, Bool.false_eq_true, if_false] at h
          rcases hcommit : Service.commit outside.commitFaults next with ⟨_ | _, last⟩
          · rw [hcommit] at h
            cases h
          · rw [hcommit] at h
            cases h
            exact Or.inl ⟨rfl, rfl, Or.inr (hsession.mp hempty)⟩

/-- The answer to a request without valid credentials: a browser is sent to the login page
with the path it asked for, anyone else is told that the request is not authorised. -/
def Refusal (env : Environment) (code : Code) (message : Message) : Prop :=
  message.body = [] ∧
    if env.isBrowserRequest then
      code = .temporaryRedirect ∧ message.fields =
        [(headers.contentType, content_types.textPlain),
          (headers.location, Service.loginPathNext ++ urlEncode env.getUriPath)]
    else
      code = .unauthorized ∧ message.fields = (headers.contentType, content_types.textPlain) ::
        if env.userAgent.isEmpty then [(headers.wwwAuthenticate, bytes "Basic ")] else []

/-- What a refusal has. -/
theorem rejectRequest_refusal (env : Environment) :
    Refusal env (code (Service.rejectRequest env {}).status)
      (message (Service.rejectRequest env {})) := by
  unfold Service.rejectRequest Refusal
  split
  · exact ⟨rfl, rfl, rfl⟩
  · split <;> exact ⟨rfl, rfl, rfl⟩

/-- The path of the request cannot end the line of the location. -/
theorem rejectRequest_sendable (env : Environment) :
    Sendable (Service.rejectRequest env {}) := by
  unfold Service.rejectRequest
  split
  · refine (Sendable.initial.setStatus _).setHeader (named (by decide) ?_)
    intro c hmem
    have hvisible : 0x21 ≤ c := by
      rcases List.mem_append.mp hmem with hfixed | hpath
      · exact (Service.loginPathNext_visible c hfixed).1
      · exact ((Service.encoded_urlEncode _).visible c hpath).1
    constructor
    · rintro rfl
      exact absurd hvisible (by decide)
    · rintro rfl
      exact absurd hvisible (by decide)
  · split
    · exact (Sendable.initial.setStatus _).setHeader (named (by decide) (by decide))
    · exact Sendable.initial.setStatus _

end

/-! ## What a connection sends -/

section

variable {ε κ ε' κ' : Type} {routes : Routes} {hash : Bytes → Nat} {parsers : Graphql.Parsers}
  {site : Site ε κ} {outside : Outside} {request : Incoming} {w w' : World}

namespace RouteHandler

/-- The handler is that of GraphQL. -/
def isGraphql : RouteHandler → Bool
  | .graphqlRouter _ => true
  | .redfishRouter => false

/-- The content type of what the handler answers. -/
def answerType (env : Environment) (handler : RouteHandler) : Bytes :=
  if handler.isGraphql then content_types.applicationJson
  else if env.isBrowserRequest then content_types.textHtml
  else content_types.applicationJson

/-- Preparing a handler leaves its kind. -/
theorem preHandlers_ok {postBuffer : Bytes} {handler prepared : RouteHandler} {result : Bool}
    (h : handler.preHandlers parsers postBuffer = .ok (result, prepared)) :
    result = true ∧ prepared.isGraphql = handler.isGraphql := by
  cases handler with
  | graphqlRouter gqlNode =>
      obtain ⟨node, -, heq⟩ := bind_eq_ok.mp h
      cases heq
      exact ⟨rfl, rfl⟩
  | redfishRouter =>
      cases h
      exact ⟨rfl, rfl⟩

/-- The type of a reply. -/
theorem run_type {env : Environment} {handler : RouteHandler} {response : Response}
    (h : handler.run site env = .ok response) :
    response.contentType = handler.answerType env ∧
      (handler.isGraphql = true → response.status = .ok) := by
  cases handler with
  | graphqlRouter gqlNode =>
      obtain ⟨-, hstatus, htype⟩ := runGraphql_ok h
      exact ⟨htype, fun _ => hstatus⟩
  | redfishRouter =>
      obtain ⟨-, htype⟩ := runRedfish_ok h
      exact ⟨htype, fun hgraphql => nomatch hgraphql⟩

end RouteHandler

/-- The handler that takes a request: that of the path, if the content type is allowed. -/
def handlerFor (routes : Routes) (hash : Bytes → Nat) (request : Incoming) :
    Option RouteHandler :=
  if request.validate then routes.find hash request.environment else none

/-- A request is prepared by the handler of its path. -/
theorem preHandler_handler {router router' : Router} {result : Bool}
    (h : router.preHandler routes hash parsers request = .ok (result, router'))
    (hbefore : router.handler = none ∨ router.handler.map RouteHandler.isGraphql =
      (routes.find hash request.environment).map RouteHandler.isGraphql) :
    router'.handler.map RouteHandler.isGraphql =
      (routes.find hash request.environment).map RouteHandler.isGraphql := by
  obtain ⟨handler, hkept, hafter⟩ : ∃ handler, (router.handler = none → handler = none) ∧
      (match routes.find hash request.environment with
        | some found => (found.preHandlers parsers request.postBuffer).bind fun prepared =>
            .ok (prepared.1, ({ handler := some prepared.2 } : Router))
        | none => .ok (true, { handler })) = Except.ok (result, router') := by
    unfold Router.preHandler at h
    cases hhandler : router.handler with
    | none =>
        rw [hhandler] at h
        exact ⟨none, fun _ => rfl, h⟩
    | some old =>
        rw [hhandler] at h
        obtain ⟨again, -, hrest⟩ := bind_eq_ok.mp h
        exact ⟨some again.2, fun hnone => (nomatch hnone), hrest⟩
  cases hfind : routes.find hash request.environment with
  | none =>
      rw [hfind] at hafter hbefore
      cases hafter
      have hnone : router.handler = none := hbefore.elim id Option.map_eq_none_iff.mp
      rw [hkept hnone]
  | some found =>
      rw [hfind] at hafter
      obtain ⟨prepared, hpre, heq⟩ := bind_eq_ok.mp hafter
      cases heq
      exact congrArg some (RouteHandler.preHandlers_ok hpre).2

/-- However often a connection is called, its router has the handler that takes the request. -/
theorem prepared_handler {connection : Connection}
    (h : Connection.Prepared routes hash parsers request connection) {router : Router}
    (hrouter : connection.router = some router) :
    router.handler.map RouteHandler.isGraphql =
      (handlerFor routes hash request).map RouteHandler.isGraphql := by
  induction h generalizing router with
  | new => cases hrouter
  | @next connection connection' result _ hreturns ih =>
      unfold Connection.inProcessor at hreturns
      unfold handlerFor at ih ⊢
      have hbefore : (connection.router.getD {}).handler = none ∨
          (connection.router.getD {}).handler.map RouteHandler.isGraphql =
            (if request.validate then routes.find hash request.environment else none).map
              RouteHandler.isGraphql := by
        cases hold : connection.router with
        | none => exact Or.inl rfl
        | some old => exact Or.inr (ih hold)
      split at hreturns
      · next hvalid =>
          rw [if_pos hvalid] at hbefore ⊢
          obtain ⟨⟨prepares, prepared⟩, hpre, heq⟩ := bind_eq_ok.mp hreturns
          cases heq
          cases hrouter
          exact preHandler_handler hpre hbefore
      · next hinvalid =>
          rw [if_neg hinvalid] at hbefore ⊢
          cases hreturns
          cases hrouter
          rcases hbefore with hnone | hnone
          · rw [hnone]
          · exact hnone

/-- The answer to a request that a handler takes, or that no handler takes. -/
structure Reply (site : Site ε κ) (env : Environment) (handler : Option RouteHandler) (code : Code)
    (message : Message) : Prop where
  /-- No header is missing and none is there twice. -/
  fields : message.fields =
    [(headers.contentType, (handler.map (·.answerType env)).getD content_types.textPlain),
      (headers.contentLength, Redfish.decimal message.body.length),
      (headers.date, getFormattedDate site.localtime headerDateFormat site.time)]
  notFound : handler = none → code = .notFound ∧ message.body = []
  graphql : handler.map RouteHandler.isGraphql = some true → code = .ok

/-- The reply depends on the handler only by its kind. -/
theorem Reply.of_kind {env : Environment} {handler handler' : Option RouteHandler} {code : Code}
    {message : Message} (h : Reply site env handler code message)
    (hkind : handler.map RouteHandler.isGraphql = handler'.map RouteHandler.isGraphql) :
    Reply site env handler' code message := by
  have htype : handler.map (·.answerType env) = handler'.map (·.answerType env) := by
    have hsame := congrArg (Option.map fun graphql : Bool =>
      if graphql then content_types.applicationJson
      else if env.isBrowserRequest then content_types.textHtml
      else content_types.applicationJson) hkind
    rw [Option.map_map, Option.map_map] at hsame
    exact hsame
  refine ⟨by rw [h.fields, htype], ?_, by rw [← hkind]; exact h.graphql⟩
  rintro rfl
  exact h.notFound (Option.map_eq_none_iff.mp hkind)

/-- The length in a reply is that of its body. -/
theorem Reply.contentLength {env : Environment} {handler : Option RouteHandler} {code : Code}
    {message : Message} (h : Reply site env handler code message) :
    ∃ text, message.fields.lookup headers.contentLength = some text ∧
      Numerals.readNumber text = some message.body.length := by
  rw [h.fields]
  exact ⟨_, rfl, readNumber_decimal _⟩

/-- Where the router gives a response, it is a refusal or a reply, and it can be sent. -/
theorem process_ok {router : Router} {response : Response}
    (h : router.process site outside request w = (.ok response, w')) :
    Sendable response ∧
      let loaded := (Service.readData outside.loadFaults outside.uuid outside.now w).2
      ((¬ Authorized outside request.environment loaded.store ∧
        Refusal request.environment (code response.status) (message response)) ∨
      (Authorized outside request.environment loaded.store ∧
        Reply site request.environment router.handler (code response.status)
          (message response))) := by
  unfold Router.process at h
  rcases hread : Service.readData outside.loadFaults outside.uuid outside.now w with
    ⟨_ | _, loaded⟩
  all_goals rw [hread] at h
  · cases h
  · dsimp only at h ⊢
    rcases hauth : Service.authenticate outside { environment := request.environment } {} loaded
      with ⟨_ | ⟨result, request', authResponse⟩, next⟩
    all_goals rw [hauth] at h
    · cases h
    · rcases authenticate_returns hauth with ⟨rfl, rfl, hauthorized⟩ | ⟨rfl, rfl, hrefused⟩
      · dsimp only at h
        cases hhandler : router.handler with
        | none =>
            rw [hhandler] at h
            cases h
            refine ⟨(Sendable.initial.setGeneralHeaders _ _).setStatus _, Or.inr ⟨hauthorized, ?_⟩⟩
            exact ⟨rfl, fun _ => ⟨rfl, rfl⟩, fun hnone => nomatch hnone⟩
        | some handler =>
            rw [hhandler] at h
            cases hrun : handler.run site request.environment with
            | error failure =>
                dsimp only at h
                rw [hrun] at h
                cases h
            | ok ran =>
                dsimp only at h
                rw [hrun] at h
                cases h
                have hbare := run_bare hrun
                obtain ⟨htype, hgraphql⟩ := RouteHandler.run_type hrun
                refine ⟨hbare.sendable.setGeneralHeaders _ _, Or.inr ⟨hauthorized, ?_⟩⟩
                refine ⟨?_, ?_, ?_⟩
                · simp only [message, setGeneralHeaders, Response.setHeader, hbare.headers, htype,
                    totalSize, List.nil_append, List.cons_append, Option.map_some, Option.getD_some]
                · intro hnone
                  cases hnone
                · intro hsome
                  exact congrArg code (hgraphql (Option.some.inj hsome))
      · cases h
        exact ⟨rejectRequest_sendable _, Or.inl ⟨hrefused, rejectRequest_refusal _⟩⟩

/-- A client without valid credentials learns nothing of the entities: whatever they are and
whatever the connection has prepared, it is sent the same text, and the same is left behind. -/
theorem refused_independent (connection : Connection) (site : Site ε κ) (site' : Site ε' κ')
    (hrefused : ¬ Authorized outside request.environment
      (Service.readData outside.loadFaults outside.uuid outside.now w).2.store) :
    connection.response site outside request w = connection.response site' outside request w := by
  have hprocess : ∀ router : Router, router.process site outside request w =
      router.process site' outside request w := by
    intro router
    unfold Router.process
    rcases hread : Service.readData outside.loadFaults outside.uuid outside.now w with
      ⟨_ | _, loaded⟩
    · rfl
    · rw [hread] at hrefused
      dsimp only
      rcases hauth : Service.authenticate outside { environment := request.environment } {} loaded
        with ⟨_ | ⟨result, request', authResponse⟩, next⟩
      · rfl
      · rcases authenticate_returns hauth with ⟨-, -, hauthorized⟩ | ⟨rfl, -, -⟩
        · exact absurd hauthorized hrefused
        · rfl
  unfold Connection.response
  cases connection.router with
  | none => rfl
  | some router => simp only [hprocess router]

end

/-! ## Two requests -/

/-- When a request has no valid credentials. -/
theorem not_authorized {outside : Outside} {env : Environment} (hpath : ¬ Service.Whitelisted env)
    (hothers : env.others.lookup Service.xAuthToken = none)
    (hcookies : env.cookies.lookup Service.cookieSession = none) (hheader : env.authorization = [])
    (store : Service.SessionStore) : ¬ Authorized outside env store := by
  rintro (hlisted | (htoken | hcookie | hheaderToken) | hbasic)
  · exact hpath hlisted
  · obtain ⟨-, token, hlookup, -⟩ := htoken
    rw [hothers] at hlookup
    cases hlookup
  · obtain ⟨-, token, hlookup, -⟩ := hcookie
    rw [hcookies] at hlookup
    cases hlookup
  · obtain ⟨-, token, hprefix, -⟩ := hheaderToken
    rw [hheader] at hprefix
    cases hprefix
  · obtain ⟨⟨-, param, user, pass, hprefix, -⟩, -⟩ := hbasic
    rw [hheader] at hprefix
    cases hprefix

/-- The entities are two fans, or something else, and the Redfish tree has one node. -/
def sampleSite (course : Nat → Graphql.Moment Graphql.Inventory) :
    Site Graphql.Inventory Unit where
  manager := Graphql.inventoryManager
  course := course
  resultText := fun _ => bytes "\x7b\x7d"
  library := { dump := fun _ => [], toChars := fun _ => [], less := fun _ _ => false }
  redfishV1 := .node (.static (bytes "v1")) []
    { getFieldsGetters := fun _ _ => .ok []
      wellFormed := by
        intro _ _ actions heq
        cases heq
        exact trivial } []
  ctx := ()
  localtime := fun _ => threeHoursAhead
  time := 0

/-- A login at the path of another program. -/
def loginRequest : Incoming where
  environment := { pathInfo := [bytes "login"], requestMethod := .post }
  contentType := bytes "application/json"

/-- A query without credentials. -/
def anonymousQuery : Incoming where
  environment := { pathInfo := [bytes "api", bytes "GraphQL"], requestMethod := .post }
  contentType := bytes "application/json"
  postBuffer := bytes "\x7b\x7d"

/-- The reply to a path without a handler. -/
def notFoundText : Bytes :=
  bytes ("HTTP/1.1 404 Not Found\r\nContent-Type: text/plain; charset=UTF-8\r\n" ++
    "Content-Length: 0\r\nDate: Thu, 01 Jan 1970 03:00:00 GMT\r\n\r\n")

/-- A state whose files cannot be parsed. -/
def unparsableWorld : World where
  disk := fun _ => .unparsable

/-- A connection that has found the handler of the query. -/
def preparedQuery : Connection where
  router := some { handler := some (.graphqlRouter none) }

/-- A refusal does not depend on the query. -/
theorem refused_independent_query :
    preparedQuery.response (sampleSite fun _ => Graphql.twoFans)
        (Service.sampleOutside fun _ => none) anonymousQuery unparsableWorld =
      preparedQuery.response { sampleSite fun _ => Graphql.twoFans with resultText := fun _ => [] }
        (Service.sampleOutside fun _ => none) anonymousQuery unparsableWorld := by
  have hpath : ¬ Service.Whitelisted anonymousQuery.environment := by
    rintro (⟨hget, -⟩ | ⟨-, hpost⟩)
    · cases hget
    · revert hpost
      decide
  exact refused_independent preparedQuery _ _ (not_authorized hpath rfl rfl rfl _)

end Http
end ObmcWebapp
