import ObmcWebapp.Service.Login

/-!
# Service - Authenticating a request

{lit}`authenticate` lets whitelisted requests through and tries four kinds of
credentials on the others, each kind with a flag that enables it.  The definitions
follow the source; the credentials are then stated on their own, and the two are
compared.

Main results:

- Theorem {lit}`findSession_cases`: everything that trying the credentials can do.
- Theorem {lit}`authenticate_iff`: a request is let through exactly when it is
  whitelisted or has a valid credential of one of the four kinds.
-/

open Library

namespace ObmcWebapp
namespace Service

/-! ## The request -/

/-- A request with the session that authentication finds for it. -/
structure Request where
  environment : Environment
  userSession : Option UserSession := none

namespace Request

/-- {lit}`setSession` -/
def setSession (request : Request) (session : Option UserSession) : Request :=
  { request with userSession := session }

/-- {lit}`isSessionEmpty` -/
def isSessionEmpty (request : Request) : Bool :=
  request.userSession.isNone

/-- Set the session that a function returns, unless an exception leaves it. -/
def setResult (request : Request) : Outcome (Option UserSession) → Outcome Request
  | (.error failure, w) => (.error failure, w)
  | (.ok session, w) => (.ok (request.setSession session), w)

end Request

/-- The variable of the header against forgery. -/
def xXSRFToken : Bytes := bytes "HTTP_X_XSRF_TOKEN"
/-- The variable of the header with a token. -/
def xAuthToken : Bytes := bytes "HTTP_X_AUTH_TOKEN"
/-- How credentials begin. -/
def authBasic : Bytes := bytes "Basic "
/-- How a token begins. -/
def authToken : Bytes := bytes "Token "
/-- The name of the cookie with a token. -/
def cookieSession : Bytes := bytes "SESSION"

/-- What PAM returns where it succeeds. -/
def pamSuccess : Int := 0

/-- {lit}`PAM_NEW_AUTHTOK_REQD` -/
def pamNewAuthtokReqd : Int := 12

/-! ## The four kinds of credentials -/

/-- {lit}`performTokenAuth` -/
def performTokenAuth (authHeader : Bytes) (now : TimePoint) (store : SessionStore) :
    Option UserSession × SessionStore :=
  store.loginSessionByToken now (authHeader.drop authToken.length)

/-- {lit}`performXtokenAuth` -/
def performXtokenAuth (env : Environment) (now : TimePoint) (store : SessionStore) :
    Option UserSession × SessionStore :=
  match env.others.lookup xAuthToken with
  | none => (none, store)
  | some token => if token = [] then (none, store) else store.loginSessionByToken now token

/-- The CSRF check, for every method but GET. -/
def checkCsrf (env : Environment) (session : UserSession) : Bool :=
  if env.requestMethod = .get then true
  else
    match env.others.lookup xXSRFToken with
    | none => false
    | some csrf =>
        if csrf = [] ∨ session.csrfToken = [] then false
        else if csrf.length ≠ sessionTokenSize then false
        else constantTimeStringCompare csrf session.csrfToken

/-- {lit}`performCookieAuth` -/
def performCookieAuth (env : Environment) (now : TimePoint) (store : SessionStore) :
    Option UserSession × SessionStore :=
  match env.cookies.lookup cookieSession with
  | none => (none, store)
  | some token =>
      match store.loginSessionByToken now token with
      | (none, store) => (none, store)
      | (some session, store) =>
          if checkCsrf env session then (some session, store) else (none, store)

/-- User and password around the first colon. -/
def splitCredentials (authData : Bytes) : Option (Bytes × Bytes) :=
  match authData.findIdx? (· = 0x3A) with
  | none => none
  | some separator =>
      if separator + 1 > authData.length then none
      else some (authData.take separator, authData.drop (separator + 1))

/-- {lit}`performBasicAuth` -/
def performBasicAuth (outside : Outside) (env : Environment) (w : World) :
    Outcome (Option UserSession) :=
  match base64Decode outside.evpDecodeBlock (env.authorization.drop authBasic.length) with
  | none => (.ok none, w)
  | some authData =>
      match splitCredentials authData with
      | none => (.ok none, w)
      | some (user, pass) =>
          let pamrc := outside.pamAuthenticateUser user pass
          if pamrc ≠ pamSuccess ∧ pamrc ≠ pamNewAuthtokReqd then (.ok none, w)
          else newBasicAuthSession outside user (pamrc = pamNewAuthtokReqd) env.getClientIp w

/-! ## Authentication -/

/-- The paths that anyone may read. -/
def whiteListGetUris : List Bytes :=
  [bytes "/redfish/", bytes "/redfish/v1/", bytes "/redfish/v1/odata/"]

/-- The paths to which anyone may post. -/
def whiteListPostUris : List Bytes :=
  [bytes "/login/", bytes "/redfish/v1/SessionService/Sessions/"]

/-- {lit}`isOnWhitelist` -/
def isOnWhitelist (env : Environment) : Bool :=
  if env.requestMethod = .get then whiteListGetUris.contains env.getUriPath
  else if env.requestMethod = .post then whiteListPostUris.contains env.getUriPath
  else false

/-- The header with a token is tried. -/
def tryXtoken (now : TimePoint) (request : Request) (store : SessionStore) :
    Request × SessionStore :=
  if request.isSessionEmpty && store.authMethodsConfig.xtoken then
    let (session, store) := performXtokenAuth request.environment now store
    (request.setSession session, store)
  else
    (request, store)

/-- The cookie is tried. -/
def tryCookie (now : TimePoint) (request : Request) (store : SessionStore) :
    Request × SessionStore :=
  if request.isSessionEmpty && store.authMethodsConfig.cookie then
    let (session, store) := performCookieAuth request.environment now store
    (request.setSession session, store)
  else
    (request, store)

/-- The authorization header: any kind of authentication other than token or basic
is rejected. -/
def tryAuthorization (outside : Outside) (request : Request) (w : World) : Outcome Request :=
  let authHeader := request.environment.authorization
  if request.isSessionEmpty && !authHeader.isEmpty then
    if authToken.isPrefixOf authHeader && w.store.authMethodsConfig.sessionToken then
      let (session, store) := performTokenAuth authHeader outside.now w.store
      (.ok (request.setSession session), { w with store })
    else if authBasic.isPrefixOf authHeader && w.store.authMethodsConfig.basic then
      request.setResult (performBasicAuth outside request.environment w)
    else
      (.ok request, w)
  else
    (.ok request, w)

/-- The credentials in order. -/
def findSession (outside : Outside) (request : Request) (w : World) : Outcome Request :=
  let (request, store) := tryXtoken outside.now request w.store
  let (request, store) := tryCookie outside.now request store
  tryAuthorization outside request { w with store }

/-- Where a browser is sent to log in. -/
def loginPathNext : Bytes := bytes "/#/login?next="

/-- The response to a request without a session: a browser is sent to the login
page, and only a client without a user agent is asked for basic authentication. -/
def rejectRequest (env : Environment) (response : Response) : Response :=
  if env.isBrowserRequest then
    (response.setStatus .temporaryRedirect).setHeader (bytes "Location")
      (loginPathNext ++ urlEncode env.getUriPath)
  else
    let response := response.setStatus .unauthorized
    if env.userAgent.isEmpty then response.setHeader (bytes "WWW-Authenticate") authBasic
    else response

/-- {lit}`authenticate(request, response)`; a session found is made durable. -/
def authenticate (outside : Outside) (request : Request) (response : Response) (w : World) :
    Outcome (Bool × Request × Response) :=
  if isOnWhitelist request.environment then
    (.ok (true, request, response), w)
  else
    match findSession outside request w with
    | (.error failure, w) => (.error failure, w)
    | (.ok request, w) =>
        if request.isSessionEmpty then
          (.ok (false, request, rejectRequest request.environment response), w)
        else
          match commit outside.commitFaults w with
          | (.error failure, w) => (.error failure, w)
          | (.ok (), w) => (.ok (true, request, response), w)

/-! ## Credentials -/

/-- The CSRF rule: for every method but GET the header is there, is not empty, has
the size of a token and equals the session's own token. -/
def CsrfPasses (env : Environment) (session : UserSession) : Prop :=
  env.requestMethod ≠ .get →
    ∃ csrf, env.others.lookup xXSRFToken = some csrf ∧ csrf ≠ [] ∧
      csrf.length = sessionTokenSize ∧ session.csrfToken ≠ [] ∧ csrf = session.csrfToken

section Credentials

variable (env : Environment) (now : TimePoint) (store : SessionStore)

/-- Whitelisted: an exact method and an exact path. -/
def Whitelisted : Prop :=
  (env.requestMethod = .get ∧ env.getUriPath ∈ whiteListGetUris) ∨
    (env.requestMethod = .post ∧ env.getUriPath ∈ whiteListPostUris)

/-- The X-Auth-Token header names a live session. -/
def XTokenCredential : Prop :=
  store.authMethodsConfig.xtoken = true ∧
    ∃ token, env.others.lookup xAuthToken = some token ∧ store.Accepts now token

/-- The session cookie names a live session, with some further property. -/
def CookieNames (P : UserSession → Prop) : Prop :=
  store.authMethodsConfig.cookie = true ∧
    ∃ token, env.cookies.lookup cookieSession = some token ∧ token.length = sessionTokenSize ∧
      ∃ session ∈ (store.applySessionTimeouts now).authTokens,
        session.sessionToken = token ∧ P session

/-- The session cookie names a live session, and the request passes its CSRF rule. -/
def CookieCredential : Prop :=
  CookieNames env now store (CsrfPasses env)

/-- The session cookie names a live session, but the CSRF rule is not met. -/
def CsrfFailure : Prop :=
  CookieNames env now store fun session => ¬ CsrfPasses env session

/-- The authorization header is a token that names a live session. -/
def TokenCredential : Prop :=
  store.authMethodsConfig.sessionToken = true ∧
    ∃ token, env.authorization = authToken ++ token ∧ store.Accepts now token

end Credentials

/-- The authorization header carries a user and a password that PAM takes. -/
def BasicCredential (outside : Outside) (env : Environment) (store : SessionStore) : Prop :=
  store.authMethodsConfig.basic = true ∧
    ∃ param user pass, env.authorization = authBasic ++ param ∧
      base64Decode outside.evpDecodeBlock param = some (user ++ 0x3A :: pass) ∧ 0x3A ∉ user ∧
      (outside.pamAuthenticateUser user pass = pamSuccess ∨
        outside.pamAuthenticateUser user pass = pamNewAuthtokReqd)

/-- What the check of the path checks. -/
theorem isOnWhitelist_iff (env : Environment) : isOnWhitelist env = true ↔ Whitelisted env := by
  unfold isOnWhitelist Whitelisted
  by_cases hget : env.requestMethod = .get
  · simp [hget]
  · by_cases hpost : env.requestMethod = .post
    · simp [hpost]
    · simp [hget, hpost]

/-- What the check against forgery checks. -/
theorem checkCsrf_iff (env : Environment) (session : UserSession) :
    checkCsrf env session = true ↔ CsrfPasses env session := by
  unfold checkCsrf CsrfPasses
  by_cases hget : env.requestMethod = .get
  · simp [hget]
  · rw [if_neg hget]
    cases hlookup : env.others.lookup xXSRFToken with
    | none => simp [hget]
    | some csrf =>
        dsimp only
        by_cases hempty : csrf = [] ∨ session.csrfToken = []
        · rw [if_pos hempty]
          constructor
          · intro h
            exact absurd h (by simp)
          · intro h
            obtain ⟨other, hother, hne, -, hown, -⟩ := h hget
            obtain rfl := Option.some.inj hother
            exact absurd hempty (not_or.mpr ⟨hne, hown⟩)
        · rw [if_neg hempty]
          rw [not_or] at hempty
          by_cases hsize : csrf.length = sessionTokenSize
          · rw [if_neg (not_not.mpr hsize), constantTimeStringCompare_iff]
            constructor
            · intro heq _
              exact ⟨csrf, rfl, hempty.1, hsize, hempty.2, heq⟩
            · intro h
              obtain ⟨other, hother, -, -, -, heq⟩ := h hget
              obtain rfl := Option.some.inj hother
              exact heq
          · rw [if_pos hsize]
            constructor
            · intro h
              exact absurd h (by simp)
            · intro h
              obtain ⟨other, hother, -, hlength, -, -⟩ := h hget
              obtain rfl := Option.some.inj hother
              exact absurd hlength hsize

/-- The user ends at the first colon. -/
theorem splitCredentials_append {user : Bytes} (huser : 0x3A ∉ user) (pass : Bytes) :
    splitCredentials (user ++ 0x3A :: pass) = some (user, pass) := by
  have hnone : user.findIdx? (· = 0x3A) = none := by
    rw [List.findIdx?_eq_none_iff]
    intro c hc
    simpa using fun heq : c = 0x3A => huser (heq ▸ hc)
  have hfind : (user ++ 0x3A :: pass).findIdx? (· = 0x3A) = some user.length := by
    rw [List.findIdx?_append, hnone]
    simp [List.findIdx?_cons]
  unfold splitCredentials
  rw [hfind]
  simp

/-- Splitting at the first colon. -/
theorem splitCredentials_eq_some_iff {authData user pass : Bytes} :
    splitCredentials authData = some (user, pass) ↔
      authData = user ++ 0x3A :: pass ∧ 0x3A ∉ user := by
  constructor
  · intro h
    unfold splitCredentials at h
    cases hfind : authData.findIdx? (· = 0x3A) with
    | none => simp [hfind] at h
    | some separator =>
        obtain ⟨hlt, hcolon, hbefore⟩ := List.findIdx?_eq_some_iff_getElem.mp hfind
        have hsize : ¬ separator + 1 > authData.length := by omega
        simp only [hfind, if_neg hsize, Option.some.injEq, Prod.mk.injEq] at h
        obtain ⟨rfl, rfl⟩ := h
        constructor
        · have hsep : authData[separator] = 0x3A := by simpa using hcolon
          rw [← hsep, ← List.drop_eq_getElem_cons hlt, List.take_append_drop]
        · intro hmem
          obtain ⟨j, hj, hget⟩ := List.mem_take_iff_getElem.mp hmem
          have hlow : j < separator := by omega
          exact hbefore j hlow (by simpa using hget)
  · rintro ⟨rfl, huser⟩
    exact splitCredentials_append huser pass

/-- The user and the password that {lit}`performBasicAuth` hands to PAM. -/
def pamCredentials (outside : Outside) (env : Environment) : Option (Bytes × Bytes) :=
  (base64Decode outside.evpDecodeBlock (env.authorization.drop authBasic.length)).bind
    splitCredentials

/-- Without credentials PAM is not asked; with some, its answer on them decides. -/
theorem performBasicAuth_eq (outside : Outside) (env : Environment) (w : World) :
    performBasicAuth outside env w =
      match pamCredentials outside env with
      | none => (.ok none, w)
      | some (user, pass) =>
          let pamrc := outside.pamAuthenticateUser user pass
          if pamrc ≠ pamSuccess ∧ pamrc ≠ pamNewAuthtokReqd then (.ok none, w)
          else newBasicAuthSession outside user (pamrc = pamNewAuthtokReqd) env.getClientIp w := by
  unfold performBasicAuth pamCredentials
  cases base64Decode outside.evpDecodeBlock (env.authorization.drop authBasic.length) with
  | none => rfl
  | some authData => rfl

/-- The credentials are those in the header. -/
theorem pamCredentials_of_header {outside : Outside} {env : Environment} {param : Bytes}
    (hheader : env.authorization = authBasic ++ param) {user pass : Bytes} :
    pamCredentials outside env = some (user, pass) ↔
      base64Decode outside.evpDecodeBlock param = some (user ++ 0x3A :: pass) ∧
        0x3A ∉ user := by
  unfold pamCredentials
  rw [hheader, List.drop_left, Option.bind_eq_some_iff]
  simp only [splitCredentials_eq_some_iff]
  constructor
  · rintro ⟨authData, hdecode, rfl, huser⟩
    exact ⟨hdecode, huser⟩
  · rintro ⟨hdecode, huser⟩
    exact ⟨_, hdecode, rfl, huser⟩

/-- The header carries a valid credential if PAM takes what it is handed. -/
theorem basicCredential_iff_pamCredentials {outside : Outside} {env : Environment}
    {store : SessionStore} {param : Bytes} (hheader : env.authorization = authBasic ++ param)
    (hconfig : store.authMethodsConfig.basic = true) :
    BasicCredential outside env store ↔
      ∃ user pass, pamCredentials outside env = some (user, pass) ∧
        (outside.pamAuthenticateUser user pass = pamSuccess ∨
          outside.pamAuthenticateUser user pass = pamNewAuthtokReqd) := by
  constructor
  · rintro ⟨-, other, user, pass, hother, hdecode, huser, hpam⟩
    exact ⟨user, pass, (pamCredentials_of_header hother).mpr ⟨hdecode, huser⟩, hpam⟩
  · rintro ⟨user, pass, hcredentials, hpam⟩
    obtain ⟨hdecode, huser⟩ := (pamCredentials_of_header hheader).mp hcredentials
    exact ⟨hconfig, param, user, pass, hheader, hdecode, huser, hpam⟩

/-! ## What trying the credentials does -/

section Trying

variable {env : Environment} {now : TimePoint} {store store' : SessionStore} {tokens : List Bytes}

/-- A login that found a session: the session is one that the sweep keeps, now used
last. -/
def Found (now : TimePoint) (store : SessionStore) (tokens : List Bytes) (token : Bytes)
    (result : Option UserSession × SessionStore) : Prop :=
  ∃ session ∈ (store.applySessionTimeouts now).authTokens, session.sessionToken = token ∧
    store.Accepts now token ∧ result.1 = some (session.touch now) ∧
    SessionStore.Probed now store (tokens ++ [token]) result.2

/-- A login that found none. -/
def Missed (now : TimePoint) (store : SessionStore) (tokens : List Bytes)
    (result : Option UserSession × SessionStore) : Prop :=
  result.1 = none ∧ SessionStore.Probed now store tokens result.2

/-- A token is found where it is accepted. -/
theorem login_found_or_missed (h : SessionStore.Probed now store tokens store') (token : Bytes) :
    (store.Accepts now token ∧
      Found now store tokens token (store'.loginSessionByToken now token)) ∨
    (¬ store.Accepts now token ∧
      Missed now store tokens (store'.loginSessionByToken now token)) := by
  rcases h.login token with ⟨hnot, next, heq, hnext⟩ | ⟨session, hmem, next, hname, hok, heq, hnext⟩
  · rw [heq]
    exact Or.inr ⟨hnot, rfl, hnext⟩
  · rw [heq]
    exact Or.inl ⟨hok, session, hmem, hname, hok, rfl, hnext⟩

/-- The header with a token. -/
theorem performXtokenAuth_cases (h : SessionStore.Probed now store tokens store') :
    (∃ token, env.others.lookup xAuthToken = some token ∧ store.Accepts now token ∧
      Found now store tokens token (performXtokenAuth env now store')) ∨
    ((¬ ∃ token, env.others.lookup xAuthToken = some token ∧ store.Accepts now token) ∧
      Missed now store tokens (performXtokenAuth env now store')) := by
  unfold performXtokenAuth
  cases hlookup : env.others.lookup xAuthToken with
  | none => exact Or.inr ⟨by simp, rfl, h⟩
  | some token =>
      dsimp only
      by_cases hempty : token = []
      · have hnot : ¬ store.Accepts now token := by
          rintro ⟨hsize, -⟩
          simp [hempty, sessionTokenSize] at hsize
        rw [if_pos hempty]
        exact Or.inr ⟨by simpa using hnot, rfl, h⟩
      · rw [if_neg hempty]
        rcases login_found_or_missed h token with ⟨hok, hfound⟩ | ⟨hnot, hmissed⟩
        · exact Or.inl ⟨token, rfl, hok, hfound⟩
        · exact Or.inr ⟨by simpa using hnot, hmissed⟩

/-- The token in the authorization. -/
theorem performTokenAuth_cases (h : SessionStore.Probed now store tokens store') (token : Bytes) :
    (store.Accepts now token ∧
      Found now store tokens token (performTokenAuth (authToken ++ token) now store')) ∨
    (¬ store.Accepts now token ∧
      Missed now store tokens (performTokenAuth (authToken ++ token) now store')) := by
  unfold performTokenAuth
  rw [List.drop_left]
  exact login_found_or_missed h token

/-- The cookie: a session, a session whose use was recorded although the CSRF rule
fails, or nothing. -/
theorem performCookieAuth_cases (env : Environment) (hconfig : store.authMethodsConfig.cookie = true)
    (h : SessionStore.Probed now store tokens store') :
    (CookieCredential env now store ∧ ∃ token, env.cookies.lookup cookieSession = some token ∧
      Found now store tokens token (performCookieAuth env now store')) ∨
    (¬ CookieCredential env now store ∧ CsrfFailure env now store ∧
      ∃ token, env.cookies.lookup cookieSession = some token ∧ store.Accepts now token ∧
        Missed now store (tokens ++ [token]) (performCookieAuth env now store')) ∨
    (¬ CookieCredential env now store ∧
      Missed now store tokens (performCookieAuth env now store')) := by
  unfold performCookieAuth CookieCredential CsrfFailure CookieNames
  cases hlookup : env.cookies.lookup cookieSession with
  | none => exact Or.inr (Or.inr ⟨by simp, rfl, h⟩)
  | some token =>
      dsimp only
      rcases h.login token with
        ⟨hnot, next, heq, hnext⟩ | ⟨session, hmem, next, hname, hok, heq, hnext⟩
      · rw [heq]
        refine Or.inr (Or.inr ⟨?_, rfl, hnext⟩)
        rintro ⟨-, other, hother, hsize, found, hfound, hfoundName, -⟩
        obtain rfl := Option.some.inj hother
        exact hnot ⟨hsize, found, hfound, hfoundName⟩
      · rw [heq]
        dsimp only
        have hsame : CsrfPasses env (session.touch now) ↔ CsrfPasses env session := Iff.rfl
        by_cases hcsrf : CsrfPasses env session
        · rw [if_pos ((checkCsrf_iff env _).mpr (hsame.mpr hcsrf))]
          exact Or.inl ⟨⟨hconfig, token, rfl, hok.1, session, hmem, hname, hcsrf⟩, token, rfl,
            session, hmem, hname, hok, rfl, hnext⟩
        · have hfail : ¬ checkCsrf env (session.touch now) = true := fun hpass =>
            hcsrf (hsame.mp ((checkCsrf_iff env _).mp hpass))
          rw [if_neg hfail]
          refine Or.inr (Or.inl ⟨?_, ⟨hconfig, token, rfl, hok.1, session, hmem, hname, hcsrf⟩,
            token, rfl, hok, rfl, hnext⟩)
          rintro ⟨-, other, hother, -, found, hfound, hfoundName, hpass⟩
          obtain rfl := Option.some.inj hother
          have heqSession := Table.eq_of_key_eq hfound hmem (hfoundName.trans hname.symm)
          exact hcsrf (heqSession ▸ hpass)

/-- The session that basic authentication opens. -/
def basicSession (outside : Outside) (env : Environment) (ids : Identifiers) (user : Bytes)
    (isConfigureSelfOnly : Bool) : UserSession :=
  newSession ids user .singleRequest isConfigureSelfOnly env.getClientIp env.getClientIp
    .configLongTermStorage outside.now

/-- A session that basic authentication opened, inserted and committed. -/
def Opened (outside : Outside) (env : Environment) (w : World)
    (result : Outcome (Option UserSession)) : Prop :=
  ∃ ids user selfOnly, drawIdentifiers outside.draws = some ids ∧
    result.2 =
      (commit outside.storeFaults (w.emplace (basicSession outside env ids user selfOnly))).2 ∧
    ((∃ failure, result.1 = .error failure) ∨
      ∃ stored, result.1 = .ok (some stored) ∧ stored.sessionToken = ids.sessionToken ∧
        (commit outside.storeFaults
          (w.emplace (basicSession outside env ids user selfOnly))).1 = .ok () ∧
        stored ∈ (w.emplace (basicSession outside env ids user selfOnly)).store.authTokens)

/-- Basic authentication with a header of its kind: without valid credentials or
random numbers nothing changes, otherwise a session is opened. -/
theorem performBasicAuth_cases {outside : Outside} {param : Bytes}
    (hheader : env.authorization = authBasic ++ param) (hconfig : store.authMethodsConfig.basic = true)
    (w : World) :
    (¬ (BasicCredential outside env store ∧ drawIdentifiers outside.draws ≠ none) ∧
      performBasicAuth outside env w = (.ok none, w)) ∨
    (BasicCredential outside env store ∧
      Opened outside env w (performBasicAuth outside env w)) := by
  rw [performBasicAuth_eq]
  cases hcredentials : pamCredentials outside env with
  | none =>
      refine Or.inl ⟨?_, rfl⟩
      rintro ⟨hvalid, -⟩
      obtain ⟨user, pass, hsome, -⟩ :=
        (basicCredential_iff_pamCredentials hheader hconfig).mp hvalid
      exact absurd (hcredentials.symm.trans hsome) (by simp)
  | some credentials =>
      obtain ⟨user, pass⟩ := credentials
      dsimp only
      have hiff : BasicCredential outside env store ↔
          (outside.pamAuthenticateUser user pass = pamSuccess ∨
            outside.pamAuthenticateUser user pass = pamNewAuthtokReqd) := by
        rw [basicCredential_iff_pamCredentials hheader hconfig, hcredentials]
        simp
      by_cases hrefused : outside.pamAuthenticateUser user pass ≠ pamSuccess ∧
          outside.pamAuthenticateUser user pass ≠ pamNewAuthtokReqd
      · rw [if_pos hrefused]
        exact Or.inl ⟨fun h => (hiff.mp h.1).elim hrefused.1 hrefused.2, rfl⟩
      · rw [if_neg hrefused]
        have hvalid : BasicCredential outside env store := by
          rw [hiff]
          by_contra hno
          rw [not_or] at hno
          exact hrefused hno
        unfold newBasicAuthSession
        rcases generateUserSession_cases outside user .singleRequest
            (outside.pamAuthenticateUser user pass = pamNewAuthtokReqd) env.getClientIp
            env.getClientIp .configLongTermStorage w with
          ⟨hdraw, heq⟩ | ⟨ids, session, hdraw, rfl, hworld, hresult⟩
        · exact Or.inl ⟨fun h => h.2 hdraw, heq⟩
        · refine Or.inr ⟨hvalid, ids, user, _, hdraw, hworld, ?_⟩
          rcases hresult with hfail | ⟨stored, hstored, hok, hmem, hname⟩
          · exact Or.inl hfail
          · exact Or.inr ⟨stored, hstored, hname, hok, hmem⟩

/-! ### The three attempts in order -/

/-- The session was set to one that the sweep keeps, named by a token. -/
def SessionSet (now : TimePoint) (env : Environment) (store : SessionStore) (tokens : List Bytes)
    (result : Request × SessionStore) : Prop :=
  ∃ session ∈ (store.applySessionTimeouts now).authTokens,
    result.1 = { environment := env, userSession := some (session.touch now) } ∧
    SessionStore.Probed now store (tokens ++ [session.sessionToken]) result.2

/-- A session that is found is set. -/
theorem sessionSet_of_found {token : Bytes} {result : Option UserSession × SessionStore}
    (h : Found now store tokens token result) :
    SessionSet now env store tokens
      (({ environment := env } : Request).setSession result.1, result.2) := by
  obtain ⟨session, hmem, rfl, -, hsession, hprobed⟩ := h
  exact ⟨session, hmem, by rw [Request.setSession, hsession], hprobed⟩

/-- No session was set. -/
def SessionUnset (now : TimePoint) (env : Environment) (store : SessionStore)
    (tokens : List Bytes) (result : Request × SessionStore) : Prop :=
  result.1 = { environment := env } ∧ SessionStore.Probed now store tokens result.2

/-- A token that is missed sets none. -/
theorem sessionUnset_of_missed {result : Option UserSession × SessionStore}
    (h : Missed now store tokens result) :
    SessionUnset now env store tokens
      (({ environment := env } : Request).setSession result.1, result.2) :=
  ⟨by rw [Request.setSession, h.1], h.2⟩

/-- When the header with a token sets a session. -/
theorem tryXtoken_cases (env : Environment) (now : TimePoint) (store : SessionStore) :
    (XTokenCredential env now store ∧
      SessionSet now env store [] (tryXtoken now { environment := env } store)) ∨
    (¬ XTokenCredential env now store ∧
      SessionUnset now env store [] (tryXtoken now { environment := env } store)) := by
  unfold tryXtoken XTokenCredential
  by_cases hconfig : store.authMethodsConfig.xtoken = true
  · rw [if_pos (by simp [Request.isSessionEmpty, hconfig])]
    rcases performXtokenAuth_cases (SessionStore.Probed.refl now store) with
      ⟨token, hlookup, hok, hfound⟩ | ⟨hnot, hmissed⟩
    · exact Or.inl ⟨⟨hconfig, token, hlookup, hok⟩, sessionSet_of_found hfound⟩
    · exact Or.inr ⟨fun h => hnot h.2, sessionUnset_of_missed hmissed⟩
  · rw [if_neg (by simp [hconfig])]
    exact Or.inr ⟨fun h => hconfig h.1, rfl, SessionStore.Probed.refl now store⟩

/-- The use of a session may have been recorded for a cookie that was tried and
failed the CSRF rule, and for nothing else. -/
def Stale (env : Environment) (now : TimePoint) (store : SessionStore) (tokens : List Bytes) :
    Prop :=
  tokens = [] ∨ (¬ XTokenCredential env now store ∧ CsrfFailure env now store)

/-- When the cookie sets one. -/
theorem tryCookie_cases (hnotX : ¬ XTokenCredential env now store)
    (h : SessionStore.Probed now store [] store') :
    (CookieCredential env now store ∧
      SessionSet now env store [] (tryCookie now { environment := env } store')) ∨
    (¬ CookieCredential env now store ∧ ∃ stale, Stale env now store stale ∧
      SessionUnset now env store stale (tryCookie now { environment := env } store')) := by
  unfold tryCookie
  rw [h.config]
  by_cases hconfig : store.authMethodsConfig.cookie = true
  · rw [if_pos (by simp [Request.isSessionEmpty, hconfig])]
    rcases performCookieAuth_cases env hconfig h with
      ⟨hok, token, -, hfound⟩ | ⟨hnot, hcsrf, token, -, -, hmissed⟩ | ⟨hnot, hmissed⟩
    · exact Or.inl ⟨hok, sessionSet_of_found hfound⟩
    · exact Or.inr ⟨hnot, _, Or.inr ⟨hnotX, hcsrf⟩, sessionUnset_of_missed hmissed⟩
    · exact Or.inr ⟨hnot, [], Or.inl rfl, sessionUnset_of_missed hmissed⟩
  · rw [if_neg (by simp [hconfig])]
    exact Or.inr ⟨fun hok => hconfig hok.1, [], Or.inl rfl, rfl, h⟩

/-- A text does not begin both ways. -/
private theorem authToken_ne_authBasic (token param : Bytes) :
    authToken ++ token ≠ authBasic ++ param := by
  intro h
  simp [authToken, authBasic, bytes] at h

/-- A text begins with its first part. -/
private theorem isPrefixOf_append (start rest : Bytes) :
    start.isPrefixOf (start ++ rest) = true :=
  List.isPrefixOf_iff_prefix.mpr (List.prefix_append start rest)

/-- Any other text does not. -/
private theorem not_isPrefixOf {start text : Bytes} (h : ∀ rest, text ≠ start ++ rest) :
    start.isPrefixOf text = false := by
  rw [Bool.eq_false_iff, ne_eq, List.isPrefixOf_iff_prefix]
  rintro ⟨rest, hrest⟩
  exact h rest hrest.symm

/-! The header decides which of the three branches is taken. -/

/-- The authorization has a token. -/
theorem tryAuthorization_token (outside : Outside) {w : World} {token : Bytes}
    (hheader : env.authorization = authToken ++ token)
    (hconfig : w.store.authMethodsConfig.sessionToken = true) :
    tryAuthorization outside { environment := env } w =
      (.ok (({ environment := env } : Request).setSession
          (performTokenAuth (authToken ++ token) outside.now w.store).1),
        { w with store := (performTokenAuth (authToken ++ token) outside.now w.store).2 }) := by
  have hnonempty : (authToken ++ token).isEmpty = false := rfl
  simp [tryAuthorization, Request.isSessionEmpty, hheader, hnonempty, isPrefixOf_append, hconfig]

/-- The authorization has credentials. -/
theorem tryAuthorization_basic (outside : Outside) {w : World} {param : Bytes}
    (hheader : env.authorization = authBasic ++ param)
    (hconfig : w.store.authMethodsConfig.basic = true) :
    tryAuthorization outside { environment := env } w =
      ({ environment := env } : Request).setResult (performBasicAuth outside env w) := by
  have hnonempty : (authBasic ++ param).isEmpty = false := rfl
  have hnotToken : authToken.isPrefixOf (authBasic ++ param) = false :=
    not_isPrefixOf fun rest => (authToken_ne_authBasic rest param).symm
  simp [tryAuthorization, Request.isSessionEmpty, hheader, hnonempty, isPrefixOf_append, hconfig,
    hnotToken]

/-- The authorization has neither. -/
theorem tryAuthorization_other (outside : Outside) {w : World}
    (htoken : ¬ ((∃ token, env.authorization = authToken ++ token) ∧
      w.store.authMethodsConfig.sessionToken = true))
    (hbasic : ¬ ((∃ param, env.authorization = authBasic ++ param) ∧
      w.store.authMethodsConfig.basic = true)) :
    tryAuthorization outside { environment := env } w = (.ok { environment := env }, w) := by
  have hguard : ∀ {start : Bytes} {flag : Bool},
      ¬ ((∃ rest, env.authorization = start ++ rest) ∧ flag = true) →
        ¬ (start.isPrefixOf env.authorization && flag) = true := by
    intro start flag hnot hboth
    rw [Bool.and_eq_true, List.isPrefixOf_iff_prefix] at hboth
    obtain ⟨⟨rest, hrest⟩, hflag⟩ := hboth
    exact hnot ⟨⟨rest, hrest.symm⟩, hflag⟩
  unfold tryAuthorization
  dsimp only
  rw [if_neg (hguard htoken), if_neg (hguard hbasic), ite_self]

/-- The session was set to one that basic authentication opened, or writing the
files failed. -/
def SessionOpened (outside : Outside) (env : Environment) (w : World) (result : Outcome Request) :
    Prop :=
  ∃ opened : Outcome (Option UserSession), Opened outside env w opened ∧ result.2 = opened.2 ∧
    ((∃ failure, opened.1 = .error failure ∧ result.1 = .error failure) ∨
      ∃ stored, opened.1 = .ok (some stored) ∧
        result.1 = .ok { environment := env, userSession := some stored })

/-- A session that is opened is set. -/
theorem sessionOpened_of_opened {outside : Outside} {w : World}
    {opened : Outcome (Option UserSession)} (h : Opened outside env w opened) :
    SessionOpened outside env w (({ environment := env } : Request).setResult opened) := by
  refine ⟨opened, h, ?_⟩
  obtain ⟨ids, user, selfOnly, -, -, hresult⟩ := h
  rcases opened with ⟨result, w'⟩
  rcases hresult with ⟨failure, hfail⟩ | ⟨stored, hstored, -, -⟩
  · obtain rfl : result = .error failure := hfail
    exact ⟨rfl, Or.inl ⟨failure, rfl, rfl⟩⟩
  · obtain rfl : result = .ok (some stored) := hstored
    exact ⟨rfl, Or.inr ⟨stored, rfl, rfl⟩⟩

/-- When the authorization sets a session. -/
theorem tryAuthorization_cases (outside : Outside) (env : Environment) {w : World}
    (h : SessionStore.Probed outside.now store tokens w.store) :
    (TokenCredential env outside.now store ∧ ∃ request next,
      tryAuthorization outside { environment := env } w =
        (.ok request, { w with store := next }) ∧
      SessionSet outside.now env store tokens (request, next)) ∨
    (¬ TokenCredential env outside.now store ∧ BasicCredential outside env store ∧
      SessionOpened outside env w (tryAuthorization outside { environment := env } w)) ∨
    (¬ TokenCredential env outside.now store ∧
      ¬ (BasicCredential outside env store ∧ drawIdentifiers outside.draws ≠ none) ∧
      ∃ request next,
        tryAuthorization outside { environment := env } w =
          (.ok request, { w with store := next }) ∧
        SessionUnset outside.now env store tokens (request, next)) := by
  have hflags := h.config
  by_cases htoken : (∃ token, env.authorization = authToken ++ token) ∧
      w.store.authMethodsConfig.sessionToken = true
  · obtain ⟨⟨token, hheader⟩, hconfig⟩ := htoken
    have hnobasic : ¬ (BasicCredential outside env store ∧
        drawIdentifiers outside.draws ≠ none) := by
      rintro ⟨⟨-, param, user, pass, hparam, -⟩, -⟩
      exact authToken_ne_authBasic token param (hheader.symm.trans hparam)
    rw [tryAuthorization_token outside hheader hconfig]
    rcases performTokenAuth_cases h token with ⟨hok, hfound⟩ | ⟨hnot, hmissed⟩
    · exact Or.inl ⟨⟨hflags ▸ hconfig, token, hheader, hok⟩, _, _, rfl,
        sessionSet_of_found hfound⟩
    · refine Or.inr (Or.inr ⟨?_, hnobasic, _, _, rfl, sessionUnset_of_missed hmissed⟩)
      rintro ⟨-, other, hother, hok⟩
      obtain rfl := List.append_cancel_left (hheader.symm.trans hother)
      exact hnot hok
  · have hnotToken : ¬ TokenCredential env outside.now store := by
      rintro ⟨hconfig, token, hheader, -⟩
      exact htoken ⟨⟨token, hheader⟩, hflags ▸ hconfig⟩
    by_cases hbasic : (∃ param, env.authorization = authBasic ++ param) ∧
        w.store.authMethodsConfig.basic = true
    · obtain ⟨⟨param, hheader⟩, hconfig⟩ := hbasic
      rw [tryAuthorization_basic outside hheader hconfig]
      rcases performBasicAuth_cases hheader (hflags ▸ hconfig) w with
        ⟨hnot, heq⟩ | ⟨hcred, hopened⟩
      · rw [heq]
        exact Or.inr (Or.inr ⟨hnotToken, hnot, { environment := env }, w.store, rfl, rfl, h⟩)
      · exact Or.inr (Or.inl ⟨hnotToken, hcred, sessionOpened_of_opened hopened⟩)
    · have hnot : ¬ (BasicCredential outside env store ∧
          drawIdentifiers outside.draws ≠ none) := by
        rintro ⟨⟨hconfig, param, user, pass, hheader, -⟩, -⟩
        exact hbasic ⟨⟨param, hheader⟩, hflags ▸ hconfig⟩
      rw [tryAuthorization_other outside htoken hbasic]
      exact Or.inr (Or.inr ⟨hnotToken, hnot, { environment := env }, w.store, rfl, rfl, h⟩)

end Trying

/-- Once there is a session the later attempts are skipped. -/
theorem tryCookie_of_session {request : Request} (hsession : request.isSessionEmpty = false)
    (now : TimePoint) (store : SessionStore) : tryCookie now request store = (request, store) := by
  simp [tryCookie, hsession]

/-- With a session the authorization is not tried. -/
theorem tryAuthorization_of_session {request : Request} (hsession : request.isSessionEmpty = false)
    (outside : Outside) (w : World) : tryAuthorization outside request w = (.ok request, w) := by
  simp [tryAuthorization, hsession]

/-- A token in one of its three places names a live session. -/
def TokenFound (env : Environment) (now : TimePoint) (store : SessionStore) : Prop :=
  XTokenCredential env now store ∨ CookieCredential env now store ∨
    TokenCredential env now store

/-- Everything that trying the credentials can do. -/
theorem findSession_cases (outside : Outside) (env : Environment) (w : World) :
    (TokenFound env outside.now w.store ∧ ∃ stale request next,
      Stale env outside.now w.store stale ∧
      findSession outside { environment := env } w = (.ok request, { w with store := next }) ∧
      SessionSet outside.now env w.store stale (request, next)) ∨
    (¬ TokenFound env outside.now w.store ∧ BasicCredential outside env w.store ∧
      ∃ stale next, Stale env outside.now w.store stale ∧
        SessionStore.Probed outside.now w.store stale next ∧
        SessionOpened outside env { w with store := next }
          (findSession outside { environment := env } w)) ∨
    (¬ TokenFound env outside.now w.store ∧
      ¬ (BasicCredential outside env w.store ∧ drawIdentifiers outside.draws ≠ none) ∧
      ∃ stale request next, Stale env outside.now w.store stale ∧
        findSession outside { environment := env } w = (.ok request, { w with store := next }) ∧
        SessionUnset outside.now env w.store stale (request, next)) := by
  unfold findSession
  rcases tryXtoken_cases env outside.now w.store with ⟨hx, hset⟩ | ⟨hnx, hrequest, hprobed⟩
  · obtain ⟨session, hmem, hrequest, hprobed⟩ := hset
    refine Or.inl ⟨Or.inl hx, [], (tryXtoken outside.now { environment := env } w.store).1,
      (tryXtoken outside.now { environment := env } w.store).2, Or.inl rfl, ?_, session, hmem,
      hrequest, hprobed⟩
    have hsession : (tryXtoken outside.now { environment := env } w.store).1.isSessionEmpty =
        false := by
      rw [hrequest]
      rfl
    dsimp only
    rw [tryCookie_of_session hsession, tryAuthorization_of_session hsession]
  · rcases hfirst : tryXtoken outside.now { environment := env } w.store with ⟨request, store'⟩
    rw [hfirst] at hrequest hprobed
    obtain rfl : request = { environment := env } := hrequest
    dsimp only
    rcases tryCookie_cases hnx hprobed with
      ⟨hcookie, session, hmem, hrequest, hprobed'⟩ | ⟨hnc, stale, hstale, hrequest, hprobed'⟩
    · refine Or.inl ⟨Or.inr (Or.inl hcookie), [], (tryCookie outside.now { environment := env }
        store').1, (tryCookie outside.now { environment := env } store').2, Or.inl rfl, ?_, session,
        hmem, hrequest, hprobed'⟩
      have hsession : (tryCookie outside.now { environment := env } store').1.isSessionEmpty =
          false := by
        rw [hrequest]
        rfl
      rw [tryAuthorization_of_session hsession]
    · rcases hsecond : tryCookie outside.now { environment := env } store' with
        ⟨request, store''⟩
      rw [hsecond] at hrequest hprobed'
      obtain rfl : request = { environment := env } := hrequest
      dsimp only
      have hnot : ¬ TokenCredential env outside.now w.store →
          ¬ TokenFound env outside.now w.store := fun hnt h => h.elim hnx fun h => h.elim hnc hnt
      have hcases := @tryAuthorization_cases w.store stale outside env { w with store := store'' }
        hprobed'
      rcases hcases with ⟨htoken, request, next, heq, hset⟩ | ⟨hnt, hbasic, hopened⟩ |
        ⟨hnt, hnb, request, next, heq, hunset⟩
      · exact Or.inl ⟨Or.inr (Or.inr htoken), stale, request, next, hstale, heq, hset⟩
      · exact Or.inr (Or.inl ⟨hnot hnt, hbasic, stale, store'', hstale, hprobed', hopened⟩)
      · exact Or.inr (Or.inr ⟨hnot hnt, hnb, stale, request, next, hstale, heq, hunset⟩)

/-- A request without a session gets one exactly when it has a valid credential. -/
theorem findSession_session_iff {outside : Outside} {env : Environment} {w w' : World}
    {request : Request}
    (h : findSession outside { environment := env } w = (.ok request, w')) :
    request.isSessionEmpty = false ↔
      TokenFound env outside.now w.store ∨
        (BasicCredential outside env w.store ∧ drawIdentifiers outside.draws ≠ none) := by
  rcases findSession_cases outside env w with
    ⟨hfound, stale, request', next, -, heq, session, -, hrequest, -⟩ |
    ⟨hnone, hbasic, stale, next, -, -, opened, hopened, -, hresult⟩ |
    ⟨hnone, hnobasic, stale, request', next, -, heq, hrequest, -⟩
  · rw [heq] at h
    simp only [Prod.mk.injEq, Except.ok.injEq] at h
    rw [← h.1, show request' = _ from hrequest]
    exact iff_of_true rfl (Or.inl hfound)
  · rw [h] at hresult
    obtain ⟨ids, user, selfOnly, hdraw, -, -⟩ := hopened
    rcases hresult with ⟨failure, -, hfail⟩ | ⟨stored, -, hstored⟩
    · exact absurd hfail (by simp)
    · obtain rfl := Except.ok.inj hstored
      exact iff_of_true rfl (Or.inr ⟨hbasic, by simp [hdraw]⟩)
  · rw [heq] at h
    simp only [Prod.mk.injEq, Except.ok.injEq] at h
    rw [← h.1, show request' = _ from hrequest]
    refine iff_of_false (by simp [Request.isSessionEmpty]) ?_
    exact fun h => h.elim hnone hnobasic

/-- Whenever it returns, {lit}`authenticate` lets a request through exactly when the
request is whitelisted or carries a valid credential of one of the four kinds, basic
authentication needing the random numbers of a new session. -/
theorem authenticate_iff {outside : Outside} {env : Environment} {response response' : Response}
    {w w' : World} {result : Bool} {request' : Request}
    (hreturns : authenticate outside { environment := env } response w =
      (.ok (result, request', response'), w')) :
    result = true ↔
      Whitelisted env ∨ XTokenCredential env outside.now w.store ∨
        CookieCredential env outside.now w.store ∨ TokenCredential env outside.now w.store ∨
        (BasicCredential outside env w.store ∧ drawIdentifiers outside.draws ≠ none) := by
  have hcredentials : ∀ {request : Request} {next : World},
      findSession outside { environment := env } w = (.ok request, next) →
      (request.isSessionEmpty = false ↔ XTokenCredential env outside.now w.store ∨
        CookieCredential env outside.now w.store ∨ TokenCredential env outside.now w.store ∨
        (BasicCredential outside env w.store ∧ drawIdentifiers outside.draws ≠ none)) := by
    intro request next h
    rw [findSession_session_iff h, TokenFound, or_assoc, or_assoc]
  unfold authenticate at hreturns
  dsimp only at hreturns
  by_cases hwhite : Whitelisted env
  · rw [if_pos ((isOnWhitelist_iff env).mpr hwhite)] at hreturns
    simp only [Prod.mk.injEq, Except.ok.injEq] at hreturns
    exact iff_of_true hreturns.1.1.symm (Or.inl hwhite)
  · rw [if_neg (mt (isOnWhitelist_iff env).mp hwhite)] at hreturns
    rw [or_iff_right hwhite]
    rcases hfind : findSession outside { environment := env } w with ⟨found, next⟩
    rw [hfind] at hreturns
    cases found with
    | error failure => exact absurd hreturns (by simp)
    | ok request =>
        rw [← hcredentials hfind]
        cases hempty : request.isSessionEmpty with
        | true =>
            simp only [hempty, if_pos, Prod.mk.injEq, Except.ok.injEq] at hreturns
            simp [← hreturns.1.1]
        | false =>
            simp only [hempty, Bool.false_eq_true, if_false] at hreturns
            rcases hcommit : commit outside.commitFaults next with ⟨committed, last⟩
            rw [hcommit] at hreturns
            cases committed with
            | error failure => exact absurd hreturns (by simp)
            | ok value =>
                simp only [Prod.mk.injEq, Except.ok.injEq] at hreturns
                simp [← hreturns.1.1]

/-! ### A concrete client -/

/-- A drawn text of zeros. -/
def zeroIdentifiers : Identifiers where
  sessionToken := List.replicate 20 0x30
  csrfToken := List.replicate 20 0x30
  uniqueId := List.replicate 10 0x30

/-- A system where user {lit}`r` has the password {lit}`p`. -/
def sampleOutside (draws : Nat → Option (Fin 62)) : Outside where
  now := 1000000000
  draws := draws
  uuid := {
    text := bytes "1B4E28BA-2FA1-11D2-883F-0016D3CCA427"
    length_eq := by decide
    valid := by decide }
  loadFaults := Faults.none
  storeFaults := Faults.none
  commitFaults := Faults.none
  evpDecodeBlock := fun input =>
    if input = bytes "cjpw" then { outputLen := 3, output := bytes "r:p" }
    else { outputLen := -1, output := [] }
  pamAuthenticateUser := fun user pass =>
    if user = bytes "r" ∧ pass = bytes "p" then pamSuccess else 7

/-- A request with the encoding of {lit}`r:p`. -/
def basicEnvironment : Environment where
  pathInfo := [bytes "redfish", bytes "v1", bytes "Systems"]
  authorization := bytes "Basic cjpw"

/-- There are no files yet. -/
def emptyWorld : World where
  disk := fun _ => .missing

/-- The credentials are those of the user. -/
theorem basicCredential_sample (draws : Nat → Option (Fin 62)) (store : SessionStore)
    (hconfig : store.authMethodsConfig.basic = true) :
    BasicCredential (sampleOutside draws) basicEnvironment store :=
  ⟨hconfig, bytes "cjpw", bytes "r", bytes "p", rfl, rfl, by decide, Or.inl rfl⟩

/-- The theorem at these credentials. -/
theorem authenticate_sample :
    Whitelisted basicEnvironment ∨
      XTokenCredential basicEnvironment 1000000000 emptyWorld.store ∨
      CookieCredential basicEnvironment 1000000000 emptyWorld.store ∨
      TokenCredential basicEnvironment 1000000000 emptyWorld.store ∨
      (BasicCredential (sampleOutside fun _ => some 0) basicEnvironment emptyWorld.store ∧
        drawIdentifiers (sampleOutside fun _ => some 0).draws ≠ none) := by
  have hreturns : authenticate (sampleOutside fun _ => some 0) { environment := basicEnvironment }
      {} emptyWorld =
        (.ok (true, { environment := basicEnvironment, userSession := some (basicSession
            (sampleOutside fun _ => some 0) basicEnvironment zeroIdentifiers (bytes "r") false) },
          {}),
        (authenticate (sampleOutside fun _ => some 0) { environment := basicEnvironment } {}
          emptyWorld).2) := rfl
  exact (authenticate_iff hreturns).mp rfl

/-- Without random numbers a client with the right password is refused. -/
theorem authenticate_refuses_password :
    ¬ ∀ (outside : Outside) (env : Environment) (response : Response) (w : World),
      (∃ request' response' w', authenticate outside { environment := env } response w =
        (.ok (true, request', response'), w')) ↔
      Whitelisted env ∨ XTokenCredential env outside.now w.store ∨
        CookieCredential env outside.now w.store ∨ TokenCredential env outside.now w.store ∨
        BasicCredential outside env w.store := by
  intro h
  have hcredential := basicCredential_sample (fun _ => none) emptyWorld.store rfl
  obtain ⟨request', response', w', heq⟩ :=
    (h (sampleOutside fun _ => none) basicEnvironment {} emptyWorld).mpr
      (Or.inr (Or.inr (Or.inr (Or.inr hcredential))))
  have hrefused : authenticate (sampleOutside fun _ => none) { environment := basicEnvironment }
      {} emptyWorld = (.ok (false, { environment := basicEnvironment },
        rejectRequest basicEnvironment {}), emptyWorld) := rfl
  rw [hrefused] at heq
  simp at heq

end Service
end ObmcWebapp
