import Mathlib.Data.Int.Basic
import ObmcWebapp.Json
import ObmcWebapp.Library.Table

/-!
# Service - User sessions and the session store

The session record with its reader, the authentication-method flags and the
in-memory session store.  The store's key is the session's own token, as at every
insertion of the program.  One request reads the clock once; times are steady
nanoseconds.

Main results:

- Theorem {lit}`fromJson_eq_some`: which sessions a persisted record restores.
- Theorem {lit}`SessionStore.mem_applySessionTimeouts_iff`: the sessions that a
  sweep keeps.
- Theorem {lit}`SessionStore.loginSessionByToken_cases`: everything a login can do.
-/

open Library

namespace ObmcWebapp
namespace Service

/-! ## Sessions -/

/-- A point of the steady clock, in nanoseconds. -/
abbrev TimePoint := Int

/-- The length of a session token. -/
def sessionTokenSize : Nat := 20

/-- How long a session lives. -/
inductive PersistenceType
  | timeout
  | singleRequest
deriving DecidableEq

/-- The storages of user sessions. -/
inductive ConfigFileStorageType
  | configLongTermStorage
  | configCurrentBmcSession
  | configCurrentServiceSession
deriving DecidableEq

/-- {lit}`UserSession` -/
structure UserSession where
  uniqueId : Bytes := []
  sessionToken : Bytes := []
  username : Bytes := []
  csrfToken : Bytes := []
  clientId : Bytes := []
  clientIp : Bytes := []
  lastUpdated : TimePoint := 0
  persistence : PersistenceType := .timeout
  cookieAuth : Bool := false
  isConfigureSelfOnly : Bool := false
  storageType : ConfigFileStorageType := .configCurrentServiceSession
  obmcSessionId : Bytes := []
deriving DecidableEq

namespace UserSession

/-- One property of a persisted session; what is not a string or not known is
skipped. -/
def readProperty (session : UserSession) (element : Bytes × Json) : UserSession :=
  match element.2.getString with
  | none => session
  | some thisValue =>
      if element.1 = bytes "unique_id" then { session with uniqueId := thisValue }
      else if element.1 = bytes "session_token" then { session with sessionToken := thisValue }
      else if element.1 = bytes "csrf_token" then { session with csrfToken := thisValue }
      else if element.1 = bytes "username" then { session with username := thisValue }
      else if element.1 = bytes "client_ip" then { session with clientIp := thisValue }
      else session

/-- The four properties without which a session is not restored. -/
def Complete (session : UserSession) : Prop :=
  session.uniqueId ≠ [] ∧ session.username ≠ [] ∧ session.sessionToken ≠ [] ∧
    session.csrfToken ≠ []

instance (session : UserSession) : Decidable session.Complete :=
  inferInstanceAs (Decidable (_ ∧ _))

/-- {lit}`UserSession::fromJson`; the idle timer of a restored session starts anew. -/
def fromJson (now : TimePoint) (j : Json) : Option UserSession :=
  let userSession := j.items.foldl readProperty {}
  if userSession.Complete then
    some { userSession with lastUpdated := now, persistence := .timeout }
  else
    none

/-- The record that {lit}`populateSessions` writes for a session. -/
def toJson (session : UserSession) : Json :=
  Json.ofMembers [
    (bytes "unique_id", .string session.uniqueId),
    (bytes "session_token", .string session.sessionToken),
    (bytes "username", .string session.username),
    (bytes "csrf_token", .string session.csrfToken),
    (bytes "client_ip", .string session.clientIp)]

/-- What is left of a session that was written and read back. -/
def restored (session : UserSession) (now : TimePoint) (storageType : ConfigFileStorageType) :
    UserSession where
  uniqueId := session.uniqueId
  sessionToken := session.sessionToken
  username := session.username
  csrfToken := session.csrfToken
  clientIp := session.clientIp
  lastUpdated := now
  storageType := storageType

/-- A session without anything that a file does not keep. -/
def Plain (session : UserSession) : Prop :=
  session = session.restored session.lastUpdated session.storageType

instance (session : UserSession) : Decidable session.Plain :=
  inferInstanceAs (Decidable (_ = _))

/-- All strings of a session that are persisted are valid UTF-8. -/
structure Utf8Valid (session : UserSession) : Prop where
  uniqueId : Utf8.Valid session.uniqueId
  sessionToken : Utf8.Valid session.sessionToken
  username : Utf8.Valid session.username
  csrfToken : Utf8.Valid session.csrfToken
  clientIp : Utf8.Valid session.clientIp

/-- The session after its last use is set to a time. -/
def touch (session : UserSession) (now : TimePoint) : UserSession :=
  { session with lastUpdated := now }

/-- The written record has its members in the order of their names. -/
theorem toJson_eq (session : UserSession) :
    session.toJson = .object [
      (bytes "client_ip", .string session.clientIp),
      (bytes "csrf_token", .string session.csrfToken),
      (bytes "session_token", .string session.sessionToken),
      (bytes "unique_id", .string session.uniqueId),
      (bytes "username", .string session.username)] := rfl

/-- A session that is read is complete and starts anew. -/
theorem fromJson_eq_some {now : TimePoint} {j : Json} {session : UserSession}
    (h : fromJson now j = some session) :
    session.Complete ∧ session.lastUpdated = now ∧ session.persistence = .timeout := by
  unfold fromJson at h
  dsimp only at h
  split at h
  · next hcomplete =>
      obtain rfl := Option.some.inj h
      exact ⟨hcomplete, rfl, rfl⟩
  · exact absurd h (by simp)

/-- Writing a complete session and reading it back. -/
theorem fromJson_toJson (session : UserSession) (now : TimePoint) :
    fromJson now session.toJson =
      if session.Complete then
        some (session.restored now .configCurrentServiceSession)
      else none := by
  rw [toJson_eq]
  rfl

/-- A session whose strings are valid UTF-8 can be written. -/
theorem utf8Valid_toJson {session : UserSession} (hvalid : session.Utf8Valid) :
    session.toJson.utf8Valid = true := by
  rw [toJson_eq, Json.utf8Valid_object]
  simp only [List.mem_cons, List.not_mem_nil, or_false, forall_eq_or_imp, forall_eq,
    Json.utf8Valid_string]
  exact ⟨⟨rfl, hvalid.clientIp⟩, ⟨rfl, hvalid.csrfToken⟩, ⟨rfl, hvalid.sessionToken⟩,
    ⟨rfl, hvalid.uniqueId⟩, ⟨rfl, hvalid.username⟩⟩

/-- A property of valid UTF-8 keeps a session's strings so. -/
theorem utf8Valid_readProperty {session : UserSession} (hsession : session.Utf8Valid)
    {element : Bytes × Json} (hvalue : element.2.utf8Valid = true) :
    (session.readProperty element).Utf8Valid := by
  unfold readProperty
  cases hget : element.2.getString with
  | none => exact hsession
  | some thisValue =>
      have hthis := Json.utf8Valid_of_getString hvalue hget
      dsimp only
      split_ifs
      · exact { hsession with uniqueId := hthis }
      · exact { hsession with sessionToken := hthis }
      · exact { hsession with csrfToken := hthis }
      · exact { hsession with username := hthis }
      · exact { hsession with clientIp := hthis }
      · exact hsession

theorem utf8Valid_foldl_readProperty {session : UserSession} (hsession : session.Utf8Valid)
    {elements : List (Bytes × Json)}
    (helements : ∀ element ∈ elements, element.2.utf8Valid = true) :
    (elements.foldl readProperty session).Utf8Valid := by
  induction elements generalizing session with
  | nil => exact hsession
  | cons element rest ih =>
      rw [List.forall_mem_cons] at helements
      exact ih (utf8Valid_readProperty hsession helements.1) helements.2

/-- A property that is read back adds nothing that a file does not keep. -/
theorem plain_readProperty {session : UserSession} (hplain : session.Plain)
    (element : Bytes × Json) : (session.readProperty element).Plain := by
  unfold readProperty
  cases element.2.getString with
  | none => exact hplain
  | some thisValue =>
      unfold Plain at *
      dsimp only
      split_ifs <;> rw [hplain] <;> rfl

theorem plain_foldl_readProperty {session : UserSession} (hplain : session.Plain)
    (elements : List (Bytes × Json)) : (elements.foldl readProperty session).Plain := by
  induction elements generalizing session with
  | nil => exact hplain
  | cons element rest ih => exact ih (plain_readProperty hplain element)

/-- A restored session holds what its record says and nothing else. -/
theorem plain_of_fromJson {now : TimePoint} {j : Json} {session : UserSession}
    (h : fromJson now j = some session) : session.Plain := by
  have hblank : ({} : UserSession).Plain := by decide
  have hread := plain_foldl_readProperty hblank j.items
  unfold fromJson at h
  dsimp only at h
  split at h
  · obtain rfl := Option.some.inj h
    unfold Plain at *
    rw [hread]
    rfl
  · exact absurd h (by simp)

/-- A session restored from a parsed text can be written again. -/
theorem utf8Valid_of_fromJson {now : TimePoint} {j : Json} (hj : j.utf8Valid = true)
    {session : UserSession} (h : fromJson now j = some session) : session.Utf8Valid := by
  have hblank : ({} : UserSession).Utf8Valid := ⟨rfl, rfl, rfl, rfl, rfl⟩
  have hread := utf8Valid_foldl_readProperty hblank fun _ => Json.utf8Valid_of_mem_items hj
  unfold fromJson at h
  dsimp only at h
  split at h
  · obtain rfl := Option.some.inj h
    exact ⟨hread.uniqueId, hread.sessionToken, hread.username, hread.csrfToken, hread.clientIp⟩
  · exact absurd h (by simp)

end UserSession

/-! ## Authentication methods -/

/-- {lit}`AuthConfigMethods` -/
structure AuthConfigMethods where
  xtoken : Bool := true
  cookie : Bool := true
  sessionToken : Bool := true
  basic : Bool := true
  tls : Bool := false
deriving DecidableEq

namespace AuthConfigMethods

/-- One flag; what is not a boolean or not known is skipped. -/
def readMethod (config : AuthConfigMethods) (element : Bytes × Json) : AuthConfigMethods :=
  match element.2.getBoolean with
  | none => config
  | some value =>
      if element.1 = bytes "XToken" then { config with xtoken := value }
      else if element.1 = bytes "Cookie" then { config with cookie := value }
      else if element.1 = bytes "SessionToken" then { config with sessionToken := value }
      else if element.1 = bytes "BasicAuth" then { config with basic := value }
      else if element.1 = bytes "TLS" then { config with tls := value }
      else config

/-- {lit}`AuthConfigMethods::fromJson` -/
def fromJson (config : AuthConfigMethods) (j : Json) : AuthConfigMethods :=
  j.items.foldl readMethod config

/-- The record that is written for the flags. -/
def toJson (config : AuthConfigMethods) : Json :=
  Json.ofMembers [
    (bytes "XToken", .boolean config.xtoken),
    (bytes "Cookie", .boolean config.cookie),
    (bytes "SessionToken", .boolean config.sessionToken),
    (bytes "BasicAuth", .boolean config.basic),
    (bytes "TLS", .boolean config.tls)]

/-- The record of the flags can always be written. -/
theorem utf8Valid_toJson (config : AuthConfigMethods) : config.toJson.utf8Valid = true := rfl

/-- Reading written flags sets all of them, whatever they were. -/
theorem fromJson_toJson (current config : AuthConfigMethods) :
    current.fromJson config.toJson = config := by
  rfl

end AuthConfigMethods

/-! ## The session store -/

/-- {lit}`AuthTokenDict`: the sessions by their token. -/
abbrev AuthTokenDict := Table UserSession.sessionToken

/-- {lit}`SessionStore` -/
structure SessionStore where
  lastTimeoutUpdate : TimePoint := 0
  timeoutInSeconds : Int64 := 3600
  authMethodsConfig : AuthConfigMethods := {}
  authTokens : AuthTokenDict := Table.empty

/-- The ticks of the steady clock in a second. -/
def nanosPerSecond : Int := 1000000000

/-- The conversion of a duration in seconds to the clock's 64-bit nanoseconds. -/
def secondsToNanos (seconds : Int64) : Int :=
  (seconds * 1000000000).toInt

namespace SessionStore

/-- {lit}`getTimeoutInSeconds` -/
def getTimeoutInSeconds (store : SessionStore) : Int64 :=
  store.timeoutInSeconds

/-- {lit}`updateSessionTimeout` -/
def updateSessionTimeout (store : SessionStore) (newTimeoutInSeconds : Int64) : SessionStore :=
  { store with timeoutInSeconds := newTimeoutInSeconds }

/-- No service is reconnected when the TLS flag changes; it is not supported. -/
def updateAuthMethodsConfig (store : SessionStore) (config : AuthConfigMethods) : SessionStore :=
  { store with authMethodsConfig := config }

/-- A session that was read goes into memory unless its token is already there. -/
def restore (store : SessionStore) (session : UserSession) : SessionStore :=
  { store with authTokens := store.authTokens.emplace session }

/-- More than a second has passed since the last effective sweep. -/
def SweepDue (store : SessionStore) (now : TimePoint) : Prop :=
  now - store.lastTimeoutUpdate > nanosPerSecond

instance (store : SessionStore) (now : TimePoint) : Decidable (store.SweepDue now) :=
  inferInstanceAs (Decidable (_ > _))

/-- The comparison that a sweep makes for one session. -/
def Expired (store : SessionStore) (now : TimePoint) (session : UserSession) : Prop :=
  now - session.lastUpdated ≥ secondsToNanos store.timeoutInSeconds

instance (store : SessionStore) (now : TimePoint) (session : UserSession) :
    Decidable (store.Expired now session) :=
  inferInstanceAs (Decidable (_ ≥ _))

/-- {lit}`applySessionTimeouts` -/
def applySessionTimeouts (store : SessionStore) (now : TimePoint) : SessionStore :=
  if store.SweepDue now then
    { store with
      lastTimeoutUpdate := now
      authTokens := store.authTokens.filter fun session => ¬ store.Expired now session }
  else
    store

/-- The store after the session under a token was used. -/
def touch (store : SessionStore) (now : TimePoint) (token : Bytes) : SessionStore :=
  { store with authTokens := store.authTokens.modify token (·.touch now) fun _ => rfl }

/-- The session found gets the current time; the store holds the same object. -/
def loginSessionByToken (store : SessionStore) (now : TimePoint) (token : Bytes) :
    Option UserSession × SessionStore :=
  let store := store.applySessionTimeouts now
  if token.length ≠ sessionTokenSize then
    (none, store)
  else
    match store.authTokens.find token with
    | none => (none, store)
    | some session => (some (session.touch now), store.touch now token)

/-- {lit}`getSessionByUid` -/
def getSessionByUid (store : SessionStore) (now : TimePoint) (uid : Bytes) :
    Option UserSession × SessionStore :=
  let store := store.applySessionTimeouts now
  (store.authTokens.rows.find? fun session => session.uniqueId = uid, store)

/-- {lit}`getUniqueIds` -/
def getUniqueIds (store : SessionStore) (now : TimePoint) (getAll : Bool)
    (type : PersistenceType) : List Bytes × SessionStore :=
  let store := store.applySessionTimeouts now
  ((store.authTokens.rows.filter fun session => getAll || type = session.persistence).map
    UserSession.uniqueId, store)

/-! ### What each operation leaves -/

/-- The sessions that a sweep leaves. -/
theorem mem_applySessionTimeouts_iff {store : SessionStore} {now : TimePoint}
    {session : UserSession} :
    session ∈ (store.applySessionTimeouts now).authTokens ↔
      session ∈ store.authTokens ∧ (store.SweepDue now → ¬ store.Expired now session) := by
  unfold applySessionTimeouts
  split
  · next hdue => simp [hdue]
  · next hdue => simp [hdue]

/-- A sweep keeps the timeout. -/
@[simp]
theorem applySessionTimeouts_timeout (store : SessionStore) (now : TimePoint) :
    (store.applySessionTimeouts now).timeoutInSeconds = store.timeoutInSeconds := by
  unfold applySessionTimeouts
  split <;> rfl

/-- A sweep keeps the flags. -/
@[simp]
theorem applySessionTimeouts_config (store : SessionStore) (now : TimePoint) :
    (store.applySessionTimeouts now).authMethodsConfig = store.authMethodsConfig := by
  unfold applySessionTimeouts
  split <;> rfl

/-- A token that a login accepts: of the right size, and naming a session that the
sweep keeps. -/
def Accepts (store : SessionStore) (now : TimePoint) (token : Bytes) : Prop :=
  token.length = sessionTokenSize ∧ (store.applySessionTimeouts now).authTokens.Has token

/-- Everything a login can do. -/
theorem loginSessionByToken_cases (store : SessionStore) (now : TimePoint) (token : Bytes) :
    (¬ store.Accepts now token ∧
      store.loginSessionByToken now token = (none, store.applySessionTimeouts now)) ∨
    ∃ session ∈ (store.applySessionTimeouts now).authTokens,
      session.sessionToken = token ∧ token.length = sessionTokenSize ∧
      store.loginSessionByToken now token =
        (some (session.touch now), (store.applySessionTimeouts now).touch now token) := by
  unfold loginSessionByToken
  dsimp only
  by_cases hsize : token.length = sessionTokenSize
  · rw [if_neg (not_not.mpr hsize)]
    cases hfind : (store.applySessionTimeouts now).authTokens.find token with
    | none =>
        have hmiss := Table.find_eq_none_iff.mp hfind
        exact Or.inl ⟨fun haccepts => hmiss haccepts.2, rfl⟩
    | some session =>
        have hmem := Table.find_eq_some_iff.mp hfind
        exact Or.inr ⟨session, hmem.1, hmem.2, hsize, rfl⟩
  · rw [if_pos hsize]
    exact Or.inl ⟨fun haccepts => hsize haccepts.1, rfl⟩

/-! ### Logins at one time -/

/-- No sweep is due right after one. -/
theorem not_sweepDue_applySessionTimeouts (store : SessionStore) (now : TimePoint) :
    ¬ (store.applySessionTimeouts now).SweepDue now := by
  by_cases hdue : store.SweepDue now
  · have hlast : (store.applySessionTimeouts now).lastTimeoutUpdate = now := by
      rw [applySessionTimeouts, if_pos hdue]
    simp [SweepDue, hlast, nanosPerSecond]
  · rw [applySessionTimeouts, if_neg hdue]
    exact hdue

/-- The sessions after one of them was used. -/
theorem mem_touch_iff {store : SessionStore} {now : TimePoint} {token : Bytes}
    {session : UserSession} :
    session ∈ (store.touch now token).authTokens ↔
      (session ∈ store.authTokens ∧ session.sessionToken ≠ token) ∨
        ∃ old ∈ store.authTokens, old.sessionToken = token ∧ session = old.touch now := by
  have hkey : ∀ session : UserSession, (session.touch now).sessionToken = session.sessionToken :=
    fun _ => rfl
  exact Table.mem_modify_iff hkey

/-- A use keeps the tokens. -/
theorem has_touch_iff {store : SessionStore} {now : TimePoint} {token other : Bytes} :
    (store.touch now token).authTokens.Has other ↔ store.authTokens.Has other := by
  have hkey : ∀ session : UserSession, (session.touch now).sessionToken = session.sessionToken :=
    fun _ => rfl
  exact Table.has_modify_iff hkey

/-- The store after the sessions under some tokens were used. -/
def touchAll (store : SessionStore) (now : TimePoint) (tokens : List Bytes) : SessionStore :=
  tokens.foldl (fun store token => store.touch now token) store

/-- The last use comes last. -/
theorem touchAll_append (store : SessionStore) (now : TimePoint) (tokens : List Bytes)
    (token : Bytes) :
    store.touchAll now (tokens ++ [token]) = (store.touchAll now tokens).touch now token :=
  List.foldl_append

/-- Using sessions changes nothing but the sessions. -/
theorem touchAll_eq (store : SessionStore) (now : TimePoint) (tokens : List Bytes) :
    store.touchAll now tokens =
      { store with authTokens := (store.touchAll now tokens).authTokens } := by
  induction tokens generalizing store with
  | nil => rfl
  | cons token rest ih => exact ih (store.touch now token)

/-- A session after several uses was there before, used or not. -/
theorem mem_touchAll {store : SessionStore} {now : TimePoint} {tokens : List Bytes}
    {session : UserSession} (hmem : session ∈ (store.touchAll now tokens).authTokens) :
    (session ∈ store.authTokens ∧ session.sessionToken ∉ tokens) ∨
      ∃ old ∈ store.authTokens, old.sessionToken ∈ tokens ∧ session = old.touch now := by
  induction tokens generalizing store with
  | nil => exact Or.inl ⟨hmem, List.not_mem_nil⟩
  | cons token rest ih =>
      rcases ih hmem with ⟨hmid, hrest⟩ | ⟨mid, hmid, hrest, rfl⟩
      · rcases mem_touch_iff.mp hmid with ⟨hold, hne⟩ | ⟨old, hold, htoken, rfl⟩
        · exact Or.inl ⟨hold, by simp [hne, hrest]⟩
        · exact Or.inr ⟨old, hold, by simp [htoken], rfl⟩
      · rcases mem_touch_iff.mp hmid with ⟨hold, -⟩ | ⟨old, hold, htoken, rfl⟩
        · exact Or.inr ⟨mid, hold, List.mem_cons_of_mem _ hrest, rfl⟩
        · exact Or.inr ⟨old, hold, by simp [htoken], rfl⟩

/-- Several uses keep the tokens. -/
theorem has_touchAll_iff {store : SessionStore} {now : TimePoint} {tokens : List Bytes}
    {token : Bytes} :
    (store.touchAll now tokens).authTokens.Has token ↔ store.authTokens.Has token := by
  induction tokens generalizing store with
  | nil => rfl
  | cons other rest ih => exact ih.trans has_touch_iff

/-- No sweep is effective after a sweep and several uses at the same time. -/
theorem touchAll_applySessionTimeouts (store : SessionStore) (now : TimePoint)
    (tokens : List Bytes) :
    ((store.applySessionTimeouts now).touchAll now tokens).applySessionTimeouts now =
      (store.applySessionTimeouts now).touchAll now tokens := by
  have hdue : ¬ ((store.applySessionTimeouts now).touchAll now tokens).SweepDue now := by
    rw [touchAll_eq]
    exact not_sweepDue_applySessionTimeouts store now
  exact if_neg hdue

/-- The store after some logins at one time: as it was, or swept with the sessions
of the accepted tokens used. -/
def Probed (now : TimePoint) (store : SessionStore) (tokens : List Bytes) (store' : SessionStore) :
    Prop :=
  (tokens = [] ∧ store' = store) ∨
    ((∀ token ∈ tokens, store.Accepts now token) ∧
      store' = (store.applySessionTimeouts now).touchAll now tokens)

/-- Looking nothing up is a probe. -/
theorem Probed.refl (now : TimePoint) (store : SessionStore) : Probed now store [] store :=
  Or.inl ⟨rfl, rfl⟩

/-- A probe keeps the flags. -/
theorem Probed.config {now : TimePoint} {store store' : SessionStore} {tokens : List Bytes}
    (h : Probed now store tokens store') : store'.authMethodsConfig = store.authMethodsConfig := by
  rcases h with ⟨-, rfl⟩ | ⟨-, rfl⟩
  · rfl
  · rw [touchAll_eq]
    exact applySessionTimeouts_config store now

/-- A probe keeps the timeout. -/
theorem Probed.timeout {now : TimePoint} {store store' : SessionStore} {tokens : List Bytes}
    (h : Probed now store tokens store') : store'.timeoutInSeconds = store.timeoutInSeconds := by
  rcases h with ⟨-, rfl⟩ | ⟨-, rfl⟩
  · rfl
  · rw [touchAll_eq]
    exact applySessionTimeouts_timeout store now

/-- A sweep after some logins at the same time. -/
theorem Probed.swept {now : TimePoint} {store store' : SessionStore} {tokens : List Bytes}
    (h : Probed now store tokens store') :
    store'.applySessionTimeouts now = (store.applySessionTimeouts now).touchAll now tokens := by
  rcases h with ⟨rfl, rfl⟩ | ⟨-, rfl⟩
  · rfl
  · exact touchAll_applySessionTimeouts store now tokens

/-- The sessions left are old ones, some of them now used last. -/
theorem Probed.mem {now : TimePoint} {store store' : SessionStore} {tokens : List Bytes}
    (h : Probed now store tokens store') {session : UserSession}
    (hmem : session ∈ store'.authTokens) :
    ∃ old ∈ store.authTokens, session = old ∨ session = old.touch now := by
  rcases h with ⟨-, rfl⟩ | ⟨-, rfl⟩
  · exact ⟨session, hmem, Or.inl rfl⟩
  · rcases mem_touchAll hmem with ⟨hold, -⟩ | ⟨old, hold, -, rfl⟩
    · exact ⟨session, (mem_applySessionTimeouts_iff.mp hold).1, Or.inl rfl⟩
    · exact ⟨old, (mem_applySessionTimeouts_iff.mp hold).1, Or.inr rfl⟩

/-- A probe adds no token. -/
theorem Probed.has {now : TimePoint} {store store' : SessionStore} {tokens : List Bytes}
    (h : Probed now store tokens store') {token : Bytes} (hhas : store'.authTokens.Has token) :
    store.authTokens.Has token := by
  obtain ⟨session, hmem, rfl⟩ := hhas
  obtain ⟨old, hold, hcases⟩ := h.mem hmem
  rcases hcases with rfl | rfl
  · exact Table.has_of_mem hold
  · exact ⟨old, hold, rfl⟩

/-- One more login at the same time is judged by the store before the first. -/
theorem Probed.login {now : TimePoint} {store store' : SessionStore} {tokens : List Bytes}
    (h : Probed now store tokens store') (token : Bytes) :
    (¬ store.Accepts now token ∧ ∃ next, store'.loginSessionByToken now token = (none, next) ∧
      Probed now store tokens next) ∨
    ∃ session ∈ (store.applySessionTimeouts now).authTokens, ∃ next,
      session.sessionToken = token ∧ store.Accepts now token ∧
      store'.loginSessionByToken now token = (some (session.touch now), next) ∧
      Probed now store (tokens ++ [token]) next := by
  have haccepted : ∀ t ∈ tokens, store.Accepts now t := by
    rcases h with ⟨rfl, -⟩ | ⟨hall, -⟩
    · exact fun t ht => absurd ht List.not_mem_nil
    · exact hall
  have hswept := h.swept
  rcases loginSessionByToken_cases store' now token with
    ⟨hnot, heq⟩ | ⟨found, hfound, htoken, hsize, heq⟩
  · refine Or.inl ⟨fun haccepts => hnot ⟨haccepts.1, ?_⟩, _, heq, Or.inr ⟨haccepted, hswept⟩⟩
    rw [hswept]
    exact has_touchAll_iff.mpr haccepts.2
  · rw [hswept] at hfound
    have hhas : (store.applySessionTimeouts now).authTokens.Has token :=
      has_touchAll_iff.mp ⟨found, hfound, htoken⟩
    have htouch : ∃ session ∈ (store.applySessionTimeouts now).authTokens,
        session.sessionToken = token ∧ found.touch now = session.touch now := by
      rcases mem_touchAll hfound with ⟨hold, -⟩ | ⟨old, hold, -, rfl⟩
      · exact ⟨found, hold, htoken, rfl⟩
      · exact ⟨old, hold, htoken, rfl⟩
    obtain ⟨session, hsession, hname, hsame⟩ := htouch
    refine Or.inr ⟨session, hsession, _, hname, ⟨hsize, hhas⟩, hsame ▸ heq, Or.inr ⟨?_, ?_⟩⟩
    · intro t ht
      rcases List.mem_append.mp ht with ht | ht
      · exact haccepted t ht
      · rw [List.mem_singleton.mp ht]
        exact ⟨hsize, hhas⟩
    · rw [hswept, touchAll_append]

end SessionStore
end Service
end ObmcWebapp
