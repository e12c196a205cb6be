import ObmcWebapp.Core
import ObmcWebapp.Service.ConfigFile

/-!
# Service - Opening and closing sessions

The operations of the session store that also write the files: a new session gets
random identifiers and is stored, an old one is removed, and both files are
committed.

Main results:

- Theorem {lit}`generateUserSession_cases`: everything that opening a session can
  do.
-/

open Library

namespace ObmcWebapp
namespace Service

/-- What a request gets from outside of the program: the clock, random numbers (none
where the generator reports an error), a UUID, the failures of its writes, and the
answers of the base64 decoder and of PAM. -/
structure Outside where
  now : TimePoint
  draws : Nat → Option (Fin 62)
  uuid : Uuid
  loadFaults : Faults
  storeFaults : Faults
  commitFaults : Faults
  evpDecodeBlock : Bytes → DecodedBlock
  pamAuthenticateUser : Bytes → Bytes → Int

/-! ## Random identifiers -/

/-- The characters of which texts are drawn. -/
def alphanum : List UInt8 :=
  bytes "0123456789ABCDEFGHIJKLMNOPQRSTUVWXYZabcdefghijklmnopqrstuvwxyz"

/-- A text of random characters, from some draw on; none at the first error. -/
def drawText (draws : Nat → Option (Fin 62)) : Nat → Nat → Option Bytes
  | _, 0 => some []
  | start, count + 1 =>
      match draws start, drawText draws (start + 1) count with
      | some index, some rest => some (alphanum.getD index 0 :: rest)
      | _, _ => none

/-- The identifiers of a new session. -/
structure Identifiers where
  sessionToken : Bytes
  csrfToken : Bytes
  uniqueId : Bytes

/-- Token, CSRF token and unique identifier are drawn one after the other. -/
def drawIdentifiers (draws : Nat → Option (Fin 62)) : Option Identifiers :=
  match drawText draws 0 sessionTokenSize,
      drawText draws sessionTokenSize sessionTokenSize,
      drawText draws (2 * sessionTokenSize) 10 with
  | some sessionToken, some csrfToken, some uniqueId =>
      some { sessionToken, csrfToken, uniqueId }
  | _, _, _ => none

/-- A drawn text has its length. -/
theorem length_drawText {draws : Nat → Option (Fin 62)} {start count : Nat} {text : Bytes}
    (h : drawText draws start count = some text) : text.length = count := by
  induction count generalizing start text with
  | zero =>
      obtain rfl := Option.some.inj h
      rfl
  | succ count ih =>
      unfold drawText at h
      split at h
      · next index rest hdraw hrest =>
          obtain rfl := Option.some.inj h
          simp [ih hrest]
      · exact absurd h (by simp)

/-- A drawn token has its length. -/
theorem length_sessionToken {draws : Nat → Option (Fin 62)} {ids : Identifiers}
    (h : drawIdentifiers draws = some ids) : ids.sessionToken.length = sessionTokenSize := by
  unfold drawIdentifiers at h
  split at h
  · next token csrf uid htoken hcsrf huid =>
      obtain rfl := Option.some.inj h
      exact length_drawText htoken
  · exact absurd h (by simp)

/-! ## The operations -/

/-- Insert a session under its token and write the files. -/
def storeAuthToken (faults : Faults) (session : UserSession) (w : World) : Outcome UserSession :=
  let store := { w.store with authTokens := w.store.authTokens.emplace session }
  match commit faults { w with store } with
  | (.error failure, w) => (.error failure, w)
  | (.ok (), w) =>
      (.ok ((store.authTokens.find session.sessionToken).getD session), w)

/-- The session that {lit}`generateUserSession` builds. -/
def newSession (ids : Identifiers) (username : Bytes) (persistence : PersistenceType)
    (isConfigureSelfOnly : Bool) (clientId clientIp : Bytes) (storageType : ConfigFileStorageType)
    (now : TimePoint) : UserSession where
  uniqueId := ids.uniqueId
  sessionToken := ids.sessionToken
  username := username
  csrfToken := ids.csrfToken
  clientId := clientId
  clientIp := clientIp
  lastUpdated := now
  persistence := persistence
  cookieAuth := false
  isConfigureSelfOnly := isConfigureSelfOnly
  storageType := storageType

/-- Without random numbers there is no session. -/
def generateUserSession (outside : Outside) (username : Bytes) (persistence : PersistenceType)
    (isConfigureSelfOnly : Bool) (clientId clientIp : Bytes) (storageType : ConfigFileStorageType)
    (w : World) : Outcome (Option UserSession) :=
  match drawIdentifiers outside.draws with
  | none => (.ok none, w)
  | some ids =>
      let session := newSession ids username persistence isConfigureSelfOnly clientId clientIp
        storageType outside.now
      match storeAuthToken outside.storeFaults session w with
      | (.error failure, w) => (.error failure, w)
      | (.ok session, w) => (.ok (some session), w)

/-- {lit}`newBasicAuthSession` -/
def newBasicAuthSession (outside : Outside) (username : Bytes) (isConfigureSelfOnly : Bool)
    (clientIp : Bytes) (w : World) : Outcome (Option UserSession) :=
  generateUserSession outside username .singleRequest isConfigureSelfOnly clientIp clientIp
    .configLongTermStorage w

/-- {lit}`newStandardLoginSession` -/
def newStandardLoginSession (outside : Outside) (username : Bytes) (isConfigureSelfOnly : Bool)
    (clientIp : Bytes) (w : World) : Outcome (Option UserSession) :=
  generateUserSession outside username .timeout isConfigureSelfOnly clientIp clientIp
    .configCurrentBmcSession w

/-- {lit}`removeSession` -/
def removeSession (faults : Faults) (session : UserSession) (w : World) : Outcome Unit :=
  let authTokens := w.store.authTokens.erase session.sessionToken
  commit faults { w with store := { w.store with authTokens } }

/-! ## What opening a session can do -/

/-- The state with a session inserted. -/
def World.emplace (w : World) (session : UserSession) : World :=
  { w with store := w.store.restore session }

/-- Storing a token commits the store, and returns or not. -/
theorem storeAuthToken_cases (faults : Faults) (session : UserSession) (w : World) :
    (storeAuthToken faults session w).2 = (commit faults (w.emplace session)).2 ∧
      ((∃ failure, (storeAuthToken faults session w).1 = .error failure ∧
          (commit faults (w.emplace session)).1 = .error failure) ∨
        ∃ stored, (storeAuthToken faults session w).1 = .ok stored ∧
          (commit faults (w.emplace session)).1 = .ok () ∧
          stored ∈ (w.emplace session).store.authTokens ∧
          stored.sessionToken = session.sessionToken) := by
  unfold storeAuthToken
  have hworld : { w with store := { w.store with
      authTokens := w.store.authTokens.emplace session } } = w.emplace session := rfl
  dsimp only
  rw [hworld]
  rcases hcommit : commit faults (w.emplace session) with ⟨result, w'⟩
  cases result with
  | error failure => exact ⟨rfl, Or.inl ⟨failure, rfl, rfl⟩⟩
  | ok value =>
      refine ⟨rfl, Or.inr ⟨_, rfl, rfl, ?_⟩⟩
      have htaken : (w.emplace session).store.authTokens.Has session.sessionToken :=
        Table.has_emplace_iff.mpr (Or.inr rfl)
      cases hfind : (w.emplace session).store.authTokens.find session.sessionToken with
      | none => exact absurd htaken (Table.find_eq_none_iff.mp hfind)
      | some stored =>
          have hmem := Table.find_eq_some_iff.mp hfind
          have hget : ((w.store.authTokens.emplace session).find session.sessionToken).getD session =
              stored := by
            rw [show w.store.authTokens.emplace session = (w.emplace session).store.authTokens from rfl,
              hfind]
            rfl
          rw [hget]
          exact hmem

/-- Opening a session does nothing for want of random numbers, or inserts it and
commits. -/
theorem generateUserSession_cases (outside : Outside) (username : Bytes)
    (persistence : PersistenceType) (isConfigureSelfOnly : Bool) (clientId clientIp : Bytes)
    (storageType : ConfigFileStorageType) (w : World) :
    (drawIdentifiers outside.draws = none ∧
      generateUserSession outside username persistence isConfigureSelfOnly clientId clientIp
        storageType w = (.ok none, w)) ∨
    ∃ ids session, drawIdentifiers outside.draws = some ids ∧
      session = newSession ids username persistence isConfigureSelfOnly clientId clientIp
        storageType outside.now ∧
      (generateUserSession outside username persistence isConfigureSelfOnly clientId clientIp
        storageType w).2 = (commit outside.storeFaults (w.emplace session)).2 ∧
      ((∃ failure, (generateUserSession outside username persistence isConfigureSelfOnly clientId
          clientIp storageType w).1 = .error failure) ∨
        ∃ stored, (generateUserSession outside username persistence isConfigureSelfOnly clientId
          clientIp storageType w).1 = .ok (some stored) ∧
          (commit outside.storeFaults (w.emplace session)).1 = .ok () ∧
          stored ∈ (w.emplace session).store.authTokens ∧
          stored.sessionToken = session.sessionToken) := by
  unfold generateUserSession
  cases hdraw : drawIdentifiers outside.draws with
  | none => exact Or.inl ⟨rfl, rfl⟩
  | some ids =>
      refine Or.inr ⟨ids, _, rfl, rfl, ?_⟩
      dsimp only
      generalize newSession ids username persistence isConfigureSelfOnly clientId clientIp
        storageType outside.now = session
      obtain ⟨hworld, hcases⟩ := storeAuthToken_cases outside.storeFaults session w
      rcases hstore : storeAuthToken outside.storeFaults session w with ⟨result, w'⟩
      rw [hstore] at hworld hcases
      cases result with
      | error failure => exact ⟨hworld, Or.inl ⟨failure, rfl⟩⟩
      | ok stored =>
          refine ⟨hworld, Or.inr ⟨stored, rfl, ?_⟩⟩
          rcases hcases with ⟨failure, hfail, -⟩ | ⟨stored', hstored, hok, hmem⟩
          · exact absurd hfail (by simp)
          · obtain rfl := Except.ok.inj hstored
            exact ⟨hok, hmem⟩

end Service
end ObmcWebapp
