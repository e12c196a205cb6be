import ObmcWebapp.Library.Runs
import ObmcWebapp.Service.Authorization
import ObmcWebapp.Service.Persistence

/-!
# Service - Requests of one process

A request loads both files, is authenticated, and then its handler runs.  Loading
and authenticating are summed up in one lemma each; what holds over a run of
requests is derived from these.

Main results:

- Theorem {lit}`readData_loaded`: everything a load does to memory and files.
- Theorem {lit}`authenticate_cases`: everything that authenticating a request can
  do.
- Theorem {lit}`requests_keep_no_singleRequest`: as long as no request is let
  through for its user and password, no session for a single request is in memory.
-/

open Library

namespace ObmcWebapp
namespace Service

/-! ## The tokens of a file -/

/-- A well-formed session of the file has the token. -/
def FileContent.Holds (content : FileContent) (token : Bytes) : Prop :=
  ∃ session ∈ content.sessions .configCurrentServiceSession 0, session.sessionToken = token

instance (content : FileContent) (token : Bytes) : Decidable (content.Holds token) :=
  inferInstanceAs (Decidable (∃ session ∈ content.sessions .configCurrentServiceSession 0, _))

/-- The time of the load goes into the use of a session only. -/
theorem UserSession.fromJson_eq_map (now now' : TimePoint) (j : Json) :
    UserSession.fromJson now j =
      (UserSession.fromJson now' j).map fun session => { session with lastUpdated := now } := by
  unfold UserSession.fromJson
  dsimp only
  split <;> rfl

/-- The time and the storage go into the session of an element as they are. -/
theorem elementSession_eq_map (t t' : ConfigFileStorageType) (now now' : TimePoint) (elem : Json) :
    elementSession t now elem = (elementSession t' now' elem).map fun session =>
      { session with lastUpdated := now, storageType := t } := by
  unfold elementSession
  rw [UserSession.fromJson_eq_map now now', Option.map_map, Option.map_map]
  rfl

/-- Reading a file at another time or for another storage changes nothing else. -/
theorem FileContent.sessions_eq_map (content : FileContent) (t t' : ConfigFileStorageType)
    (now now' : TimePoint) :
    content.sessions t now = (content.sessions t' now').map fun session =>
      { session with lastUpdated := now, storageType := t } := by
  cases content with
  | missing => rfl
  | unparsable => rfl
  | parsed json valid =>
      have hitem : ∀ item, itemSessions t now item = (itemSessions t' now' item).map fun session =>
          { session with lastUpdated := now, storageType := t } := by
        intro item
        unfold itemSessions
        split
        · rw [List.map_filterMap]
          exact List.filterMap_congr fun elem _ => elementSession_eq_map t t' now now' elem
        · rfl
      simp only [FileContent.sessions, List.map_flatMap]
      exact List.flatMap_congr fun item _ => hitem item

/-- Whether a file holds a token does not depend on the time and the storage. -/
theorem FileContent.holds_iff {content : FileContent} (t : ConfigFileStorageType)
    (now : TimePoint) {token : Bytes} :
    content.Holds token ↔ ∃ session ∈ content.sessions t now, session.sessionToken = token := by
  unfold FileContent.Holds
  rw [content.sessions_eq_map t .configCurrentServiceSession now 0]
  simp

/-- A written file has the tokens of persisted sessions. -/
theorem has_of_holds_written {w : World} {t : ConfigFileStorageType}
    (hfile : t ∈ configFilePathDict) {hvalid : (fileData w t).utf8Valid = true} {token : Bytes}
    (h : (FileContent.parsed (fileData w t) hvalid).Holds token) :
    ∃ session ∈ w.store.authTokens, session.Persisted t ∧ session.sessionToken = token := by
  obtain ⟨session, hmem, rfl⟩ := (FileContent.holds_iff t 0).mp h
  rw [sessions_written hfile] at hmem
  obtain ⟨stored, hstored, hread⟩ := List.mem_filterMap.mp hmem
  obtain ⟨hrow, hpersisted⟩ := List.mem_filter.mp hstored
  refine ⟨stored, hrow, of_decide_eq_true hpersisted, ?_⟩
  unfold rereadSession at hread
  split at hread
  · obtain rfl := Option.some.inj hread
    rfl
  · exact absurd hread (by simp)

/-- Whatever fails in a commit, it writes no token that is not in memory. -/
theorem holds_commit {faults : Faults} {w : World} {t : ConfigFileStorageType} {token : Bytes}
    (h : ((commit faults w).2.disk t).Holds token) :
    (w.disk t).Holds token ∨ w.store.authTokens.Has token := by
  by_cases hfile : t ∈ configFilePathDict
  · rcases commit_file faults w hfile with (hold | ⟨hvalid, hnew⟩) | ⟨hdamaged, -⟩
    · exact Or.inl (hold ▸ h)
    · rw [hnew] at h
      obtain ⟨session, hmem, -, rfl⟩ := has_of_holds_written hfile h
      exact Or.inr (Table.has_of_mem hmem)
    · rw [hdamaged] at h
      obtain ⟨session, hmem, -⟩ := h
      exact absurd hmem List.not_mem_nil
  · have hsame : (commit faults w).2.disk t = w.disk t :=
      (writeFiles_spec faults (by decide) w).2.2.1 t hfile
    exact Or.inl (hsame ▸ h)

/-- A commit without failures leaves only tokens that are in memory. -/
theorem has_of_holds_commit {faults : Faults} {w : World} (hok : Completes faults w)
    {t : ConfigFileStorageType} (hfile : t ∈ configFilePathDict) {token : Bytes}
    (h : ((commit faults w).2.disk t).Holds token) : w.store.authTokens.Has token := by
  obtain ⟨hvalid, hnew⟩ := (commit_completes hok).2 t hfile
  rw [hnew] at h
  obtain ⟨session, hmem, -, rfl⟩ := has_of_holds_written hfile h
  exact Table.has_of_mem hmem

/-- One commit, or two of which the first raised nothing. -/
theorem of_commits {faults faults' : Faults} {w w' : World}
    (h : w' = (commit faults w).2 ∨ w' = (commit faults' (commit faults w).2).2) :
    w'.store = w.store ∧ w'.systemUuid = w.systemUuid ∧
      (∀ t token, (w'.disk t).Holds token →
        (w.disk t).Holds token ∨ w.store.authTokens.Has token) ∧
      (Completes faults w → ∀ t ∈ configFilePathDict, ∀ token, (w'.disk t).Holds token →
        w.store.authTokens.Has token) := by
  have hstore := commit_store faults w
  rcases h with rfl | rfl
  · exact ⟨hstore, commit_systemUuid _ _, fun _ _ => holds_commit, fun hok _ hfile _ =>
      has_of_holds_commit hok hfile⟩
  · refine ⟨(commit_store _ _).trans hstore, ?_, fun t token hheld => ?_,
      fun hok t hfile token hheld => ?_⟩
    · rw [commit_systemUuid, commit_systemUuid]
    · rcases holds_commit hheld with hmid | hhas
      · exact holds_commit hmid
      · exact Or.inr (hstore ▸ hhas)
    · rcases holds_commit hheld with hmid | hhas
      · exact has_of_holds_commit hok hfile hmid
      · exact hstore ▸ hhas

/-! ## What a load does -/

/-- Everything a load does, whether or not an exception leaves it: it keeps the
sessions in memory, it inserts sessions that the files hold under tokens new to
memory, and it writes no token that is not in memory. -/
structure Loaded (now : TimePoint) (w w' : World) : Prop where
  kept : ∀ session ∈ w.store.authTokens, session ∈ w'.store.authTokens
  new : ∀ session ∈ w'.store.authTokens, session ∈ w.store.authTokens ∨
    (¬ w.store.authTokens.Has session.sessionToken ∧
      ∃ t ∈ configFilePathDict, session.FromFile t now ∧ (w.disk t).Holds session.sessionToken)
  files : ∀ t token, (w'.disk t).Holds token →
    (w.disk t).Holds token ∨ w'.store.authTokens.Has token
  lastTimeoutUpdate : w'.store.lastTimeoutUpdate = w.store.lastTimeoutUpdate
  systemUuid : Utf8.Valid w.systemUuid → Utf8.Valid w'.systemUuid

namespace Loaded

variable {now : TimePoint} {w w' w'' : World}

/-- Reading nothing is a load. -/
theorem refl (now : TimePoint) (w : World) : Loaded now w w where
  kept _ hmem := hmem
  new _ hmem := Or.inl hmem
  files _ _ h := Or.inl h
  lastTimeoutUpdate := rfl
  systemUuid h := h

/-- A load keeps the tokens that are in memory. -/
theorem has (h : Loaded now w w') {token : Bytes} (hhas : w.store.authTokens.Has token) :
    w'.store.authTokens.Has token := by
  obtain ⟨session, hmem, rfl⟩ := hhas
  exact Table.has_of_mem (h.kept session hmem)

/-- Two loads one after another are a load. -/
theorem trans (h : Loaded now w w') (h' : Loaded now w' w'') : Loaded now w w'' where
  kept session hmem := h'.kept session (h.kept session hmem)
  new session hmem := by
    rcases h'.new session hmem with hmid | ⟨hfresh, t, hfile, hfrom, hheld⟩
    · exact h.new session hmid
    · rcases h.files t _ hheld with hheld | htaken
      · exact Or.inr ⟨fun htaken => hfresh (h.has htaken), t, hfile, hfrom, hheld⟩
      · exact absurd htaken hfresh
  files t token hheld := by
    rcases h'.files t token hheld with hmid | htaken
    · rcases h.files t token hmid with hold | htaken
      · exact Or.inl hold
      · exact Or.inr (h'.has htaken)
    · exact Or.inr htaken
  lastTimeoutUpdate := h'.lastTimeoutUpdate.trans h.lastTimeoutUpdate
  systemUuid hvalid := h'.systemUuid (h.systemUuid hvalid)

/-- Sessions restored from a file can be written again. -/
theorem writable (h : Loaded now w w') (hw : w.Writable) : w'.Writable where
  systemUuid := h.systemUuid hw.systemUuid
  session session hmem hpersists := by
    rcases h.new session hmem with hold | ⟨-, t, -, hfrom, -⟩
    · exact hw.session session hold hpersists
    · exact hfrom.utf8Valid

end Loaded

/-- The UUID of a file is valid UTF-8. -/
theorem FileContent.utf8Valid_systemUuid {content : FileContent} {value : Bytes}
    (h : content.systemUuid = some value) : Utf8.Valid value := by
  cases content with
  | missing => exact absurd h (by simp [FileContent.systemUuid])
  | unparsable => exact absurd h (by simp [FileContent.systemUuid])
  | parsed json valid =>
      have hmem : value ∈ json.items.filterMap itemUuid := List.mem_of_getLast? h
      obtain ⟨item, hitem, hvalue⟩ := List.mem_filterMap.mp hmem
      unfold itemUuid at hvalue
      split at hvalue
      · exact Json.utf8Valid_of_getString (Json.utf8Valid_of_mem_items valid hitem) hvalue
      · exact absurd hvalue (by simp)

/-- Reading the fields of a file is a load. -/
theorem readItems_loaded {t : ConfigFileStorageType} (hfile : t ∈ configFilePathDict)
    (now : TimePoint) (w : World) : Loaded now w (readItems t now w) where
  kept session hmem := by
    rw [readItems_authTokens]
    exact Table.mem_emplaceAll_of_mem hmem
  new session hmem := by
    rw [readItems_authTokens] at hmem
    rcases Table.mem_emplaceAll hmem with hold | ⟨hnew, hfresh⟩
    · exact Or.inl hold
    · exact Or.inr ⟨hfresh, t, hfile, fromFile_of_mem_sessions hnew,
        (FileContent.holds_iff t now).mpr ⟨session, hnew, rfl⟩⟩
  files t' token h := by
    rw [readItems_disk] at h
    exact Or.inl h
  lastTimeoutUpdate := readItems_lastTimeoutUpdate t now w
  systemUuid hvalid := by
    rw [readItems_systemUuid]
    cases huuid : (w.disk t).systemUuid with
    | none => exact hvalid
    | some value => exact FileContent.utf8Valid_systemUuid huuid

/-- A commit changes the files only, and only to what is in memory. -/
theorem commit_loaded (faults : Faults) (now : TimePoint) (w : World) :
    Loaded now w (commit faults w).2 where
  kept session hmem := by
    rw [commit_store]
    exact hmem
  new session hmem := by
    rw [commit_store] at hmem
    exact Or.inl hmem
  files t token h := by
    rw [commit_store]
    exact holds_commit h
  lastTimeoutUpdate := by rw [commit_store]
  systemUuid hvalid := by
    rw [commit_systemUuid]
    exact hvalid

/-- Reading one file is a load, also where it raises an exception. -/
theorem readDataFile_loaded (faults : Faults) (uuid : Uuid) (now : TimePoint)
    {t : ConfigFileStorageType} (hfile : t ∈ configFilePathDict) (w : World) :
    Loaded now w (readDataFile faults uuid now t w).2 := by
  have hread := readItems_loaded hfile now w
  rcases readDataFile_cases faults uuid now t w with ⟨-, heq⟩ | ⟨-, -, heq⟩
  · rw [heq]
    exact hread
  · rw [heq]
    have huuid : Loaded now w { readItems t now w with systemUuid := uuid.text } :=
      { hread with systemUuid := fun _ => uuid.valid }
    exact huuid.trans (commit_loaded faults now _)

/-- Reading several files is a load. -/
theorem readFiles_loaded (faults : Faults) (uuid : Uuid) (now : TimePoint)
    {files : List ConfigFileStorageType} (hfiles : ∀ t ∈ files, t ∈ configFilePathDict)
    (w : World) : Loaded now w (readFiles faults uuid now files w).2 := by
  induction files generalizing w with
  | nil => exact Loaded.refl now w
  | cons t rest ih =>
      have hfirst := readDataFile_loaded faults uuid now (hfiles t (List.mem_cons_self ..)) w
      have hrest : ∀ t ∈ rest, t ∈ configFilePathDict := fun t ht =>
        hfiles t (List.mem_cons_of_mem _ ht)
      unfold readFiles
      rcases hread : readDataFile faults uuid now t w with ⟨result, w'⟩
      rw [hread] at hfirst
      cases result with
      | error failure => exact hfirst
      | ok value => exact hfirst.trans (ih hrest w')

/-- {lit}`readData` is a load. -/
theorem readData_loaded (faults : Faults) (uuid : Uuid) (now : TimePoint) (w : World) :
    Loaded now w (readData faults uuid now w).2 :=
  readFiles_loaded faults uuid now (fun _ ht => ht) w

/-! ## Deciding credentials -/

section Decidable

variable (env : Environment) (now : TimePoint) (store : SessionStore)

instance (table : AuthTokenDict) (token : Bytes) : Decidable (table.Has token) :=
  inferInstanceAs (Decidable (∃ session ∈ table.rows, session.sessionToken = token))

instance : Decidable (Whitelisted env) :=
  decidable_of_iff _ (isOnWhitelist_iff env)

instance (session : UserSession) : Decidable (CsrfPasses env session) :=
  decidable_of_iff _ (checkCsrf_iff env session)

instance (token : Bytes) : Decidable (store.Accepts now token) :=
  inferInstanceAs (Decidable (_ ∧ _))

instance : Decidable (XTokenCredential env now store) :=
  inferInstanceAs (Decidable (_ ∧ ∃ token ∈ env.others.lookup xAuthToken, _))

instance (P : UserSession → Prop) [DecidablePred P] : Decidable (CookieNames env now store P) :=
  inferInstanceAs (Decidable (_ ∧ ∃ token ∈ env.cookies.lookup cookieSession, _ ∧
    ∃ session ∈ (store.applySessionTimeouts now).authTokens.rows, _))

instance : Decidable (CookieCredential env now store) :=
  inferInstanceAs (Decidable (CookieNames _ _ _ _))

instance : Decidable (CsrfFailure env now store) :=
  inferInstanceAs (Decidable (CookieNames _ _ _ _))

/-- A token in the header is accepted by a decision on the header alone. -/
theorem tokenCredential_iff : TokenCredential env now store ↔
    store.authMethodsConfig.sessionToken = true ∧ authToken.isPrefixOf env.authorization = true ∧
      store.Accepts now (env.authorization.drop authToken.length) := by
  unfold TokenCredential
  rw [List.isPrefixOf_iff_prefix]
  constructor
  · rintro ⟨hconfig, token, hheader, hok⟩
    rw [hheader, List.drop_left]
    exact ⟨hconfig, List.prefix_append _ _, hok⟩
  · rintro ⟨hconfig, ⟨token, hheader⟩, hok⟩
    rw [← hheader, List.drop_left] at hok
    exact ⟨hconfig, token, hheader.symm, hok⟩

instance : Decidable (TokenCredential env now store) :=
  decidable_of_iff _ (tokenCredential_iff env now store).symm

instance : Decidable (TokenFound env now store) :=
  inferInstanceAs (Decidable (_ ∨ _ ∨ _))

/-- A user and password are accepted by a decision on the header and the system. -/
theorem basicCredential_iff (outside : Outside) : BasicCredential outside env store ↔
    store.authMethodsConfig.basic = true ∧ authBasic.isPrefixOf env.authorization = true ∧
      ∃ authData ∈ base64Decode outside.evpDecodeBlock
          (env.authorization.drop authBasic.length),
        ∃ credentials ∈ splitCredentials authData,
          outside.pamAuthenticateUser credentials.1 credentials.2 = pamSuccess ∨
            outside.pamAuthenticateUser credentials.1 credentials.2 = pamNewAuthtokReqd := by
  unfold BasicCredential
  rw [List.isPrefixOf_iff_prefix]
  constructor
  · rintro ⟨hconfig, param, user, pass, hheader, hdecode, huser, hpam⟩
    rw [hheader, List.drop_left]
    exact ⟨hconfig, List.prefix_append _ _, _, hdecode, (user, pass),
      splitCredentials_append huser pass, hpam⟩
  · rintro ⟨hconfig, ⟨param, hheader⟩, authData, hdecode, ⟨user, pass⟩, hsplit, hpam⟩
    obtain ⟨rfl, huser⟩ := splitCredentials_eq_some_iff.mp hsplit
    rw [← hheader, List.drop_left] at hdecode
    exact ⟨hconfig, param, user, pass, hheader.symm, hdecode, huser, hpam⟩

instance (outside : Outside) : Decidable (BasicCredential outside env store) :=
  decidable_of_iff _ (basicCredential_iff env store outside).symm

end Decidable

/-! ## What authenticating does -/

/-- One of the token credentials is there to be looked up, so that the sweep runs. -/
def LoginAttempted (env : Environment) (store : SessionStore) : Prop :=
  (store.authMethodsConfig.xtoken = true ∧
    ∃ token, env.others.lookup xAuthToken = some token ∧ token ≠ []) ∨
  (store.authMethodsConfig.cookie = true ∧ ∃ token, env.cookies.lookup cookieSession = some token) ∨
  (store.authMethodsConfig.sessionToken = true ∧ ∃ token, env.authorization = authToken ++ token)

/-- The session that the credentials of a request give. -/
def sessionFound (outside : Outside) (env : Environment) (w : World) : Option UserSession :=
  match (findSession outside { environment := env } w).1 with
  | .ok request => request.userSession
  | .error _ => none

/-- The request is let through for the session under a token. -/
def LetThrough (outside : Outside) (env : Environment) (w : World) (token : Bytes) : Prop :=
  ¬ Whitelisted env ∧ TokenFound env outside.now w.store ∧
    (sessionFound outside env w).map UserSession.sessionToken = some token

instance (outside : Outside) (env : Environment) (w : World) (token : Bytes) :
    Decidable (LetThrough outside env w token) :=
  inferInstanceAs (Decidable (_ ∧ _ ∧ _))

/-- A request without a token credential has a session opened for its user and
password. -/
def LetThroughBasic (outside : Outside) (env : Environment) (w : World) : Prop :=
  ¬ Whitelisted env ∧ ¬ TokenFound env outside.now w.store ∧
    BasicCredential outside env w.store ∧ drawIdentifiers outside.draws ≠ none

instance (outside : Outside) (env : Environment) (w : World) :
    Decidable (LetThroughBasic outside env w) :=
  inferInstanceAs (Decidable (_ ∧ _ ∧ _ ∧ (_ → _)))

/-- What authenticating a request does to the state. -/
inductive Authentication (outside : Outside) (env : Environment) (w : World) : World → Prop
  /-- A whitelisted request is let through at once. -/
  | whitelisted (hwhite : Whitelisted env) : Authentication outside env w w
  /-- A token names a live session: its use is recorded and the files are written. -/
  | accepted {stale : List Bytes} {session : UserSession} {next : SessionStore}
      (hlet : LetThrough outside env w session.sessionToken)
      (hstale : Stale env outside.now w.store stale)
      (hmem : session ∈ (w.store.applySessionTimeouts outside.now).authTokens)
      (hprobed : SessionStore.Probed outside.now w.store (stale ++ [session.sessionToken]) next) :
      Authentication outside env w (commit outside.commitFaults { w with store := next }).2
  /-- User and password open a session: it is inserted, and the files are written,
  once more unless the first time raised an exception. -/
  | opened {stale : List Bytes} {next : SessionStore} {ids : Identifiers} {w' : World}
      (user : Bytes) (selfOnly : Bool) (hlet : LetThroughBasic outside env w)
      (hdraw : drawIdentifiers outside.draws = some ids)
      (hstale : Stale env outside.now w.store stale)
      (hprobed : SessionStore.Probed outside.now w.store stale next)
      (hquiet : ¬ LoginAttempted env w.store → next = w.store)
      (hcommits : w' = (commit outside.storeFaults (World.emplace { w with store := next }
          (basicSession outside env ids user selfOnly))).2 ∨
        w' = (commit outside.commitFaults (commit outside.storeFaults
          (World.emplace { w with store := next }
            (basicSession outside env ids user selfOnly))).2).2) :
      Authentication outside env w w'
  /-- There is no session; a sweep may have been made. -/
  | rejected {stale : List Bytes} {next : SessionStore} (hwhite : ¬ Whitelisted env)
      (hnone : ¬ TokenFound env outside.now w.store) (hnobasic : ¬ LetThroughBasic outside env w)
      (hstale : Stale env outside.now w.store stale)
      (hprobed : SessionStore.Probed outside.now w.store stale next)
      (hquiet : ¬ LoginAttempted env w.store → next = w.store) :
      Authentication outside env w { w with store := next }

/-- Without anything to look up, the credentials leave the store alone or a session
is opened in it. -/
theorem findSession_quiet {outside : Outside} {env : Environment} {w : World}
    (hquiet : ¬ LoginAttempted env w.store) :
    findSession outside { environment := env } w = (.ok { environment := env }, w) ∨
      (BasicCredential outside env w.store ∧
        SessionOpened outside env w (findSession outside { environment := env } w)) := by
  unfold LoginAttempted at hquiet
  rw [not_or, not_or] at hquiet
  obtain ⟨hxtoken, hcookie, htoken⟩ := hquiet
  have hx : tryXtoken outside.now { environment := env } w.store =
      ({ environment := env }, w.store) := by
    unfold tryXtoken performXtokenAuth
    by_cases hconfig : w.store.authMethodsConfig.xtoken = true
    · cases hlookup : env.others.lookup xAuthToken with
      | none => simp [Request.setSession]
      | some token =>
          have hempty : token = [] := not_not.mp fun h => hxtoken ⟨hconfig, token, hlookup, h⟩
          simp [hempty, Request.setSession]
    · simp [hconfig]
  have hc : tryCookie outside.now { environment := env } w.store =
      ({ environment := env }, w.store) := by
    unfold tryCookie performCookieAuth
    by_cases hconfig : w.store.authMethodsConfig.cookie = true
    · cases hlookup : env.cookies.lookup cookieSession with
      | none => simp [Request.setSession]
      | some token => exact absurd ⟨hconfig, token, hlookup⟩ hcookie
    · simp [hconfig]
  have hfind : findSession outside { environment := env } w =
      tryAuthorization outside { environment := env } w := by
    unfold findSession
    dsimp only
    rw [hx]
    dsimp only
    rw [hc]
  have hnotToken : ¬ ((∃ token, env.authorization = authToken ++ token) ∧
      w.store.authMethodsConfig.sessionToken = true) := fun h => htoken ⟨h.2, h.1⟩
  rw [hfind]
  by_cases hbasic : (∃ param, env.authorization = authBasic ++ param) ∧
      w.store.authMethodsConfig.basic = true
  · obtain ⟨⟨param, hheader⟩, hconfig⟩ := hbasic
    rw [tryAuthorization_basic outside hheader hconfig]
    rcases performBasicAuth_cases hheader hconfig w with ⟨-, heq⟩ | ⟨hcred, hopened⟩
    · rw [heq]
      exact Or.inl rfl
    · exact Or.inr ⟨hcred, sessionOpened_of_opened hopened⟩
  · exact Or.inl (tryAuthorization_other outside hnotToken hbasic)

/-- A request under which a session was opened is not returned as it came. -/
theorem SessionOpened.ne_ok {outside : Outside} {env : Environment} {w : World}
    {result : Outcome Request} (h : SessionOpened outside env w result) :
    result.1 ≠ .ok { environment := env } := by
  obtain ⟨opened, -, -, ⟨failure, -, hresult⟩ | ⟨stored, -, hresult⟩⟩ := h <;> simp [hresult]

/-- Trying the credentials, with what is left alone where there is nothing to look
up. -/
theorem findSession_effect (outside : Outside) (env : Environment) (w : World) :
    (TokenFound env outside.now w.store ∧ ∃ stale next,
      ∃ session ∈ (w.store.applySessionTimeouts outside.now).authTokens,
      Stale env outside.now w.store stale ∧
      SessionStore.Probed outside.now w.store (stale ++ [session.sessionToken]) next ∧
      findSession outside { environment := env } w =
        (.ok { environment := env, userSession := some (session.touch outside.now) },
          { w with store := next })) ∨
    (¬ TokenFound env outside.now w.store ∧ BasicCredential outside env w.store ∧ ∃ stale next,
      Stale env outside.now w.store stale ∧ SessionStore.Probed outside.now w.store stale next ∧
      (¬ LoginAttempted env w.store → next = w.store) ∧
      SessionOpened outside env { w with store := next }
        (findSession outside { environment := env } w)) ∨
    (¬ TokenFound env outside.now w.store ∧
      ¬ (BasicCredential outside env w.store ∧ drawIdentifiers outside.draws ≠ none) ∧
      ∃ stale next, Stale env outside.now w.store stale ∧
        SessionStore.Probed outside.now w.store stale next ∧
        (¬ LoginAttempted env w.store → next = w.store) ∧
        findSession outside { environment := env } w =
          (.ok { environment := env }, { w with store := next })) := by
  rcases findSession_cases outside env w with
    ⟨hfound, stale, request, next, hstale, heq, session, hmem, hrequest, hprobed⟩ |
    ⟨hnone, hbasic, stale, next, hstale, hprobed, hopened⟩ |
    ⟨hnone, hnobasic, stale, request, next, hstale, heq, hrequest, hprobed⟩
  · obtain rfl : request = _ := hrequest
    exact Or.inl ⟨hfound, stale, next, session, hmem, hstale, hprobed, heq⟩
  · refine Or.inr (Or.inl ⟨hnone, hbasic, ?_⟩)
    by_cases hattempt : LoginAttempted env w.store
    · exact ⟨stale, next, hstale, hprobed, fun hnot => absurd hattempt hnot, hopened⟩
    · rcases findSession_quiet hattempt with hquiet | ⟨-, hopened'⟩
      · exact absurd (congrArg Prod.fst hquiet) hopened.ne_ok
      · exact ⟨[], w.store, Or.inl rfl, SessionStore.Probed.refl _ _, fun _ => rfl, hopened'⟩
  · obtain rfl : request = _ := hrequest
    refine Or.inr (Or.inr ⟨hnone, hnobasic, ?_⟩)
    by_cases hattempt : LoginAttempted env w.store
    · exact ⟨stale, next, hstale, hprobed, fun hnot => absurd hattempt hnot, heq⟩
    · rcases findSession_quiet hattempt with hquiet | ⟨-, hopened⟩
      · exact ⟨[], w.store, Or.inl rfl, SessionStore.Probed.refl _ _, fun _ => rfl, hquiet⟩
      · exact absurd (congrArg Prod.fst heq) hopened.ne_ok

/-- A request that is not whitelisted: the files are written when a session was
found. -/
theorem authenticate_snd {outside : Outside} {env : Environment} (hwhite : ¬ Whitelisted env)
    (response : Response) (w : World) :
    (authenticate outside { environment := env } response w).2 =
      match findSession outside { environment := env } w with
      | (.error _, w') => w'
      | (.ok request, w') =>
          if request.isSessionEmpty then w' else (commit outside.commitFaults w').2 := by
  unfold authenticate
  dsimp only
  rw [if_neg (mt (isOnWhitelist_iff env).mp hwhite)]
  rcases findSession outside { environment := env } w with ⟨_ | request, w'⟩
  · rfl
  · dsimp only
    split
    · rfl
    · rcases commit outside.commitFaults w' with ⟨_ | _, w''⟩ <;> rfl

/-- Everything that authenticating a request can do. -/
theorem authenticate_cases (outside : Outside) (env : Environment) (response : Response)
    (w : World) :
    Authentication outside env w
      (authenticate outside { environment := env } response w).2 := by
  by_cases hwhite : Whitelisted env
  · have hsame : (authenticate outside { environment := env } response w).2 = w := by
      unfold authenticate
      rw [if_pos ((isOnWhitelist_iff env).mpr hwhite)]
    rw [hsame]
    exact .whitelisted hwhite
  · rw [authenticate_snd hwhite]
    rcases findSession_effect outside env w with
      ⟨hfound, stale, next, session, hmem, hstale, hprobed, heq⟩ |
      ⟨hnone, hbasic, stale, next, hstale, hprobed, hquiet, opened, hopened, hworld, hresult⟩ |
      ⟨hnone, hnobasic, stale, next, hstale, hprobed, hquiet, heq⟩
    · have hlet : LetThrough outside env w session.sessionToken := by
        refine ⟨hwhite, hfound, ?_⟩
        rw [sessionFound, heq]
        rfl
      rw [heq]
      exact .accepted hlet hstale hmem hprobed
    · obtain ⟨ids, user, selfOnly, hdraw, hcommitted, -⟩ := hopened
      have hlet : LetThroughBasic outside env w := ⟨hwhite, hnone, hbasic, by simp [hdraw]⟩
      refine .opened user selfOnly hlet hdraw hstale hprobed hquiet ?_
      rw [← hcommitted, ← hworld]
      rcases findSession outside { environment := env } w with ⟨_ | request, w'⟩
      · exact Or.inl rfl
      · dsimp only
        split
        · exact Or.inl rfl
        · exact Or.inr rfl
    · rw [heq]
      exact .rejected hwhite hnone (fun h => hnobasic ⟨h.2.2.1, h.2.2.2⟩) hstale hprobed hquiet

/-! ## Requests with their handlers -/

/-- The operations of the store that a request handler can call. -/
inductive StoreOperation
  | newStandardLoginSession (outside : Outside) (username : Bytes) (isConfigureSelfOnly : Bool)
      (clientIp : Bytes)
  | removeSession (faults : Faults) (session : UserSession)
  | getSessionByUid (now : TimePoint) (uid : Bytes)
  | getUniqueIds (now : TimePoint) (getAll : Bool) (type : PersistenceType)
  | updateSessionTimeout (newTimeoutInSeconds : Int64)
  | updateAuthMethodsConfig (config : AuthConfigMethods)

/-- What an operation does; the sessions it returns are of no further use here. -/
def runOperation : StoreOperation → World → Outcome Unit
  | .newStandardLoginSession outside username isConfigureSelfOnly clientIp, w =>
      match newStandardLoginSession outside username isConfigureSelfOnly clientIp w with
      | (.error failure, w) => (.error failure, w)
      | (.ok _, w) => (.ok (), w)
  | .removeSession faults session, w => removeSession faults session w
  | .getSessionByUid now uid, w => (.ok (), { w with store := (w.store.getSessionByUid now uid).2 })
  | .getUniqueIds now getAll type, w =>
      (.ok (), { w with store := (w.store.getUniqueIds now getAll type).2 })
  | .updateSessionTimeout newTimeoutInSeconds, w =>
      (.ok (), { w with store := w.store.updateSessionTimeout newTimeoutInSeconds })
  | .updateAuthMethodsConfig config, w =>
      (.ok (), { w with store := w.store.updateAuthMethodsConfig config })

/-- A handler, by what it does to the store; an exception ends it. -/
def runHandler : List StoreOperation → World → Outcome Unit
  | [], w => (.ok (), w)
  | operation :: rest, w =>
      match runOperation operation w with
      | (.error failure, w) => (.error failure, w)
      | (.ok (), w) => runHandler rest w

/-- A request as it arrives. -/
structure Arrival where
  outside : Outside
  environment : Environment
  handler : List StoreOperation := []

/-- The state after a request's load. -/
def Arrival.loaded (arrival : Arrival) (w : World) : World :=
  (readData arrival.outside.loadFaults arrival.outside.uuid arrival.outside.now w).2

/-- The load of a request raises nothing. -/
def Arrival.Loads (arrival : Arrival) (w : World) : Prop :=
  (readData arrival.outside.loadFaults arrival.outside.uuid arrival.outside.now w).1.isOk = true

instance (arrival : Arrival) (w : World) : Decidable (arrival.Loads w) :=
  inferInstanceAs (Decidable (_ = _))

/-- {lit}`Router::process` -/
def process (arrival : Arrival) (w : World) : Outcome Unit :=
  match readData arrival.outside.loadFaults arrival.outside.uuid arrival.outside.now w with
  | (.error failure, w) => (.error failure, w)
  | (.ok (), w) =>
      match authenticate arrival.outside { environment := arrival.environment } {} w with
      | (.error failure, w) => (.error failure, w)
      | (.ok (false, _, _), w) => (.ok (), w)
      | (.ok (true, _, _), w) => runHandler arrival.handler w

/-- The configuration file object is constructed, which loads the files once more,
or a request is processed. -/
inductive Event
  | construct (outside : Outside)
  | request (arrival : Arrival)

/-- The state after an event. -/
def Event.run : Event → World → World
  | .construct outside, w => (readData outside.loadFaults outside.uuid outside.now w).2
  | .request arrival, w => (process arrival w).2

/-- The step relation of a process. -/
def Handles (w : World) (event : Event) (w' : World) : Prop :=
  w' = event.run w

/-- A request whose load raises an exception ends with it. -/
theorem process_of_not_loads {arrival : Arrival} {w : World} (h : ¬ arrival.Loads w) :
    (process arrival w).2 = arrival.loaded w := by
  unfold Arrival.Loads at h
  unfold process Arrival.loaded
  rcases hread : readData arrival.outside.loadFaults arrival.outside.uuid arrival.outside.now w with
    ⟨_ | _, w₁⟩
  · rfl
  · rw [hread] at h
    exact absurd rfl h

/-- After the load a request is authenticated, and then its handler runs unless an
exception comes first or the request is refused. -/
theorem process_of_loads {arrival : Arrival} {w : World} (h : arrival.Loads w) :
    ∃ w', Authentication arrival.outside arrival.environment (arrival.loaded w) w' ∧
      ((process arrival w).2 = w' ∨ (process arrival w).2 = (runHandler arrival.handler w').2) := by
  unfold Arrival.Loads at h
  unfold process Arrival.loaded
  rcases hread : readData arrival.outside.loadFaults arrival.outside.uuid arrival.outside.now w with
    ⟨_ | _, w₁⟩
  · rw [hread] at h
    exact absurd h (by simp [Except.isOk, Except.toBool])
  · have hauth := authenticate_cases arrival.outside arrival.environment {} w₁
    rcases hresult : authenticate arrival.outside { environment := arrival.environment } {} w₁ with
      ⟨_ | ⟨_ | _, _, _⟩, w₂⟩
    all_goals
      rw [hresult] at hauth
      dsimp only
      rw [hresult]
    · exact ⟨w₂, hauth, Or.inl rfl⟩
    · exact ⟨w₂, hauth, Or.inl rfl⟩
    · exact ⟨w₂, hauth, Or.inr rfl⟩

/-! ## Sessions for a single request -/

/-- No session in memory is one for a single request. -/
def NoSingleRequest (w : World) : Prop :=
  ∀ session ∈ w.store.authTokens, session.persistence ≠ .singleRequest

/-- The request of an event is not let through for its user and password. -/
def NoBasicLogin (w : World) : Event → Prop
  | .construct _ => True
  | .request arrival => arrival.Loads w →
      ¬ LetThroughBasic arrival.outside arrival.environment (arrival.loaded w)

namespace NoSingleRequest

variable {w w' : World}

/-- A load restores no session for a single request. -/
theorem loaded {now : TimePoint} (h : NoSingleRequest w) (hload : Loaded now w w') :
    NoSingleRequest w' := by
  intro session hmem
  rcases hload.new session hmem with hold | ⟨-, t, -, hfrom, -⟩
  · exact h session hold
  · exact hfrom.persisted.1

/-- Looking a session up makes none. -/
theorem probed {now : TimePoint} {tokens : List Bytes} {next : SessionStore}
    (h : NoSingleRequest w) (hprobed : SessionStore.Probed now w.store tokens next) :
    NoSingleRequest { w with store := next } := by
  intro session hmem
  obtain ⟨old, hold, rfl | rfl⟩ := hprobed.mem hmem
  · exact h _ hold
  · exact h old hold

theorem commit (h : NoSingleRequest w) (faults : Faults) :
    NoSingleRequest (Service.commit faults w).2 := by
  unfold NoSingleRequest
  rw [commit_store]
  exact h

theorem applySessionTimeouts (h : NoSingleRequest w) (now : TimePoint) :
    NoSingleRequest { w with store := w.store.applySessionTimeouts now } := fun session hmem =>
  h session (SessionStore.mem_applySessionTimeouts_iff.mp hmem).1

/-- No operation of a handler opens a session for a single request. -/
theorem runOperation (h : NoSingleRequest w) (operation : StoreOperation) :
    NoSingleRequest (Service.runOperation operation w).2 := by
  cases operation with
  | newStandardLoginSession outside username isConfigureSelfOnly clientIp =>
      have hworld : (Service.runOperation (.newStandardLoginSession outside username
          isConfigureSelfOnly clientIp) w).2 =
          (newStandardLoginSession outside username isConfigureSelfOnly clientIp w).2 := by
        unfold Service.runOperation
        dsimp only
        rcases newStandardLoginSession outside username isConfigureSelfOnly clientIp w with
          ⟨_ | _, _⟩ <;> rfl
      rw [hworld]
      unfold newStandardLoginSession
      rcases generateUserSession_cases outside username .timeout isConfigureSelfOnly clientIp
          clientIp .configCurrentBmcSession w with ⟨-, heq⟩ | ⟨ids, session, -, hnew, heq, -⟩
      · rw [heq]
        exact h
      · rw [heq]
        refine commit ?_ _
        intro stored hmem
        rcases Table.mem_emplace_iff.mp hmem with hold | ⟨rfl, -⟩
        · exact h stored hold
        · simp [hnew, newSession]
  | removeSession faults session =>
      refine commit ?_ faults
      intro stored hmem
      exact h stored (Table.mem_erase_iff.mp hmem).1
  | getSessionByUid now uid => exact h.applySessionTimeouts now
  | getUniqueIds now getAll type => exact h.applySessionTimeouts now
  | updateSessionTimeout newTimeoutInSeconds => exact h
  | updateAuthMethodsConfig config => exact h

/-- No handler opens one. -/
theorem runHandler (h : NoSingleRequest w) (handler : List StoreOperation) :
    NoSingleRequest (Service.runHandler handler w).2 := by
  induction handler generalizing w with
  | nil => exact h
  | cons operation rest ih =>
      have hfirst := h.runOperation operation
      unfold Service.runHandler
      rcases hrun : Service.runOperation operation w with ⟨_ | _, w'⟩
      all_goals rw [hrun] at hfirst
      · exact hfirst
      · exact ih hfirst

/-- Authentication adds sessions for a single request only for user and password. -/
theorem authentication {outside : Outside} {env : Environment} (h : NoSingleRequest w)
    (hauth : Authentication outside env w w') (hnobasic : ¬ LetThroughBasic outside env w) :
    NoSingleRequest w' := by
  cases hauth with
  | whitelisted _ => exact h
  | accepted _ _ _ hprobed => exact (h.probed hprobed).commit _
  | opened _ _ hlet _ _ _ _ _ => exact absurd hlet hnobasic
  | rejected _ _ _ _ hprobed _ => exact h.probed hprobed

/-- One event. -/
theorem handles {event : Event} (h : NoSingleRequest w) (hok : NoBasicLogin w event)
    (hstep : Handles w event w') : NoSingleRequest w' := by
  subst hstep
  cases event with
  | construct outside => exact h.loaded (readData_loaded _ _ _ w)
  | request arrival =>
      have hload : NoSingleRequest (arrival.loaded w) := h.loaded (readData_loaded _ _ _ w)
      change NoSingleRequest (process arrival w).2
      by_cases hloads : arrival.Loads w
      · obtain ⟨w', hauth, heq | heq⟩ := process_of_loads hloads
        all_goals rw [heq]
        · exact hload.authentication hauth (hok hloads)
        · exact (hload.authentication hauth (hok hloads)).runHandler _
      · rw [process_of_not_loads hloads]
        exact hload

end NoSingleRequest

/-- In every run in which no request is let through for its user and password: when
an event has ended, no session for a single request is in memory, and the token that
the next request is let through with belongs to no such session. -/
theorem requests_keep_no_singleRequest {disk : Disk} {events : List Event} {w : World}
    (hrun : Run (Restrict Handles NoBasicLogin) (World.initial disk) events w) :
    NoSingleRequest w ∧ ∀ (arrival : Arrival) (session : UserSession),
      LetThrough arrival.outside arrival.environment (arrival.loaded w) session.sessionToken →
      sessionFound arrival.outside arrival.environment (arrival.loaded w) = some session →
      session.persistence ≠ .singleRequest := by
  have hstart : NoSingleRequest (World.initial disk) :=
    fun session hmem => absurd hmem (Table.not_mem_empty session)
  have hend : NoSingleRequest w :=
    hrun.invariant hstart fun _ _ _ h hstep => h.handles hstep.1 hstep.2
  refine ⟨hend, fun arrival session hlet hfound => ?_⟩
  have hload : NoSingleRequest (arrival.loaded w) := hend.loaded (readData_loaded _ _ _ w)
  rcases findSession_effect arrival.outside arrival.environment (arrival.loaded w) with
    ⟨-, stale, next, live, hmem, -, -, heq⟩ | ⟨hnone, -⟩ | ⟨hnone, -⟩
  · rw [sessionFound, heq] at hfound
    obtain rfl := Option.some.inj hfound
    exact hload live (SessionStore.mem_applySessionTimeouts_iff.mp hmem).1
  · exact absurd hlet.2.1 hnone
  · exact absurd hlet.2.1 hnone

/-- The request of a client with user and password, to a process without sessions. -/
def basicArrival : Arrival where
  outside := sampleOutside fun _ => some 0
  environment := basicEnvironment

/-- After it has ended its session is still in memory. -/
theorem basic_leaves_singleRequest :
    ¬ ∀ (disk : Disk) (events : List Event) (w : World),
      Run Handles (World.initial disk) events w → NoSingleRequest w := by
  intro h
  have hrun : Run Handles (World.initial fun _ => .missing) [.request basicArrival]
      (process basicArrival (World.initial fun _ => .missing)).2 := Run.single rfl
  have hleft : ∃ session ∈ (process basicArrival
      (World.initial fun _ => .missing)).2.store.authTokens.rows,
      session.persistence = .singleRequest := by decide
  obtain ⟨session, hmem, hsingle⟩ := hleft
  exact h _ _ _ hrun session hmem hsingle

/-- The request of a client with the token of 20 equal characters. -/
def tokenArrival (now : TimePoint) (c : UInt8) : Arrival where
  outside := { sampleOutside fun _ => none with now }
  environment := {
    pathInfo := [bytes "redfish", bytes "v1", bytes "Systems"]
    others := [(xAuthToken, List.replicate sessionTokenSize c)] }

/-- A request with a token keeps the store free of them. -/
theorem token_keeps_no_singleRequest :
    NoSingleRequest (process (tokenArrival 0 0x61) (World.initial (sampleDisk true))).2 := by
  have hok : NoBasicLogin (World.initial (sampleDisk true)) (.request (tokenArrival 0 0x61)) :=
    fun _ h => h.2.1 (by decide)
  exact (requests_keep_no_singleRequest (Run.single ⟨hok, rfl⟩)).1

end Service
end ObmcWebapp
