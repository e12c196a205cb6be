import ObmcWebapp.Service.Session

/-!
# Service - The persistent configuration files

The process keeps its sessions in two files, one long-term and one for the
current BMC session.  Both are re-read before a request and rewritten as a whole
at a commit.  A write can fail at each of its steps.

Main results:

- Theorem {lit}`readItems_authTokens`: a load inserts the sessions of the file.
- Theorem {lit}`sessions_written`: the sessions that a written file gives back.
- Theorem {lit}`commit_file`: what a commit leaves of each file.
-/

open Library

namespace ObmcWebapp
namespace Service

/-! ## Files -/

/-- A file: absent, a text that does not parse, or the value it parses to.  The
parser takes no string that is not UTF-8, and a number reads the same through
{lit}`get_ptr` however it was written. -/
inductive FileContent
  | missing
  | unparsable
  | parsed (json : Json) (valid : json.utf8Valid = true)

/-- The files, by the storage that they keep. -/
abbrev Disk := ConfigFileStorageType → FileContent

/-- The storages that have a file, in the order of the dictionary's keys. -/
def configFilePathDict : List ConfigFileStorageType :=
  [.configLongTermStorage, .configCurrentBmcSession]

/-- The state that requests work on: the store, the system UUID and the files. -/
structure World where
  store : SessionStore := {}
  systemUuid : Bytes := []
  disk : Disk

/-- A file is replaced. -/
def World.setFile (w : World) (storageType : ConfigFileStorageType) (content : FileContent) :
    World :=
  { w with disk := Function.update w.disk storageType content }

/-- The key of the revision. -/
def keyRevision : Bytes := bytes "revision"
/-- The key of the methods. -/
def keyAuthConfig : Bytes := bytes "auth_config"
/-- The key of the identifier. -/
def keySystemUUID : Bytes := bytes "system_uuid"
/-- The key of the timeout. -/
def keyTimeout : Bytes := bytes "timeout"
/-- The key of the sessions. -/
def keySessions : Bytes := bytes "sessions"

/-- The revision of the format. -/
def jsonRevision : UInt64 := 1

/-! ## Writing -/

/-- {lit}`populateRevision` -/
def populateRevision (_ : World) (config : Json) : Json :=
  config.set keyRevision (.numberUnsigned jsonRevision)

/-- {lit}`populateSystemUUID` -/
def populateSystemUUID (w : World) (config : Json) : Json :=
  config.set keySystemUUID (.string w.systemUuid)

/-- {lit}`populateAuthConfig` -/
def populateAuthConfig (w : World) (config : Json) : Json :=
  config.set keyAuthConfig w.store.authMethodsConfig.toJson

/-- {lit}`populateTimeout` -/
def populateTimeout (w : World) (config : Json) : Json :=
  config.set keyTimeout (.numberInteger w.store.getTimeoutInSeconds)

/-- The sessions that are written to the file of a storage. -/
def UserSession.Persisted (session : UserSession) (storageType : ConfigFileStorageType) : Prop :=
  session.persistence ≠ .singleRequest ∧ session.storageType = storageType

instance (session : UserSession) (storageType : ConfigFileStorageType) :
    Decidable (session.Persisted storageType) :=
  inferInstanceAs (Decidable (_ ∧ _))

/-- The sessions that a file has. -/
def persistedSessions (w : World) (storageType : ConfigFileStorageType) : List UserSession :=
  w.store.authTokens.rows.filter fun session => session.Persisted storageType

/-- {lit}`populateSessions` -/
def populateSessions (storageType : ConfigFileStorageType) (w : World) (config : Json) : Json :=
  config.set keySessions (.array ((persistedSessions w storageType).map UserSession.toJson))

/-- The fields of each file. -/
def configPopulatHandlersDict : ConfigFileStorageType → List (World → Json → Json)
  | .configLongTermStorage =>
      [populateRevision, populateAuthConfig, populateSystemUUID, populateTimeout,
        populateSessions .configLongTermStorage]
  | .configCurrentBmcSession =>
      [populateRevision, populateSessions .configCurrentBmcSession]
  | .configCurrentServiceSession => []

/-- The value that is written to a file. -/
def fileData (w : World) (storageType : ConfigFileStorageType) : Json :=
  (configPopulatHandlersDict storageType).foldl (fun data handler => handler w data) .null

/-- The steps of {lit}`writeData`. -/
inductive WriteStep
  | createConfigPath
  | openFile
  | permissions
  | populate
  | serialise
  /-- The stream takes the text or sets its error flag, which nothing looks at. -/
  | flush
deriving DecidableEq

/-- The step that fails for each file during one commit. -/
abbrev Faults := ConfigFileStorageType → Option WriteStep

/-- No step fails. -/
def Faults.none : Faults := fun _ => Option.none

/-- No stream fails while it takes the text. -/
def Faults.Flushes (faults : Faults) : Prop :=
  ∀ storageType ∈ configFilePathDict, faults storageType ≠ some .flush

instance (faults : Faults) : Decidable faults.Flushes :=
  inferInstanceAs (Decidable (∀ storageType ∈ configFilePathDict, _))

/-- An exception, by the file and the step that raised it. -/
structure WriteFailure where
  storageType : ConfigFileStorageType
  step : WriteStep
deriving DecidableEq

/-- The result of a function that changes the state and may be left by an
exception. -/
abbrev Outcome (α : Type) := Except WriteFailure α × World

/-- {lit}`writeData`.  Opening the stream empties the file.  A stream that does
not open raises nothing and leaves an existing file alone; where there is none,
setting the permissions fails.  A stream that fails later raises nothing either: the
file keeps a part of the text, which is an object without its end and does not parse. -/
def writeData (faults : Faults) (storageType : ConfigFileStorageType) (w : World) : Outcome Unit :=
  match faults storageType with
  | some .createConfigPath => (.error ⟨storageType, .createConfigPath⟩, w)
  | some .openFile =>
      match w.disk storageType with
      | .missing => (.error ⟨storageType, .permissions⟩, w)
      | _ => (.ok (), w)
  | some .flush =>
      (if (fileData w storageType).utf8Valid then .ok () else .error ⟨storageType, .serialise⟩,
        w.setFile storageType .unparsable)
  | some step => (.error ⟨storageType, step⟩, w.setFile storageType .unparsable)
  | none =>
      if h : (fileData w storageType).utf8Valid = true then
        (.ok (), w.setFile storageType (.parsed (fileData w storageType) h))
      else
        (.error ⟨storageType, .serialise⟩, w.setFile storageType .unparsable)

/-- The loop of {lit}`commit`, which an exception leaves. -/
def writeFiles (faults : Faults) : List ConfigFileStorageType → World → Outcome Unit
  | [], w => (.ok (), w)
  | storageType :: rest, w =>
      match writeData faults storageType w with
      | (.error failure, w) => (.error failure, w)
      | (.ok (), w) => writeFiles faults rest w

/-- {lit}`commit` -/
def commit (faults : Faults) (w : World) : Outcome Unit :=
  writeFiles faults configFilePathDict w

/-! ## Reading -/

/-- The text that {lit}`uuid_unparse_upper` gives. -/
structure Uuid where
  text : Bytes
  length_eq : text.length = 36
  valid : Utf8.Valid text

/-- A drawn identifier is not empty. -/
theorem Uuid.text_ne_nil (uuid : Uuid) : uuid.text ≠ [] := by
  intro hempty
  have hlength := uuid.length_eq
  rw [hempty] at hlength
  exact absurd hlength (by simp)

/-- One element of a session array, restored into the store. -/
def readSession (storageType : ConfigFileStorageType) (now : TimePoint) (w : World) (elem : Json) :
    World :=
  match UserSession.fromJson now elem with
  | none => w
  | some session => { w with store := w.store.restore { session with storageType } }

/-- One top-level field of a file; unknown fields are passed over. -/
def readItem (storageType : ConfigFileStorageType) (now : TimePoint) (w : World)
    (item : Bytes × Json) : World :=
  if item.1 = keySystemUUID then
    match item.2.getString with
    | none => w
    | some jSystemUuid => { w with systemUuid := jSystemUuid }
  else if item.1 = keyAuthConfig then
    let config := w.store.authMethodsConfig.fromJson item.2
    { w with store := w.store.updateAuthMethodsConfig config }
  else if item.1 = keySessions then
    item.2.elements.foldl (readSession storageType now) w
  else if item.1 = keyTimeout then
    match item.2.getInteger with
    | none => w
    | some jTimeout => { w with store := w.store.updateSessionTimeout jTimeout }
  else
    w

/-- The end of a file's load: without a system UUID one is generated, and both
files are written. -/
def ensureSystemUuid (faults : Faults) (uuid : Uuid) (w : World) : Outcome Unit :=
  if w.systemUuid = [] then
    commit faults { w with systemUuid := uuid.text }
  else
    (.ok (), w)

/-- {lit}`readData(storageType, configPath, configFileName)` -/
def readDataFile (faults : Faults) (uuid : Uuid) (now : TimePoint)
    (storageType : ConfigFileStorageType) (w : World) : Outcome Unit :=
  match w.disk storageType with
  | .unparsable => (.ok (), w)
  | .missing => ensureSystemUuid faults uuid w
  | .parsed json _ =>
      ensureSystemUuid faults uuid (json.items.foldl (readItem storageType now) w)

/-- The loop of {lit}`readData()`. -/
def readFiles (faults : Faults) (uuid : Uuid) (now : TimePoint) :
    List ConfigFileStorageType → World → Outcome Unit
  | [], w => (.ok (), w)
  | storageType :: rest, w =>
      match readDataFile faults uuid now storageType w with
      | (.error failure, w) => (.error failure, w)
      | (.ok (), w) => readFiles faults uuid now rest w

/-- {lit}`readData` -/
def readData (faults : Faults) (uuid : Uuid) (now : TimePoint) (w : World) : Outcome Unit :=
  readFiles faults uuid now configFilePathDict w

/-! ## What a load does -/

/-- The session that an element of a session array restores. -/
def elementSession (storageType : ConfigFileStorageType) (now : TimePoint) (elem : Json) :
    Option UserSession :=
  (UserSession.fromJson now elem).map fun session => { session with storageType }

/-- The sessions of one top-level field. -/
def itemSessions (storageType : ConfigFileStorageType) (now : TimePoint) (item : Bytes × Json) :
    List UserSession :=
  if item.1 = keySessions then item.2.elements.filterMap (elementSession storageType now) else []

/-- The well-formed sessions of a file. -/
def FileContent.sessions (storageType : ConfigFileStorageType) (now : TimePoint) :
    FileContent → List UserSession
  | .parsed json _ => json.items.flatMap (itemSessions storageType now)
  | _ => []

/-- The identifier that an item has. -/
def itemUuid (item : Bytes × Json) : Option Bytes :=
  if item.1 = keySystemUUID then item.2.getString else none

/-- The system UUID that a file sets. -/
def FileContent.systemUuid : FileContent → Option Bytes
  | .parsed json _ => (json.items.filterMap itemUuid).getLast?
  | _ => none

/-- The timeout that an item has. -/
def itemTimeout (item : Bytes × Json) : Option Int64 :=
  if item.1 = keyTimeout then item.2.getInteger else none

/-- The session timeout that a file sets. -/
def FileContent.timeout : FileContent → Option Int64
  | .parsed json _ => (json.items.filterMap itemTimeout).getLast?
  | _ => none

/-- The state after the fields of a file were read. -/
def readItems (storageType : ConfigFileStorageType) (now : TimePoint) (w : World) : World :=
  match w.disk storageType with
  | .parsed json _ => json.items.foldl (readItem storageType now) w
  | _ => w

/-- Everything the load of one file does: it reads the fields, and then it is done
or commits with a new UUID.  A file that does not parse leaves the load before the
UUID is looked at. -/
theorem readDataFile_cases (faults : Faults) (uuid : Uuid) (now : TimePoint)
    (storageType : ConfigFileStorageType) (w : World) :
    ((w.disk storageType = .unparsable ∨ (readItems storageType now w).systemUuid ≠ []) ∧
      readDataFile faults uuid now storageType w = (.ok (), readItems storageType now w)) ∨
    (w.disk storageType ≠ .unparsable ∧ (readItems storageType now w).systemUuid = [] ∧
      readDataFile faults uuid now storageType w =
        commit faults { readItems storageType now w with systemUuid := uuid.text }) := by
  unfold readDataFile readItems ensureSystemUuid
  cases w.disk storageType with
  | unparsable => exact Or.inl ⟨Or.inl rfl, rfl⟩
  | missing =>
      by_cases huuid : w.systemUuid = []
      · exact Or.inr ⟨by simp, huuid, if_pos huuid⟩
      · exact Or.inl ⟨Or.inr huuid, if_neg huuid⟩
  | parsed json valid =>
      by_cases huuid : (json.items.foldl (readItem storageType now) w).systemUuid = []
      · exact Or.inr ⟨by simp, huuid, if_pos huuid⟩
      · exact Or.inl ⟨Or.inr huuid, if_neg huuid⟩

/-- The sessions of a file are emplaced. -/
theorem foldl_readSession (storageType : ConfigFileStorageType) (now : TimePoint)
    (elems : List Json) (w : World) :
    elems.foldl (readSession storageType now) w =
      { w with
        store := { w.store with
          authTokens := w.store.authTokens.emplaceAll
            (elems.filterMap (elementSession storageType now)) } } := by
  induction elems generalizing w with
  | nil => rfl
  | cons elem rest ih =>
      rw [List.foldl_cons, ih, readSession]
      cases hread : UserSession.fromJson now elem with
      | none => simp [elementSession, hread]
      | some session => simp [elementSession, hread, SessionStore.restore]

/-- The last value that some items of a list set. -/
private theorem getLast?_append_getD {α : Type*} (before after : List α) (start : α) :
    (before ++ after).getLast?.getD start = after.getLast?.getD (before.getLast?.getD start) := by
  rw [List.getLast?_append]
  cases after.getLast? <;> rfl

/-- One field: sessions are inserted, the UUID and the timeout replaced, and the
rest is not touched. -/
theorem readItem_spec (storageType : ConfigFileStorageType) (now : TimePoint) (w : World)
    (item : Bytes × Json) :
    (readItem storageType now w item).store.authTokens =
        w.store.authTokens.emplaceAll (itemSessions storageType now item) ∧
      (readItem storageType now w item).systemUuid = (itemUuid item).getD w.systemUuid ∧
      (readItem storageType now w item).store.timeoutInSeconds =
        (itemTimeout item).getD w.store.timeoutInSeconds ∧
      (readItem storageType now w item).store.lastTimeoutUpdate = w.store.lastTimeoutUpdate ∧
      (readItem storageType now w item).disk = w.disk := by
  have hdistinct : keySystemUUID ≠ keyAuthConfig ∧ keySystemUUID ≠ keySessions ∧
      keySystemUUID ≠ keyTimeout ∧ keyAuthConfig ≠ keySessions ∧ keyAuthConfig ≠ keyTimeout ∧
      keySessions ≠ keyTimeout := by decide
  obtain ⟨huc, hus, hut, hcs, hct, hst⟩ := hdistinct
  unfold readItem itemSessions itemUuid itemTimeout
  by_cases huuid : item.1 = keySystemUUID
  · simp only [huuid, if_pos, if_neg hus, if_neg hut]
    cases item.2.getString <;> simp
  · by_cases hconfig : item.1 = keyAuthConfig
    · simp [hconfig, huc.symm, hcs, hct, SessionStore.updateAuthMethodsConfig]
    · by_cases hsessions : item.1 = keySessions
      · simp [hsessions, hus.symm, hcs.symm, hst, foldl_readSession]
      · by_cases htimeout : item.1 = keyTimeout
        · simp only [htimeout, if_pos, if_neg hut.symm, if_neg hct.symm, if_neg hst.symm]
          cases item.2.getInteger <;> simp [SessionStore.updateSessionTimeout]
        · simp [huuid, hconfig, hsessions, htimeout]

/-- All fields of a file, in order. -/
theorem foldl_readItem_spec (storageType : ConfigFileStorageType) (now : TimePoint)
    (items : List (Bytes × Json)) (w : World) :
    (items.foldl (readItem storageType now) w).store.authTokens =
        w.store.authTokens.emplaceAll (items.flatMap (itemSessions storageType now)) ∧
      (items.foldl (readItem storageType now) w).systemUuid =
        (items.filterMap itemUuid).getLast?.getD w.systemUuid ∧
      (items.foldl (readItem storageType now) w).store.timeoutInSeconds =
        (items.filterMap itemTimeout).getLast?.getD w.store.timeoutInSeconds ∧
      (items.foldl (readItem storageType now) w).store.lastTimeoutUpdate =
        w.store.lastTimeoutUpdate ∧
      (items.foldl (readItem storageType now) w).disk = w.disk := by
  induction items generalizing w with
  | nil => exact ⟨rfl, rfl, rfl, rfl, rfl⟩
  | cons item rest ih =>
      obtain ⟨htokens, huuid, htimeout, hlast, hdisk⟩ := readItem_spec storageType now w item
      obtain ⟨ihtokens, ihuuid, ihtimeout, ihlast, ihdisk⟩ := ih (readItem storageType now w item)
      rw [List.foldl_cons]
      refine ⟨?_, ?_, ?_, ihlast.trans hlast, ihdisk.trans hdisk⟩
      · rw [ihtokens, htokens, List.flatMap_cons, Table.emplaceAll_append]
      · rw [ihuuid, huuid, List.filterMap_cons]
        cases itemUuid item with
        | none => rfl
        | some value => exact (getLast?_append_getD [value] _ _).symm
      · rw [ihtimeout, htimeout, List.filterMap_cons]
        cases itemTimeout item with
        | none => rfl
        | some value => exact (getLast?_append_getD [value] _ _).symm

section ReadItems

variable (storageType : ConfigFileStorageType) (now : TimePoint) (w : World)

/-- The sessions after a file is read. -/
theorem readItems_authTokens :
    (readItems storageType now w).store.authTokens =
      w.store.authTokens.emplaceAll ((w.disk storageType).sessions storageType now) := by
  unfold readItems FileContent.sessions
  cases w.disk storageType with
  | parsed json valid => exact (foldl_readItem_spec storageType now json.items w).1
  | _ => rfl

/-- The identifier after a file is read. -/
theorem readItems_systemUuid :
    (readItems storageType now w).systemUuid =
      (w.disk storageType).systemUuid.getD w.systemUuid := by
  unfold readItems FileContent.systemUuid
  cases w.disk storageType with
  | parsed json valid => exact (foldl_readItem_spec storageType now json.items w).2.1
  | _ => rfl

/-- The timeout after a file is read. -/
theorem readItems_timeout :
    (readItems storageType now w).store.timeoutInSeconds =
      (w.disk storageType).timeout.getD w.store.timeoutInSeconds := by
  unfold readItems FileContent.timeout
  cases w.disk storageType with
  | parsed json valid => exact (foldl_readItem_spec storageType now json.items w).2.2.1
  | _ => rfl

/-- The time of the last cleanup stays. -/
theorem readItems_lastTimeoutUpdate :
    (readItems storageType now w).store.lastTimeoutUpdate = w.store.lastTimeoutUpdate := by
  unfold readItems
  cases w.disk storageType with
  | parsed json valid => exact (foldl_readItem_spec storageType now json.items w).2.2.2.1
  | _ => rfl

/-- The files stay. -/
@[simp]
theorem readItems_disk : (readItems storageType now w).disk = w.disk := by
  unfold readItems
  split
  · next json valid heq => exact (foldl_readItem_spec storageType now json.items w).2.2.2.2
  · rfl

end ReadItems

/-! ## What a commit does -/

/-- What is written into the first file. -/
theorem fileData_longTerm (w : World) :
    fileData w .configLongTermStorage = .object [
      (keyAuthConfig, w.store.authMethodsConfig.toJson),
      (keyRevision, .numberUnsigned jsonRevision),
      (keySessions,
        .array ((persistedSessions w .configLongTermStorage).map UserSession.toJson)),
      (keySystemUUID, .string w.systemUuid),
      (keyTimeout, .numberInteger w.store.timeoutInSeconds)] := rfl

/-- What is written into the second file. -/
theorem fileData_currentBmc (w : World) :
    fileData w .configCurrentBmcSession = .object [
      (keyRevision, .numberUnsigned jsonRevision),
      (keySessions,
        .array ((persistedSessions w .configCurrentBmcSession).map UserSession.toJson))] := rfl

/-- The session that reading a written record restores. -/
def rereadSession (storageType : ConfigFileStorageType) (now : TimePoint) (session : UserSession) :
    Option UserSession :=
  if session.Complete then some (session.restored now storageType) else none

/-- A session is read as it was written, up to its times. -/
theorem elementSession_toJson (storageType : ConfigFileStorageType) (now : TimePoint)
    (session : UserSession) :
    elementSession storageType now session.toJson = rereadSession storageType now session := by
  unfold elementSession rereadSession
  rw [UserSession.fromJson_toJson]
  split <;> rfl

/-- A written file gives back the persisted sessions, as far as they are complete. -/
theorem sessions_written {w : World} {storageType : ConfigFileStorageType}
    (hfile : storageType ∈ configFilePathDict) (now : TimePoint)
    (hvalid : (fileData w storageType).utf8Valid = true) :
    (FileContent.parsed (fileData w storageType) hvalid).sessions storageType now =
      (persistedSessions w storageType).filterMap (rereadSession storageType now) := by
  have hmap : ∀ sessions : List UserSession,
      (sessions.map UserSession.toJson).filterMap (elementSession storageType now) =
        sessions.filterMap (rereadSession storageType now) := by
    intro sessions
    rw [List.filterMap_map]
    exact List.filterMap_congr fun session _ => elementSession_toJson storageType now session
  have hkeys : keyAuthConfig ≠ keySessions ∧ keyRevision ≠ keySessions ∧
      keySystemUUID ≠ keySessions ∧ keyTimeout ≠ keySessions := by decide
  obtain ⟨hconfig, hrevision, huuid, htimeout⟩ := hkeys
  cases storageType with
  | configLongTermStorage =>
      simp [FileContent.sessions, fileData_longTerm, Json.items, itemSessions, hconfig, hrevision,
        huuid, htimeout, Json.elements, hmap]
  | configCurrentBmcSession =>
      simp [FileContent.sessions, fileData_currentBmc, Json.items, itemSessions, hrevision,
        Json.elements, hmap]
  | configCurrentServiceSession => exact absurd hfile (by decide)

/-- The first file has the identifier. -/
theorem systemUuid_written_longTerm (w : World)
    (hvalid : (fileData w .configLongTermStorage).utf8Valid = true) :
    (FileContent.parsed (fileData w .configLongTermStorage) hvalid).systemUuid =
      some w.systemUuid := rfl

/-- The second file has none. -/
theorem systemUuid_written_currentBmc (w : World)
    (hvalid : (fileData w .configCurrentBmcSession).utf8Valid = true) :
    (FileContent.parsed (fileData w .configCurrentBmcSession) hvalid).systemUuid = none := rfl

/-- The first file has the timeout. -/
theorem timeout_written_longTerm (w : World)
    (hvalid : (fileData w .configLongTermStorage).utf8Valid = true) :
    (FileContent.parsed (fileData w .configLongTermStorage) hvalid).timeout =
      some w.store.timeoutInSeconds := rfl

/-- The second file has none. -/
theorem timeout_written_currentBmc (w : World)
    (hvalid : (fileData w .configCurrentBmcSession).utf8Valid = true) :
    (FileContent.parsed (fileData w .configCurrentBmcSession) hvalid).timeout = none := rfl

/-- Every string that a commit writes is valid UTF-8; a session for a single request
is not written. -/
structure World.Writable (w : World) : Prop where
  systemUuid : Utf8.Valid w.systemUuid
  session : ∀ session ∈ w.store.authTokens, session.persistence ≠ .singleRequest →
    session.Utf8Valid

/-- What can be written has valid texts. -/
theorem World.Writable.fileData_valid {w : World} (hw : w.Writable)
    (storageType : ConfigFileStorageType) : (fileData w storageType).utf8Valid = true := by
  have hsessions : ∀ type, (Json.array ((persistedSessions w type).map
      UserSession.toJson)).utf8Valid = true := by
    intro type
    rw [Json.utf8Valid_array]
    intro value hmem
    obtain ⟨session, hsession, rfl⟩ := List.mem_map.mp hmem
    obtain ⟨hmem, hpersisted⟩ := List.mem_filter.mp hsession
    exact UserSession.utf8Valid_toJson (hw.session session hmem (of_decide_eq_true hpersisted).1)
  have huuid : (Json.string w.systemUuid).utf8Valid = true :=
    Json.utf8Valid_string.mpr hw.systemUuid
  cases storageType with
  | configLongTermStorage =>
      rw [fileData_longTerm, Json.utf8Valid_object]
      simp only [List.mem_cons, List.not_mem_nil, or_false, forall_eq_or_imp, forall_eq]
      exact ⟨⟨rfl, AuthConfigMethods.utf8Valid_toJson _⟩, ⟨rfl, rfl⟩, ⟨rfl, hsessions _⟩,
        ⟨rfl, huuid⟩, ⟨rfl, rfl⟩⟩
  | configCurrentBmcSession =>
      rw [fileData_currentBmc, Json.utf8Valid_object]
      simp only [List.mem_cons, List.not_mem_nil, or_false, forall_eq_or_imp, forall_eq]
      exact ⟨⟨rfl, rfl⟩, ⟨rfl, hsessions _⟩⟩
  | configCurrentServiceSession => rfl

/-- What is written does not depend on the files. -/
theorem fileData_setFile (w : World) (storageType other : ConfigFileStorageType)
    (content : FileContent) :
    fileData (w.setFile other content) storageType = fileData w storageType := by
  cases storageType <;> rfl

/-- A file that is replaced by itself stays. -/
theorem setFile_disk (w : World) (storageType : ConfigFileStorageType) :
    w.setFile storageType (w.disk storageType) = w := by
  simp [World.setFile]

/-- The steps that come after the file was opened, and so emptied. -/
def WriteStep.AfterOpen (step : WriteStep) : Prop :=
  step = .permissions ∨ step = .populate ∨ step = .serialise

/-- The file holds all of its old or all of its new contents. -/
def Whole (before : World) (storageType : ConfigFileStorageType) (content : FileContent) : Prop :=
  content = before.disk storageType ∨
    ∃ hvalid, content = .parsed (fileData before storageType) hvalid

/-- An exception left the write of a file after it was opened. -/
def LeftOpen (faults : Faults) (result : Except WriteFailure Unit)
    (storageType : ConfigFileStorageType) : Prop :=
  faults storageType ≠ some .openFile ∧
    ∃ step : WriteStep, step.AfterOpen ∧ result = .error ⟨storageType, step⟩

/-- The file is damaged: an exception left its write after it was opened, or its stream
failed. -/
def Damaged (faults : Faults) (result : Except WriteFailure Unit)
    (storageType : ConfigFileStorageType) (content : FileContent) : Prop :=
  content = .unparsable ∧
    (LeftOpen faults result storageType ∨ faults storageType = some .flush)

/-- Everything one file's write does: it changes that file only, and the file stays
whole unless it is damaged. -/
theorem writeData_cases (faults : Faults) (storageType : ConfigFileStorageType) (w : World) :
    ∃ content, (writeData faults storageType w).2 = w.setFile storageType content ∧
      (Whole w storageType content ∨
        Damaged faults (writeData faults storageType w).1 storageType content) := by
  have hsame := (setFile_disk w storageType).symm
  have hleft : ∀ step : WriteStep, step.AfterOpen → faults storageType ≠ some .openFile →
      Damaged faults (.error ⟨storageType, step⟩) storageType .unparsable :=
    fun step hafter hopened => ⟨rfl, Or.inl ⟨hopened, step, hafter, rfl⟩⟩
  unfold writeData
  cases hfault : faults storageType with
  | none =>
      rw [hfault] at hleft
      dsimp only
      by_cases hvalid : (fileData w storageType).utf8Valid = true
      · rw [dif_pos hvalid]
        exact ⟨_, rfl, Or.inl (Or.inr ⟨hvalid, rfl⟩)⟩
      · rw [dif_neg hvalid]
        exact ⟨_, rfl, Or.inr (hleft _ (by simp [WriteStep.AfterOpen]) (by simp))⟩
  | some step =>
      rw [hfault] at hleft
      cases step with
      | createConfigPath => exact ⟨_, hsame, Or.inl (Or.inl rfl)⟩
      | openFile =>
          refine ⟨_, ?_, Or.inl (Or.inl rfl)⟩
          rw [← hsame]
          cases w.disk storageType <;> rfl
      | flush => exact ⟨_, rfl, Or.inr ⟨rfl, Or.inr hfault⟩⟩
      | permissions | populate | serialise =>
          exact ⟨_, rfl, Or.inr (hleft _ (by simp [WriteStep.AfterOpen]) (by simp))⟩

/-- Writing files one after the other, up to the first exception. -/
theorem writeFiles_spec (faults : Faults) {files : List ConfigFileStorageType}
    (hnodup : files.Nodup) (w : World) :
    (writeFiles faults files w).2.store = w.store ∧
      (writeFiles faults files w).2.systemUuid = w.systemUuid ∧
      (∀ t, t ∉ files → (writeFiles faults files w).2.disk t = w.disk t) ∧
      ∀ t ∈ files, Whole w t ((writeFiles faults files w).2.disk t) ∨
        Damaged faults (writeFiles faults files w).1 t
          ((writeFiles faults files w).2.disk t) := by
  induction files generalizing w with
  | nil => exact ⟨rfl, rfl, fun _ _ => rfl, fun t ht => absurd ht List.not_mem_nil⟩
  | cons file rest ih =>
      obtain ⟨hfile, hrest⟩ := List.nodup_cons.mp hnodup
      obtain ⟨content, hworld, hcases⟩ := writeData_cases faults file w
      have hhere : (w.setFile file content).disk file = content := by simp [World.setFile]
      have helse : ∀ t, t ≠ file → (w.setFile file content).disk t = w.disk t := by
        intro t ht
        simp [World.setFile, ht]
      rw [writeFiles]
      rcases hwrite : writeData faults file w with ⟨result, written⟩
      rw [hwrite] at hworld hcases
      subst hworld
      cases result with
      | error failure =>
          -- the loop ends here; the files after this one keep their contents
          refine ⟨rfl, rfl, fun t ht => helse t ?_, fun t ht => ?_⟩
          · rintro rfl
            exact ht (List.mem_cons_self ..)
          · by_cases heq : t = file
            · subst heq
              dsimp only
              rw [hhere]
              exact hcases
            · exact Or.inl (Or.inl (helse t heq))
      | ok value =>
          obtain ⟨hstore, huuid, hother, hfiles⟩ := ih hrest (w.setFile file content)
          refine ⟨hstore, huuid, fun t ht => ?_, fun t ht => ?_⟩
          · rw [List.mem_cons, not_or] at ht
            exact (hother t ht.2).trans (helse t ht.1)
          · by_cases heq : t = file
            · subst heq
              have hkept := (hother t hfile).trans hhere
              dsimp only
              rw [hkept]
              rcases hcases with hwhole | ⟨hdamaged, ⟨-, step, -, hraised⟩ | hflush⟩
              · exact Or.inl hwhole
              · exact absurd hraised (by simp)
              · exact Or.inr ⟨hdamaged, Or.inr hflush⟩
            · have hmem := (List.mem_cons.mp ht).resolve_left heq
              rcases hfiles t hmem with hwhole | hdamaged
              · refine Or.inl ?_
                rcases hwhole with hold | ⟨hvalid, hnew⟩
                · exact Or.inl (hold.trans (helse t heq))
                · refine Or.inr ⟨fileData_setFile w t file content ▸ hvalid, ?_⟩
                  refine hnew.trans ?_
                  congr 1
                  exact fileData_setFile w t file content
              · exact Or.inr hdamaged

/-- A commit leaves the store. -/
theorem commit_store (faults : Faults) (w : World) : (commit faults w).2.store = w.store :=
  (writeFiles_spec faults (by decide) w).1

/-- A commit leaves the identifier. -/
theorem commit_systemUuid (faults : Faults) (w : World) :
    (commit faults w).2.systemUuid = w.systemUuid :=
  (writeFiles_spec faults (by decide) w).2.1

/-- What a commit leaves of each file. -/
theorem commit_file (faults : Faults) (w : World) {storageType : ConfigFileStorageType}
    (hfile : storageType ∈ configFilePathDict) :
    Whole w storageType ((commit faults w).2.disk storageType) ∨
      Damaged faults (commit faults w).1 storageType ((commit faults w).2.disk storageType) :=
  (writeFiles_spec faults (by decide) w).2.2.2 storageType hfile

/-- No step of any file's write fails. -/
def Completes (faults : Faults) (w : World) : Prop :=
  ∀ storageType ∈ configFilePathDict,
    faults storageType = none ∧ (fileData w storageType).utf8Valid = true

instance (faults : Faults) (w : World) : Decidable (Completes faults w) :=
  inferInstanceAs (Decidable (∀ storageType ∈ configFilePathDict, _))

/-- Where no step fails, all files are written. -/
private theorem writeFiles_completes {faults : Faults} {files : List ConfigFileStorageType}
    (hnodup : files.Nodup) {w : World}
    (hok : ∀ t ∈ files, faults t = none ∧ (fileData w t).utf8Valid = true) :
    (writeFiles faults files w).1 = .ok () ∧
      ∀ t ∈ files, ∃ hvalid,
        (writeFiles faults files w).2.disk t = .parsed (fileData w t) hvalid := by
  induction files generalizing w with
  | nil => exact ⟨rfl, fun t ht => absurd ht List.not_mem_nil⟩
  | cons file rest ih =>
      obtain ⟨hfile, hrest⟩ := List.nodup_cons.mp hnodup
      obtain ⟨hfault, hvalid⟩ := hok file (List.mem_cons_self ..)
      have hwrite : writeData faults file w =
          (.ok (), w.setFile file (.parsed (fileData w file) hvalid)) := by
        rw [writeData, hfault]
        exact dif_pos hvalid
      have hsame : ∀ t, fileData (w.setFile file (.parsed (fileData w file) hvalid)) t =
          fileData w t := fun t => fileData_setFile w t file _
      have hrestok : ∀ t ∈ rest, faults t = none ∧
          (fileData (w.setFile file (.parsed (fileData w file) hvalid)) t).utf8Valid = true := by
        intro t ht
        rw [hsame]
        exact hok t (List.mem_cons_of_mem _ ht)
      rw [writeFiles, hwrite]
      obtain ⟨hresult, hfiles⟩ := ih hrest hrestok
      refine ⟨hresult, fun t ht => ?_⟩
      by_cases heq : t = file
      · subst heq
        have hkept := (writeFiles_spec faults hrest
          (w.setFile t (.parsed (fileData w t) hvalid))).2.2.1 t hfile
        exact ⟨hvalid, hkept.trans (by simp [World.setFile])⟩
      · obtain ⟨hvalid', hnew⟩ := hfiles t ((List.mem_cons.mp ht).resolve_left heq)
        refine ⟨hsame t ▸ hvalid', hnew.trans ?_⟩
        congr 1
        exact hsame t

/-- A commit without failures writes every file. -/
theorem commit_completes {faults : Faults} {w : World} (hok : Completes faults w) :
    (commit faults w).1 = .ok () ∧
      ∀ t ∈ configFilePathDict, ∃ hvalid,
        (commit faults w).2.disk t = .parsed (fileData w t) hvalid :=
  writeFiles_completes (by decide) hok

/-- What can be written is written where no step fails. -/
theorem World.Writable.completes {w : World} (hw : w.Writable) : Completes Faults.none w :=
  fun storageType _ => ⟨rfl, hw.fileData_valid storageType⟩

end Service
end ObmcWebapp
