import ObmcWebapp.Service.Persistence

/-!
# Service - Writing the files and reading them back

A commit writes the sessions to two files, by their storage, and the flags, the UUID
and the timeout to one of them.  A process that starts with these files gets all of it
back, and the process that wrote them keeps its store, as long as there is a system
UUID.  Without one the load makes one, and its commit overwrites the file that it has
yet to read.

Main results:

- Theorem {lit}`readItems_authMethodsConfig_longTerm`: the flags that a file sets.
- Theorem {lit}`persistedSessions_reread`, {lit}`restorable_perm`: the sessions that the
  files give back.
- Theorem {lit}`roundTrip_iff`: when a commit and a load keep everything.
-/

open Library

namespace ObmcWebapp
namespace Service

/-! ## What is to come back -/

/-- The sessions that are persisted and have all that a restored session needs. -/
def restorable (w : World) : List UserSession :=
  w.store.authTokens.rows.filter fun session =>
    session.persistence ≠ .singleRequest ∧ session.storageType ∈ configFilePathDict ∧
      session.Complete

/-- A load gave back what had been committed.  A restored session has its identity, its
tokens, its user, its address and its storage. -/
structure Restored (now : TimePoint) (w : World) (outcome : Outcome Unit) : Prop where
  returns : outcome.1 = .ok ()
  sessions : outcome.2.store.authTokens.rows.Perm
    ((restorable w).map fun session => session.restored now session.storageType)
  timeout : outcome.2.store.timeoutInSeconds = w.store.timeoutInSeconds
  systemUuid : outcome.2.systemUuid = w.systemUuid
  authMethodsConfig : outcome.2.store.authMethodsConfig = w.store.authMethodsConfig

/-- A load into an empty store gives back what a commit wrote, and a load in the same
process changes nothing in the store. -/
structure RoundTrip (w : World) : Prop where
  restored : ∀ (faults : Faults) (uuid : Uuid) (now : TimePoint) (start : World),
    start.store.authTokens = Table.empty → start.disk = (commit Faults.none w).2.disk →
      Restored now w (readData faults uuid now start)
  unchanged : ∀ (faults : Faults) (uuid : Uuid) (now : TimePoint),
    (readData faults uuid now (commit Faults.none w).2).1 = .ok () ∧
      (readData faults uuid now (commit Faults.none w).2).2.store = w.store

/-! ## The flags of a file -/

/-- The flags after one field. -/
def itemConfig (config : AuthConfigMethods) (item : Bytes × Json) : AuthConfigMethods :=
  if item.1 = keyAuthConfig then config.fromJson item.2 else config

/-- The flags depend on the fields of the file only. -/
theorem readItem_authMethodsConfig (storageType : ConfigFileStorageType) (now : TimePoint)
    (w : World) (item : Bytes × Json) :
    (readItem storageType now w item).store.authMethodsConfig =
      itemConfig w.store.authMethodsConfig item := by
  have hdistinct : keySystemUUID ≠ keyAuthConfig ∧ keySessions ≠ keyAuthConfig ∧
      keyTimeout ≠ keyAuthConfig := by decide
  unfold readItem itemConfig
  split
  · next huuid =>
      rw [huuid, if_neg hdistinct.1]
      split
      · rfl
      · rfl
  · split
    · rfl
    · split
      · rw [foldl_readSession]
      · split
        · split
          · rfl
          · rfl
        · rfl

theorem foldl_readItem_authMethodsConfig (storageType : ConfigFileStorageType) (now : TimePoint)
    (items : List (Bytes × Json)) (w : World) :
    (items.foldl (readItem storageType now) w).store.authMethodsConfig =
      items.foldl itemConfig w.store.authMethodsConfig := by
  induction items generalizing w with
  | nil => rfl
  | cons item rest ih =>
      rw [List.foldl_cons, ih, readItem_authMethodsConfig, List.foldl_cons]

section ReadWritten

variable {now : TimePoint} {w start : World}

/-- The flags come from the long-term file. -/
theorem readItems_authMethodsConfig_longTerm {hvalid}
    (hdisk : start.disk .configLongTermStorage =
      .parsed (fileData w .configLongTermStorage) hvalid) :
    (readItems .configLongTermStorage now start).store.authMethodsConfig =
      w.store.authMethodsConfig := by
  unfold readItems
  rw [hdisk]
  dsimp only
  rw [foldl_readItem_authMethodsConfig, fileData_longTerm]
  have hkeys : keyRevision ≠ keyAuthConfig ∧ keySessions ≠ keyAuthConfig ∧
      keySystemUUID ≠ keyAuthConfig ∧ keyTimeout ≠ keyAuthConfig := by decide
  simp [Json.items, itemConfig, hkeys, AuthConfigMethods.fromJson_toJson]

/-- The other file has no flags. -/
theorem readItems_authMethodsConfig_currentBmc {hvalid}
    (hdisk : start.disk .configCurrentBmcSession =
      .parsed (fileData w .configCurrentBmcSession) hvalid) :
    (readItems .configCurrentBmcSession now start).store.authMethodsConfig =
      start.store.authMethodsConfig := by
  unfold readItems
  rw [hdisk]
  dsimp only
  rw [foldl_readItem_authMethodsConfig, fileData_currentBmc]
  have hkeys : keyRevision ≠ keyAuthConfig ∧ keySessions ≠ keyAuthConfig := by decide
  simp [Json.items, itemConfig, hkeys]

/-! ## The sessions of a file -/

/-- What a written file gives back of its storage. -/
theorem persistedSessions_reread {t : ConfigFileStorageType} (hfile : t ∈ configFilePathDict) :
    (persistedSessions w t).filterMap (rereadSession t now) =
      ((restorable w).filter fun session => session.storageType = t).map
        fun session => session.restored now session.storageType := by
  unfold persistedSessions restorable
  induction w.store.authTokens.rows with
  | nil => rfl
  | cons session rest ih =>
      by_cases htype : session.storageType = t
      · by_cases hpersistence : session.persistence = .singleRequest
        · simpa [UserSession.Persisted, hpersistence] using ih
        · by_cases hcomplete : session.Complete
          · simpa [UserSession.Persisted, rereadSession, hpersistence, hcomplete, htype, hfile]
              using ih
          · simpa [UserSession.Persisted, rereadSession, hpersistence, hcomplete, htype, hfile]
              using ih
      · rw [List.filter_cons_of_neg (by simp [UserSession.Persisted, htype]), ih,
          List.filter_cons]
        split
        · rw [List.filter_cons_of_neg (by simpa using htype)]
        · rfl

/-- The sessions of both storages are the restorable ones. -/
theorem restorable_perm (f : UserSession → UserSession) :
    (((restorable w).filter fun session => session.storageType = .configLongTermStorage).map f ++
        ((restorable w).filter fun session =>
          session.storageType = .configCurrentBmcSession).map f).Perm
      ((restorable w).map f) := by
  have hother : ((restorable w).filter fun session =>
        session.storageType = .configCurrentBmcSession) =
      (restorable w).filter fun session =>
        !decide (session.storageType = .configLongTermStorage) := by
    apply List.filter_congr
    intro session hsession
    have hfile := (of_decide_eq_true (List.mem_filter.mp hsession).2).2.1
    cases htype : session.storageType with
    | configLongTermStorage => rfl
    | configCurrentBmcSession => rfl
    | configCurrentServiceSession => exact absurd (htype ▸ hfile) (by decide)
  rw [hother, ← List.map_append]
  exact (List.filter_append_perm _ _).map f

end ReadWritten

/-! ## The load of committed files -/

section Committed

variable {w : World} (hw : w.Writable)
include hw

/-- A commit without faults leaves a file with the data of the store. -/
private theorem committed_file {t : ConfigFileStorageType} (hfile : t ∈ configFilePathDict) :
    ∃ hvalid, (commit Faults.none w).2.disk t = .parsed (fileData w t) hvalid :=
  (commit_completes hw.completes).2 t hfile

/-- The sessions that both files give back, in the order of the load. -/
private theorem committed_sessions (now : TimePoint) :
    ((commit Faults.none w).2.disk .configLongTermStorage).sessions .configLongTermStorage now ++
        ((commit Faults.none w).2.disk .configCurrentBmcSession).sessions
          .configCurrentBmcSession now =
      ((restorable w).filter fun session => session.storageType = .configLongTermStorage).map
          (fun session => session.restored now session.storageType) ++
        ((restorable w).filter fun session => session.storageType = .configCurrentBmcSession).map
          (fun session => session.restored now session.storageType) := by
  obtain ⟨hlong, hlongEq⟩ := committed_file hw (t := .configLongTermStorage) (by decide)
  obtain ⟨hcurrent, hcurrentEq⟩ := committed_file hw (t := .configCurrentBmcSession) (by decide)
  rw [hlongEq, hcurrentEq, sessions_written (by decide), sessions_written (by decide),
    persistedSessions_reread (by decide), persistedSessions_reread (by decide)]

variable {start : World} (hdisk : start.disk = (commit Faults.none w).2.disk) (now : TimePoint)
include hdisk

/-- The state after both files were read, field by field. -/
private theorem readItems_committed :
    let loaded := readItems .configCurrentBmcSession now
      (readItems .configLongTermStorage now start)
    loaded.systemUuid = w.systemUuid ∧
      (readItems .configLongTermStorage now start).systemUuid = w.systemUuid ∧
      loaded.store.timeoutInSeconds = w.store.timeoutInSeconds ∧
      loaded.store.lastTimeoutUpdate = start.store.lastTimeoutUpdate ∧
      loaded.store.authMethodsConfig = w.store.authMethodsConfig ∧
      loaded.store.authTokens = start.store.authTokens.emplaceAll
        (((commit Faults.none w).2.disk .configLongTermStorage).sessions
            .configLongTermStorage now ++
          ((commit Faults.none w).2.disk .configCurrentBmcSession).sessions
            .configCurrentBmcSession now) := by
  obtain ⟨hlong, hlongEq⟩ := committed_file hw (t := .configLongTermStorage) (by decide)
  obtain ⟨hcurrent, hcurrentEq⟩ := committed_file hw (t := .configCurrentBmcSession) (by decide)
  have hstartLong := (congrFun hdisk .configLongTermStorage).trans hlongEq
  have hstartCurrent : (readItems .configLongTermStorage now start).disk .configCurrentBmcSession =
      .parsed (fileData w .configCurrentBmcSession) hcurrent := by
    rw [readItems_disk]
    exact (congrFun hdisk .configCurrentBmcSession).trans hcurrentEq
  have huuid : (readItems .configLongTermStorage now start).systemUuid = w.systemUuid := by
    rw [readItems_systemUuid, hstartLong, systemUuid_written_longTerm]
    rfl
  intro loaded
  refine ⟨?_, huuid, ?_, ?_, ?_, ?_⟩
  · rw [readItems_systemUuid, hstartCurrent, systemUuid_written_currentBmc]
    exact huuid
  · rw [readItems_timeout, hstartCurrent, timeout_written_currentBmc, readItems_timeout,
      hstartLong, timeout_written_longTerm]
    rfl
  · rw [readItems_lastTimeoutUpdate, readItems_lastTimeoutUpdate]
  · rw [readItems_authMethodsConfig_currentBmc hstartCurrent,
      readItems_authMethodsConfig_longTerm hstartLong]
  · rw [readItems_authTokens, readItems_authTokens, readItems_disk, hdisk,
      Table.emplaceAll_append]

/-- With a system UUID the load only reads. -/
private theorem readData_committed (huuid : w.systemUuid ≠ []) (faults : Faults) (uuid : Uuid) :
    readData faults uuid now start =
      (.ok (), readItems .configCurrentBmcSession now
        (readItems .configLongTermStorage now start)) := by
  obtain ⟨hloaded, hfirst, -⟩ := readItems_committed hw hdisk now
  have hlong : readDataFile faults uuid now .configLongTermStorage start =
      (.ok (), readItems .configLongTermStorage now start) := by
    cases readDataFile_cases faults uuid now .configLongTermStorage start with
    | inl hdone => exact hdone.2
    | inr hcommits => exact absurd (hfirst.symm.trans hcommits.2.1) huuid
  unfold readData configFilePathDict
  rw [readFiles, hlong]
  dsimp only
  rw [readFiles]
  cases readDataFile_cases faults uuid now .configCurrentBmcSession
      (readItems .configLongTermStorage now start) with
  | inl hdone => rw [hdone.2]; rfl
  | inr hcommits => exact absurd (hloaded.symm.trans hcommits.2.1) huuid

/-- An empty store gets everything back. -/
theorem restored_of_committed (huuid : w.systemUuid ≠ [])
    (hempty : start.store.authTokens = Table.empty) (faults : Faults) (uuid : Uuid) :
    Restored now w (readData faults uuid now start) := by
  obtain ⟨hloaded, -, htimeout, -, hconfig, htokens⟩ := readItems_committed hw hdisk now
  rw [readData_committed hw hdisk now huuid faults uuid]
  refine ⟨rfl, ?_, htimeout, hloaded, hconfig⟩
  have hperm := @restorable_perm w fun session => session.restored now session.storageType
  have hkeys : ((restorable w).map fun session => session.restored now session.storageType).map
      UserSession.sessionToken = (restorable w).map UserSession.sessionToken := by
    rw [List.map_map]
    rfl
  have hnodup : ((restorable w).map UserSession.sessionToken).Nodup :=
    w.store.authTokens.nodup.sublist (List.filter_sublist.map _)
  have hdistinct := (hperm.map UserSession.sessionToken).nodup_iff.mpr (hkeys ▸ hnodup)
  rw [htokens, hempty, committed_sessions hw now,
    Table.rows_emplaceAll_of_nodup hdistinct fun row _ => Table.not_has_empty _]
  exact hperm

omit hw hdisk in
/-- Two stores with the same four fields are the same. -/
private theorem SessionStore.eq_of_fields {store other : SessionStore}
    (hlast : store.lastTimeoutUpdate = other.lastTimeoutUpdate)
    (htimeout : store.timeoutInSeconds = other.timeoutInSeconds)
    (hconfig : store.authMethodsConfig = other.authMethodsConfig)
    (htokens : store.authTokens = other.authTokens) : store = other := by
  cases store
  cases other
  simp_all

/-- The store that was written is not changed. -/
theorem store_of_committed (huuid : w.systemUuid ≠ []) (hsame : start.store = w.store)
    (faults : Faults) (uuid : Uuid) :
    (readData faults uuid now start).1 = .ok () ∧
      (readData faults uuid now start).2.store = w.store := by
  obtain ⟨-, -, htimeout, hlast, hconfig, htokens⟩ := readItems_committed hw hdisk now
  rw [readData_committed hw hdisk now huuid faults uuid]
  refine ⟨rfl, ?_⟩
  have htaken : ∀ session ∈
      ((commit Faults.none w).2.disk .configLongTermStorage).sessions .configLongTermStorage now ++
        ((commit Faults.none w).2.disk .configCurrentBmcSession).sessions
          .configCurrentBmcSession now,
      w.store.authTokens.Has session.sessionToken := by
    intro session hsession
    rw [committed_sessions hw now] at hsession
    have hmem := (restorable_perm _).subset hsession
    obtain ⟨old, hold, rfl⟩ := List.mem_map.mp hmem
    exact ⟨old, (List.mem_filter.mp hold).1, rfl⟩
  apply SessionStore.eq_of_fields
  · rw [hlast, hsame]
  · exact htimeout
  · exact hconfig
  · rw [htokens, hsame]
    exact Table.emplaceAll_of_has htaken

end Committed

/-! ## Without a system UUID -/

/-- A load that gets past its first file ends with a system UUID. -/
theorem readDataFile_systemUuid_ne_nil {w : World} {t : ConfigFileStorageType} (faults : Faults)
    (uuid : Uuid) (now : TimePoint)
    (hparse : w.systemUuid ≠ [] ∨ w.disk t ≠ .unparsable) :
    (readDataFile faults uuid now t w).2.systemUuid ≠ [] := by
  cases readDataFile_cases faults uuid now t w with
  | inl hdone =>
      obtain ⟨hcase, heq⟩ := hdone
      rw [heq]
      cases hcase with
      | inl hunparsable =>
          have hmemory := hparse.resolve_right (not_not.mpr hunparsable)
          rw [readItems_systemUuid, hunparsable]
          exact hmemory
      | inr hread => exact hread
  | inr hcommits =>
      rw [hcommits.2.2, commit_systemUuid]
      exact uuid.text_ne_nil

/-- A load after which the long-term file parses leaves a UUID. -/
theorem readData_systemUuid_ne_nil {w : World} (faults : Faults) (uuid : Uuid) (now : TimePoint)
    (hparse : w.disk .configLongTermStorage ≠ .unparsable) :
    (readData faults uuid now w).2.systemUuid ≠ [] := by
  have hfirst := readDataFile_systemUuid_ne_nil faults uuid now (Or.inr hparse)
  unfold readData configFilePathDict
  rw [readFiles]
  cases hload : readDataFile faults uuid now .configLongTermStorage w with
  | mk result loaded =>
      rw [hload] at hfirst
      cases result with
      | error failure => exact hfirst
      | ok value =>
          have hsecond := @readDataFile_systemUuid_ne_nil loaded .configCurrentBmcSession faults
            uuid now (Or.inl hfirst)
          dsimp only
          rw [readFiles]
          cases hnext : readDataFile faults uuid now .configCurrentBmcSession loaded with
          | mk result last =>
              rw [hnext] at hsecond
              cases result with
              | error failure => exact hsecond
              | ok value => exact hsecond

/-- An empty UUID does not come back. -/
theorem not_roundTrip {w : World} (hw : w.Writable) (huuid : w.systemUuid = []) :
    ¬ RoundTrip w := by
  intro hround
  obtain ⟨hvalid, hfile⟩ := committed_file hw (t := .configLongTermStorage) (by decide)
  have hdisk : (commit Faults.none w).2.disk .configLongTermStorage ≠ .unparsable := by
    rw [hfile]
    exact FileContent.noConfusion
  have hrestored := hround.restored Faults.none sampleUuid 0
    (World.initial (commit Faults.none w).2.disk) rfl rfl
  have hnew := readData_systemUuid_ne_nil Faults.none sampleUuid 0
    (w := World.initial (commit Faults.none w).2.disk) hdisk
  exact hnew (hrestored.systemUuid.trans huuid)

/-- A commit and a load keep the sessions, the timeout, the UUID and the flags exactly
where there is a UUID to keep. -/
theorem roundTrip_iff {w : World} (hw : w.Writable) : RoundTrip w ↔ w.systemUuid ≠ [] := by
  constructor
  · intro hround huuid
    exact not_roundTrip hw huuid hround
  · intro huuid
    refine ⟨?_, ?_⟩
    · intro faults uuid now start hempty hdisk
      exact restored_of_committed hw hdisk now huuid hempty faults uuid
    · intro faults uuid now
      exact store_of_committed hw rfl now huuid (commit_store _ _) faults uuid

/-- A store with two sessions and a UUID comes back. -/
theorem roundTrip_sample : RoundTrip sampleWorld ↔ sampleWorld.systemUuid ≠ [] :=
  roundTrip_iff sampleWorld_writable

/-- A process that found two files it could not parse, and in which a session of each
storage was opened. -/
def orphanWorld : World :=
  { sampleWorld with systemUuid := [], disk := fun _ => .unparsable }

/-- The load of such files ends without a UUID.  The load after the next commit makes one
and loses the session of the file that it overwrites before it was read. -/
theorem orphan_not_roundTrip :
    (readData Faults.none sampleUuid 0 (World.initial fun _ => .unparsable)).2.systemUuid = [] ∧
      ((readData Faults.none sampleUuid 0
        (World.initial (commit Faults.none orphanWorld).2.disk)).2.store.authTokens.rows.map
          UserSession.sessionToken = [List.replicate sessionTokenSize 0x61]) ∧
      orphanWorld.Writable ∧ ¬ RoundTrip orphanWorld := by
  have hwritable : orphanWorld.Writable :=
    ⟨rfl, sampleWorld_writable.session⟩
  exact ⟨rfl, by decide, hwritable, not_roundTrip hwritable rfl⟩

end Service
end ObmcWebapp
