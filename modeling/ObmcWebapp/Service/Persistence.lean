import ObmcWebapp.Service.ConfigFile

/-!
# Service - What the files keep

Two questions about the files as a whole: which sessions survive the first load of
a process, and what a commit leaves behind when it fails.

Main results:

- Theorem {lit}`keepsSessions_iff`: the first load keeps every session exactly when
  it does not write a file that it has yet to read.
- Theorem {lit}`commit_keeps_file`: a failing commit damages at most the file that
  it was writing.
-/

open Library

namespace ObmcWebapp
namespace Service

/-! ## Sessions of a file -/

/-- A session as a file restores it. -/
structure UserSession.FromFile (storageType : ConfigFileStorageType) (now : TimePoint)
    (session : UserSession) : Prop where
  complete : session.Complete
  utf8Valid : session.Utf8Valid
  restored_eq : session = session.restored now storageType

/-- A session of a file is written into it again. -/
theorem UserSession.FromFile.persisted {storageType : ConfigFileStorageType} {now : TimePoint}
    {session : UserSession} (h : session.FromFile storageType now) :
    session.Persisted storageType := by
  rw [h.restored_eq]
  exact ⟨by simp [UserSession.restored], rfl⟩

/-- The sessions of a file are marked with it. -/
theorem fromFile_of_mem_sessions {content : FileContent} {storageType : ConfigFileStorageType}
    {now : TimePoint} {session : UserSession} (hmem : session ∈ content.sessions storageType now) :
    session.FromFile storageType now := by
  cases content with
  | missing => simp [FileContent.sessions] at hmem
  | unparsable => simp [FileContent.sessions] at hmem
  | parsed json valid =>
      obtain ⟨item, hitem, hsession⟩ := List.mem_flatMap.mp hmem
      unfold itemSessions at hsession
      split at hsession
      · obtain ⟨elem, helem, hread⟩ := List.mem_filterMap.mp hsession
        obtain ⟨read, hfrom, rfl⟩ := Option.map_eq_some_iff.mp hread
        have hvalid := Json.utf8Valid_of_mem_elements (Json.utf8Valid_of_mem_items valid hitem) helem
        have hutf8 := UserSession.utf8Valid_of_fromJson hvalid hfrom
        obtain ⟨hcomplete, hnow, -⟩ := UserSession.fromJson_eq_some hfrom
        have hplain := UserSession.plain_of_fromJson hfrom
        refine ⟨hcomplete, ⟨hutf8.1, hutf8.2, hutf8.3, hutf8.4, hutf8.5⟩, ?_⟩
        unfold UserSession.Plain at hplain
        rw [hplain, hnow]
        rfl
      · exact absurd hsession List.not_mem_nil

/-- A session that came from a file is found again in the file once written. -/
theorem mem_sessions_written {w : World} {storageType : ConfigFileStorageType}
    (hfile : storageType ∈ configFilePathDict) {now : TimePoint} {session : UserSession}
    (hfrom : session.FromFile storageType now) (hmem : session ∈ w.store.authTokens)
    (hvalid : (fileData w storageType).utf8Valid = true) :
    session ∈ (FileContent.parsed (fileData w storageType) hvalid).sessions storageType now := by
  rw [sessions_written hfile]
  refine List.mem_filterMap.mpr ⟨session, ?_, ?_⟩
  · exact List.mem_filter.mpr ⟨hmem, decide_eq_true hfrom.persisted⟩
  · rw [rereadSession, if_pos hfrom.complete, ← hfrom.restored_eq]

/-! ## The first load -/

/-- The state at process start. -/
def World.initial (disk : Disk) : World := { disk }

section FirstLoad

variable (disk : Disk) (uuid : Uuid) (now : TimePoint)

/-- The state after some of the files were loaded. -/
def loadedFiles (files : List ConfigFileStorageType) : World :=
  (readFiles Faults.none uuid now files (World.initial disk)).2

/-- The first load keeps all sessions: they get into memory, they stay in their
files, and whenever a file has been overwritten its sessions had been read. -/
structure KeepsSessions : Prop where
  loaded : ∀ t ∈ configFilePathDict, ∀ session ∈ (disk t).sessions t now,
    session ∈ (readData Faults.none uuid now (World.initial disk)).2.store.authTokens
  kept : ∀ t ∈ configFilePathDict, ∀ session ∈ (disk t).sessions t now,
    session ∈ ((readData Faults.none uuid now (World.initial disk)).2.disk t).sessions t now
  readFirst : ∀ done rest, configFilePathDict = done ++ rest → ∀ t ∈ configFilePathDict,
    (loadedFiles disk uuid now done).disk t ≠ disk t →
      ∀ session ∈ (disk t).sessions t now,
        session ∈ (loadedFiles disk uuid now done).store.authTokens

/-- The long-term file has no system UUID to offer although its load gets that far. -/
def LacksSystemUuid : Prop :=
  disk .configLongTermStorage ≠ .unparsable ∧
    (disk .configLongTermStorage).systemUuid.getD [] = []

/-- The sessions of the two files. -/
def fileSessions : List UserSession :=
  (disk .configLongTermStorage).sessions .configLongTermStorage now ++
    (disk .configCurrentBmcSession).sessions .configCurrentBmcSession now

end FirstLoad

variable {disk : Disk} {uuid : Uuid} {now : TimePoint}

/-- Reading a file adds sessions of that file only. -/
theorem fromFile_of_mem_readItems {w : World} {t : ConfigFileStorageType} {session : UserSession}
    (hmem : session ∈ (readItems t now w).store.authTokens) :
    session ∈ w.store.authTokens ∨ session.FromFile t now := by
  rw [readItems_authTokens] at hmem
  rcases Table.mem_emplaceAll hmem with hold | ⟨hnew, -⟩
  · exact Or.inl hold
  · exact Or.inr (fromFile_of_mem_sessions hnew)

/-- The load of one file without failures: it reads the file, and if it also
commits, both files hold what is in memory by then. -/
theorem readDataFile_outcome (uuid : Uuid) (now : TimePoint) {w : World}
    (t : ConfigFileStorageType)
    (hsessions : ∀ session ∈ w.store.authTokens, session.Utf8Valid) :
    (readDataFile Faults.none uuid now t w).1 = .ok () ∧
      (readDataFile Faults.none uuid now t w).2.store = (readItems t now w).store ∧
      (((w.disk t = .unparsable ∨ (readItems t now w).systemUuid ≠ []) ∧
          (readDataFile Faults.none uuid now t w).2.disk = w.disk) ∨
        (w.disk t ≠ .unparsable ∧ (readItems t now w).systemUuid = [] ∧
          (readDataFile Faults.none uuid now t w).2.systemUuid = uuid.text ∧
          ∀ file ∈ configFilePathDict, ∃ saved hvalid, saved.store = (readItems t now w).store ∧
            (readDataFile Faults.none uuid now t w).2.disk file =
              .parsed (fileData saved file) hvalid)) := by
  rcases readDataFile_cases Faults.none uuid now t w with ⟨hdone, heq⟩ | ⟨hparse, huuid, heq⟩
  · rw [heq]
    exact ⟨rfl, rfl, Or.inl ⟨hdone, readItems_disk t now w⟩⟩
  · have hwritable : World.Writable { readItems t now w with systemUuid := uuid.text } := by
      refine ⟨uuid.valid, fun session hmem _ => ?_⟩
      rcases fromFile_of_mem_readItems hmem with hold | hnew
      · exact hsessions session hold
      · exact hnew.utf8Valid
    obtain ⟨hresult, hfiles⟩ := commit_completes hwritable.completes
    rw [heq]
    refine ⟨hresult, commit_store _ _, Or.inr ⟨hparse, huuid, commit_systemUuid _ _, ?_⟩⟩
    intro file hfile
    obtain ⟨hvalid, hdisk⟩ := hfiles file hfile
    exact ⟨_, hvalid, rfl, hdisk⟩

section TwoFiles

variable (disk uuid now)

/-- The state after the long-term file was loaded. -/
private def afterFirst : World :=
  (readDataFile Faults.none uuid now .configLongTermStorage (World.initial disk)).2

/-- The state after the second file. -/
private def afterSecond : World :=
  (readDataFile Faults.none uuid now .configCurrentBmcSession (afterFirst disk uuid now)).2

/-- Reading the first file. -/
private theorem afterFirst_outcome :
    (readDataFile Faults.none uuid now .configLongTermStorage (World.initial disk)).1 = .ok () ∧
      (afterFirst disk uuid now).store =
        (readItems .configLongTermStorage now (World.initial disk)).store ∧
      ((¬ LacksSystemUuid disk ∧ (afterFirst disk uuid now).disk = disk) ∨
        (LacksSystemUuid disk ∧ (afterFirst disk uuid now).systemUuid ≠ [] ∧
          ∀ file ∈ configFilePathDict, ∃ saved hvalid,
            saved.store = (afterFirst disk uuid now).store ∧
            (afterFirst disk uuid now).disk file = .parsed (fileData saved file) hvalid)) := by
  have hblank : ∀ session ∈ (World.initial disk).store.authTokens, session.Utf8Valid :=
    fun session hmem => absurd hmem (Table.not_mem_empty session)
  obtain ⟨hresult, hstore, hcases⟩ :=
    readDataFile_outcome uuid now .configLongTermStorage hblank
  have huuid := readItems_systemUuid .configLongTermStorage now (World.initial disk)
  refine ⟨hresult, hstore, ?_⟩
  rcases hcases with ⟨hdone, hdisk⟩ | ⟨hparse, hempty, hnew, hfiles⟩
  · refine Or.inl ⟨?_, hdisk⟩
    rintro ⟨hparse, hlacks⟩
    exact hdone.elim hparse fun h => h (huuid.trans hlacks)
  · refine Or.inr ⟨⟨hparse, huuid.symm.trans hempty⟩, ?_, ?_⟩
    · exact hnew ▸ uuid.text_ne_nil
    · intro file hfile
      obtain ⟨saved, hvalid, hsaved, hdisk⟩ := hfiles file hfile
      exact ⟨saved, hvalid, hsaved.trans hstore.symm, hdisk⟩

/-- The sessions are those of the first file. -/
private theorem afterFirst_fromFile {session : UserSession}
    (hmem : session ∈ (afterFirst disk uuid now).store.authTokens) :
    session.FromFile .configLongTermStorage now := by
  rw [(afterFirst_outcome disk uuid now).2.1] at hmem
  rcases fromFile_of_mem_readItems hmem with hold | hnew
  · exact absurd hold (Table.not_mem_empty session)
  · exact hnew

/-- Their texts are valid. -/
private theorem afterFirst_utf8Valid :
    ∀ session ∈ (afterFirst disk uuid now).store.authTokens, session.Utf8Valid :=
  fun _ hmem => (afterFirst_fromFile disk uuid now hmem).utf8Valid

/-- The first file is loaded first. -/
private theorem loadedFiles_first :
    loadedFiles disk uuid now [.configLongTermStorage] = afterFirst disk uuid now := by
  have hfirst := (afterFirst_outcome disk uuid now).1
  unfold loadedFiles afterFirst
  rw [readFiles]
  rcases h : readDataFile Faults.none uuid now .configLongTermStorage (World.initial disk) with
    ⟨result, w⟩
  rw [h] at hfirst
  obtain rfl := hfirst
  rfl

/-- Then the second file is loaded. -/
private theorem loadedFiles_both :
    loadedFiles disk uuid now configFilePathDict = afterSecond disk uuid now := by
  have hfirst := (afterFirst_outcome disk uuid now).1
  have hsecond := (readDataFile_outcome uuid now .configCurrentBmcSession
    (afterFirst_utf8Valid disk uuid now)).1
  unfold loadedFiles afterSecond configFilePathDict
  unfold afterFirst at *
  rw [readFiles]
  rcases h : readDataFile Faults.none uuid now .configLongTermStorage (World.initial disk) with
    ⟨result, w⟩
  rw [h] at hfirst hsecond
  obtain rfl := hfirst
  dsimp only at hsecond ⊢
  rw [readFiles]
  rcases h' : readDataFile Faults.none uuid now .configCurrentBmcSession w with ⟨result', w'⟩
  rw [h'] at hsecond
  obtain rfl := hsecond
  rfl

/-- The sessions in memory after the load are those of the long-term file and, if
it was still as found, those of the other. -/
private theorem afterSecond_store :
    (afterSecond disk uuid now).store.authTokens =
      Table.empty.emplaceAll
        ((disk .configLongTermStorage).sessions .configLongTermStorage now ++
          ((afterFirst disk uuid now).disk .configCurrentBmcSession).sessions
            .configCurrentBmcSession now) := by
  have hsecond := (readDataFile_outcome uuid now .configCurrentBmcSession
    (afterFirst_utf8Valid disk uuid now)).2.1
  have hfirst := (afterFirst_outcome disk uuid now).2.1
  unfold afterSecond
  rw [hsecond, readItems_authTokens, hfirst, readItems_authTokens, Table.emplaceAll_append]
  rfl

/-- A commit from inside the first file's load empties the other file of sessions. -/
private theorem sessions_clobbered (hlacks : LacksSystemUuid disk) :
    ((afterFirst disk uuid now).disk .configCurrentBmcSession).sessions
      .configCurrentBmcSession now = [] := by
  rcases (afterFirst_outcome disk uuid now).2.2 with ⟨hnot, -⟩ | ⟨-, -, hfiles⟩
  · exact absurd hlacks hnot
  · obtain ⟨saved, hvalid, hstore, hdisk⟩ := hfiles .configCurrentBmcSession (by decide)
    rw [hdisk, sessions_written (by decide)]
    have hnone : persistedSessions saved .configCurrentBmcSession = [] := by
      refine List.filter_eq_nil_iff.mpr fun session hmem => ?_
      have hfrom := afterFirst_fromFile disk uuid now (hstore ▸ hmem)
      have htype := hfrom.persisted.2
      simp [UserSession.Persisted, htype]
    rw [hnone]
    rfl

/-- The sessions of both files. -/
private theorem mem_fileSessions {t : ConfigFileStorageType} (hfile : t ∈ configFilePathDict)
    {session : UserSession} (hmem : session ∈ (disk t).sessions t now) :
    session ∈ fileSessions disk now := by
  rcases List.mem_cons.mp hfile with rfl | hfile
  · exact List.mem_append_left _ hmem
  · obtain rfl := List.mem_singleton.mp hfile
    exact List.mem_append_right _ hmem

/-- There are two files. -/
private theorem split_configFilePathDict {done rest : List ConfigFileStorageType}
    (h : configFilePathDict = done ++ rest) :
    done = [] ∨ done = [.configLongTermStorage] ∨ done = configFilePathDict := by
  rcases done with _ | ⟨t, _ | ⟨t', _ | ⟨t'', done⟩⟩⟩
  · exact Or.inl rfl
  · refine Or.inr (Or.inl ?_)
    simp only [configFilePathDict, List.cons_append, List.nil_append, List.cons.injEq] at h
    rw [h.1]
  · refine Or.inr (Or.inr ?_)
    simp only [configFilePathDict, List.cons_append, List.nil_append, List.cons.injEq] at h
    rw [← h.1, ← h.2.1]
    rfl
  · simp [configFilePathDict] at h

/-- Without the early commit, or with nothing to lose to it, all sessions get into
memory. -/
private theorem mem_afterSecond
    (htokens : ((fileSessions disk now).map UserSession.sessionToken).Nodup)
    (hall : ((afterFirst disk uuid now).disk .configCurrentBmcSession).sessions
        .configCurrentBmcSession now =
      (disk .configCurrentBmcSession).sessions .configCurrentBmcSession now)
    {session : UserSession} (hmem : session ∈ fileSessions disk now) :
    session ∈ (afterSecond disk uuid now).store.authTokens := by
  rw [afterSecond_store, hall]
  exact Table.mem_emplaceAll_of_nodup htokens (fun row _ => Table.not_has_empty _) hmem

/-- Where tokens differ, the sessions of the first file are in memory. -/
private theorem mem_afterFirst
    (htokens : ((fileSessions disk now).map UserSession.sessionToken).Nodup)
    {session : UserSession}
    (hmem : session ∈ (disk .configLongTermStorage).sessions .configLongTermStorage now) :
    session ∈ (afterFirst disk uuid now).store.authTokens := by
  have hlong : (((disk .configLongTermStorage).sessions .configLongTermStorage now).map
      UserSession.sessionToken).Nodup := by
    unfold fileSessions at htokens
    rw [List.map_append] at htokens
    exact (List.nodup_append.mp htokens).1
  rw [(afterFirst_outcome disk uuid now).2.1, readItems_authTokens]
  exact Table.mem_emplaceAll_of_nodup hlong (fun row _ => Table.not_has_empty _) hmem

/-- The early commit loses the sessions of the file that was not read yet. -/
private theorem not_keepsSessions (hlacks : LacksSystemUuid disk)
    (hsessions : (disk .configCurrentBmcSession).sessions .configCurrentBmcSession now ≠ []) :
    ¬ KeepsSessions disk uuid now := by
  intro hkeeps
  obtain ⟨session, hmem⟩ := List.exists_mem_of_ne_nil _ hsessions
  have hchanged : (afterFirst disk uuid now).disk .configCurrentBmcSession ≠
      disk .configCurrentBmcSession := by
    intro hsame
    rw [← hsame, sessions_clobbered disk uuid now hlacks] at hmem
    exact List.not_mem_nil hmem
  have hread := hkeeps.readFirst [.configLongTermStorage] [.configCurrentBmcSession] rfl
    .configCurrentBmcSession (by decide)
  rw [loadedFiles_first] at hread
  have htype := (afterFirst_fromFile disk uuid now (hread hchanged session hmem)).persisted.2
  exact absurd (htype.symm.trans (fromFile_of_mem_sessions hmem).persisted.2) (by decide)

section NothingLost

variable (hnot : ¬ (LacksSystemUuid disk ∧
  (disk .configCurrentBmcSession).sessions .configCurrentBmcSession now ≠ []))
include hnot

/-- The first file's load changes the disk only where nothing is lost. -/
private theorem afterFirst_loses_nothing :
    (afterFirst disk uuid now).disk = disk ∨
      (LacksSystemUuid disk ∧
        (disk .configCurrentBmcSession).sessions .configCurrentBmcSession now = []) := by
  rcases (afterFirst_outcome disk uuid now).2.2 with ⟨-, hsame⟩ | ⟨hlacks, -⟩
  · exact Or.inl hsame
  · exact Or.inr ⟨hlacks, not_not.mp fun h => hnot ⟨hlacks, h⟩⟩

/-- Reading the first file leaves the second. -/
private theorem sessions_afterFirst :
    ((afterFirst disk uuid now).disk .configCurrentBmcSession).sessions
        .configCurrentBmcSession now =
      (disk .configCurrentBmcSession).sessions .configCurrentBmcSession now := by
  rcases afterFirst_loses_nothing disk uuid now hnot with hsame | ⟨hlacks, hempty⟩
  · rw [hsame]
  · rw [hempty, sessions_clobbered disk uuid now hlacks]

variable (htokens : ((fileSessions disk now).map UserSession.sessionToken).Nodup)
include htokens

/-- The sessions of both files are in memory then. -/
private theorem memory_afterSecond {t : ConfigFileStorageType} (hfile : t ∈ configFilePathDict)
    {session : UserSession} (hmem : session ∈ (disk t).sessions t now) :
    session ∈ (afterSecond disk uuid now).store.authTokens :=
  mem_afterSecond disk uuid now htokens (sessions_afterFirst disk uuid now hnot)
    (mem_fileSessions disk now hfile hmem)

/-- Those of the files are still there after the first. -/
private theorem disk_afterFirst {t : ConfigFileStorageType} (hfile : t ∈ configFilePathDict)
    {session : UserSession} (hmem : session ∈ (disk t).sessions t now) :
    session ∈ ((afterFirst disk uuid now).disk t).sessions t now := by
  rcases afterFirst_loses_nothing disk uuid now hnot with hsame | ⟨hlacks, hempty⟩
  · rw [hsame]
    exact hmem
  · rcases List.mem_cons.mp hfile with rfl | hfile
    · -- the early commit writes the file that was just read
      rcases (afterFirst_outcome disk uuid now).2.2 with ⟨hfound, -⟩ | ⟨-, -, hfiles⟩
      · exact absurd hlacks hfound
      · obtain ⟨saved, hvalid, hstore, hwritten⟩ := hfiles .configLongTermStorage (by decide)
        rw [hwritten]
        exact mem_sessions_written (by decide) (fromFile_of_mem_sessions hmem)
          (hstore ▸ mem_afterFirst disk uuid now htokens hmem) hvalid
    · obtain rfl := List.mem_singleton.mp hfile
      rw [hempty] at hmem
      exact absurd hmem List.not_mem_nil

private theorem disk_afterSecond {t : ConfigFileStorageType} (hfile : t ∈ configFilePathDict)
    {session : UserSession} (hmem : session ∈ (disk t).sessions t now) :
    session ∈ ((afterSecond disk uuid now).disk t).sessions t now := by
  obtain ⟨-, hstored, hdisk⟩ := readDataFile_outcome uuid now .configCurrentBmcSession
    (afterFirst_utf8Valid disk uuid now)
  rcases hdisk with ⟨-, hsame⟩ | ⟨-, -, -, hfiles⟩
  · have hsecond : (afterSecond disk uuid now).disk = (afterFirst disk uuid now).disk := hsame
    rw [hsecond]
    exact disk_afterFirst disk uuid now hnot htokens hfile hmem
  · obtain ⟨saved, hvalid, hstore, hwritten⟩ := hfiles t hfile
    have hsecond : (afterSecond disk uuid now).disk t = .parsed (fileData saved t) hvalid :=
      hwritten
    rw [hsecond]
    refine mem_sessions_written hfile (fromFile_of_mem_sessions hmem) ?_ hvalid
    rw [hstore, ← hstored]
    exact memory_afterSecond disk uuid now hnot htokens hfile hmem

/-- Where tokens differ, the sessions are kept. -/
private theorem keepsSessions_of_not : KeepsSessions disk uuid now := by
  have hload := loadedFiles_both disk uuid now
  unfold loadedFiles at hload
  refine ⟨?_, ?_, ?_⟩
  · intro t hfile session hmem
    rw [readData, hload]
    exact memory_afterSecond disk uuid now hnot htokens hfile hmem
  · intro t hfile session hmem
    rw [readData, hload]
    exact disk_afterSecond disk uuid now hnot htokens hfile hmem
  · intro done rest hsplit t hfile hchanged session hmem
    rcases split_configFilePathDict hsplit with rfl | rfl | rfl
    · exact absurd rfl hchanged
    · rw [loadedFiles_first] at hchanged ⊢
      rcases afterFirst_loses_nothing disk uuid now hnot with hsame | ⟨-, hempty⟩
      · exact absurd (congrFun hsame t) hchanged
      · rcases List.mem_cons.mp hfile with rfl | hfile
        · exact mem_afterFirst disk uuid now htokens hmem
        · obtain rfl := List.mem_singleton.mp hfile
          rw [hempty] at hmem
          exact absurd hmem List.not_mem_nil
    · rw [loadedFiles_both]
      exact memory_afterSecond disk uuid now hnot htokens hfile hmem

end NothingLost

end TwoFiles

/-- The first load keeps all sessions exactly when it does not have to write the
other file, with sessions in it, before that file was read. -/
theorem keepsSessions_iff
    (htokens : ((fileSessions disk now).map UserSession.sessionToken).Nodup) :
    KeepsSessions disk uuid now ↔
      ¬ (LacksSystemUuid disk ∧
        (disk .configCurrentBmcSession).sessions .configCurrentBmcSession now ≠ []) := by
  constructor
  · rintro hkeeps ⟨hlacks, hsessions⟩
    exact not_keepsSessions disk uuid now hlacks hsessions hkeeps
  · intro hnot
    exact keepsSessions_of_not disk uuid now hnot htokens

/-! ### Two concrete disks -/

/-- A session with a token of 20 equal characters. -/
def sampleSession (c : UInt8) (storageType : ConfigFileStorageType) : UserSession where
  uniqueId := bytes "Mo1ZGzpvWh"
  sessionToken := List.replicate sessionTokenSize c
  username := bytes "root"
  csrfToken := List.replicate sessionTokenSize 0x63
  storageType := storageType

/-- The length of an identifier. -/
theorem sampleUuid_length : (bytes "1B4E28BA-2FA1-11D2-883F-0016D3CCA427").length = 36 := by
  decide

/-- An identifier is valid. -/
theorem sampleUuid_valid : Utf8.Valid (bytes "1B4E28BA-2FA1-11D2-883F-0016D3CCA427") := by
  decide

/-- An identifier that may be drawn. -/
def sampleUuid : Uuid where
  text := bytes "1B4E28BA-2FA1-11D2-883F-0016D3CCA427"
  length_eq := sampleUuid_length
  valid := sampleUuid_valid

/-- Each file has a session. -/
def sampleTokens : AuthTokenDict :=
  Table.empty.emplaceAll
    [sampleSession 0x61 .configLongTermStorage, sampleSession 0x62 .configCurrentBmcSession]

/-- A process with one session of each storage. -/
def sampleWorld : World where
  store := { authTokens := sampleTokens }
  systemUuid := sampleUuid.text
  disk := fun _ => .missing

/-- What is in memory can be written. -/
theorem sampleWorld_writable : sampleWorld.Writable where
  systemUuid := sampleUuid.valid
  session := by
    intro session hmem _
    rcases Table.mem_emplaceAll hmem with hold | ⟨hnew, -⟩
    · exact absurd hold (Table.not_mem_empty session)
    · simp only [List.mem_cons, List.not_mem_nil, or_false] at hnew
      rcases hnew with rfl | rfl <;> exact ⟨rfl, rfl, rfl, rfl, rfl⟩

/-- The files that this process leaves, with the long-term file there or absent. -/
def sampleDisk (longTerm : Bool) : Disk
  | .configLongTermStorage =>
      if longTerm then
        .parsed (fileData sampleWorld .configLongTermStorage) (sampleWorld_writable.fileData_valid _)
      else .missing
  | .configCurrentBmcSession =>
      .parsed (fileData sampleWorld .configCurrentBmcSession) (sampleWorld_writable.fileData_valid _)
  | .configCurrentServiceSession => .missing

/-- The sessions of both files are kept. -/
theorem keepsSessions_sample : KeepsSessions (sampleDisk true) sampleUuid 0 :=
  (keepsSessions_iff (by decide)).mpr fun h => absurd h.1.2 (by decide)

/-- Without the long-term file the sessions of the other are gone after the load. -/
theorem firstLoad_loses_sessions :
    ¬ ∀ (disk : Disk) (uuid : Uuid) (now : TimePoint),
      ((fileSessions disk now).map UserSession.sessionToken).Nodup →
        KeepsSessions disk uuid now := by
  intro h
  refine not_keepsSessions (sampleDisk false) sampleUuid 0 ⟨?_, rfl⟩ (by decide)
    (h (sampleDisk false) sampleUuid 0 (by decide))
  intro hparse
  cases hparse

/-! ## A failing commit -/

/-- Whatever step of a commit fails by an exception: a file that was not being written when
it was raised, or was not opened by then, holds all of its old or all of its new contents,
and so gives back the sessions of one or the other. -/
theorem commit_keeps_file (faults : Faults) (w : World) {t : ConfigFileStorageType}
    (hfile : t ∈ configFilePathDict) (hraises : faults t ≠ some .flush)
    (hother : ¬ LeftOpen faults (commit faults w).1 t) :
    Whole w t ((commit faults w).2.disk t) ∧
      ∀ now, ((commit faults w).2.disk t).sessions t now = (w.disk t).sessions t now ∨
        ((commit faults w).2.disk t).sessions t now =
          (persistedSessions w t).filterMap (rereadSession t now) := by
  have hwhole : Whole w t ((commit faults w).2.disk t) := by
    rcases commit_file faults w hfile with hwhole | ⟨-, hleft | hflush⟩
    · exact hwhole
    · exact absurd hleft hother
    · exact absurd hflush hraises
  refine ⟨hwhole, fun now => ?_⟩
  rcases hwhole with hold | ⟨hvalid, hnew⟩
  · exact Or.inl (by rw [hold])
  · exact Or.inr (by rw [hnew, sessions_written hfile])

/-- Setting the permissions of the first file fails. -/
def permissionFault : Faults
  | .configLongTermStorage => some .permissions
  | _ => none

/-- The second file is whole although its rights cannot be set. -/
theorem commit_keeps_currentBmc :
    Whole (World.initial (sampleDisk true)) .configCurrentBmcSession
      ((commit permissionFault (World.initial (sampleDisk true))).2.disk
        .configCurrentBmcSession) :=
  (commit_keeps_file permissionFault (World.initial (sampleDisk true)) (by decide) (by decide)
    (by rintro ⟨-, step, -, h⟩; cases h)).1

/-- The first file is emptied, and its sessions are gone. -/
theorem commit_damages_longTerm :
    ¬ ∀ (faults : Faults) (w : World), ∀ t ∈ configFilePathDict,
      Whole w t ((commit faults w).2.disk t) := by
  intro h
  rcases h permissionFault (World.initial (sampleDisk true)) .configLongTermStorage (by decide) with
    hold | ⟨hvalid, hnew⟩
  · cases hold
  · cases hnew

end Service
end ObmcWebapp
