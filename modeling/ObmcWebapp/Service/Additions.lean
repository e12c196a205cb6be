import ObmcWebapp.Service.Sharing

/-!
# Service - Sessions that the peer adds

The files are read and rewritten as a whole by both processes, with no lock and no
version.  A session that the peer adds while a request of this process is between
its load and its commit is lost; otherwise the next commit keeps it.

Main results:

- Theorem {lit}`readData_of_hasUuid`: what a load does once there is a system UUID.
- Theorem {lit}`Addition.Held.stands_commit`: a commit keeps the sessions that were
  read.
- Theorem {lit}`addition_is_kept`: a session that the peer added stays in its file
  unless a commit comes whose request was loaded before.
-/

open Library

namespace ObmcWebapp
namespace Service

/-! ## Loads with a system UUID -/

/-- There is a system UUID, and no file takes it away. -/
structure World.HasUuid (w : World) : Prop where
  memory : w.systemUuid ≠ []
  files : ∀ t ∈ configFilePathDict, (w.disk t).systemUuid ≠ some []

namespace World.HasUuid

variable {w : World}

/-- Reading a file keeps the identifier. -/
theorem readItems (h : w.HasUuid) {t : ConfigFileStorageType} (hfile : t ∈ configFilePathDict)
    (now : TimePoint) : (readItems t now w).HasUuid where
  memory := by
    rw [readItems_systemUuid]
    cases huuid : (w.disk t).systemUuid with
    | none => exact h.memory
    | some value =>
        rintro rfl
        exact h.files t hfile huuid
  files := by
    rw [readItems_disk]
    exact h.files

/-- Writing keeps the identifier. -/
theorem commit (h : w.HasUuid) (faults : Faults) : (Service.commit faults w).2.HasUuid where
  memory := by
    rw [commit_systemUuid]
    exact h.memory
  files t hfile := by
    rcases commit_file faults w hfile with (hold | ⟨hvalid, hnew⟩) | ⟨hdamaged, -⟩
    · rw [hold]
      exact h.files t hfile
    · rw [hnew]
      rcases List.mem_cons.mp hfile with rfl | hfile
      · rw [systemUuid_written_longTerm]
        exact fun heq => h.memory (Option.some.inj heq)
      · obtain rfl := List.mem_singleton.mp hfile
        simp [systemUuid_written_currentBmc]
    · simp [hdamaged, FileContent.systemUuid]

/-- A file is read and nothing is written. -/
theorem readDataFile (h : w.HasUuid) {t : ConfigFileStorageType} (hfile : t ∈ configFilePathDict)
    (faults : Faults) (uuid : Uuid) (now : TimePoint) :
    readDataFile faults uuid now t w = (.ok (), Service.readItems t now w) := by
  rcases readDataFile_cases faults uuid now t w with ⟨-, heq⟩ | ⟨-, hempty, -⟩
  · exact heq
  · exact absurd hempty (h.readItems hfile now).memory

end World.HasUuid

/-- With a system UUID a load reads both files and writes nothing. -/
theorem readData_of_hasUuid {w : World} (h : w.HasUuid) (faults : Faults) (uuid : Uuid)
    (now : TimePoint) :
    readData faults uuid now w = (.ok (), readItems .configCurrentBmcSession now
      (readItems .configLongTermStorage now w)) := by
  have hfirst : (readItems .configLongTermStorage now w).HasUuid := h.readItems (by decide) now
  unfold readData configFilePathDict
  rw [readFiles, h.readDataFile (by decide)]
  dsimp only
  rw [readFiles, hfirst.readDataFile (by decide)]
  rfl

section Load

variable {w : World} (faults : Faults) (uuid : Uuid) (now : TimePoint)

/-- The sessions after both files are read. -/
theorem readData_authTokens (h : w.HasUuid) :
    (readData faults uuid now w).2.store.authTokens =
      w.store.authTokens.emplaceAll
        ((w.disk .configLongTermStorage).sessions .configLongTermStorage now ++
          (w.disk .configCurrentBmcSession).sessions .configCurrentBmcSession now) := by
  rw [readData_of_hasUuid h, readItems_authTokens, readItems_authTokens, readItems_disk,
    Table.emplaceAll_append]

/-- Reading leaves the files. -/
theorem readData_disk (h : w.HasUuid) : (readData faults uuid now w).2.disk = w.disk := by
  rw [readData_of_hasUuid h, readItems_disk, readItems_disk]

/-- Reading keeps the identifier. -/
theorem readData_hasUuid (h : w.HasUuid) : (readData faults uuid now w).2.HasUuid := by
  rw [readData_of_hasUuid h]
  exact (h.readItems (by decide) now).readItems (by decide) now

/-- A session is in one of both files. -/
private theorem mem_both {disk : Disk} {now : TimePoint} {session : UserSession} :
    session ∈ (disk .configLongTermStorage).sessions .configLongTermStorage now ++
        (disk .configCurrentBmcSession).sessions .configCurrentBmcSession now ↔
      ∃ t ∈ configFilePathDict, session ∈ (disk t).sessions t now := by
  simp [configFilePathDict]

/-- A session of a file is in memory after the load, or another under its token. -/
theorem has_readData (h : w.HasUuid) {t : ConfigFileStorageType} (hfile : t ∈ configFilePathDict)
    {session : UserSession} (hmem : session ∈ (w.disk t).sessions t now) :
    (readData faults uuid now w).2.store.authTokens.Has session.sessionToken := by
  rw [readData_authTokens faults uuid now h]
  exact Table.has_emplaceAll_iff.mpr (Or.inr ⟨session, mem_both.mpr ⟨t, hfile, hmem⟩, rfl⟩)

/-- What a load inserts stands in a file. -/
theorem mem_readData (h : w.HasUuid) {session : UserSession}
    (hmem : session ∈ (readData faults uuid now w).2.store.authTokens) :
    session ∈ w.store.authTokens ∨
      ∃ t ∈ configFilePathDict, session ∈ (w.disk t).sessions t now := by
  rw [readData_authTokens faults uuid now h] at hmem
  rcases Table.mem_emplaceAll hmem with hold | ⟨hnew, -⟩
  · exact Or.inl hold
  · exact Or.inr (mem_both.mp hnew)

end Load

/-! ## Sessions that were read -/

namespace Addition

/-- The session is in memory, as it was read from its file. -/
def Held (addition : Addition) (store : SessionStore) : Prop :=
  ∃ stored ∈ store.authTokens, stored.Persisted addition.file ∧
    ∀ now, stored.restored now addition.file = addition.session.restored now addition.file

namespace Held

variable {addition : Addition} {store : SessionStore}

/-- A session that is held has its token in the store. -/
theorem has (h : addition.Held store) : store.authTokens.Has addition.session.sessionToken := by
  obtain ⟨stored, hmem, -, hsame⟩ := h
  have hname : (stored.restored 0 addition.file).sessionToken = addition.session.sessionToken :=
    hsame 0 ▸ rfl
  exact ⟨stored, hmem, hname⟩

/-- Reading a file that the session stands in. -/
theorem of_stands {w : World} (hw : w.HasUuid) (hfile : addition.file ∈ configFilePathDict)
    (hstands : addition.Stands w.disk) (hnew : ¬ w.store.authTokens.Has addition.session.sessionToken)
    (faults : Faults) (uuid : Uuid) (now : TimePoint) :
    addition.Held (readData faults uuid now w).2.store := by
  obtain ⟨stored, hmem, hname⟩ := has_readData faults uuid now hw hfile (hstands.mem now)
  rcases mem_readData faults uuid now hw hmem with hold | ⟨t, ht, hread⟩
  · exact absurd ⟨stored, hold, hname⟩ hnew
  · obtain ⟨rfl, rfl⟩ := hstands.unique t ht now stored hread hname
    exact ⟨_, hmem, (fromFile_of_mem_sessions hread).persisted, fun _ => rfl⟩

/-- A session is still held where the others are. -/
theorem of_mem {store' : SessionStore} (h : addition.Held store)
    (hkept : ∀ session ∈ store.authTokens, session ∈ store'.authTokens) : addition.Held store' := by
  obtain ⟨stored, hmem, hrest⟩ := h
  exact ⟨stored, hkept stored hmem, hrest⟩

/-- Logins keep a session that they do not sweep. -/
theorem of_probed {now : TimePoint} {tokens : List Bytes} {next : SessionStore}
    (h : addition.Held store) (hprobed : SessionStore.Probed now store tokens next)
    (hhas : next.authTokens.Has addition.session.sessionToken) : addition.Held next := by
  obtain ⟨stored, hmem, hpersisted, hsame⟩ := h
  have hname : (stored.restored 0 addition.file).sessionToken = addition.session.sessionToken :=
    hsame 0 ▸ rfl
  obtain ⟨kept, hkept, hkeptName⟩ := hhas
  obtain ⟨old, hold, hcases⟩ := hprobed.mem hkept
  have holdName : old.sessionToken = stored.sessionToken := by
    rcases hcases with rfl | rfl
    · exact hkeptName.trans hname.symm
    · exact hkeptName.trans hname.symm
  obtain rfl := Table.eq_of_key_eq hold hmem holdName
  rcases hcases with rfl | rfl
  · exact ⟨_, hkept, hpersisted, hsame⟩
  · exact ⟨_, hkept, hpersisted, hsame⟩

/-- A file that is written has the session. -/
theorem mem_written {w : World} (h : addition.Held w.store) (hcomplete : addition.session.Complete)
    (hfile : addition.file ∈ configFilePathDict)
    (hvalid : (fileData w addition.file).utf8Valid = true) (now : TimePoint) :
    addition.session.restored now addition.file ∈
      (FileContent.parsed (fileData w addition.file) hvalid).sessions addition.file now := by
  obtain ⟨stored, hmem, hpersisted, hsame⟩ := h
  have hstored : stored.Complete := by
    change (stored.restored 0 addition.file).Complete
    rw [hsame]
    exact hcomplete
  rw [sessions_written hfile]
  refine List.mem_filterMap.mpr ⟨stored, List.mem_filter.mpr ⟨hmem, decide_eq_true hpersisted⟩, ?_⟩
  rw [rereadSession, if_pos hstored, hsame]

/-- A file that is written has nothing else under its token. -/
theorem unique_written {w : World} (h : addition.Held w.store) {t : ConfigFileStorageType}
    (ht : t ∈ configFilePathDict) (hvalid : (fileData w t).utf8Valid = true) {now : TimePoint}
    {other : UserSession}
    (hother : other ∈ (FileContent.parsed (fileData w t) hvalid).sessions t now)
    (hname : other.sessionToken = addition.session.sessionToken) :
    t = addition.file ∧ other = addition.session.restored now t := by
  obtain ⟨stored, hmem, hpersisted, hsame⟩ := h
  have hstoredName : (stored.restored 0 addition.file).sessionToken =
      addition.session.sessionToken := hsame 0 ▸ rfl
  rw [sessions_written ht] at hother
  obtain ⟨row, hrow, hread⟩ := List.mem_filterMap.mp hother
  obtain ⟨hrowMem, hrowPersisted⟩ := List.mem_filter.mp hrow
  unfold rereadSession at hread
  split at hread
  · obtain rfl := Option.some.inj hread
    obtain rfl := Table.eq_of_key_eq hrowMem hmem (hname.trans hstoredName.symm)
    obtain rfl := (of_decide_eq_true hrowPersisted).2.symm.trans hpersisted.2
    exact ⟨rfl, hsame now⟩
  · exact absurd hread (by simp)

/-- A commit that returns, with no stream that failed, keeps the session in its file. -/
theorem stands_commit {w : World} (h : addition.Held w.store)
    (hcomplete : addition.session.Complete) (hfile : addition.file ∈ configFilePathDict)
    (hstands : addition.Stands w.disk) {faults : Faults} (hok : (commit faults w).1 = .ok ())
    (hflushes : faults.Flushes) : addition.Stands (commit faults w).2.disk := by
  have hwhole : ∀ t ∈ configFilePathDict, Whole w t ((commit faults w).2.disk t) := by
    intro t ht
    rcases commit_file faults w ht with hwhole | ⟨-, ⟨-, step, -, hraised⟩ | hflush⟩
    · exact hwhole
    · exact absurd (hok.symm.trans hraised) (by simp)
    · exact absurd hflush (hflushes t ht)
  constructor
  · intro now
    rcases hwhole addition.file hfile with hold | ⟨hvalid, hnew⟩
    · rw [hold]
      exact hstands.mem now
    · rw [hnew]
      exact h.mem_written hcomplete hfile hvalid now
  · intro t ht now other hother hname
    rcases hwhole t ht with hold | ⟨hvalid, hnew⟩
    · rw [hold] at hother
      exact hstands.unique t ht now other hother hname
    · rw [hnew] at hother
      exact h.unique_written ht hvalid hother hname

end Held
end Addition

/-! ## The invariant -/

/-- What is known of a session that the peer added: until a commit missed it, it
stands in its file, and this process has read it or has nothing under its token. -/
structure Addition.Tracked (addition : Addition) (token : Bytes) (w : World) : Prop where
  name : addition.session.sessionToken = token
  complete : addition.session.Complete
  file : addition.file ∈ configFilePathDict
  stands : addition.stage ≠ .missed → addition.Stands w.disk
  unread : addition.stage = .unread → ¬ w.store.authTokens.Has token
  read : addition.stage = .read → addition.Held w.store

/-- All sessions that the peer added are tracked. -/
structure Keeps (s : Shared) : Prop where
  uuid : s.world.HasUuid
  added : ∀ token addition, s.added token = some addition → addition.Tracked token s.world

namespace Addition.Tracked

variable {addition : Addition} {token : Bytes} {w : World}

/-- Reading tracks an addition of the peer. -/
theorem readData (h : addition.Tracked token w) (hw : w.HasUuid) (faults : Faults) (uuid : Uuid)
    (now : TimePoint) :
    addition.reread.Tracked token (Service.readData faults uuid now w).2 := by
  have hload := readData_loaded faults uuid now w
  have hdisk := readData_disk faults uuid now hw
  obtain ⟨session, file, stage⟩ := addition
  cases stage with
  | unread =>
      have hstands := h.stands (by simp)
      refine ⟨h.name, h.complete, h.file, fun _ => ?_, fun hstage => absurd hstage (by simp [reread]),
        fun _ => ?_⟩
      · rw [hdisk]
        exact ⟨hstands.mem, hstands.unique⟩
      · exact Held.of_stands hw h.file hstands (h.name ▸ h.unread rfl) faults uuid now
  | read =>
      refine ⟨h.name, h.complete, h.file, fun _ => hdisk ▸ h.stands (by simp),
        fun hstage => absurd hstage (by simp [reread]), fun _ => ?_⟩
      exact (h.read rfl).of_mem hload.kept
  | missed =>
      exact ⟨h.name, h.complete, h.file, fun hstage => absurd rfl hstage,
        fun hstage => absurd hstage (by simp [reread]), fun hstage => absurd hstage (by simp [reread])⟩

/-- A commit of a state whose store still has the session. -/
theorem committed (h : addition.Tracked token w) {w' : World} {faults : Faults} {succeeded : Bool}
    (hdisk : w'.disk = w.disk) (hheld : addition.stage = .read → addition.Held w'.store)
    (hok : succeeded = true → (commit faults w').1 = .ok () ∧ faults.Flushes) :
    (addition.committed succeeded).Tracked token (commit faults w').2 := by
  unfold Addition.committed
  split
  · next hcase =>
      obtain ⟨hstage, hsucceeded⟩ := hcase
      have hstands : addition.Stands w'.disk := hdisk ▸ h.stands (by simp [hstage])
      refine ⟨h.name, h.complete, h.file, fun _ => ?_, fun hunread => ?_, fun _ => ?_⟩
      · obtain ⟨hreturns, hflushes⟩ := hok hsucceeded
        exact (hheld hstage).stands_commit h.complete h.file hstands hreturns hflushes
      · exact absurd (hstage.symm.trans hunread) (by simp)
      · rw [commit_store]
        exact hheld hstage
  · exact ⟨h.name, h.complete, h.file, fun hstage => absurd rfl hstage,
      fun hstage => absurd hstage (by simp), fun hstage => absurd hstage (by simp)⟩

/-- Logins that do not sweep the session. -/
theorem probed (h : addition.Tracked token w) {now : TimePoint} {tokens : List Bytes}
    {next : SessionStore} (hprobed : SessionStore.Probed now w.store tokens next)
    (hhas : addition.stage = .read → next.authTokens.Has token) :
    addition.Tracked token { w with store := next } where
  name := h.name
  complete := h.complete
  file := h.file
  stands := h.stands
  unread hstage htaken := h.unread hstage (hprobed.has htaken)
  read hstage := (h.read hstage).of_probed hprobed (h.name ▸ hhas hstage)

end Addition.Tracked

/-- The bookkeeping of a request's second step. -/
theorem added_authenticate {s : Shared} {process : Process} {outside : Outside} {env : Environment}
    {token : Bytes} {addition : Addition}
    (h : (s.after process (.authenticate outside env)).added token = some addition) :
    (s.world.store.authTokens.Has token → process.world.store.authTokens.Has token) ∧
      ¬ OpenedUnder outside env s.world token ∧ ∃ before, s.added token = some before ∧
        addition = if LetThroughBasic outside env s.world then
          before.committed ((sessionFound outside env s.world).isSome &&
            outside.storeFaults.Flushes) else before := by
  unfold Shared.after at h
  dsimp only at h
  split at h
  · exact absurd h (by simp)
  · next hcase =>
      rw [not_or, not_and, not_not] at hcase
      refine ⟨hcase.1, hcase.2, ?_⟩
      split at h
      · next hbasic =>
          obtain ⟨before, hbefore, rfl⟩ := Option.map_eq_some_iff.mp h
          exact ⟨before, hbefore, (if_pos hbasic).symm⟩
      · next hbasic => exact ⟨addition, h, (if_neg hbasic).symm⟩

/-- A commit that returns has written what it was given. -/
private theorem written_of_isOk {result : Except WriteFailure Unit} {faults : Faults}
    (h : (result.isOk && decide faults.Flushes) = true) : result = .ok () ∧ faults.Flushes := by
  rw [Bool.and_eq_true, decide_eq_true_iff] at h
  cases result with
  | error failure => exact absurd h.1 (by simp [Except.isOk, Except.toBool])
  | ok value => exact ⟨rfl, h.2⟩

/-- One step of this process. -/
theorem Keeps.own {s : Shared} {move : Move} {process : Process} (h : Keeps s)
    (hmove : Moves s.toProcess move process) : Keeps (s.after process move) := by
  cases move with
  | load outside =>
      obtain ⟨hworld, hphase⟩ := move_load hmove
      have hread := readData_of_hasUuid h.uuid outside.loadFaults outside.uuid outside.now
      constructor
      · change process.world.HasUuid
        rw [hworld]
        exact readData_hasUuid _ _ _ h.uuid
      · intro token addition hadded
        change (if process.phase = .loaded then (s.added token).map Addition.reread
          else s.added token) = some addition at hadded
        rw [if_pos (hphase (by rw [hread]))] at hadded
        obtain ⟨before, hbefore, rfl⟩ := Option.map_eq_some_iff.mp hadded
        change before.reread.Tracked token process.world
        rw [hworld]
        exact (h.added token before hbefore).readData h.uuid _ _ _
  | authenticate outside env =>
      rcases move_authenticate hmove with ⟨hnobasic, tokens, next, hprobed, hworld⟩ |
        ⟨hbasic, tokens, next, ids, user, selfOnly, hdraw, hprobed, hworld, hok⟩
      · have huuid : World.HasUuid { s.world with store := next } := ⟨h.uuid.memory, h.uuid.files⟩
        refine ⟨hworld ▸ huuid, fun token addition hadded => ?_⟩
        obtain ⟨hlive, -, before, hbefore, rfl⟩ := added_authenticate hadded
        rw [if_neg hnobasic]
        have htracked := h.added token before hbefore
        change before.Tracked token process.world
        rw [hworld] at hlive ⊢
        exact htracked.probed hprobed fun hstage =>
          hlive (htracked.name ▸ (htracked.read hstage).has)
      · have huuid : World.HasUuid (World.emplace { s.world with store := next }
            (basicSession outside env ids user selfOnly)) := ⟨h.uuid.memory, h.uuid.files⟩
        refine ⟨hworld ▸ huuid.commit _, fun token addition hadded => ?_⟩
        obtain ⟨hlive, hunder, before, hbefore, rfl⟩ := added_authenticate hadded
        rw [if_pos hbasic]
        have htracked := h.added token before hbefore
        change (before.committed ((sessionFound outside env s.world).isSome &&
          outside.storeFaults.Flushes)).Tracked token process.world
        rw [hworld] at hlive ⊢
        refine htracked.committed rfl (fun hstage => ?_) fun hsucceeded => ?_
        rotate_left
        · rw [Bool.and_eq_true, decide_eq_true_iff] at hsucceeded
          exact ⟨hok hsucceeded.1, hsucceeded.2⟩
        have hread := htracked.read hstage
        have hnext : next.authTokens.Has token := by
          have hhas := hlive (htracked.name ▸ hread.has)
          rw [commit_store] at hhas
          rcases Table.has_emplace_iff.mp hhas with hkept | hname
          · exact hkept
          · refine absurd ⟨hbasic, ?_⟩ hunder
            rw [hdraw, ← hname]
            rfl
        exact (hread.of_probed hprobed (htracked.name ▸ hnext)).of_mem fun session hmem =>
          Table.mem_emplace_of_mem hmem
  | commit faults =>
      have hworld := move_commit hmove
      constructor
      · change process.world.HasUuid
        rw [hworld]
        exact h.uuid.commit faults
      · intro token addition hadded
        obtain ⟨before, hbefore, rfl⟩ := Option.map_eq_some_iff.mp hadded
        have htracked := h.added token before hbefore
        change (before.committed ((commit faults s.world).1.isOk && faults.Flushes)).Tracked token
          process.world
        rw [hworld]
        exact htracked.committed rfl htracked.read written_of_isOk

/-- Writes of the peer keep the identifier. -/
theorem World.HasUuid.peerWrites {w : World} {disk : Disk} {gone : Bytes → Bool}
    {added : Bytes → Option Addition} (h : w.HasUuid) (hwrites : PeerWrites gone added w.disk disk) :
    World.HasUuid { w with disk } where
  memory := h.memory
  files t hfile := by
    rw [hwrites.systemUuid]
    exact h.files t hfile

/-- One step of either process. -/
theorem Keeps.shares {s s' : Shared} {event : SharedEvent} (h : Keeps s)
    (hstep : Shares s event s') : Keeps s' := by
  cases hstep with
  | own hmove => exact h.own hmove
  | @login session file disk hfile hcomplete hwrites =>
      refine ⟨h.uuid.peerWrites hwrites, fun token addition hadded => ?_⟩
      have hstands := hwrites.added token addition hadded
      by_cases hsame : token = session.sessionToken
      · subst hsame
        simp only [Shared.loggedIn, Shared.written, Function.update_self] at hadded
        split at hadded
        · exact absurd hadded (by simp)
        · next hnew =>
            obtain rfl := Option.some.inj hadded
            exact ⟨rfl, hcomplete, hfile, hstands, fun _ => hnew,
              fun hstage => absurd hstage (by simp)⟩
      · simp only [Shared.loggedIn, Shared.written, Function.update_of_ne hsame] at hadded
        have htracked := h.added token addition hadded
        exact ⟨htracked.name, htracked.complete, htracked.file, hstands, htracked.unread,
          htracked.read⟩
  | @logout closed disk hwrites =>
      refine ⟨h.uuid.peerWrites hwrites, fun token addition hadded => ?_⟩
      have hstands := hwrites.added token addition hadded
      by_cases hsame : token = closed
      · subst hsame
        exact absurd hadded (by simp [Shared.loggedOut, Shared.written])
      · simp only [Shared.loggedOut, Shared.written, Function.update_of_ne hsame] at hadded
        have htracked := h.added token addition hadded
        exact ⟨htracked.name, htracked.complete, htracked.file, hstands, htracked.unread,
          htracked.read⟩

/-- In every run of both processes, however their steps interleave: a session that
the peer added under a new token, and that nobody removed or timed out, stands in its
file, unless a commit of this process failed, its stream did, or it belonged to a request
that was loaded before the session was added. -/
theorem addition_is_kept {w : World} (huuid : w.HasUuid) {events : List SharedEvent} {s : Shared}
    (hrun : Run Shares (Shared.initial w) events s) {token : Bytes} {addition : Addition}
    (hadded : s.added token = some addition) (hstage : addition.stage ≠ .missed) (now : TimePoint) :
    addition.session.restored now addition.file ∈
      (s.world.disk addition.file).sessions addition.file now := by
  have hstart : Keeps (Shared.initial w) :=
    ⟨huuid, fun token addition hadded => absurd hadded (by simp [Shared.initial])⟩
  have hend : Keeps s := hrun.invariant hstart fun _ _ _ h hstep => h.shares hstep
  exact ((hend.added token addition hadded).stands hstage).mem now

/-! ### A login of the peer, before and after a load -/

/-- A process that has its system UUID. -/
def startedWorld : World :=
  { World.initial (sampleDisk true) with systemUuid := sampleUuid.text }

/-- The identifier is there from the start. -/
theorem startedWorld_hasUuid : startedWorld.HasUuid where
  memory := by decide
  files t _ := by
    intro h
    cases t <;> exact absurd h (by decide)

/-- The session that the peer opens. -/
def addedSession : UserSession := sampleSession 0x63 .configCurrentBmcSession

/-- The peer has written it into its file. -/
def peerAddition : Addition where
  session := addedSession
  file := .configCurrentBmcSession

/-- What the peer has in memory. -/
def peerWorld : World :=
  { sampleWorld with store := { authTokens := sampleTokens.emplace addedSession } }

/-- What the peer has can be written. -/
theorem peerWorld_writable : peerWorld.Writable where
  systemUuid := sampleUuid.valid
  session session hmem hpersists := by
    rcases Table.mem_emplace_iff.mp hmem with hold | ⟨rfl, -⟩
    · exact sampleWorld_writable.session session hold hpersists
    · exact ⟨rfl, rfl, rfl, rfl, rfl⟩

/-- The files after the peer opened a session. -/
def peerDisk : Disk
  | .configCurrentServiceSession => .missing
  | storageType =>
      .parsed (fileData peerWorld storageType) (peerWorld_writable.fileData_valid _)

/-- The addition is in the file. -/
theorem peerAddition_stands : peerAddition.Stands peerDisk := by
  have hnew : ¬ sampleTokens.Has addedSession.sessionToken := by decide
  have hheld : peerAddition.Held peerWorld.store :=
    ⟨addedSession, Table.mem_emplace_iff.mpr (Or.inr ⟨rfl, hnew⟩), ⟨by decide, rfl⟩, fun _ => rfl⟩
  constructor
  · intro now
    exact hheld.mem_written (by decide) (by decide) (peerWorld_writable.fileData_valid _) now
  · intro t ht now other hother hname
    cases t with
    | configLongTermStorage => exact hheld.unique_written ht _ hother hname
    | configCurrentBmcSession => exact hheld.unique_written ht _ hother hname
    | configCurrentServiceSession => exact absurd ht (by decide)

/-- The state after the peer opened the session. -/
def Shared.joined (s : Shared) : Shared :=
  s.loggedIn addedSession .configCurrentBmcSession peerDisk

/-- The peer opens a session. -/
theorem shares_joined {s : Shared} (hgone : ∀ token, s.gone token = false)
    (hadded : ∀ token, s.added token = none)
    (huuid : ∀ t, (s.world.disk t).systemUuid = (peerDisk t).systemUuid) :
    Shares s (.login addedSession .configCurrentBmcSession peerDisk) s.joined := by
  refine Shares.login (by decide) (by decide) ⟨fun token htoken => ?_, fun token addition hsome _ => ?_,
    fun t => (huuid t).symm⟩
  · by_cases hsame : token = addedSession.sessionToken
    · exact absurd htoken (by simp [Shared.loggedIn, Shared.written, hsame])
    · exact absurd htoken (by simp [Shared.loggedIn, Shared.written, hsame, hgone])
  · by_cases hsame : token = addedSession.sessionToken
    · simp only [Shared.loggedIn, Shared.written, hsame, Function.update_self] at hsome
      split at hsome
      · exact absurd hsome (by simp)
      · obtain rfl := Option.some.inj hsome
        exact peerAddition_stands
    · exact absurd hsome (by simp [Shared.loggedIn, Shared.written, hsame, hadded])

/-- The state after a request with the token of a session was let through. -/
def Shared.letIn (s : Shared) : Shared :=
  s.after
    { world := (findSession (tokenArrival 0 0x61).outside
        { environment := (tokenArrival 0 0x61).environment } s.world).2
      phase := .found }
    (.authenticate (tokenArrival 0 0x61).outside (tokenArrival 0 0x61).environment)

/-- The token of the session is presented. -/
def letInEvent : SharedEvent :=
  .own (.authenticate (tokenArrival 0 0x61).outside (tokenArrival 0 0x61).environment)

/-- The state after its commit. -/
def Shared.saved (s : Shared) : Shared :=
  s.after { world := (commit Faults.none s.world).2 } (.commit Faults.none)

/-- The found session is kept by a write. -/
theorem shares_saved {s : Shared} (hphase : s.phase = .found) :
    Shares s (.own (.commit Faults.none)) s.saved := by
  refine Shares.own ?_
  unfold Moves Process.move
  dsimp only
  rw [if_pos hphase]

/-- A login between the load of a request and its commit is lost. -/
theorem addition_between_lost :
    ¬ ∀ (w : World) (events : List SharedEvent) (s : Shared) (token : Bytes) (addition : Addition),
      w.HasUuid → Run Shares (Shared.initial w) events s → s.added token = some addition →
      ∀ now, addition.session.restored now addition.file ∈
        (s.world.disk addition.file).sessions addition.file now := by
  intro h
  have hload : Run Shares (Shared.initial startedWorld) [.own (.load whitelistedArrival.outside)]
      (Shared.initial startedWorld).reloaded := Run.single (shares_reloaded rfl (by decide))
  have hlogin := hload.snoc (shares_joined (fun _ => rfl)
    (fun _ => Shared.after_added_of_none rfl) fun t => by cases t <;> rfl)
  have hlet : Shares (Shared.initial startedWorld).reloaded.joined letInEvent
      (Shared.initial startedWorld).reloaded.joined.letIn := Shares.own rfl
  have hrun := (hlogin.snoc hlet).snoc (shares_saved rfl)
  exact absurd (h _ _ _ addedSession.sessionToken { peerAddition with stage := .missed }
    startedWorld_hasUuid hrun (by decide) 0) (by decide)

/-- A login before the load of the request is kept. -/
theorem addition_before_kept :
    addedSession.restored 0 .configCurrentBmcSession ∈
      ((Shared.initial startedWorld).joined.reloaded.letIn.saved.world.disk
        .configCurrentBmcSession).sessions .configCurrentBmcSession 0 := by
  have hlogin : Run Shares (Shared.initial startedWorld)
      [.login addedSession .configCurrentBmcSession peerDisk] (Shared.initial startedWorld).joined :=
    Run.single (shares_joined (fun _ => rfl) (fun _ => rfl) fun t => by cases t <;> rfl)
  have hlet : Shares (Shared.initial startedWorld).joined.reloaded letInEvent
      (Shared.initial startedWorld).joined.reloaded.letIn := Shares.own rfl
  have hrun := ((hlogin.snoc (shares_reloaded rfl (by decide))).snoc hlet).snoc (shares_saved rfl)
  have hadded : (Shared.initial startedWorld).joined.reloaded.letIn.saved.added
      addedSession.sessionToken = some { peerAddition with stage := .read } := by decide
  exact addition_is_kept startedWorld_hasUuid hrun hadded (by decide) 0

end Service
end ObmcWebapp
