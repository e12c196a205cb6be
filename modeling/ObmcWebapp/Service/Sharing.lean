import ObmcWebapp.Service.IdleTimeout

/-!
# Service - Two processes that share the session files

A request of this process is cut into the steps between which another process can
write the files: both files are loaded, the request is authenticated, and the files
are committed.  Nothing locks the files.  Of what the peer writes, only its own
logins and logouts are known.

Main results:

- Theorem {lit}`process_runs`: a request that nothing interrupts takes these steps.
- Theorem {lit}`logout_is_final`: a session that the peer logged out while it was not
  in this process's memory stays out.
-/

open Library

namespace ObmcWebapp
namespace Service

/-! ## The steps of this process -/

/-- Where the process is in its current request. -/
inductive Phase
  | idle
  | loaded
  | found
deriving DecidableEq

/-- The state of the process between two steps. -/
structure Process where
  world : World
  phase : Phase := .idle

/-- A session opened for a user and password is committed within the second step;
the insertion before that commit touches memory only. -/
inductive Move
  | load (outside : Outside)
  | authenticate (outside : Outside) (environment : Environment)
  | commit (faults : Faults)

/-- One step, where the process is at it.  An exception ends the request. -/
def Process.move (s : Process) : Move → Option Process
  | .load outside =>
      if s.phase = .idle then
        match readData outside.loadFaults outside.uuid outside.now s.world with
        | (.error _, world) => some { world }
        | (.ok (), world) => some { world, phase := .loaded }
      else none
  | .authenticate outside environment =>
      if s.phase = .loaded then
        if isOnWhitelist environment then some { world := s.world }
        else
          match findSession outside { environment } s.world with
          | (.error _, world) => some { world }
          | (.ok request, world) =>
              some { world, phase := if request.isSessionEmpty then .idle else .found }
      else none
  | .commit faults =>
      if s.phase = .found then some { world := (commit faults s.world).2 } else none

/-- The step relation of this process alone. -/
def Moves (s : Process) (move : Move) (s' : Process) : Prop :=
  s.move move = some s'

/-- A load that raises no exception is a step. -/
theorem moves_load {arrival : Arrival} {w : World} (h : arrival.Loads w) :
    Moves { world := w } (.load arrival.outside)
      { world := arrival.loaded w, phase := .loaded } := by
  unfold Arrival.Loads at h
  unfold Moves Process.move Arrival.loaded
  rcases hread : readData arrival.outside.loadFaults arrival.outside.uuid arrival.outside.now w with
    ⟨_ | _, w'⟩
  · rw [hread] at h
    exact absurd h (by simp [Except.isOk, Except.toBool])
  · simp [hread]

/-- A request that nothing interrupts takes these steps. -/
theorem process_runs {arrival : Arrival} (hfree : arrival.handler = []) (w : World) :
    ∃ moves, Run Moves { world := w } moves { world := (process arrival w).2 } := by
  unfold process
  rcases hread : readData arrival.outside.loadFaults arrival.outside.uuid arrival.outside.now w with
    ⟨_ | _, w₁⟩
  · exact ⟨[.load arrival.outside], Run.single (by simp [Moves, Process.move, hread])⟩
  · have hload : Run Moves { world := w } [.load arrival.outside]
        { world := w₁, phase := .loaded } :=
      Run.single (by simp [Moves, Process.move, hread])
    by_cases hwhite : isOnWhitelist arrival.environment = true
    · have hstep : Moves { world := w₁, phase := .loaded }
          (.authenticate arrival.outside arrival.environment) { world := w₁ } := by
        simp [Moves, Process.move, hwhite]
      simp only [authenticate, if_pos hwhite, hfree, runHandler]
      exact ⟨_, hload.snoc hstep⟩
    · simp only [authenticate, if_neg hwhite]
      rcases hfind : findSession arrival.outside { environment := arrival.environment } w₁ with
        ⟨_ | request, w₂⟩
      · have hstep : Moves { world := w₁, phase := .loaded }
            (.authenticate arrival.outside arrival.environment) { world := w₂ } := by
          simp [Moves, Process.move, hwhite, hfind]
        exact ⟨_, hload.snoc hstep⟩
      · have hstep : Moves { world := w₁, phase := .loaded }
            (.authenticate arrival.outside arrival.environment)
            { world := w₂, phase := if request.isSessionEmpty then .idle else .found } := by
          simp [Moves, Process.move, hwhite, hfind]
        cases hempty : request.isSessionEmpty with
        | true =>
            rw [hempty] at hstep
            simp only [hempty, if_pos]
            exact ⟨_, hload.snoc hstep⟩
        | false =>
            rw [hempty] at hstep
            have hcommit : Moves { world := w₂, phase := .found }
                (.commit arrival.outside.commitFaults)
                { world := (commit arrival.outside.commitFaults w₂).2 } := by
              simp [Moves, Process.move]
            simp only [hempty, Bool.false_eq_true, if_false, hfree, runHandler]
            have hrun := (hload.snoc hstep).snoc hcommit
            rcases hresult : commit arrival.outside.commitFaults w₂ with ⟨_ | _, w₃⟩
            all_goals
              rw [hresult] at hrun
              exact ⟨_, hrun⟩

/-- What a load does to the state. -/
theorem move_load {p p' : Process} {outside : Outside} (h : Moves p (.load outside) p') :
    p'.world = (readData outside.loadFaults outside.uuid outside.now p.world).2 ∧
      ((readData outside.loadFaults outside.uuid outside.now p.world).1 = .ok () →
        p'.phase = .loaded) := by
  unfold Moves Process.move at h
  dsimp only at h
  split at h
  · rcases hread : readData outside.loadFaults outside.uuid outside.now p.world with ⟨_ | _, w'⟩
    all_goals
      rw [hread] at h
      obtain rfl := Option.some.inj h
    · exact ⟨rfl, fun hok => absurd hok (by simp)⟩
    · exact ⟨rfl, fun _ => rfl⟩
  · exact absurd h (by simp)

/-- What a commit does to the state. -/
theorem move_commit {p p' : Process} {faults : Faults} (h : Moves p (.commit faults) p') :
    p'.world = (commit faults p.world).2 := by
  unfold Moves Process.move at h
  dsimp only at h
  split at h
  · obtain rfl := Option.some.inj h
    rfl
  · exact absurd h (by simp)

/-- What the second step does to the state: it probes the store, or it opens a
session and commits. -/
theorem move_authenticate {p p' : Process} {outside : Outside} {env : Environment}
    (h : Moves p (.authenticate outside env) p') :
    (¬ LetThroughBasic outside env p.world ∧ ∃ tokens next,
      SessionStore.Probed outside.now p.world.store tokens next ∧
      p'.world = { p.world with store := next }) ∨
    (LetThroughBasic outside env p.world ∧ ∃ tokens next ids user selfOnly,
      drawIdentifiers outside.draws = some ids ∧
      SessionStore.Probed outside.now p.world.store tokens next ∧
      p'.world = (commit outside.storeFaults (World.emplace { p.world with store := next }
        (basicSession outside env ids user selfOnly))).2 ∧
      ((sessionFound outside env p.world).isSome = true →
        (commit outside.storeFaults (World.emplace { p.world with store := next }
          (basicSession outside env ids user selfOnly))).1 = .ok ())) := by
  unfold Moves Process.move at h
  dsimp only at h
  split at h
  · by_cases hwhite : Whitelisted env
    · rw [if_pos ((isOnWhitelist_iff env).mpr hwhite)] at h
      obtain rfl := Option.some.inj h
      exact Or.inl ⟨fun hbasic => hbasic.1 hwhite, [], p.world.store,
        SessionStore.Probed.refl _ _, rfl⟩
    · rw [if_neg (mt (isOnWhitelist_iff env).mp hwhite)] at h
      have hworld : p'.world = (findSession outside { environment := env } p.world).2 := by
        rcases hfind : findSession outside { environment := env } p.world with ⟨_ | request, w'⟩
        all_goals
          rw [hfind] at h
          obtain rfl := Option.some.inj h
          rfl
      rcases findSession_effect outside env p.world with
        ⟨hfound, stale, next, session, -, -, hprobed, heq⟩ |
        ⟨hnone, hbasic, stale, next, -, hprobed, -, opened, hopened, hsnd, hresult⟩ |
        ⟨hnone, hnobasic, stale, next, -, hprobed, -, heq⟩
      · exact Or.inl ⟨fun hbasic => hbasic.2.1 hfound, _, next, hprobed, by rw [hworld, heq]⟩
      · obtain ⟨ids, user, selfOnly, hdraw, hcommitted, hstored⟩ := hopened
        refine Or.inr ⟨⟨hwhite, hnone, hbasic, by simp [hdraw]⟩, stale, next, ids, user, selfOnly,
          hdraw, hprobed, hworld.trans (hsnd.trans hcommitted), fun hsome => ?_⟩
        rcases hstored with ⟨failure, hfail⟩ | ⟨stored, -, -, hok, -⟩
        · rcases hresult with ⟨failure', -, hfail'⟩ | ⟨stored, hstored, -⟩
          · rw [sessionFound, hfail'] at hsome
            exact absurd hsome (by simp)
          · exact absurd (hfail.symm.trans hstored) (by simp)
        · exact hok
      · exact Or.inl ⟨fun hbasic => hnobasic ⟨hbasic.2.2.1, hbasic.2.2.2⟩, _, next, hprobed,
          by rw [hworld, heq]⟩
  · exact absurd h (by simp)

/-! ## The peer -/

/-- Whether this process has read a session that the peer added, and whether a
commit came that had not, that failed, or whose stream did. -/
inductive Stage
  | unread
  | read
  | missed
deriving DecidableEq

/-- A session that the peer added to a file. -/
structure Addition where
  session : UserSession
  file : ConfigFileStorageType
  stage : Stage := .unread
deriving DecidableEq

namespace Addition

/-- A load that this process completes. -/
def reread (addition : Addition) : Addition :=
  if addition.stage = .unread then { addition with stage := .read } else addition

/-- A commit of this process. -/
def committed (succeeded : Bool) (addition : Addition) : Addition :=
  if addition.stage = .read ∧ succeeded = true then addition
  else { addition with stage := .missed }

/-- The session stands in its file, and nothing else under its token in any. -/
structure Stands (addition : Addition) (disk : Disk) : Prop where
  mem : ∀ now, addition.session.restored now addition.file ∈
    (disk addition.file).sessions addition.file now
  unique : ∀ t ∈ configFilePathDict, ∀ now, ∀ other ∈ (disk t).sessions t now,
    other.sessionToken = addition.session.sessionToken →
      t = addition.file ∧ other = addition.session.restored now t

end Addition

/-- Both processes: this one, the tokens that the peer logged out, and the sessions
that it added and nobody removed or timed out. -/
structure Shared extends Process where
  gone : Bytes → Bool := fun _ => false
  added : Bytes → Option Addition := fun _ => none

/-- What is known of files that the peer wrote, from its own copy of them or from
what it just read: they do not have the sessions it logged out, they have the ones
it added, and it leaves the system UUID alone. -/
structure PeerWrites (gone : Bytes → Bool) (added : Bytes → Option Addition)
    (disk disk' : Disk) : Prop where
  gone : ∀ token, gone token = true → ∀ t ∈ configFilePathDict, ¬ (disk' t).Holds token
  added : ∀ token addition, added token = some addition → addition.stage ≠ .missed →
    addition.Stands disk'
  systemUuid : ∀ t, (disk' t).systemUuid = (disk t).systemUuid

/-- A step of this process or a write of the peer: it opened a session, or it closed
one. -/
inductive SharedEvent
  | own (move : Move)
  | login (session : UserSession) (file : ConfigFileStorageType) (disk : Disk)
  | logout (token : Bytes) (disk : Disk)

namespace Shared

/-- A process that follows no session of the peer yet. -/
def initial (w : World) : Shared where
  world := w

/-- What a step of this process means for the peer's sessions.  A token that is drawn
anew is another session's. -/
def after (s : Shared) (process : Process) : Move → Shared
  | .load _ =>
      { process with
        gone := s.gone
        added := fun token =>
          if process.phase = .loaded then (s.added token).map Addition.reread else s.added token }
  | .authenticate outside env =>
      { process with
        gone := fun token => s.gone token && !decide (OpenedUnder outside env s.world token)
        added := fun token =>
          if (s.world.store.authTokens.Has token ∧ ¬ process.world.store.authTokens.Has token) ∨
              OpenedUnder outside env s.world token then none
          else if LetThroughBasic outside env s.world then
            (s.added token).map (Addition.committed
              ((sessionFound outside env s.world).isSome && outside.storeFaults.Flushes))
          else s.added token }
  | .commit faults =>
      { process with
        gone := s.gone
        added := fun token => (s.added token).map
          (Addition.committed ((commit faults s.world).1.isOk && faults.Flushes)) }

/-- A step of this process makes no session of the peer. -/
theorem after_added_of_none {s : Shared} {process : Process} {move : Move} {token : Bytes}
    (h : s.added token = none) : (s.after process move).added token = none := by
  cases move <;> simp [after, h]

/-- The files after a write of the peer. -/
def written (s : Shared) (disk : Disk) (gone : Bytes → Bool) (added : Bytes → Option Addition) :
    Shared :=
  { s with
    world := { s.world with disk }
    gone
    added }

/-- A session that the peer opens is followed if its token is new to this process. -/
def loggedIn (s : Shared) (session : UserSession) (file : ConfigFileStorageType) (disk : Disk) :
    Shared :=
  s.written disk (Function.update s.gone session.sessionToken false)
    (Function.update s.added session.sessionToken
      (if s.world.store.authTokens.Has session.sessionToken then none
        else some { session, file }))

/-- A session that the peer closes is gone and no longer followed. -/
def loggedOut (s : Shared) (token : Bytes) (disk : Disk) : Shared :=
  s.written disk (Function.update s.gone token true) (Function.update s.added token none)

end Shared

/-- The step relation of both processes; the steps come in any order. -/
inductive Shares (s : Shared) : SharedEvent → Shared → Prop
  | own {move : Move} {process : Process} (hmove : Moves s.toProcess move process) :
      Shares s (.own move) (s.after process move)
  | login {session : UserSession} {file : ConfigFileStorageType} {disk : Disk}
      (hfile : file ∈ configFilePathDict) (hcomplete : session.Complete)
      (hwrites : PeerWrites (s.loggedIn session file disk).gone
        (s.loggedIn session file disk).added s.world.disk disk) :
      Shares s (.login session file disk) (s.loggedIn session file disk)
  | logout {token : Bytes} {disk : Disk}
      (hwrites : PeerWrites (s.loggedOut token disk).gone (s.loggedOut token disk).added
        s.world.disk disk) :
      Shares s (.logout token disk) (s.loggedOut token disk)

/-! ## Sessions that the peer logged out -/

/-- The peer logs out only sessions that are not in this process's memory. -/
def LogoutUnread (s : Shared) : SharedEvent → Prop
  | .logout token _ => ¬ s.world.store.authTokens.Has token
  | _ => True

/-- Sessions that the peer logged out are neither in memory nor in a file. -/
def Forgets (s : Shared) : Prop :=
  ∀ token, s.gone token = true → ¬ s.world.store.authTokens.Has token ∧
    ∀ t ∈ configFilePathDict, ¬ (s.world.disk t).Holds token

/-- A load keeps a forgotten token forgotten. -/
theorem Loaded.forgets {now : TimePoint} {w w' : World} (h : Loaded now w w') {token : Bytes}
    (hgone : ¬ w.store.authTokens.Has token ∧
      ∀ t ∈ configFilePathDict, ¬ (w.disk t).Holds token) :
    ¬ w'.store.authTokens.Has token ∧ ∀ t ∈ configFilePathDict, ¬ (w'.disk t).Holds token := by
  have hmemory : ¬ w'.store.authTokens.Has token := by
    rintro ⟨session, hmem, rfl⟩
    rcases h.new session hmem with hold | ⟨-, t, hfile, -, hheld⟩
    · exact hgone.1 (Table.has_of_mem hold)
    · exact hgone.2 t hfile hheld
  refine ⟨hmemory, fun t hfile hheld => ?_⟩
  rcases h.files t token hheld with hold | hhas
  · exact hgone.2 t hfile hold
  · exact hmemory hhas

/-- One step of this process. -/
theorem Forgets.own {s : Shared} {move : Move} {process : Process} (h : Forgets s)
    (hmove : Moves s.toProcess move process) : Forgets (s.after process move) := by
  intro token hgone
  cases move with
  | load outside =>
      have hload := readData_loaded outside.loadFaults outside.uuid outside.now s.world
      rw [← (move_load hmove).1] at hload
      exact hload.forgets (h token hgone)
  | authenticate outside env =>
      have hparts : s.gone token = true ∧ ¬ OpenedUnder outside env s.world token := by
        simpa [Shared.after] using hgone
      obtain ⟨hmemory, hfiles⟩ := h token hparts.1
      change ¬ process.world.store.authTokens.Has token ∧
        ∀ t ∈ configFilePathDict, ¬ (process.world.disk t).Holds token
      rcases move_authenticate hmove with ⟨-, tokens, next, hprobed, hworld⟩ |
        ⟨hbasic, tokens, next, ids, user, selfOnly, hdraw, hprobed, hworld, -⟩
      · rw [hworld]
        exact ⟨fun hhas => hmemory (hprobed.has hhas), hfiles⟩
      · rw [hworld]
        refine (commit_loaded outside.storeFaults 0 _).forgets ⟨fun hhas => ?_, hfiles⟩
        rcases Table.has_emplace_iff.mp hhas with hold | hname
        · exact hmemory (hprobed.has hold)
        · refine hparts.2 ⟨hbasic, ?_⟩
          rw [hdraw, ← hname]
          rfl
  | commit faults =>
      have hcommit := commit_loaded faults 0 s.world
      rw [← move_commit hmove] at hcommit
      exact hcommit.forgets (h token hgone)

/-- One step of either process. -/
theorem Forgets.shares {s s' : Shared} {event : SharedEvent} (h : Forgets s)
    (hok : LogoutUnread s event) (hstep : Shares s event s') : Forgets s' := by
  cases hstep with
  | own hmove => exact h.own hmove
  | @login session file disk _ _ hwrites =>
      intro token hgone
      refine ⟨?_, hwrites.gone token hgone⟩
      by_cases hsame : token = session.sessionToken
      · subst hsame
        exact absurd hgone (by simp [Shared.loggedIn, Shared.written])
      · have hbefore : s.gone token = true := by
          simpa [Shared.loggedIn, Shared.written, hsame] using hgone
        exact (h token hbefore).1
  | @logout closed disk hwrites =>
      intro token hgone
      refine ⟨?_, hwrites.gone token hgone⟩
      by_cases hsame : token = closed
      · subst hsame
        exact hok
      · have hbefore : s.gone token = true := by
          simpa [Shared.loggedOut, Shared.written, hsame] using hgone
        exact (h token hbefore).1

/-- In every run of both processes in which the peer logs out only sessions that are
not in this process's memory: as long as the peer does not open the session again, no
request gets through with its token, and neither file has it. -/
theorem logout_is_final {w : World} {events : List SharedEvent} {s : Shared}
    (hrun : Run (Restrict Shares LogoutUnread) (Shared.initial w) events s) {token : Bytes}
    (hgone : s.gone token = true) :
    (∀ outside env, ¬ LetThrough outside env s.world token) ∧
      ∀ t ∈ configFilePathDict, ¬ (s.world.disk t).Holds token := by
  have hstart : Forgets (Shared.initial w) := fun token hgone => absurd hgone (by simp [Shared.initial])
  have hend : Forgets s := hrun.invariant hstart fun _ _ _ h hstep => h.shares hstep.1 hstep.2
  obtain ⟨hmemory, hfiles⟩ := hend token hgone
  exact ⟨fun outside env hlet => hmemory hlet.has, hfiles⟩

/-! ### A session of both processes -/

/-- The token of the session in the long-term file. -/
def sharedToken : Bytes := List.replicate sessionTokenSize 0x61

/-- The process's memory without that session. -/
def closedWorld : World :=
  { sampleWorld with store := { authTokens := sampleTokens.erase sharedToken } }

/-- The memory without the session can be written. -/
theorem closedWorld_writable : closedWorld.Writable where
  systemUuid := sampleUuid.valid
  session session hmem :=
    sampleWorld_writable.session session (Table.mem_erase_iff.mp hmem).1

/-- The files after the peer logged the session out. -/
def closedDisk : Disk
  | .configCurrentServiceSession => .missing
  | storageType =>
      .parsed (fileData closedWorld storageType) (closedWorld_writable.fileData_valid _)

/-- Closing the session is a write of the peer. -/
theorem peerWrites_closed {s : Shared} (hgone : ∀ token, s.gone token = false)
    (hadded : ∀ token, s.added token = none)
    (huuid : ∀ t, (s.world.disk t).systemUuid = (sampleDisk true t).systemUuid) :
    PeerWrites (s.loggedOut sharedToken closedDisk).gone
      (s.loggedOut sharedToken closedDisk).added s.world.disk closedDisk where
  gone token htoken := by
    by_cases hsame : token = sharedToken
    · subst hsame
      decide
    · exact absurd htoken (by simp [Shared.loggedOut, Shared.written, hsame, hgone])
  added token addition hsome := by
    by_cases hsame : token = sharedToken
    · exact absurd hsome (by simp [Shared.loggedOut, Shared.written, hsame])
    · exact absurd hsome (by simp [Shared.loggedOut, Shared.written, hsame, hadded])
  systemUuid t := by
    rw [huuid t]
    cases t <;> rfl

/-- A request that is let through without a session. -/
def whitelistedArrival : Arrival where
  outside := sampleOutside fun _ => none
  environment := { pathInfo := [bytes "redfish"] }

/-- The state after a load. -/
def Shared.reloaded (s : Shared) : Shared :=
  s.after { world := whitelistedArrival.loaded s.world, phase := .loaded }
    (.load whitelistedArrival.outside)

/-- The load of the request is a step. -/
theorem shares_reloaded {s : Shared} (hphase : s.phase = .idle)
    (h : whitelistedArrival.Loads s.world) :
    Shares s (.own (.load whitelistedArrival.outside)) s.reloaded := by
  have hprocess : s.toProcess = { world := s.world } := by
    rw [← hphase]
  exact Shares.own (hprocess ▸ moves_load h)

/-- The state after a whitelisted request has ended. -/
def Shared.answered (s : Shared) : Shared :=
  s.after { world := s.world }
    (.authenticate whitelistedArrival.outside whitelistedArrival.environment)

/-- Letting the request through is a step. -/
theorem shares_answered {s : Shared} (hphase : s.phase = .loaded) :
    Shares s (.own (.authenticate whitelistedArrival.outside whitelistedArrival.environment))
      s.answered := by
  refine Shares.own ?_
  unfold Moves Process.move
  dsimp only
  rw [if_pos hphase]
  rfl

/-- Both processes after a request of this one and the peer's logout. -/
def afterLogout : Shared :=
  (Shared.initial (World.initial (sampleDisk true))).reloaded.answered.loggedOut
    sharedToken closedDisk

/-- The next request finds the session still in memory. -/
theorem logged_out_session_accepted :
    ¬ ∀ (w : World) (events : List SharedEvent) (s : Shared) (token : Bytes),
      Run Shares (Shared.initial w) events s → s.gone token = true →
      (∀ outside env, ¬ LetThrough outside env s.world token) ∧
        ∀ t ∈ configFilePathDict, ¬ (s.world.disk t).Holds token := by
  intro h
  have hload : Run Shares (Shared.initial (World.initial (sampleDisk true)))
      [.own (.load whitelistedArrival.outside)]
      (Shared.initial (World.initial (sampleDisk true))).reloaded :=
    Run.single (shares_reloaded rfl (by decide))
  have hlogout : Shares (Shared.initial (World.initial (sampleDisk true))).reloaded.answered
      (.logout sharedToken closedDisk) afterLogout :=
    Shares.logout (peerWrites_closed (fun _ => rfl)
      (fun _ => Shared.after_added_of_none (Shared.after_added_of_none rfl)) fun _ => rfl)
  have hrun := ((hload.snoc (shares_answered rfl)).snoc hlogout).snoc
    (shares_reloaded rfl (by decide))
  exact (h _ _ _ sharedToken hrun (by decide)).1 (tokenArrival 0 0x61).outside
    (tokenArrival 0 0x61).environment (by decide)

/-- A logout before the first load is final. -/
theorem logout_before_load :
    (∀ outside env, ¬ LetThrough outside env ((Shared.initial (World.initial
        (sampleDisk true))).loggedOut sharedToken closedDisk).reloaded.world sharedToken) ∧
      ∀ t ∈ configFilePathDict, ¬ (((Shared.initial (World.initial
        (sampleDisk true))).loggedOut sharedToken closedDisk).reloaded.world.disk t).Holds
          sharedToken := by
  have hlogout : Restrict Shares LogoutUnread (Shared.initial (World.initial (sampleDisk true)))
      (.logout sharedToken closedDisk)
      ((Shared.initial (World.initial (sampleDisk true))).loggedOut sharedToken closedDisk) :=
    ⟨Table.not_has_empty _, Shares.logout (peerWrites_closed (fun _ => rfl) (fun _ => rfl)
      fun _ => rfl)⟩
  have hload : Restrict Shares LogoutUnread
      ((Shared.initial (World.initial (sampleDisk true))).loggedOut sharedToken closedDisk)
      (.own (.load whitelistedArrival.outside))
      ((Shared.initial (World.initial (sampleDisk true))).loggedOut sharedToken
        closedDisk).reloaded := ⟨trivial, shares_reloaded rfl (by decide)⟩
  exact logout_is_final ((Run.single hlogout).snoc hload) (by decide)

end Service
end ObmcWebapp
