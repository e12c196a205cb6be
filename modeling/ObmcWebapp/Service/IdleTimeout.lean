import ObmcWebapp.Service.Requests

/-!
# Service - The idle timeout over runs of requests

A record is kept beside the state: when each token was last loaded for the first
time, opened or accepted, and which tokens a sweep has removed.  The idle timeout
is then a property of every request that a token gets through.

Main results:

- Theorem {lit}`StoreStep.of_probed`: what logins leave of the sessions.
- Theorem {lit}`Watched.Invariant.serves`: one event keeps the invariant.
- Theorem {lit}`accepted_within_timeout`: a token is accepted within the timeout
  and the throttle of the sweep, as long as no sweep forgets a session that stands
  in a file without the file being written.
-/

open Library

namespace ObmcWebapp
namespace Service

/-! ## The record -/

/-- The time at which an event happens. -/
def Event.now : Event → TimePoint
  | .construct outside => outside.now
  | .request arrival => arrival.outside.now

/-- The request's handler does not use the session store, as no handler of the
program does. -/
def Event.LeavesStore : Event → Prop
  | .construct _ => True
  | .request arrival => arrival.handler = []

/-- A process with its history. -/
structure Watched where
  world : World
  clock : TimePoint := 0
  lastSeen : Bytes → Option TimePoint := fun _ => none
  swept : Bytes → Bool := fun _ => false

/-- A session is opened for the request's user and password, or the one that has
its token is given out. -/
def OpenedUnder (outside : Outside) (env : Environment) (w : World) (token : Bytes) : Prop :=
  LetThroughBasic outside env w ∧
    (drawIdentifiers outside.draws).map Identifiers.sessionToken = some token

instance (outside : Outside) (env : Environment) (w : World) (token : Bytes) :
    Decidable (OpenedUnder outside env w token) :=
  inferInstanceAs (Decidable (_ ∧ _))

namespace Watched

/-- At the start nothing has been seen. -/
def initial (disk : Disk) : Watched where
  world := World.initial disk

/-- A load: a token is seen when it gets into memory for the first time. -/
def load (s : Watched) (outside : Outside) : Watched :=
  let world := (readData outside.loadFaults outside.uuid outside.now s.world).2
  { world
    clock := outside.now
    lastSeen := fun token =>
      match s.lastSeen token with
      | some last => some last
      | none => if world.store.authTokens.Has token then some outside.now else none
    swept := s.swept }

/-- The token is accepted from the request, or a session opened under it. -/
def Seen (s : Watched) (arrival : Arrival) (token : Bytes) : Prop :=
  LetThrough arrival.outside arrival.environment s.world token ∨
    OpenedUnder arrival.outside arrival.environment s.world token

instance (s : Watched) (arrival : Arrival) (token : Bytes) : Decidable (s.Seen arrival token) :=
  inferInstanceAs (Decidable (_ ∨ _))

/-- What follows the load of a request. -/
def authenticated (s : Watched) (arrival : Arrival) (world : World) : Watched where
  world := world
  clock := s.clock
  lastSeen := fun token => if s.Seen arrival token then some s.clock else s.lastSeen token
  swept := fun token =>
    if OpenedUnder arrival.outside arrival.environment s.world token then false
    else s.swept token ||
      (decide (s.world.store.authTokens.Has token) && !decide (world.store.authTokens.Has token))

/-- The state after an event. -/
def next (s : Watched) : Event → Watched
  | .construct outside => s.load outside
  | .request arrival =>
      if arrival.Loads s.world then
        (s.load arrival.outside).authenticated arrival (process arrival s.world).2
      else
        s.load arrival.outside

end Watched

/-- The step relation: events happen one after the other. -/
def Serves (s : Watched) (event : Event) (s' : Watched) : Prop :=
  s.clock ≤ event.now ∧ event.LeavesStore ∧ s' = s.next event

/-! ## The condition -/

/-- The sweep of a request drops a session that stands in a file. -/
def Drops (env : Environment) (now : TimePoint) (w : World) : Prop :=
  LoginAttempted env w.store ∧ w.store.SweepDue now ∧
    ∃ session ∈ w.store.authTokens, w.store.Expired now session ∧
      ∃ t ∈ configFilePathDict, (w.disk t).Holds session.sessionToken

/-- The files are written after a request's sweep: the request is let through, and
no write fails. -/
def Saves (outside : Outside) (env : Environment) (w : World) : Prop :=
  ((∃ token, LetThrough outside env w token) ∨ LetThroughBasic outside env w) ∧
    outside.storeFaults = Faults.none ∧ outside.commitFaults = Faults.none

/-- The timeout that a load gives is positive and, from the first sweep on, the one
that was there. -/
def TimeoutSettled (before after : SessionStore) : Prop :=
  0 < after.timeoutInSeconds ∧
    (before.lastTimeoutUpdate = 0 ∨ after.timeoutInSeconds = before.timeoutInSeconds)

/-- The request of an event does not forget a session without writing the files,
and a cookie that fails the CSRF rule does not name a session. -/
def Settled (s : Watched) : Event → Prop
  | .construct outside => TimeoutSettled s.world.store (s.load outside).world.store
  | .request arrival =>
      TimeoutSettled s.world.store (arrival.loaded s.world).store ∧
        (arrival.Loads s.world → ¬ Whitelisted arrival.environment →
          (CsrfFailure arrival.environment arrival.outside.now (arrival.loaded s.world).store →
            XTokenCredential arrival.environment arrival.outside.now
              (arrival.loaded s.world).store) ∧
          (Drops arrival.environment arrival.outside.now (arrival.loaded s.world) →
            Saves arrival.outside arrival.environment (arrival.loaded s.world)))

/-! ## What happens to the sessions -/

/-- The idle time that a session is allowed, in nanoseconds. -/
def SessionStore.allowance (store : SessionStore) : Int :=
  store.timeoutInSeconds.toInt * nanosPerSecond

/-- The time that a session may be idle is positive. -/
theorem SessionStore.allowance_pos {store : SessionStore} (hpositive : 0 < store.timeoutInSeconds) :
    0 < store.allowance := by
  have hseconds := Int64.lt_iff_toInt_lt.mp hpositive
  simp only [Int64.toInt_zero] at hseconds
  unfold SessionStore.allowance nanosPerSecond
  omega

/-- The conversion overflows only downwards. -/
theorem secondsToNanos_le {seconds : Int64} (hpositive : 0 < seconds) :
    secondsToNanos seconds ≤ seconds.toInt * nanosPerSecond := by
  have hnonneg : 0 ≤ seconds.toInt := by
    have := Int64.lt_iff_toInt_lt.mp hpositive
    simp at this
    omega
  have hproduct : (seconds * 1000000000).toInt = (seconds.toInt * 1000000000).bmod (2 ^ 64) := by
    rw [Int64.toInt_mul]
    rfl
  unfold secondsToNanos nanosPerSecond
  rw [hproduct]
  have hnat : 0 ≤ seconds.toInt * 1000000000 := by omega
  generalize seconds.toInt * 1000000000 = n at hnat
  rw [Int.bmod_def]
  split <;> omega

/-- What authenticating a request does to the sessions: the sweep drops expired ones,
and the tokens seen are used now. -/
structure StoreStep (now : TimePoint) (Seen : Bytes → Prop) (store store' : SessionStore) :
    Prop where
  timeout : store'.timeoutInSeconds = store.timeoutInSeconds
  mem : ∀ session ∈ store'.authTokens, session ∈ store.authTokens ∨
    (Seen session.sessionToken ∧ session.lastUpdated = now ∧
      (session.persistence = .singleRequest ∨
        ∃ old ∈ store.authTokens, session = old.touch now))
  kept : ∀ session ∈ store.authTokens, store'.authTokens.Has session.sessionToken ∨
    (store.SweepDue now ∧ store.Expired now session)
  sweep : store'.lastTimeoutUpdate = store.lastTimeoutUpdate ∨
    (store'.lastTimeoutUpdate = now ∧
      ∀ session ∈ store'.authTokens, now - session.lastUpdated < store.allowance)

namespace StoreStep

variable {now : TimePoint} {Seen : Bytes → Prop} {store store' : SessionStore}

/-- Nothing happens to the store. -/
theorem refl (now : TimePoint) (Seen : Bytes → Prop) (store : SessionStore) :
    StoreStep now Seen store store where
  timeout := rfl
  mem _ hmem := Or.inl hmem
  kept _ hmem := Or.inl (Table.has_of_mem hmem)
  sweep := Or.inl rfl

/-- The sweep, and the use of some tokens after it. -/
theorem of_touchAll (hpositive : 0 < store.timeoutInSeconds) {tokens : List Bytes}
    (hseen : ∀ token ∈ tokens, Seen token) :
    StoreStep now Seen store ((store.applySessionTimeouts now).touchAll now tokens) where
  timeout := by
    rw [SessionStore.touchAll_eq]
    exact SessionStore.applySessionTimeouts_timeout store now
  mem session hmem := by
    rcases SessionStore.mem_touchAll hmem with ⟨hold, -⟩ | ⟨old, hold, htoken, rfl⟩
    · exact Or.inl (SessionStore.mem_applySessionTimeouts_iff.mp hold).1
    · exact Or.inr ⟨hseen _ htoken, rfl,
        Or.inr ⟨old, (SessionStore.mem_applySessionTimeouts_iff.mp hold).1, rfl⟩⟩
  kept session hmem := by
    by_cases hdropped : store.SweepDue now ∧ store.Expired now session
    · exact Or.inr hdropped
    · have hkept : session ∈ (store.applySessionTimeouts now).authTokens :=
        SessionStore.mem_applySessionTimeouts_iff.mpr
          ⟨hmem, fun hdue hexpired => hdropped ⟨hdue, hexpired⟩⟩
      exact Or.inl (SessionStore.has_touchAll_iff.mpr (Table.has_of_mem hkept))
  sweep := by
    rw [SessionStore.touchAll_eq]
    by_cases hdue : store.SweepDue now
    · refine Or.inr ⟨by simp [SessionStore.applySessionTimeouts, hdue], fun session hmem => ?_⟩
      rcases SessionStore.mem_touchAll hmem with ⟨hold, -⟩ | ⟨old, -, -, rfl⟩
      · have hlive := (SessionStore.mem_applySessionTimeouts_iff.mp hold).2 hdue
        exact Int.lt_of_lt_of_le (Int.not_le.mp hlive) (secondsToNanos_le hpositive)
      · change now - now < store.allowance
        rw [Int.sub_self]
        exact SessionStore.allowance_pos hpositive
    · exact Or.inl (by simp [SessionStore.applySessionTimeouts, hdue])

/-- A probe of the store is such a step. -/
theorem of_probed (hpositive : 0 < store.timeoutInSeconds) {tokens : List Bytes}
    (hseen : ∀ token ∈ tokens, Seen token)
    (h : SessionStore.Probed now store tokens store') : StoreStep now Seen store store' := by
  rcases h with ⟨-, rfl⟩ | ⟨-, rfl⟩
  · exact refl now Seen _
  · exact of_touchAll hpositive hseen

/-- A session opened for one request is inserted. -/
theorem restore (h : StoreStep now Seen store store') (hpositive : 0 < store.timeoutInSeconds)
    {session : UserSession} (hseen : Seen session.sessionToken) (hnow : session.lastUpdated = now)
    (hsingle : session.persistence = .singleRequest) :
    StoreStep now Seen store (store'.restore session) where
  timeout := h.timeout
  mem stored hmem := by
    rcases Table.mem_emplace_iff.mp hmem with hold | ⟨rfl, -⟩
    · exact h.mem stored hold
    · exact Or.inr ⟨hseen, hnow, Or.inl hsingle⟩
  kept stored hmem := by
    rcases h.kept stored hmem with hhas | hdropped
    · exact Or.inl (Table.has_emplace_iff.mpr (Or.inl hhas))
    · exact Or.inr hdropped
  sweep := by
    rcases h.sweep with hsame | ⟨hlast, hlive⟩
    · exact Or.inl hsame
    · refine Or.inr ⟨hlast, fun stored hmem => ?_⟩
      rcases Table.mem_emplace_iff.mp hmem with hold | ⟨rfl, -⟩
      · exact hlive stored hold
      · rw [hnow, Int.sub_self]
        exact SessionStore.allowance_pos hpositive

end StoreStep

/-- Opening sessions for one request and using sessions leaves the files writable. -/
theorem StoreStep.writable {now : TimePoint} {Seen : Bytes → Prop} {w w' : World} (hw : w.Writable)
    (h : StoreStep now Seen w.store w'.store) (huuid : w'.systemUuid = w.systemUuid) :
    w'.Writable where
  systemUuid := huuid ▸ hw.systemUuid
  session session hmem hpersists := by
    rcases h.mem session hmem with hold | ⟨-, -, hsingle | ⟨old, hold, rfl⟩⟩
    · exact hw.session session hold hpersists
    · exact absurd hsingle hpersists
    · have hvalid := hw.session old hold hpersists
      exact ⟨hvalid.1, hvalid.2, hvalid.3, hvalid.4, hvalid.5⟩

/-! ## What is known of a request that is let through -/

/-- One token lets a request through. -/
theorem LetThrough.unique {outside : Outside} {env : Environment} {w : World} {token token' : Bytes}
    (h : LetThrough outside env w token) (h' : LetThrough outside env w token') : token = token' :=
  Option.some.inj (h.2.2.symm.trans h'.2.2)

/-- The session of a token that gets a request through is in memory, and the sweep
keeps it. -/
theorem LetThrough.live {outside : Outside} {env : Environment} {w : World} {token : Bytes}
    (h : LetThrough outside env w token) :
    ∃ session ∈ w.store.authTokens, session.sessionToken = token ∧
      (w.store.SweepDue outside.now → ¬ w.store.Expired outside.now session) := by
  rcases findSession_effect outside env w with
    ⟨-, stale, next, session, hmem, -, -, heq⟩ | ⟨hnone, -⟩ | ⟨hnone, -⟩
  · have htoken := h.2.2
    rw [sessionFound, heq] at htoken
    obtain ⟨hold, hlive⟩ := SessionStore.mem_applySessionTimeouts_iff.mp hmem
    exact ⟨session, hold, Option.some.inj htoken, hlive⟩
  · exact absurd h.2.1 hnone
  · exact absurd h.2.1 hnone

/-- The store has the token that lets a request through. -/
theorem LetThrough.has {outside : Outside} {env : Environment} {w : World} {token : Bytes}
    (h : LetThrough outside env w token) : w.store.authTokens.Has token := by
  obtain ⟨session, hmem, hname, -⟩ := h.live
  exact ⟨session, hmem, hname⟩

/-- An accepted token is not empty. -/
theorem SessionStore.Accepts.length_pos {store : SessionStore} {now : TimePoint} {token : Bytes}
    (h : store.Accepts now token) : token ≠ [] := by
  rintro rfl
  exact absurd h.1 (by decide)

/-- A token was found, so it was looked up. -/
theorem loginAttempted_of_tokenFound {env : Environment} {now : TimePoint} {store : SessionStore}
    (h : TokenFound env now store) : LoginAttempted env store := by
  rcases h with ⟨hconfig, token, hlookup, hok⟩ | ⟨hconfig, token, hlookup, -⟩ |
    ⟨hconfig, token, hheader, -⟩
  · exact Or.inl ⟨hconfig, token, hlookup, hok.length_pos⟩
  · exact Or.inr (Or.inl ⟨hconfig, token, hlookup⟩)
  · exact Or.inr (Or.inr ⟨hconfig, token, hheader⟩)

/-! ## The invariant -/

namespace Watched

/-- What holds between the record, the memory and the files: a session in memory was
used no later than it was seen, a token that was seen and stands in a file is in
memory, and a swept token is not. -/
structure Invariant (s : Watched) : Prop where
  writable : s.world.Writable
  seen : ∀ session ∈ s.world.store.authTokens, ∃ last,
    s.lastSeen session.sessionToken = some last ∧ session.lastUpdated ≤ last
  held : ∀ t ∈ configFilePathDict, ∀ token, (s.world.disk t).Holds token →
    s.lastSeen token ≠ none → s.world.store.authTokens.Has token
  swept : ∀ token, s.swept token = true →
    s.lastSeen token ≠ none ∧ ¬ s.world.store.authTokens.Has token
  lastSweep : 0 ≤ s.world.store.lastTimeoutUpdate ∧ s.world.store.lastTimeoutUpdate ≤ s.clock
  used : ∀ session ∈ s.world.store.authTokens, 0 ≤ session.lastUpdated ∧
    session.lastUpdated ≤ s.clock
  recent : s.world.store.lastTimeoutUpdate = 0 ∨ ∀ session ∈ s.world.store.authTokens,
    s.world.store.lastTimeoutUpdate - session.lastUpdated < s.world.store.allowance

/-- The invariant holds at the start. -/
theorem Invariant.initial (disk : Disk) : (initial disk).Invariant where
  writable := ⟨Utf8.valid_nil, fun session hmem _ => absurd hmem (Table.not_mem_empty session)⟩
  seen session hmem := absurd hmem (Table.not_mem_empty session)
  held _ _ _ _ hseen := absurd rfl hseen
  swept token hswept := absurd hswept (by simp [Watched.initial])
  lastSweep := ⟨Int.le_refl 0, Int.le_refl 0⟩
  used session hmem := absurd hmem (Table.not_mem_empty session)
  recent := Or.inl rfl

section Load

variable {s : Watched} {outside : Outside} {token : Bytes}

/-- The state after a start is a loaded one. -/
theorem load_loaded (s : Watched) (outside : Outside) :
    Loaded outside.now s.world (s.load outside).world :=
  readData_loaded _ _ _ s.world

/-- A session that has been seen was seen at the same time. -/
theorem load_lastSeen_of_ne_none (h : s.lastSeen token ≠ none) :
    (s.load outside).lastSeen token = s.lastSeen token := by
  obtain ⟨last, hlast⟩ := Option.ne_none_iff_exists'.mp h
  simp [load, hlast]

/-- Any other session is seen when it is loaded. -/
theorem load_lastSeen_of_none (h : s.lastSeen token = none) :
    (s.load outside).lastSeen token =
      if (s.load outside).world.store.authTokens.Has token then some outside.now else none := by
  unfold load
  dsimp only
  rw [h]

/-- A session that a load inserts is one that was never seen before. -/
theorem Invariant.load_new (h : s.Invariant) {session : UserSession}
    (hmem : session ∈ (s.load outside).world.store.authTokens)
    (hnew : session ∉ s.world.store.authTokens) :
    s.lastSeen session.sessionToken = none ∧ session.lastUpdated = outside.now := by
  rcases (load_loaded s outside).new session hmem with hold | ⟨hfresh, t, hfile, hfrom, hheld⟩
  · exact absurd hold hnew
  · refine ⟨?_, by rw [hfrom.restored_eq]; rfl⟩
    by_contra hseen
    exact hfresh (h.held t hfile _ hheld hseen)

/-- A load keeps the invariant. -/
theorem Invariant.load (h : s.Invariant) (hclock : s.clock ≤ outside.now)
    (hsettled : TimeoutSettled s.world.store (s.load outside).world.store) :
    (s.load outside).Invariant := by
  have hload := load_loaded s outside
  have hpast : s.world.store.lastTimeoutUpdate ≤ outside.now := Int.le_trans h.lastSweep.2 hclock
  have hcases : ∀ session ∈ (s.load outside).world.store.authTokens,
      session ∈ s.world.store.authTokens ∨
        (s.lastSeen session.sessionToken = none ∧ session.lastUpdated = outside.now) := by
    intro session hmem
    by_cases hold : session ∈ s.world.store.authTokens
    · exact Or.inl hold
    · exact Or.inr (h.load_new hmem hold)
  refine ⟨hload.writable h.writable, ?_, ?_, ?_, ?_, ?_, ?_⟩
  · intro session hmem
    rcases hcases session hmem with hold | ⟨hfirst, hnow⟩
    · obtain ⟨last, hlast, hused⟩ := h.seen session hold
      refine ⟨last, ?_, hused⟩
      rw [load_lastSeen_of_ne_none (by simp [hlast]), hlast]
    · refine ⟨outside.now, ?_, Int.le_of_eq hnow⟩
      rw [load_lastSeen_of_none hfirst, if_pos (Table.has_of_mem hmem)]
  · intro t hfile token hheld hseen
    rcases hload.files t token hheld with hold | hhas
    · by_cases hfirst : s.lastSeen token = none
      · rw [load_lastSeen_of_none hfirst] at hseen
        exact of_not_not fun hnot => hseen (if_neg hnot)
      · exact hload.has (h.held t hfile token hold hfirst)
    · exact hhas
  · intro token hswept
    obtain ⟨hseen, hgone⟩ := h.swept token hswept
    refine ⟨by rwa [load_lastSeen_of_ne_none hseen], ?_⟩
    rintro ⟨session, hmem, rfl⟩
    rcases hcases session hmem with hold | ⟨hfirst, -⟩
    · exact hgone (Table.has_of_mem hold)
    · exact hseen hfirst
  · rw [hload.lastTimeoutUpdate]
    exact ⟨h.lastSweep.1, hpast⟩
  · intro session hmem
    rcases hcases session hmem with hold | ⟨-, hnow⟩
    · exact ⟨(h.used session hold).1, Int.le_trans (h.used session hold).2 hclock⟩
    · rw [hnow]
      exact ⟨Int.le_trans h.lastSweep.1 hpast, Int.le_refl _⟩
  · obtain ⟨hpositive, hsame⟩ := hsettled
    rw [hload.lastTimeoutUpdate]
    rcases hsame with hzero | hsame
    · exact Or.inl hzero
    · rcases h.recent with hzero | hrecent
      · exact Or.inl hzero
      · refine Or.inr fun session hmem => ?_
        rcases hcases session hmem with hold | ⟨-, hnow⟩
        · have hallowance : (s.load outside).world.store.allowance = s.world.store.allowance := by
            rw [SessionStore.allowance, hsame, SessionStore.allowance]
          rw [hallowance]
          exact hrecent session hold
        · rw [hnow]
          exact Int.lt_of_le_of_lt (Int.sub_nonpos_of_le hpast)
            (SessionStore.allowance_pos hpositive)

end Load

/-! ### What follows a load -/

section Authenticated

variable {s : Watched} {arrival : Arrival} {w : World} {token : Bytes}

/-- The session of the request is seen now. -/
theorem authenticated_lastSeen_of_seen (h : s.Seen arrival token) :
    (s.authenticated arrival w).lastSeen token = some s.clock :=
  if_pos h

/-- Any other session was seen before. -/
theorem authenticated_lastSeen_of_not_seen (h : ¬ s.Seen arrival token) :
    (s.authenticated arrival w).lastSeen token = s.lastSeen token :=
  if_neg h

/-- What has been seen stays seen. -/
theorem authenticated_lastSeen_ne_none (h : s.lastSeen token ≠ none) :
    (s.authenticated arrival w).lastSeen token ≠ none := by
  by_cases hseen : s.Seen arrival token
  · simp [authenticated_lastSeen_of_seen hseen]
  · rwa [authenticated_lastSeen_of_not_seen hseen]

/-- A swept token was swept before or is now, and no session was opened under it. -/
theorem of_authenticated_swept (h : (s.authenticated arrival w).swept token = true) :
    ¬ OpenedUnder arrival.outside arrival.environment s.world token ∧
      (s.swept token = true ∨
        (s.world.store.authTokens.Has token ∧ ¬ w.store.authTokens.Has token)) := by
  unfold authenticated at h
  dsimp only at h
  split at h
  · exact absurd h (by simp)
  · next hopened => exact ⟨hopened, by simpa using h⟩

/-- Every session that stands in a file stays in memory unless the files are
written. -/
def KeepsFiles (s : Watched) (w : World) : Prop :=
  (∀ t ∈ configFilePathDict, ∀ token, (w.disk t).Holds token → w.store.authTokens.Has token) ∨
    ∀ session ∈ s.world.store.authTokens,
      (∃ t ∈ configFilePathDict, (s.world.disk t).Holds session.sessionToken) →
        w.store.authTokens.Has session.sessionToken

/-- Authenticating keeps the invariant if it keeps the files. -/
theorem Invariant.authenticated (h : s.Invariant) (hpositive : 0 < s.world.store.timeoutInSeconds)
    (hstep : StoreStep s.clock (s.Seen arrival) s.world.store w.store)
    (huuid : w.systemUuid = s.world.systemUuid)
    (hhas : ∀ token, s.Seen arrival token → w.store.authTokens.Has token)
    (hfiles : ∀ t ∈ configFilePathDict, ∀ token, (w.disk t).Holds token →
      (s.world.disk t).Holds token ∨ w.store.authTokens.Has token)
    (hkeeps : KeepsFiles s w) : (s.authenticated arrival w).Invariant := by
  refine ⟨hstep.writable h.writable huuid, ?_, ?_, ?_, ?_, ?_, ?_⟩
  · intro session hmem
    by_cases hseen : s.Seen arrival session.sessionToken
    · refine ⟨s.clock, authenticated_lastSeen_of_seen hseen, ?_⟩
      rcases hstep.mem session hmem with hold | ⟨-, hnow, -⟩
      · exact (h.used session hold).2
      · exact Int.le_of_eq hnow
    · rw [authenticated_lastSeen_of_not_seen hseen]
      rcases hstep.mem session hmem with hold | ⟨hnow, -⟩
      · exact h.seen session hold
      · exact absurd hnow hseen
  · intro t hfile token hheld hlast
    by_cases hseen : s.Seen arrival token
    · exact hhas token hseen
    · rw [authenticated_lastSeen_of_not_seen hseen] at hlast
      rcases hkeeps with hsaved | hkept
      · exact hsaved t hfile token hheld
      · rcases hfiles t hfile token hheld with hold | hnew
        · obtain ⟨session, hmem, rfl⟩ := h.held t hfile token hold hlast
          exact hkept session hmem ⟨t, hfile, hold⟩
        · exact hnew
  · intro token hswept
    obtain ⟨hopened, hcases⟩ := of_authenticated_swept hswept
    rcases hcases with hbefore | ⟨⟨session, hmem, rfl⟩, hgone⟩
    · obtain ⟨hlast, hgone⟩ := h.swept token hbefore
      refine ⟨authenticated_lastSeen_ne_none hlast, ?_⟩
      rintro ⟨session, hmem, rfl⟩
      rcases hstep.mem session hmem with hold | ⟨hlet | hunder, -⟩
      · exact hgone (Table.has_of_mem hold)
      · exact hgone hlet.has
      · exact hopened hunder
    · obtain ⟨last, hlast, -⟩ := h.seen session hmem
      exact ⟨authenticated_lastSeen_ne_none (by simp [hlast]), hgone⟩
  · rcases hstep.sweep with hsame | ⟨hnow, -⟩
    · exact hsame ▸ h.lastSweep
    · exact ⟨hnow ▸ Int.le_trans h.lastSweep.1 h.lastSweep.2, Int.le_of_eq hnow⟩
  · intro session hmem
    rcases hstep.mem session hmem with hold | ⟨-, hnow, -⟩
    · exact h.used session hold
    · rw [hnow]
      exact ⟨Int.le_trans h.lastSweep.1 h.lastSweep.2, Int.le_refl _⟩
  · have hallowance : w.store.allowance = s.world.store.allowance := by
      rw [SessionStore.allowance, hstep.timeout, SessionStore.allowance]
    change w.store.lastTimeoutUpdate = 0 ∨ ∀ session ∈ w.store.authTokens,
      w.store.lastTimeoutUpdate - session.lastUpdated < w.store.allowance
    rw [hallowance]
    rcases hstep.sweep with hsame | ⟨hnow, hlive⟩
    · rw [hsame]
      rcases h.recent with hzero | hrecent
      · exact Or.inl hzero
      · refine Or.inr fun session hmem => ?_
        rcases hstep.mem session hmem with hold | ⟨-, hused, -⟩
        · exact hrecent session hold
        · rw [hused]
          exact Int.lt_of_le_of_lt (Int.sub_nonpos_of_le h.lastSweep.2)
            (SessionStore.allowance_pos hpositive)
    · exact Or.inr (hnow ▸ hlive)

/-! ### One request -/

/-- A request that drops no session from the files keeps them. -/
theorem keepsFiles_of_not_drops
    (hstep : StoreStep arrival.outside.now (s.Seen arrival) s.world.store w.store)
    (hquiet : ¬ LoginAttempted arrival.environment s.world.store → w.store = s.world.store)
    (hnot : ¬ Drops arrival.environment arrival.outside.now s.world) : KeepsFiles s w := by
  refine Or.inr fun session hmem hheld => ?_
  rcases hstep.kept session hmem with hhas | ⟨hdue, hexpired⟩
  · exact hhas
  · by_cases hattempt : LoginAttempted arrival.environment s.world.store
    · exact absurd ⟨hattempt, hdue, session, hmem, hexpired, hheld⟩ hnot
    · rw [hquiet hattempt]
      exact Table.has_of_mem hmem

/-- The token of a cookie is used in vain only where the CSRF rule fails. -/
theorem eq_nil_of_stale {env : Environment} {now : TimePoint} {store : SessionStore}
    {stale : List Bytes} (hstale : Stale env now store stale)
    (hcsrf : CsrfFailure env now store → XTokenCredential env now store) : stale = [] := by
  rcases hstale with hnil | ⟨hnot, hfails⟩
  · exact hnil
  · exact absurd (hcsrf hfails) hnot

/-- Authenticating a request that meets the condition keeps the invariant. -/
theorem Invariant.of_authentication (h : s.Invariant) (hclock : s.clock = arrival.outside.now)
    (hpositive : 0 < s.world.store.timeoutInSeconds)
    (hcsrf : ¬ Whitelisted arrival.environment →
      CsrfFailure arrival.environment arrival.outside.now s.world.store →
        XTokenCredential arrival.environment arrival.outside.now s.world.store)
    (hsaves : ¬ Whitelisted arrival.environment →
      Drops arrival.environment arrival.outside.now s.world →
        Saves arrival.outside arrival.environment s.world)
    (hauth : Authentication arrival.outside arrival.environment s.world w) :
    (s.authenticated arrival w).Invariant := by
  cases hauth with
  | whitelisted hwhite =>
      refine h.authenticated hpositive (StoreStep.refl _ _ _) rfl ?_ (fun _ _ _ hheld =>
        Or.inl hheld) (Or.inr fun session hmem _ => Table.has_of_mem hmem)
      rintro token (hlet | hopened)
      · exact absurd hwhite hlet.1
      · exact absurd hwhite hopened.1.1
  | accepted hlet hstale hmem hprobed =>
      rename_i stale session next
      obtain rfl := eq_nil_of_stale hstale (hcsrf hlet.1)
      have hseen : ∀ token ∈ [] ++ [session.sessionToken], s.Seen arrival token := by
        intro token htoken
        obtain rfl := List.mem_singleton.mp htoken
        exact Or.inl hlet
      have hstep : StoreStep arrival.outside.now (s.Seen arrival) s.world.store next :=
        StoreStep.of_probed hpositive hseen hprobed
      have hstore : (commit arrival.outside.commitFaults { s.world with store := next }).2.store =
          next := commit_store _ _
      have hhas : next.authTokens.Has session.sessionToken := by
        rcases hprobed with ⟨hnil, -⟩ | ⟨-, rfl⟩
        · exact absurd hnil (by simp)
        · exact SessionStore.has_touchAll_iff.mpr (Table.has_of_mem hmem)
      refine h.authenticated hpositive (by rw [hstore, hclock]; exact hstep)
        (commit_systemUuid _ _) ?_ ?_ ?_
      · rw [hstore]
        rintro token (hother | hopened)
        · exact hlet.unique hother ▸ hhas
        · exact absurd hlet.2.1 hopened.1.2.1
      · intro t hfile token hheld
        rw [hstore]
        exact holds_commit hheld
      · by_cases hdrops : Drops arrival.environment arrival.outside.now s.world
        · obtain ⟨-, -, hfaults⟩ := hsaves hlet.1 hdrops
          have hwritable : World.Writable { s.world with store := next } :=
            StoreStep.writable h.writable hstep rfl
          refine Or.inl fun t hfile token hheld => ?_
          rw [hfaults] at hheld ⊢
          rw [commit_store]
          exact has_of_holds_commit hwritable.completes hfile hheld
        · refine keepsFiles_of_not_drops (by rw [hstore]; exact hstep) (fun hnot => ?_) hdrops
          exact absurd (loginAttempted_of_tokenFound hlet.2.1) hnot
  | opened user selfOnly hlet hdraw hstale hprobed hquiet hcommits =>
      rename_i stale next ids
      obtain rfl := eq_nil_of_stale hstale (hcsrf hlet.1)
      have hunder : OpenedUnder arrival.outside arrival.environment s.world ids.sessionToken :=
        ⟨hlet, by rw [hdraw]; rfl⟩
      generalize hsession : basicSession arrival.outside arrival.environment ids user selfOnly =
        session at hcommits
      have hname : session.sessionToken = ids.sessionToken := hsession ▸ rfl
      have hprobedStep : StoreStep arrival.outside.now (s.Seen arrival) s.world.store next :=
        StoreStep.of_probed hpositive (fun token htoken => absurd htoken List.not_mem_nil) hprobed
      have hstep : StoreStep arrival.outside.now (s.Seen arrival) s.world.store
          (next.restore session) :=
        hprobedStep.restore hpositive (Or.inr (hname ▸ hunder)) (hsession ▸ rfl) (hsession ▸ rfl)
      obtain ⟨hstore, huuid, hfiles, hwritten⟩ := of_commits hcommits
      have hsame : w.store = next.restore session := hstore
      refine h.authenticated hpositive (by rw [hsame, hclock]; exact hstep) huuid ?_
        (fun t _ token hheld => hstore ▸ hfiles t token hheld) ?_
      · rintro token (hother | hother)
        · exact absurd hother.2.1 hlet.2.1
        · have htoken := hunder.2.symm.trans hother.2
          rw [hsame, ← Option.some.inj htoken]
          exact Table.has_emplace_iff.mpr (Or.inr hname)
      · by_cases hdrops : Drops arrival.environment arrival.outside.now s.world
        · obtain ⟨-, hfaults, -⟩ := hsaves hlet.1 hdrops
          have hwritable : (World.emplace { s.world with store := next } session).Writable :=
            StoreStep.writable h.writable hstep rfl
          refine Or.inl fun t hfile token hheld => ?_
          rw [hstore]
          exact hwritten (hfaults ▸ hwritable.completes) t hfile token hheld
        · -- without a lookup only the new session was inserted
          by_cases hattempt : LoginAttempted arrival.environment s.world.store
          · exact keepsFiles_of_not_drops (by rw [hsame]; exact hstep)
              (fun hnot => absurd hattempt hnot) hdrops
          · refine Or.inr fun old hmem _ => ?_
            rw [hsame, hquiet hattempt]
            exact Table.has_emplace_iff.mpr (Or.inl (Table.has_of_mem hmem))
  | rejected hwhite hnone hnobasic hstale hprobed hquiet =>
      rename_i stale next
      obtain rfl := eq_nil_of_stale hstale (hcsrf hwhite)
      have hstep : StoreStep arrival.outside.now (s.Seen arrival) s.world.store next :=
        StoreStep.of_probed hpositive (fun token htoken => absurd htoken List.not_mem_nil) hprobed
      refine h.authenticated hpositive (by rw [hclock]; exact hstep) rfl ?_ (fun _ _ _ hheld =>
        Or.inl hheld) ?_
      · rintro token (hlet | hopened)
        · exact absurd hlet.2.1 hnone
        · exact absurd hopened.1 hnobasic
      · refine keepsFiles_of_not_drops hstep hquiet fun hdrops => ?_
        rcases (hsaves hwhite hdrops).1 with ⟨token, hlet⟩ | hbasic
        · exact hnone hlet.2.1
        · exact hnobasic hbasic

end Authenticated

/-- One event. -/
theorem Invariant.serves {s s' : Watched} {event : Event} (h : s.Invariant)
    (hsettled : Settled s event) (hstep : Serves s event s') : s'.Invariant := by
  obtain ⟨hclock, hfree, rfl⟩ := hstep
  cases event with
  | construct outside => exact h.load hclock hsettled
  | request arrival =>
      obtain ⟨htimeout, hcondition⟩ := hsettled
      have hload : (s.load arrival.outside).Invariant := h.load hclock htimeout
      unfold next
      dsimp only
      by_cases hloads : arrival.Loads s.world
      · rw [if_pos hloads]
        have hcondition := hcondition hloads
        obtain ⟨w', hauth, hcases⟩ := process_of_loads hloads
        have hworld : (process arrival s.world).2 = w' := by
          have hhandler : arrival.handler = [] := hfree
          rcases hcases with heq | heq
          · exact heq
          · rw [heq, hhandler]
            rfl
        rw [hworld]
        exact hload.of_authentication rfl htimeout.1 (fun hwhite => (hcondition hwhite).1)
          (fun hwhite => (hcondition hwhite).2) hauth
      · rw [if_neg hloads]
        exact hload

/-- The idle time up to the last sweep, and the time since then. -/
private theorem idle_lt {now swept used allowance throttle : Int} (hsurvived : swept - used < allowance)
    (hthrottle : now - swept ≤ throttle) : now - used < allowance + throttle := by
  omega

/-- A token that gets a request through was seen a short time ago, and has not been
swept. -/
theorem Invariant.accepted {s : Watched} {outside : Outside} {env : Environment} {token : Bytes}
    (h : s.Invariant) (hpositive : 0 < s.world.store.timeoutInSeconds)
    (hlet : LetThrough outside env s.world token) :
    s.swept token = false ∧ ∃ last, s.lastSeen token = some last ∧
      outside.now - last < s.world.store.allowance + nanosPerSecond := by
  obtain ⟨session, hmem, rfl, hlive⟩ := hlet.live
  obtain ⟨last, hlast, hused⟩ := h.seen session hmem
  refine ⟨?_, last, hlast, ?_⟩
  · rw [← Bool.not_eq_true]
    exact fun hswept => (h.swept _ hswept).2 (Table.has_of_mem hmem)
  · have hallowance := SessionStore.allowance_pos hpositive
    have hidle : outside.now - session.lastUpdated <
        s.world.store.allowance + nanosPerSecond := by
      by_cases hdue : s.world.store.SweepDue outside.now
      · have hbound := secondsToNanos_le hpositive
        have hshort := Int.lt_of_lt_of_le (Int.not_le.mp (hlive hdue)) hbound
        exact Int.lt_trans hshort (Int.lt_add_of_pos_right _ (by decide))
      · -- the sweep at most a second ago was survived, or there was none
        have hthrottle : outside.now - s.world.store.lastTimeoutUpdate ≤ nanosPerSecond :=
          Int.not_lt.mp hdue
        have hsurvived : s.world.store.lastTimeoutUpdate - session.lastUpdated <
            s.world.store.allowance := by
          rcases h.recent with hzero | hrecent
          · rw [hzero]
            exact Int.lt_of_le_of_lt (Int.sub_nonpos_of_le (h.used session hmem).1) hallowance
          · exact hrecent session hmem
        exact idle_lt hsurvived hthrottle
    exact Int.lt_of_le_of_lt (Int.sub_le_sub_left hused _) hidle

end Watched

/-- In every run of events in order whose requests meet the condition: a token is
accepted only if its session was opened, first loaded or last accepted less than the
session timeout and one second ago, and never after a sweep has removed the session. -/
theorem accepted_within_timeout {disk : Disk} {events : List Event} {s : Watched}
    (hrun : Run (Restrict Serves Settled) (Watched.initial disk) events s) {arrival : Arrival}
    {token : Bytes} (hclock : s.clock ≤ arrival.outside.now)
    (hsettled : Settled s (.request arrival))
    (hlet : LetThrough arrival.outside arrival.environment (s.load arrival.outside).world token) :
    (s.load arrival.outside).swept token = false ∧
      ∃ last, (s.load arrival.outside).lastSeen token = some last ∧
        arrival.outside.now - last <
          (s.load arrival.outside).world.store.allowance + nanosPerSecond := by
  have hinvariant : s.Invariant :=
    hrun.invariant (Watched.Invariant.initial disk) fun _ _ _ h hstep =>
      h.serves hstep.1 hstep.2
  have hload : (s.load arrival.outside).Invariant := hinvariant.load hclock hsettled.1
  exact hload.accepted hsettled.1.1 hlet

/-! ### Concrete runs -/

/-- A request with a token that is not in use. -/
def strangerArrival (now : TimePoint) : Arrival := tokenArrival now 0x7A

/-- The state after the program has started. -/
def afterLoad : Watched :=
  (Watched.initial (sampleDisk true)).next (.construct (tokenArrival 0 0x61).outside)

/-- A session that was loaded is accepted ten seconds later. -/
theorem accepted_after_load :
    (afterLoad.load (tokenArrival 10000000000 0x61).outside).swept
        (List.replicate sessionTokenSize 0x61) = false ∧
      ∃ last, (afterLoad.load (tokenArrival 10000000000 0x61).outside).lastSeen
          (List.replicate sessionTokenSize 0x61) = some last ∧
        10000000000 - last < (afterLoad.load
          (tokenArrival 10000000000 0x61).outside).world.store.allowance + nanosPerSecond := by
  have hrun : Run (Restrict Serves Settled) (Watched.initial (sampleDisk true))
      [.construct (tokenArrival 0 0x61).outside] afterLoad :=
    Run.single ⟨⟨by decide, Or.inl rfl⟩, by decide, trivial, rfl⟩
  have hfresh : ∀ session ∈ ((tokenArrival 10000000000 0x61).loaded
      afterLoad.world).store.authTokens.rows, ¬ ((tokenArrival 10000000000 0x61).loaded
        afterLoad.world).store.Expired 10000000000 session := by decide
  have hsettled : Settled afterLoad (.request (tokenArrival 10000000000 0x61)) := by
    refine ⟨⟨by decide, Or.inl (by decide)⟩, fun _ _ => ⟨fun h => absurd h (by decide), ?_⟩⟩
    rintro ⟨-, -, session, hmem, hexpired, -⟩
    exact absurd hexpired (hfresh session hmem)
  exact accepted_within_timeout hrun (by decide) hsettled (by decide)

/-- The process after a request with an unknown token, an hour after its start. -/
def afterHour : Watched :=
  afterLoad.next (.request (strangerArrival 3600000000000))

/-- The sweep of a refused request removes a session from memory only, and the next
load restores it. -/
theorem swept_session_returns :
    ¬ ∀ (disk : Disk) (events : List Event) (s : Watched) (arrival : Arrival) (token : Bytes),
      Run Serves (Watched.initial disk) events s → s.clock ≤ arrival.outside.now →
      arrival.Loads s.world →
      LetThrough arrival.outside arrival.environment (s.load arrival.outside).world token →
      (s.load arrival.outside).swept token = false ∧
        ∃ last, (s.load arrival.outside).lastSeen token = some last ∧
          arrival.outside.now - last <
            (s.load arrival.outside).world.store.allowance + nanosPerSecond := by
  intro h
  have hfirst : Run Serves (Watched.initial (sampleDisk true))
      [.construct (tokenArrival 0 0x61).outside] afterLoad :=
    Run.single ⟨by decide, trivial, rfl⟩
  have hrun : Run Serves (Watched.initial (sampleDisk true))
      [.construct (tokenArrival 0 0x61).outside, .request (strangerArrival 3600000000000)]
      afterHour := hfirst.snoc ⟨by decide, rfl, rfl⟩
  have hswept := (h _ _ _ (tokenArrival 3602000000000 0x61) (List.replicate sessionTokenSize 0x61)
    hrun (by decide) (by decide) (by decide)).1
  exact absurd hswept (by decide)

end Service
end ObmcWebapp
