import ObmcWebapp.Service.Persistence

/-!
# Service - The sweep in 64-bit arithmetic

The loop of {lit}`applySessionTimeouts` over the machine's durations.  Both sides of its
comparison are signed 64-bit counts of nanoseconds, and an operation whose exact result
does not fit has no defined outcome.

Main results:

- Theorem {lit}`SessionStore.sweepLoop_eq_some_iff`: when the loop has a defined
  outcome, and which one.
- Theorem {lit}`SessionStore.sweep_exact_iff`: an effective sweep removes exactly the
  sessions that were idle for the timeout, without overflow, just where the timeout and
  all idle times fit in 64 bits of nanoseconds.
-/

open Library

namespace ObmcWebapp
namespace Service

/-! ## Signed durations -/

/-- The counts that a signed 64-bit duration holds. -/
def InRange (count : Int) : Prop :=
  Int64.minValue.toInt ≤ count ∧ count ≤ Int64.maxValue.toInt

instance (count : Int) : Decidable (InRange count) :=
  inferInstanceAs (Decidable (_ ∧ _))

/-- The outcome of a signed operation with this exact result. -/
def checked (count : Int) : Option Int :=
  if InRange count then some count else none

/-- An operation succeeds exactly with a result in range. -/
@[simp]
theorem checked_eq_some_iff {count result : Int} :
    checked count = some result ↔ InRange count ∧ count = result := by
  unfold checked
  split
  · next hrange => simp [hrange]
  · next hrange => simp [hrange]

/-- The conversion that the program's compiler makes is exact where it is defined. -/
theorem secondsToNanos_of_inRange {seconds : Int64}
    (hrange : InRange (seconds.toInt * nanosPerSecond)) :
    secondsToNanos seconds = seconds.toInt * nanosPerSecond := by
  have hproduct : (seconds * 1000000000).toInt = (seconds.toInt * 1000000000).bmod (2 ^ 64) := by
    rw [Int64.toInt_mul]
    rfl
  unfold InRange nanosPerSecond at *
  unfold secondsToNanos
  rw [hproduct]
  have hmin : Int64.minValue.toInt = -2 ^ 63 := rfl
  have hmax : Int64.maxValue.toInt = 2 ^ 63 - 1 := rfl
  rw [hmin, hmax] at hrange
  exact Int.bmod_eq_of_le (by omega) (by omega)

namespace SessionStore

/-! ## The loop -/

/-- {lit}`timeNow - lastUpdated >= timeoutInSeconds` -/
def compareIdle (timeNow : TimePoint) (timeoutInSeconds : Int64) (session : UserSession) :
    Option Bool := do
  let idle ← checked (timeNow - session.lastUpdated)
  let timeout ← checked (timeoutInSeconds.toInt * nanosPerSecond)
  return decide (idle ≥ timeout)

/-- The loop over the sessions, which erases the expired ones as it goes. -/
def sweepLoop (timeNow : TimePoint) (timeoutInSeconds : Int64) :
    List UserSession → AuthTokenDict → Option AuthTokenDict
  | [], authTokens => some authTokens
  | session :: rest, authTokens => do
      let expired ← compareIdle timeNow timeoutInSeconds session
      if expired then
        sweepLoop timeNow timeoutInSeconds rest (authTokens.erase session.sessionToken)
      else
        sweepLoop timeNow timeoutInSeconds rest authTokens

/-- {lit}`applySessionTimeouts` with the outcome of each of its operations. -/
def sweep (store : SessionStore) (timeNow : TimePoint) : Option SessionStore := do
  let elapsed ← checked (timeNow - store.lastTimeoutUpdate)
  if elapsed > nanosPerSecond then
    let authTokens ←
      sweepLoop timeNow store.timeoutInSeconds store.authTokens.rows store.authTokens
    return { store with lastTimeoutUpdate := timeNow, authTokens }
  else
    return store

/-- A sweep that looks at the sessions. -/
def EffectiveSweep (store : SessionStore) (timeNow : TimePoint) : Prop :=
  InRange (timeNow - store.lastTimeoutUpdate) ∧ store.SweepDue timeNow

instance (store : SessionStore) (timeNow : TimePoint) :
    Decidable (store.EffectiveSweep timeNow) :=
  inferInstanceAs (Decidable (_ ∧ _))

/-- The session has been idle for the timeout. -/
def TimedOut (timeNow : TimePoint) (timeoutInSeconds : Int64) (session : UserSession) : Prop :=
  timeNow - session.lastUpdated ≥ timeoutInSeconds.toInt * nanosPerSecond

instance (timeNow : TimePoint) (timeoutInSeconds : Int64) (session : UserSession) :
    Decidable (TimedOut timeNow timeoutInSeconds session) :=
  inferInstanceAs (Decidable (_ ≥ _))

/-- Both sides of the comparison fit. -/
def Comparable (timeNow : TimePoint) (timeoutInSeconds : Int64) (session : UserSession) : Prop :=
  InRange (timeNow - session.lastUpdated) ∧ InRange (timeoutInSeconds.toInt * nanosPerSecond)

instance (timeNow : TimePoint) (timeoutInSeconds : Int64) (session : UserSession) :
    Decidable (Comparable timeNow timeoutInSeconds session) :=
  inferInstanceAs (Decidable (_ ∧ _))

/-- No timed-out session among these has the session's token. -/
def Spared (timeNow : TimePoint) (timeoutInSeconds : Int64) (sessions : List UserSession)
    (kept : UserSession) : Prop :=
  ∀ session ∈ sessions, TimedOut timeNow timeoutInSeconds session →
    kept.sessionToken ≠ session.sessionToken

instance (timeNow : TimePoint) (timeoutInSeconds : Int64) (sessions : List UserSession)
    (kept : UserSession) : Decidable (Spared timeNow timeoutInSeconds sessions kept) :=
  List.decidableBAll _ sessions

variable {timeNow : TimePoint} {timeoutInSeconds : Int64} {session : UserSession}

/-- A session is spared by the first of the timed-out ones and by the rest. -/
theorem spared_cons_iff {rest : List UserSession} {kept : UserSession} :
    Spared timeNow timeoutInSeconds (session :: rest) kept ↔
      (TimedOut timeNow timeoutInSeconds session → kept.sessionToken ≠ session.sessionToken) ∧
        Spared timeNow timeoutInSeconds rest kept :=
  List.forall_mem_cons

/-- The comparison for one session, where it does not overflow. -/
theorem compareIdle_eq_some_iff {expired : Bool} :
    compareIdle timeNow timeoutInSeconds session = some expired ↔
      Comparable timeNow timeoutInSeconds session ∧
        (expired = true ↔ TimedOut timeNow timeoutInSeconds session) := by
  unfold compareIdle Comparable TimedOut
  simp only [Option.bind_eq_bind, Option.bind_eq_some_iff, checked_eq_some_iff, Option.pure_def,
    Option.some.injEq]
  constructor
  · rintro ⟨idle, ⟨hidle, rfl⟩, timeout, ⟨htimeout, rfl⟩, rfl⟩
    exact ⟨⟨hidle, htimeout⟩, decide_eq_true_iff⟩
  · rintro ⟨⟨hidle, htimeout⟩, hexpired⟩
    refine ⟨_, ⟨hidle, rfl⟩, _, ⟨htimeout, rfl⟩, ?_⟩
    rw [Bool.eq_iff_iff, decide_eq_true_iff]
    exact hexpired.symm

/-- One round of the loop: the session's token is gone if the session is timed out. -/
theorem sweepLoop_cons_eq_some_iff {rest : List UserSession} {authTokens swept : AuthTokenDict} :
    sweepLoop timeNow timeoutInSeconds (session :: rest) authTokens = some swept ↔
      Comparable timeNow timeoutInSeconds session ∧
        sweepLoop timeNow timeoutInSeconds rest
          (if TimedOut timeNow timeoutInSeconds session then
            authTokens.erase session.sessionToken else authTokens) = some swept := by
  rw [sweepLoop, Option.bind_eq_bind, Option.bind_eq_some_iff]
  constructor
  · rintro ⟨expired, hcompare, hrest⟩
    obtain ⟨hcomparable, hexpired⟩ := compareIdle_eq_some_iff.mp hcompare
    refine ⟨hcomparable, ?_⟩
    rw [← hrest]
    cases expired <;> simp_all
  · rintro ⟨hcomparable, hrest⟩
    refine ⟨decide (TimedOut timeNow timeoutInSeconds session),
      compareIdle_eq_some_iff.mpr ⟨hcomparable, decide_eq_true_iff⟩, ?_⟩
    rw [← hrest]
    simp only [decide_eq_true_eq]
    split <;> rfl

/-- What the loop leaves: every session but those whose tokens timed-out ones have. -/
theorem sweepLoop_eq_some_iff {sessions : List UserSession} {authTokens swept : AuthTokenDict} :
    sweepLoop timeNow timeoutInSeconds sessions authTokens = some swept ↔
      (∀ session ∈ sessions, Comparable timeNow timeoutInSeconds session) ∧
        authTokens.filter (Spared timeNow timeoutInSeconds sessions ·) = swept := by
  induction sessions generalizing authTokens with
  | nil =>
      have hall : authTokens.filter (Spared timeNow timeoutInSeconds [] ·) = authTokens :=
        Table.ext (by simp [Table.filter, Spared])
      simp [sweepLoop, hall]
  | cons session rest ih =>
      have hstep : (if TimedOut timeNow timeoutInSeconds session then
            authTokens.erase session.sessionToken else authTokens).filter
              (Spared timeNow timeoutInSeconds rest ·) =
          authTokens.filter (Spared timeNow timeoutInSeconds (session :: rest) ·) := by
        apply Table.ext
        split
        · next htimedOut =>
            simp only [Table.erase, Table.filter, List.filter_filter]
            refine List.filter_congr fun kept _ => ?_
            simp [spared_cons_iff, htimedOut, Bool.and_comm]
        · next hlive =>
            refine List.filter_congr fun kept _ => ?_
            simp [spared_cons_iff, hlive]
      rw [sweepLoop_cons_eq_some_iff, ih, List.forall_mem_cons, and_assoc, hstep]

/-! ## An effective sweep -/

/-- Tokens name one session each, so that the loop removes no other session. -/
theorem spared_rows_iff {authTokens : AuthTokenDict} (hmem : session ∈ authTokens) :
    Spared timeNow timeoutInSeconds authTokens.rows session ↔
      ¬ TimedOut timeNow timeoutInSeconds session := by
  constructor
  · intro hspared htimedOut
    exact hspared session hmem htimedOut rfl
  · intro hlive other hother htimedOut htoken
    rw [Table.eq_of_key_eq hmem hother htoken] at hlive
    exact hlive htimedOut

/-- The conversion as it is compiled decides the same where it is defined. -/
theorem expired_iff_timedOut {store : SessionStore}
    (hcomparable : Comparable timeNow store.timeoutInSeconds session) :
    store.Expired timeNow session ↔ TimedOut timeNow store.timeoutInSeconds session := by
  unfold Expired TimedOut
  rw [secondsToNanos_of_inRange hcomparable.2]

/-- Where all comparisons are defined, the loop leaves what the compiled one does. -/
theorem swept_eq_applySessionTimeouts {store : SessionStore} (hdue : store.SweepDue timeNow)
    (hcomparable : ∀ session ∈ store.authTokens,
      Comparable timeNow store.timeoutInSeconds session) :
    { store with
      lastTimeoutUpdate := timeNow
      authTokens := store.authTokens.filter
        (Spared timeNow store.timeoutInSeconds store.authTokens.rows ·) } =
      store.applySessionTimeouts timeNow := by
  rw [applySessionTimeouts, if_pos hdue]
  congr 1
  apply Table.ext
  refine List.filter_congr fun session hmem => ?_
  rw [decide_eq_decide, spared_rows_iff hmem, expired_iff_timedOut (hcomparable session hmem)]

/-- A due sweep comes to an end exactly where every session can be compared. -/
theorem sweep_eq_some_iff {store swept : SessionStore} (hdue : store.EffectiveSweep timeNow) :
    store.sweep timeNow = some swept ↔
      (∀ session ∈ store.authTokens, Comparable timeNow store.timeoutInSeconds session) ∧
        swept = store.applySessionTimeouts timeNow := by
  have hchecked : checked (timeNow - store.lastTimeoutUpdate) =
      some (timeNow - store.lastTimeoutUpdate) := checked_eq_some_iff.mpr ⟨hdue.1, rfl⟩
  have hlate : timeNow - store.lastTimeoutUpdate > nanosPerSecond := hdue.2
  rw [sweep, hchecked, Option.bind_eq_bind, Option.bind_some, if_pos hlate, Option.bind_eq_bind,
    Option.bind_eq_some_iff]
  simp only [sweepLoop_eq_some_iff, Option.pure_def, Option.some.injEq]
  constructor
  · rintro ⟨authTokens, ⟨hcomparable, rfl⟩, rfl⟩
    exact ⟨hcomparable, swept_eq_applySessionTimeouts hdue.2 hcomparable⟩
  · rintro ⟨hcomparable, rfl⟩
    exact ⟨_, ⟨hcomparable, rfl⟩, swept_eq_applySessionTimeouts hdue.2 hcomparable⟩

/-- The sweep comes to an end without overflow, and the sessions left are those that
were not idle for the timeout. -/
def SweepsExactly (store : SessionStore) (timeNow : TimePoint) : Prop :=
  ∃ swept, store.sweep timeNow = some swept ∧ ∀ session, session ∈ swept.authTokens ↔
    session ∈ store.authTokens ∧ ¬ TimedOut timeNow store.timeoutInSeconds session

/-- A sweep without overflow keeps the sessions that were not idle for the timeout. -/
theorem mem_applySessionTimeouts_of_comparable {store : SessionStore}
    (hdue : store.SweepDue timeNow) (hcomparable : ∀ session ∈ store.authTokens,
      Comparable timeNow store.timeoutInSeconds session) :
    session ∈ (store.applySessionTimeouts timeNow).authTokens ↔
      session ∈ store.authTokens ∧ ¬ TimedOut timeNow store.timeoutInSeconds session := by
  rw [mem_applySessionTimeouts_iff]
  refine and_congr_right fun hmem => ?_
  rw [expired_iff_timedOut (hcomparable session hmem)]
  exact ⟨fun h => h hdue, fun h _ => h⟩

/-- An effective sweep is exact where the store holds no session, or the timeout in
nanoseconds and all idle times are 64-bit counts. -/
theorem sweep_exact_iff {store : SessionStore} (hdue : store.EffectiveSweep timeNow) :
    store.SweepsExactly timeNow ↔
      (store.authTokens.rows = [] ∨
          InRange (store.timeoutInSeconds.toInt * nanosPerSecond)) ∧
        ∀ session ∈ store.authTokens, InRange (timeNow - session.lastUpdated) := by
  have hall : (∀ session ∈ store.authTokens, Comparable timeNow store.timeoutInSeconds session) ↔
      (store.authTokens.rows = [] ∨
          InRange (store.timeoutInSeconds.toInt * nanosPerSecond)) ∧
        ∀ session ∈ store.authTokens, InRange (timeNow - session.lastUpdated) := by
    constructor
    · intro hcomparable
      refine ⟨?_, fun session hmem => (hcomparable session hmem).1⟩
      by_cases hempty : store.authTokens.rows = []
      · exact Or.inl hempty
      · obtain ⟨session, hmem⟩ := List.exists_mem_of_ne_nil _ hempty
        exact Or.inr (hcomparable session hmem).2
    · rintro ⟨hempty | htimeout, hidle⟩ session hmem
      · rw [Table.mem_def, hempty] at hmem
        exact absurd hmem List.not_mem_nil
      · exact ⟨hidle session hmem, htimeout⟩
  rw [← hall]
  constructor
  · rintro ⟨swept, hswept, -⟩
    exact ((sweep_eq_some_iff hdue).mp hswept).1
  · intro hcomparable
    exact ⟨_, (sweep_eq_some_iff hdue).mpr ⟨hcomparable, rfl⟩,
      fun session => mem_applySessionTimeouts_of_comparable hdue.2 hcomparable⟩

end SessionStore

/-! ## Timeouts that a file can set -/

/-- Every 64-bit timeout is taken from a file as it stands. -/
theorem readItem_timeout (storageType : ConfigFileStorageType) (now : TimePoint) (w : World)
    (timeout : Int64) :
    (readItem storageType now w (keyTimeout, .numberInteger timeout)).store =
      w.store.updateSessionTimeout timeout := rfl

/-- The sample process after it has read a timeout. -/
def timeoutRead (timeout : Int64) : SessionStore :=
  (readItem .configLongTermStorage 0 sampleWorld (keyTimeout, .numberInteger timeout)).store

/-- Ten minutes are a timeout that a sweep compares exactly. -/
theorem timeoutRead_sweepsExactly : (timeoutRead 600).SweepsExactly 2000000000 :=
  (SessionStore.sweep_exact_iff (by decide)).mpr (by decide)

/-- A timeout of 9223372037 seconds does not fit: the sweep is not defined, and as
compiled it removes a session two seconds after its last use. -/
theorem longTimeout_not_sweepsExactly :
    (timeoutRead 9223372037).EffectiveSweep 2000000000 ∧
      ¬ (timeoutRead 9223372037).SweepsExactly 2000000000 ∧
      ∃ session ∈ (timeoutRead 9223372037).authTokens,
        ¬ SessionStore.TimedOut 2000000000 9223372037 session ∧
        session ∉ ((timeoutRead 9223372037).applySessionTimeouts 2000000000).authTokens := by
  have hdue : (timeoutRead 9223372037).EffectiveSweep 2000000000 := by decide
  have hmem : sampleSession 0x61 .configLongTermStorage ∈ (timeoutRead 9223372037).authTokens := by
    show _ ∈ (timeoutRead 9223372037).authTokens.rows
    decide
  refine ⟨hdue, ?_, _, hmem, by decide, ?_⟩
  · rintro ⟨swept, hswept, -⟩
    have hcomparable := ((SessionStore.sweep_eq_some_iff hdue).mp hswept).1 _ hmem
    exact absurd hcomparable (by decide)
  · rw [SessionStore.mem_applySessionTimeouts_iff]
    rintro ⟨-, hkept⟩
    exact hkept hdue.2 (by decide)

end Service
end ObmcWebapp
