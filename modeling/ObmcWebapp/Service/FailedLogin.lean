import ObmcWebapp.Service.Authorization
import ObmcWebapp.Service.Persistence

/-!
# Service - Requests that fail authentication

A look-up by token records the use of the session that it finds.  The token of a
cookie is looked up before the CSRF rule is checked, so a request that is refused
for this rule has already extended the life of the session that its cookie names.

Main results:

- Theorem {lit}`findSession_of_csrfFailure`: what is left of a refused request whose
  cookie names a session.
- Theorem {lit}`failure_keeps_uses_iff`: the requests that extend no session's life
  when they fail.
-/

open Library

namespace ObmcWebapp
namespace Service

/-- Every session that is still there was used last when it was before. -/
def UsesKept (store store' : SessionStore) : Prop :=
  ∀ session ∈ store'.authTokens, ∃ old ∈ store.authTokens,
    old.sessionToken = session.sessionToken ∧ session.lastUpdated = old.lastUpdated

/-- Where {lit}`authenticate` returns false it has recorded no use. -/
def FailureKeepsUses (outside : Outside) (request : Request) (w : World) : Prop :=
  ∀ response request' response' w',
    authenticate outside request response w = (.ok (false, request', response'), w') →
    UsesKept w.store w'.store

/-- A request that is let through neither for its path, nor for a session, nor for a
credential. -/
def Refused (outside : Outside) (request : Request) (w : World) : Prop :=
  ¬ Whitelisted request.environment ∧ request.userSession = none ∧
    ¬ TokenFound request.environment outside.now w.store ∧
    ¬ (BasicCredential outside request.environment w.store ∧
      drawIdentifiers outside.draws ≠ none)

/-- The cookie names a live session that fails the CSRF rule and that was not used
at this very moment. -/
def RecordsUse (env : Environment) (now : TimePoint) (store : SessionStore) : Prop :=
  CookieNames env now store fun session =>
    ¬ CsrfPasses env session ∧ session.lastUpdated ≠ now

section Refusing

variable {env : Environment} {now : TimePoint} {store store' : SessionStore}

/-- A cookie whose session fails the CSRF rule: its use is recorded. -/
theorem performCookieAuth_of_csrfFailure {token : Bytes}
    (hlookup : env.cookies.lookup cookieSession = some token)
    (hfail : CsrfFailure env now store) (h : SessionStore.Probed now store [] store') :
    Missed now store [token] (performCookieAuth env now store') := by
  have hconfig : store.authMethodsConfig.cookie = true := hfail.1
  rcases performCookieAuth_cases env hconfig h with
    ⟨hok, -⟩ | ⟨-, -, other, hother, -, hmissed⟩ | ⟨-, hmissed⟩
  · -- the session under the token either passes the rule or does not
    obtain ⟨-, first, hfirst, -, session, hmem, hname, hpass⟩ := hok
    obtain ⟨-, second, hsecond, -, session', hmem', hname', hnot⟩ := hfail
    have hsame : first = second := Option.some.inj (hfirst.symm.trans hsecond)
    have hsession : session = session' :=
      Table.eq_of_key_eq hmem hmem' (by rw [hname, hname', hsame])
    exact absurd (hsession ▸ hpass) hnot
  · have hsame : other = token := Option.some.inj (hother.symm.trans hlookup)
    rw [hsame] at hmissed
    exact hmissed
  · obtain ⟨-, other, hother, hsize, session, hmem, hname, hnot⟩ := hfail
    have hsame : other = token := Option.some.inj (hother.symm.trans hlookup)
    have haccepts : store.Accepts now token := ⟨hsame ▸ hsize, session, hmem, hname.trans hsame⟩
    rcases h.login token with ⟨hno, -⟩ | ⟨found, hfound, next, hfoundName, -, heq, hnext⟩
    · exact absurd haccepts hno
    · have hfoundSame : found = session :=
        Table.eq_of_key_eq hfound hmem (by rw [hfoundName, hname, hsame])
      have hcheck : ¬ checkCsrf env (found.touch now) = true := by
        rw [checkCsrf_iff, hfoundSame]
        exact hnot
      refine ⟨hmissed.1, ?_⟩
      have hresult : performCookieAuth env now store' = (none, next) := by
        unfold performCookieAuth
        rw [hlookup]
        dsimp only
        rw [heq]
        exact if_neg hcheck
      rw [hresult]
      exact hnext

/-- A cookie without the header against forgery sets no session. -/
theorem tryCookie_of_csrfFailure {token : Bytes}
    (hlookup : env.cookies.lookup cookieSession = some token)
    (hfail : CsrfFailure env now store) (h : SessionStore.Probed now store [] store') :
    SessionUnset now env store [token] (tryCookie now { environment := env } store') := by
  unfold tryCookie
  rw [h.config, if_pos (by simp [Request.isSessionEmpty, hfail.1])]
  exact sessionUnset_of_missed (performCookieAuth_of_csrfFailure hlookup hfail h)

end Refusing

/-- A refused request whose cookie names a session that fails the CSRF rule leaves
the store swept, with the use of that session recorded. -/
theorem findSession_of_csrfFailure {outside : Outside} {env : Environment} {w : World}
    {token : Bytes} (hnone : ¬ TokenFound env outside.now w.store)
    (hnobasic : ¬ (BasicCredential outside env w.store ∧ drawIdentifiers outside.draws ≠ none))
    (hlookup : env.cookies.lookup cookieSession = some token)
    (hfail : CsrfFailure env outside.now w.store) :
    ∃ next, findSession outside { environment := env } w =
        (.ok { environment := env }, { w with store := next }) ∧
      SessionStore.Probed outside.now w.store [token] next := by
  unfold findSession
  rcases tryXtoken_cases env outside.now w.store with ⟨hx, -⟩ | ⟨-, hrequest, hprobed⟩
  · exact absurd (Or.inl hx) hnone
  rcases hfirst : tryXtoken outside.now { environment := env } w.store with ⟨request, store'⟩
  rw [hfirst] at hrequest hprobed
  obtain rfl : request = { environment := env } := hrequest
  dsimp only
  have hcookie := tryCookie_of_csrfFailure hlookup hfail hprobed
  rcases hsecond : tryCookie outside.now { environment := env } store' with ⟨request, store''⟩
  rw [hsecond] at hcookie
  obtain ⟨hrequest, hprobed'⟩ := hcookie
  obtain rfl : request = { environment := env } := hrequest
  dsimp only
  have hcases := @tryAuthorization_cases w.store [token] outside env { w with store := store'' }
    hprobed'
  rcases hcases with ⟨htoken, -⟩ | ⟨-, hbasic, opened, hopened, -⟩ |
    ⟨-, -, request, next, heq, hunset, hnext⟩
  · exact absurd (Or.inr (Or.inr htoken)) hnone
  · obtain ⟨ids, -, -, hdraw, -⟩ := hopened
    exact absurd ⟨hbasic, by simp [hdraw]⟩ hnobasic
  · obtain rfl : request = { environment := env } := hunset
    exact ⟨next, heq, hnext⟩

/-- A request with a session of its own, or a whitelisted one, is not refused. -/
theorem not_failed_of_let_through {outside : Outside} {request : Request} {response : Response}
    {w w' : World} {request' : Request} {response' : Response}
    (hlet : Whitelisted request.environment ∨ request.isSessionEmpty = false) :
    authenticate outside request response w ≠ (.ok (false, request', response'), w') := by
  intro hfailed
  unfold authenticate at hfailed
  by_cases hwhite : Whitelisted request.environment
  · rw [if_pos ((isOnWhitelist_iff _).mpr hwhite)] at hfailed
    simp at hfailed
  · have hsession : request.isSessionEmpty = false := hlet.resolve_left hwhite
    have hxtoken : tryXtoken outside.now request w.store = (request, w.store) := by
      simp [tryXtoken, hsession]
    have hfound : findSession outside request w = (.ok request, w) := by
      unfold findSession
      rw [hxtoken]
      dsimp only
      rw [tryCookie_of_session hsession, tryAuthorization_of_session hsession]
    rw [if_neg (mt (isOnWhitelist_iff _).mp hwhite), hfound] at hfailed
    simp only [hsession, Bool.false_eq_true, if_false] at hfailed
    rcases hcommit : commit outside.commitFaults w with ⟨committed, last⟩
    rw [hcommit] at hfailed
    cases committed <;> simp at hfailed

/-- Where nothing is found the request fails, with what the attempts left. -/
theorem authenticate_of_not_found {outside : Outside} {env : Environment} {w w' : World}
    (hwhite : ¬ Whitelisted env)
    (hfound : findSession outside { environment := env } w = (.ok { environment := env }, w'))
    (response : Response) :
    authenticate outside { environment := env } response w =
      (.ok (false, { environment := env }, rejectRequest env response), w') := by
  unfold authenticate
  dsimp only
  rw [if_neg (mt (isOnWhitelist_iff env).mp hwhite), hfound]
  rfl

/-- A request that fails was refused; of its credentials at most the cookie found a
session. -/
theorem refused_of_failed {outside : Outside} {request request' : Request}
    {response response' : Response} {w w' : World}
    (hfailed : authenticate outside request response w = (.ok (false, request', response'), w')) :
    Refused outside request w ∧ ∃ stale next, w' = { w with store := next } ∧
      Stale request.environment outside.now w.store stale ∧
      SessionStore.Probed outside.now w.store stale next := by
  have hwhite : ¬ Whitelisted request.environment :=
    fun hwhite => not_failed_of_let_through (Or.inl hwhite) hfailed
  have hempty : request.userSession = none := by
    cases hsession : request.userSession with
    | none => rfl
    | some session =>
        exact absurd hfailed (not_failed_of_let_through (Or.inr (by
          simp [Request.isSessionEmpty, hsession])))
  obtain ⟨env, session⟩ := request
  obtain rfl : session = none := hempty
  have hiff := authenticate_iff hfailed
  rw [or_iff_right hwhite] at hiff
  rcases findSession_cases outside env w with
    ⟨hfound, -⟩ | ⟨-, hbasic, -, -, -, -, opened, ⟨ids, -, -, hdraw, -⟩, -⟩ |
    ⟨hnone, hnobasic, stale, request, next, hstale, heq, hrequest, hprobed⟩
  · refine absurd (hiff.mpr ?_) (by simp)
    exact or_assoc.mp (or_assoc.mp (Or.inl (by simpa [TokenFound, or_assoc] using hfound)))
  · exact absurd (hiff.mpr (Or.inr (Or.inr (Or.inr ⟨hbasic, by simp [hdraw]⟩)))) (by simp)
  · obtain rfl : request = { environment := env } := hrequest
    rw [authenticate_of_not_found hwhite heq response] at hfailed
    simp only [Prod.mk.injEq] at hfailed
    exact ⟨⟨hwhite, rfl, hnone, hnobasic⟩, stale, next, hfailed.2.symm, hstale, hprobed⟩

/-- The use of the session under a token was recorded, and nothing else changed:
the uses are kept exactly when that session was used at this moment already. -/
theorem usesKept_probed_iff {now : TimePoint} {store next : SessionStore} {token : Bytes}
    {session : UserSession} (hprobed : SessionStore.Probed now store [token] next)
    (hmem : session ∈ (store.applySessionTimeouts now).authTokens)
    (hname : session.sessionToken = token) :
    UsesKept store next ↔ session.lastUpdated = now := by
  have hnext : next = (store.applySessionTimeouts now).touchAll now [token] := by
    rcases hprobed with ⟨hnil, -⟩ | ⟨-, heq⟩
    · exact absurd hnil (by simp)
    · exact heq
  have hbefore : session ∈ store.authTokens := (SessionStore.mem_applySessionTimeouts_iff.mp hmem).1
  subst hnext
  constructor
  · intro hkept
    have htouched : session.touch now ∈
        ((store.applySessionTimeouts now).touchAll now [token]).authTokens :=
      SessionStore.mem_touch_iff.mpr (Or.inr ⟨session, hmem, hname, rfl⟩)
    obtain ⟨old, hold, holdName, huse⟩ := hkept _ htouched
    have hsame : old = session := Table.eq_of_key_eq hold hbefore holdName
    exact hsame ▸ huse.symm
  · intro huse left hleft
    rcases SessionStore.mem_touchAll hleft with ⟨hold, -⟩ | ⟨old, hold, holdName, rfl⟩
    · exact ⟨left, (SessionStore.mem_applySessionTimeouts_iff.mp hold).1, rfl, rfl⟩
    · have hsame : old = session := by
        apply Table.eq_of_key_eq hold hmem
        rw [hname]
        exact List.mem_singleton.mp holdName
      rw [hsame]
      exact ⟨session, hbefore, rfl, huse.symm⟩

/-- Attempts that found nothing keep all uses. -/
theorem usesKept_of_probed_nil {now : TimePoint} {store next : SessionStore}
    (hprobed : SessionStore.Probed now store [] next) : UsesKept store next := by
  intro session hmem
  rcases hprobed with ⟨-, rfl⟩ | ⟨-, rfl⟩
  · exact ⟨session, hmem, rfl, rfl⟩
  · exact ⟨session, (SessionStore.mem_applySessionTimeouts_iff.mp hmem).1, rfl, rfl⟩

/-- For every request and state: a failing authentication extends no session's life
unless the request is refused while its cookie names a live session that fails the
CSRF rule, and that was not used at this very moment. -/
theorem failure_keeps_uses_iff (outside : Outside) (request : Request) (w : World) :
    FailureKeepsUses outside request w ↔
      ¬ (Refused outside request w ∧
        RecordsUse request.environment outside.now w.store) := by
  constructor
  · rintro hkeeps ⟨⟨hwhite, hempty, hnone, hnobasic⟩, hrecords⟩
    obtain ⟨env, userSession⟩ := request
    obtain rfl : userSession = none := hempty
    obtain ⟨hconfig, token, hlookup, hsize, session, hmem, hname, hnot, huse⟩ := hrecords
    have hfail : CsrfFailure env outside.now w.store :=
      ⟨hconfig, token, hlookup, hsize, session, hmem, hname, hnot⟩
    obtain ⟨next, hfound, hprobed⟩ := findSession_of_csrfFailure hnone hnobasic hlookup hfail
    have hkept := hkeeps {} _ _ _ (authenticate_of_not_found hwhite hfound {})
    exact huse ((usesKept_probed_iff hprobed hmem hname).mp hkept)
  · intro hcondition response request' response' w' hfailed
    obtain ⟨hrefused, stale, next, rfl, hstale, hprobed⟩ := refused_of_failed hfailed
    rcases hstale with rfl | ⟨-, hfail⟩
    · exact usesKept_of_probed_nil hprobed
    · obtain ⟨env, userSession⟩ := request
      obtain ⟨hwhite, hempty, hnone, hnobasic⟩ := hrefused
      obtain rfl : userSession = none := hempty
      have hfail' := hfail
      obtain ⟨hconfig, token, hlookup, hsize, session, hmem, hname, hnot⟩ := hfail'
      obtain ⟨next', hfound, hprobed'⟩ := findSession_of_csrfFailure hnone hnobasic hlookup hfail
      rw [authenticate_of_not_found hwhite hfound response] at hfailed
      simp only [Prod.mk.injEq, World.mk.injEq] at hfailed
      have hsame : next' = next := by simpa using hfailed.2
      rw [← hsame]
      refine (usesKept_probed_iff hprobed' hmem hname).mpr ?_
      by_contra huse
      exact hcondition ⟨⟨hwhite, rfl, hnone, hnobasic⟩, hconfig, token, hlookup, hsize, session,
        hmem, hname, hnot, huse⟩

/-- A request to change something, with the cookie of the first session of
{lit}`sampleTokens` and no CSRF header. -/
def forgedRequest : Request where
  environment := {
    requestMethod := .post
    pathInfo := [bytes "redfish", bytes "v1", bytes "Systems"]
    cookies := [(cookieSession, List.replicate sessionTokenSize 0x61)] }

/-- It is refused, and the session lives on. -/
theorem forgedRequest_extends_session :
    ¬ FailureKeepsUses (sampleOutside fun _ => some 0) forgedRequest sampleWorld := by
  intro hkeeps
  have hkept := hkeeps {} forgedRequest (rejectRequest forgedRequest.environment {}) _ rfl
  have htouched : ∃ session ∈ (authenticate (sampleOutside fun _ => some 0) forgedRequest {}
      sampleWorld).2.store.authTokens.rows, session.lastUpdated = 1000000000 := by decide
  have hbefore : ∀ session ∈ sampleWorld.store.authTokens.rows, session.lastUpdated = 0 := by
    decide
  obtain ⟨session, hmem, huse⟩ := htouched
  obtain ⟨old, hold, -, hsame⟩ := hkept session hmem
  rw [huse, hbefore old hold] at hsame
  exact absurd hsame (by decide)

end Service
end ObmcWebapp
