import AsterForge.Auth.Jwt

/-!
# Refresh decisions

A refresh request names the credential it was made with.  The current credential of the stored session
is rotated, everything else is rejected, and an old credential is the sign of a theft unless the policy
takes it for a retry.

* **`classifyRefresh_rotate`**, **`classifyRefresh_reuse`** — when it is to rotate, and what it takes to
  be called a reuse.
-/

namespace AsterForge.Auth

open Library

structure ClientContext where
  ipAddress : Option Text
  userAgent : Option Text

inductive RefreshPolicy
  | strict
  | sameClientWithin (seconds : ℕ)

structure RefreshSession where
  subject : Subject
  sessionId : SessionId
  currentRefreshJti : RefreshJti
  previousRefreshJti : Option RefreshJti
  lastSeenAt : ℤ
  refreshExpiresAt : ℤ
  revoked : Bool
  client : ClientContext

structure RefreshRotationRequest where
  subject : Subject
  sessionId : SessionId
  sessionVersion : SessionVersion
  restriction : Restriction
  currentRefreshJti : RefreshJti
  currentRefreshValidUntil : ℤ
  nextRefreshJti : RefreshJti
  nextRefreshExpiresAt : ℤ
  client : ClientContext
  now : ℤ
  policy : RefreshPolicy

inductive RefreshRejection
  | unavailable
  | expired
  | accountDisabled
  | restricted
  | stale
  | reuseDetected

inductive RefreshDecision
  | rotate
  | reject (reason : RefreshRejection)

def recent (now lastSeenAt : ℤ) (seconds : ℕ) : Bool :=
  (checkedI64 (now - lastSeenAt)).any fun (age : ℤ) => 0 ≤ age ∧ age ≤ seconds

/-- The same user agent, not blank, and no two addresses that differ. -/
def sameClient (stored presented : ClientContext) : Bool :=
  stored.userAgent.any (fun userAgent => trim userAgent ≠ []) ∧ stored.userAgent = presented.userAgent ∧
    (stored.ipAddress = none ∨ presented.ipAddress = none ∨ stored.ipAddress = presented.ipAddress)

/-- What the policy makes of a credential that is not the current one. -/
def retryOf (request : RefreshRotationRequest) (session : RefreshSession) : Bool :=
  match request.policy with
  | .strict => false
  | .sameClientWithin seconds =>
    session.previousRefreshJti = some request.currentRefreshJti ∧
      recent request.now session.lastSeenAt seconds ∧ sameClient session.client request.client

def classifyRefresh (request : RefreshRotationRequest) (session : Option RefreshSession) : RefreshDecision :=
  if request.currentRefreshValidUntil ≤ request.now then .reject .expired
  else match session with
    | none => .reject .unavailable
    | some session =>
      if session.subject ≠ request.subject ∨ session.sessionId ≠ request.sessionId ∨ session.revoked then
        .reject .unavailable
      else if session.refreshExpiresAt ≤ request.now then .reject .expired
      else if session.currentRefreshJti = request.currentRefreshJti then .rotate
      else if retryOf request session then .reject .stale
      else .reject .reuseDetected

/-- The session is the one that a request names, it is not revoked, and neither it nor the credential of
the request is expired. -/
structure Eligible (request : RefreshRotationRequest) (session : RefreshSession) : Prop where
  credential : request.now < request.currentRefreshValidUntil
  subject : session.subject = request.subject
  sessionId : session.sessionId = request.sessionId
  live : session.revoked = false
  unexpired : request.now < session.refreshExpiresAt

variable {r : RefreshRotationRequest} {ss : Option RefreshSession}

/-- What is neither expired nor unavailable is about an eligible session. -/
theorem classifyRefresh_cases (request : RefreshRotationRequest) (session : Option RefreshSession) :
    (classifyRefresh request session = .reject .expired ∨
      classifyRefresh request session = .reject .unavailable) ∨
    ∃ s, session = some s ∧ Eligible request s ∧ classifyRefresh request session =
        if s.currentRefreshJti = request.currentRefreshJti then .rotate
        else if retryOf request s then .reject .stale else .reject .reuseDetected := by
  by_cases hcredential : request.currentRefreshValidUntil ≤ request.now
  · rw [classifyRefresh.eq_def, if_pos hcredential]
    exact .inl (.inl rfl)
  · rw [classifyRefresh.eq_def, if_neg hcredential]
    cases session with
    | none => exact .inl (.inr rfl)
    | some s =>
      dsimp only
      by_cases hforeign : s.subject ≠ request.subject ∨ s.sessionId ≠ request.sessionId ∨ s.revoked = true
      · rw [if_pos hforeign]
        exact .inl (.inr rfl)
      · rw [if_neg hforeign]
        by_cases hexp : s.refreshExpiresAt ≤ request.now
        · rw [if_pos hexp]
          exact .inl (.inl rfl)
        · rw [if_neg hexp]
          push Not at hforeign
          obtain ⟨hs, hss, hl⟩ := hforeign
          exact .inr ⟨s, rfl, ⟨not_le.mp hcredential, hs, hss, Bool.eq_false_iff.mpr hl, not_le.mp hexp⟩, rfl⟩

/-- **When a credential is to be rotated**: it is the current one of an eligible session. -/
theorem classifyRefresh_rotate : classifyRefresh r ss = .rotate ↔ ∃ s, ss = some s ∧ Eligible r s ∧
    s.currentRefreshJti = r.currentRefreshJti := by
  constructor
  · intro h
    rcases classifyRefresh_cases r ss with (hc | hc) | ⟨s, hs, he, hc⟩
    · rw [hc] at h
      cases h
    · rw [hc] at h
      cases h
    · refine ⟨s, hs, he, ?_⟩
      by_contra hother
      rw [hc, if_neg hother] at h
      split at h <;> cases h
  · rintro ⟨s, rfl, he, hcr⟩
    rw [classifyRefresh, if_neg (not_le.mpr he.credential), if_neg (not_le.mpr he.unexpired), if_pos hcr]
    simp [he.subject, he.sessionId, he.live]

/-- **What is called a reuse** is an old credential of an eligible session that the policy does not take
for a retry. -/
theorem classifyRefresh_reuse (h : classifyRefresh r ss = .reject .reuseDetected) :
    ∃ s, ss = some s ∧ Eligible r s ∧ s.currentRefreshJti ≠ r.currentRefreshJti ∧ retryOf r s = false := by
  rcases classifyRefresh_cases r ss with (hc | hc) | ⟨s, hs, he, hc⟩
  · rw [hc] at h
    cases h
  · rw [hc] at h
    cases h
  · rw [hc] at h
    refine ⟨s, hs, he, ?_⟩
    by_cases hcurr : s.currentRefreshJti = r.currentRefreshJti
    · rw [if_pos hcurr] at h
      cases h
    · rw [if_neg hcurr] at h
      refine ⟨hcurr, Bool.eq_false_iff.mpr ?_⟩
      intro hr
      rw [if_pos hr] at h
      cases h

end AsterForge.Auth
