import AsterForge.Auth.RefreshMoves

/-!
# Refresh credentials are used once

Any number of services work on one store.  That a credential is rotated once does not rest on the
coordinators but on the condition of the rotation, on sessions that were read being as they were read
while they have their credential, and on candidates being new.

* `RefreshPhase.Sound` — what is known of a call where it is; `RefreshPhase.pending` — the candidate
  that it can still put into a session.
* **`refresh_single_use`** — every state that is reached meets it.
-/

namespace AsterForge.Auth

open Library List Function Option Table

variable {ι κ E : Type}

/-! ## Calls in the light of the record -/

/-- What a transaction decided is right of the session it read. -/
def Plan.Sound (store : SessionStore) (request : RefreshRotationRequest) : Plan → Prop
  | .rotate session =>
    Eligible request session ∧ session.currentRefreshJti = request.currentRefreshJti ∧ store.Seen session
  | .revoke session => Eligible request session ∧ store.Seen session
  | .reject _ => True

/-- A rotation of a call, to a credential. -/
def RotatedTo (store : SessionStore) (i : ℕ) (next : RefreshJti) : Prop :=
  ∃ rotation ∈ rotations store.record, rotation.call = i ∧ rotation.request.nextRefreshJti = next

def Transaction.Sound (store : SessionStore) (i : ℕ) (request : RefreshRotationRequest) : Transaction E → Prop
  | .opened => True
  | .decided refreshed plan =>
    refreshed = { request with now := refreshed.now } ∧ plan.Sound store refreshed
  | .answered answer => answer = .ok .rotated → RotatedTo store i request.nextRefreshJti

/-- What is known of a call where it is. -/
def RefreshPhase.Sound (jwt : Jsonwebtoken) (service : RefreshTokenService κ) (token : Text)
    (store : SessionStore) (i : ℕ) : RefreshPhase E → Prop
  | .queued claims current | .guarded claims current =>
    service.claimsOf jwt token = some claims ∧ claims.jti = some current
  | .persisting _ request candidate transaction =>
    (∃ claims, NamedBy jwt service token request claims) ∧
      candidate.refreshJti = request.nextRefreshJti ∧ transaction.Sound store i request
  | .returned (.ok (.rotated pair)) => RotatedTo store i pair.refreshJti
  | .called | .dropped | .returned (.ok (.rejected _)) | .returned (.error _) => True

/-- The candidate that a call can still put into a session. -/
def RefreshPhase.pending : RefreshPhase E → Option RefreshJti
  | .persisting .rotateRefresh request _ .opened | .persisting .rotateRefresh request _ (.decided ..) =>
    some request.nextRefreshJti
  | _ => none

def Apart (calls : ℕ → Option (RefreshCall ι E)) : Prop :=
  ∀ i j call other jti, calls i = some call → calls j = some other → call.phase.pending = some jti →
    other.phase.pending = some jti → i = j

def MadeWith (jwt : Jsonwebtoken) (services : ι → RefreshTokenService κ) (calls : ℕ → Option (RefreshCall ι E))
    (i : ℕ) (request : RefreshRotationRequest) : Prop :=
  ∃ call claims, calls i = some call ∧ NamedBy jwt (services call.service) call.token request claims

/-- A rotation was of the current credential of an eligible session. -/
structure Rotation.Sound (rotation : Rotation) : Prop where
  eligible : Eligible rotation.request rotation.session
  current : rotation.session.currentRefreshJti = rotation.request.currentRefreshJti

/-- A revocation was decided from an eligible session, and took that session and others of its account. -/
structure Revocation.Sound (record : List Committed) (revocation : Revocation) : Prop where
  eligible : Eligible revocation.request revocation.session
  named : revocation.request.sessionId ∈ revocation.sessions
  owned : ∀ sessionId ∈ revocation.sessions,
    sessionId ∈ (succession record).registered ∧ ownerOf sessionId record = some revocation.request.subject

/-- The invariant. -/
structure AuthInv (jwt : Jsonwebtoken) (services : ι → RefreshTokenService κ) (s : AuthSystem ι κ E) :
    Prop where
  store : s.store.Sound
  placed : (succession s.store.record).placed ⊆ s.issued
  calls : ∀ i call, s.calls i = some call → call.phase.Sound jwt (services call.service) call.token s.store i
  pending : ∀ i call jti, s.calls i = some call → call.phase.pending = some jti →
    jti ∈ s.issued ∧ jti ∉ (succession s.store.record).placed
  apart : Apart s.calls
  rotated : ∀ rotation ∈ rotations s.store.record,
    rotation.Sound ∧ MadeWith jwt services s.calls rotation.call rotation.request
  revoked : ∀ revocation ∈ revocations s.store.record,
    revocation.Sound s.store.record ∧ MadeWith jwt services s.calls revocation.call revocation.request

/-! ## What lasts -/

section

variable {jwt : Jsonwebtoken} {sr : RefreshTokenService κ} {tk : Text} {str af : SessionStore} {i : ℕ}

lemma mem_rotations_of_grows (h : StoreMove str af) {r : Rotation}
    (hm : r ∈ rotations str.record) : r ∈ rotations af.record := by
  obtain ⟨c, hr, _⟩ := h.record_grows
  rw [hr, rotations, filterMap_cons]
  split
  · exact hm
  · exact mem_cons_of_mem _ hm

lemma RotatedTo.grows (h : StoreMove str af) {next : RefreshJti} (hr : RotatedTo str i next) :
    RotatedTo af i next := by
  obtain ⟨r, hm, hc, hn⟩ := hr
  exact ⟨r, mem_rotations_of_grows h hm, hc, hn⟩

variable {request : RefreshRotationRequest}

lemma Plan.Sound.grows (h : StoreMove str af) {plan : Plan}
    (hp : plan.Sound str request) : plan.Sound af request := by
  cases plan with
  | rotate ss => exact ⟨hp.1, hp.2.1, h.seen hp.2.2⟩
  | revoke ss => exact ⟨hp.1, h.seen hp.2⟩
  | reject r => trivial

lemma RefreshPhase.Sound.grows (h : StoreMove str af) {phase : RefreshPhase E}
    (hp : phase.Sound jwt sr tk str i) : phase.Sound jwt sr tk af i := by
  cases phase with
  | persisting method request cn tr =>
    refine ⟨hp.1, hp.2.1, ?_⟩
    cases tr with
    | opened => trivial
    | decided rf plan => exact ⟨hp.2.2.1, hp.2.2.2.grows h⟩
    | answered a => exact fun ha => (hp.2.2 ha).grows h
  | returned r =>
    cases r with
    | error e => trivial
    | ok o =>
      cases o with
      | rotated p => exact RotatedTo.grows h hp
      | rejected rs => trivial
  | queued cl c => exact hp
  | guarded cl c => exact hp
  | called => trivial
  | dropped => trivial

lemma Revocation.Sound.grows (h : StoreMove str af) {r : Revocation}
    (hr : r.Sound str.record) : r.Sound af.record := by
  obtain ⟨c, _, ho, hrg, _⟩ := h.record_grows
  refine ⟨hr.eligible, hr.named, fun si hm => ?_⟩
  obtain ⟨hk, how⟩ := hr.owned si hm
  exact ⟨hrg hk, (ho si hk).trans how⟩

lemma Plan.of_sound (hst : str.Sound) (a : AccountState) (request : RefreshRotationRequest)
    (f : Option SessionId) : (Plan.of a request (f.bind str.rows)).Sound str request := by
  rw [Plan.of.eq_def]
  split
  · trivial
  · split
    · next session hdecision hsess =>
        obtain ⟨si, _, hr⟩ := bind_eq_some_iff.mp hsess
        obtain ⟨st, hs, he, hc⟩ := classifyRefresh_rotate.mp hdecision
        rw [hsess] at hs
        cases hs
        exact ⟨he, hc, hst.seen hr⟩
    · next session hdecision hsess =>
        obtain ⟨si, _, hr⟩ := bind_eq_some_iff.mp hsess
        obtain ⟨st, hs, he, _⟩ := classifyRefresh_reuse hdecision
        rw [hsess] at hs
        cases hs
        exact ⟨he, hst.seen hr⟩
    · trivial
    · trivial

end

/-! ## Commits -/

inductive Commits (store : SessionStore) (method : StoreMethod) (i : ℕ) (request : RefreshRotationRequest) :
    SessionStore → Except E RefreshStoreOutcome → Prop
  | unchanged {answer : Except E RefreshStoreOutcome} (denied : answer ≠ .ok .rotated) :
      Commits store method i request store answer
  | rotated {after : SessionStore} {row : RefreshSession} (rotating : method = .rotateRefresh)
      (move : StoreMove store after) (record : after.record = .rotated ⟨i, request, row⟩ :: store.record)
      (sound : (⟨i, request, row⟩ : Rotation).Sound) (answer : Except E RefreshStoreOutcome) :
      Commits store method i request after answer
  | revoked {after : SessionStore} {session : RefreshSession} {sessions : List SessionId}
      {answer : Except E RefreshStoreOutcome} (move : StoreMove store after)
      (record : after.record = .revoked ⟨i, request, session, sessions⟩ :: store.record)
      (sound : (⟨i, request, session, sessions⟩ : Revocation).Sound store.record)
      (denied : answer ≠ .ok .rotated) : Commits store method i request after answer

section

variable {st : SessionStore} {mt : StoreMethod} {i : ℕ} {rq : RefreshRotationRequest} {pl : Plan}

lemma revoke_sound (hst : st.Sound) {ss : RefreshSession} (he : Eligible rq ss)
    (hs : st.Seen ss) (o : List SessionId) :
    (⟨i, rq, ss, ss.sessionId :: o.filter (st.ofAccount rq.subject)⟩ : Revocation).Sound st.record := by
  refine ⟨he, he.sessionId ▸ mem_cons_self, ?_⟩
  intro si hm
  rcases mem_cons.mp hm with rfl | ho
  · exact ⟨hs.registered, he.subject ▸ hs.owner⟩
  · have haccount := (mem_filter.mp ho).2
    rw [SessionStore.ofAccount] at haccount
    cases hrow : st.rows si with
    | none =>
      rw [hrow] at haccount
      cases haccount
    | some row =>
      rw [hrow] at haccount
      have hagr := hst.rows _ _ hrow
      exact ⟨hagr.registered, of_decide_eq_true haccount ▸ hagr.owner⟩

/-- A transaction that ends does one of these. -/
theorem commits_of_commit (hs : st.Sound) (hp : pl.Sound st rq)
    (hu : mt = .rotateRefresh → rq.nextRefreshJti ∉ (succession st.record).placed)
    (o : List SessionId) (p : Bool) (r : Except E RefreshRejection) :
    Commits st mt i rq (st.commit mt i rq o p r pl).1 (st.commit mt i rq o p r pl).2 := by
  cases pl with
  | rotate ss =>
    obtain ⟨he, hc, hsn⟩ := hp
    cases mt with
    | resolveConflict =>
      refine .unchanged ?_
      cases r with
      | ok rs => intro h; cases h
      | error e => intro h; cases h
    | rotateRefresh =>
      simp only [SessionStore.commit]
      split
      · next after hrotate =>
          obtain ⟨hm, row, hrw, hsm, hl, hr⟩ :=
            StoreMove.of_rotate hs hrotate (hu rfl)
          -- the condition of the rotation says that the session is still what was read
          have hunmoved : row = ss := hsn.same row hrw (hsm.trans hc.symm) hl
          subst hunmoved
          exact .rotated rfl hm hr ⟨he, hc⟩ _
      · exact .unchanged nofun
  | revoke ss =>
    exact .revoked (StoreMove.of_revoke hs hp.2 i rq o p) rfl
      (revoke_sound hs hp.1 hp.2 o) nofun
  | reject rs => exact .unchanged nofun

lemma Commits.apply {d : SessionStore × Except E RefreshStoreOutcome}
    (h : Commits st mt i rq d.1 d.2) (f : Fate E) : Commits st mt i rq (f.apply st d).1 (f.apply st d).2 := by
  cases f with
  | answered => exact h
  | failed e te =>
    cases te with
    | false => exact .unchanged nofun
    | true =>
      cases h with
      | unchanged dn => exact .unchanged nofun
      | rotated rt m r sn a => exact .rotated rt m r sn _
      | revoked m r sn dn => exact .revoked m r sn nofun

end

/-! ## Steps keep the invariant -/

section

variable {jwt : Jsonwebtoken} {sv : ι → RefreshTokenService κ} {s t : AuthSystem ι κ E}
  {cl : ℕ → Option (RefreshCall ι E)} {ca : RefreshCall ι E} {iss : List RefreshJti}

lemma MadeWith.update {i j : ℕ} (h : MadeWith jwt sv cl j request)
    (hsm : ∀ old, cl i = some old → old.service = ca.service ∧ old.token = ca.token) :
    MadeWith jwt sv (update cl i (some ca)) j request := by
  obtain ⟨old, c, hl, hn⟩ := h
  by_cases hij : j = i
  · subst hij
    obtain ⟨hs, ht⟩ := hsm old hl
    exact ⟨ca, c, update_self .., hs ▸ ht ▸ hn⟩
  · exact ⟨old, c, (update_of_ne hij ..).trans hl, hn⟩

variable {i : ℕ}

lemma Apart.update (h : Apart cl) (hot : ∀ j o jti, j ≠ i → cl j = some o → ca.phase.pending = some jti →
    o.phase.pending ≠ some jti) : Apart (update cl i (some ca)) := by
  intro j k one o jti hon ho hpn hp
  obtain ⟨hj, hon⟩ | ⟨hj, hon⟩ := update_eq_iff.mp hon
  · cases hon
    obtain ⟨hk, -⟩ | ⟨hk, ho⟩ := update_eq_iff.mp ho
    · exact hj.trans hk.symm
    · exact absurd hp (hot k o jti hk ho hpn)
  · obtain ⟨-, ⟨⟩⟩ | ⟨-, ho⟩ := update_eq_iff.mp ho
    · exact absurd hpn (hot j one jti hj hon hp)
    · exact h j k one o jti hon ho hpn hp

lemma AuthInv.administered (inv : AuthInv jwt sv s) {after : SessionStore}
    (m : StoreMove s.store after) (hrt : rotations after.record = rotations s.store.record)
    (hr : revocations after.record = revocations s.store.record) (hg : s.issued ⊆ iss)
    (hp : ∀ jti ∈ (succession after.record).placed,
      jti ∈ (succession s.store.record).placed ∨ (jti ∈ iss ∧ jti ∉ s.issued)) :
    AuthInv jwt sv { s with store := after, issued := iss } where
  store := m.sound inv.store
  placed := by
    intro jti hj
    rcases hp jti hj with h | hn
    · exact hg (inv.placed h)
    · exact hn.1
  calls := fun i ca hc => (inv.calls i ca hc).grows m
  pending := by
    intro i ca jti hc hpn
    obtain ⟨hi, hu⟩ := inv.pending i ca jti hc hpn
    refine ⟨hg hi, fun hj => ?_⟩
    rcases hp jti hj with h | hn
    · exact hu h
    · exact hn.2 hi
  apart := inv.apart
  rotated := by
    rw [hrt]
    exact inv.rotated
  revoked := by
    rw [hr]
    intro r hm
    exact ⟨(inv.revoked r hm).1.grows m, (inv.revoked r hm).2⟩

variable {ph : RefreshPhase E} {i' : List RefreshJti} {p' : RefreshPhase E} {jti : RefreshJti}

variable {service : RefreshTokenService κ}

lemma PhaseStep.sound {token : Text} {store : SessionStore} (hs : store.Sound)
    (st : PhaseStep jwt service token store iss i' ph p')
    (hp : ph.Sound jwt service token store i) : p'.Sound jwt service token store i := by
  cases st with
  | stays => exact hp
  | failed e => trivial
  | dropped => trivial
  | queued dc jti => exact ⟨dc, jti⟩
  | guarded => exact hp
  | @prepared cl cr request c p sb si d next u dr =>
    obtain ⟨hd, hj⟩ := hp
    exact ⟨⟨cl, hd, p ▸ hj, sb.symm, si.symm, d⟩, next, trivial⟩
  | read now a f =>
    exact ⟨hp.1, hp.2.1, rfl, Plan.of_sound hs a _ f⟩
  | @received method request c an =>
    obtain ⟨hnm, hn, ha⟩ := hp
    cases an with
    | error e => trivial
    | ok o =>
      cases o with
      | rotated =>
        change RotatedTo store i c.refreshJti
        rw [hn]
        exact ha rfl
      | conflict => exact ⟨hnm, hn, trivial⟩
      | rejected r => trivial

lemma PhaseStep.pending {token : Text} {store : SessionStore}
    (st : PhaseStep jwt service token store iss i' ph p') (h : p'.pending = some jti) :
    ph.pending = some jti ∨ (jti ∉ iss ∧ jti ∈ i') := by
  cases st with
  | stays => exact .inl h
  | failed e => cases h
  | dropped => cases h
  | queued dc jti => cases h
  | guarded => cases h
  | prepared p sb si dd next u d =>
    cases h
    exact .inr ⟨u, d⟩
  | @read method request c now acc f =>
    cases method with
    | rotateRefresh => exact .inl h
    | resolveConflict => cases h
  | @received method request c a =>
    cases a with
    | error e => cases h
    | ok o => cases o <;> cases h

lemma AuthInv.stepped (inv : AuthInv jwt sv s) (p : s.calls i = some ca) (cr : κ → RefreshCoordinator)
    (g : s.issued ⊆ iss) (c l : Bool)
    (st : PhaseStep jwt (sv ca.service) ca.token s.store s.issued iss ca.phase ph) :
    AuthInv jwt sv ⟨cr, s.store, update s.calls i
          (some { ca with cancelled := c, listening := l, phase := ph }), iss⟩ := by
  have hsame : ∀ old, s.calls i = some old → old.service = ca.service ∧ old.token = ca.token := by
    intro old h
    rw [p, some.injEq] at h
    exact h ▸ ⟨rfl, rfl⟩
  have hothers : ∀ j o jti, j ≠ i → s.calls j = some o → ph.pending = some jti →
      o.phase.pending ≠ some jti := by
    intro j o jti hji ho hj hp
    rcases st.pending hj with h | ⟨hu, _⟩
    · exact hji (inv.apart j i o ca jti ho p hp h)
    · exact hu (inv.pending j o jti ho hp).1
  refine ⟨inv.store, fun _ hj => g (inv.placed hj), ?_, ?_, ?_, ?_, ?_⟩
  · exact forall_update (st.sound inv.store (inv.calls i ca p)) fun j o _ ho => inv.calls j o ho
  · intro j o jti ho
    revert j o
    refine forall_update ?_ ?_
    · intro hj
      rcases st.pending hj with h | ⟨hu, hd⟩
      · exact ⟨g (inv.pending i ca jti p h).1, (inv.pending i ca jti p h).2⟩
      · exact ⟨hd, fun hpl => hu (inv.placed hpl)⟩
    · intro j o _ ho hj
      exact ⟨g (inv.pending j o jti ho hj).1, (inv.pending j o jti ho hj).2⟩
  · exact inv.apart.update hothers
  · intro rt hm
    exact ⟨(inv.rotated rt hm).1, (inv.rotated rt hm).2.update hsame⟩
  · intro r hm
    exact ⟨(inv.revoked r hm).1, (inv.revoked r hm).2.update hsame⟩

variable {store after : SessionStore} {method : StoreMethod}

variable {a : Except E RefreshStoreOutcome}

lemma Commits.placed (h : Commits store method i request after a) (hj : jti ∈ (succession after.record).placed) :
    jti ∈ (succession store.record).placed ∨ (method = .rotateRefresh ∧ jti = request.nextRefreshJti) := by
  cases h with
  | unchanged d => exact .inl hj
  | rotated rt m r sn a =>
    rw [r] at hj
    rcases mem_cons.mp hj with hn | hl
    · exact .inr ⟨rt, hn⟩
    · exact .inl hl
  | @revoked _ se ss _ m r sn d =>
    rw [r, succession_closed rfl, Succession.placed_close_all] at hj
    exact .inl hj

lemma Commits.sound (h : Commits store method i request after a) (hs : store.Sound) : after.Sound := by
  cases h with
  | unchanged d => exact hs
  | rotated rt m r sn a => exact m.sound hs
  | revoked m r sn d => exact m.sound hs

lemma AuthInv.committed (inv : AuthInv jwt sv s)
    (p : s.calls i = some ca) {method : StoreMethod} {request rf : RefreshRotationRequest}
    {cn : AuthTokenPair} {plan : Plan} (dc : ca.phase = .persisting method request cn (.decided rf plan))
    {after : SessionStore} (c : Commits s.store method i rf after a) : AuthInv jwt sv ⟨s.coordinators, after,
        update s.calls i (some { ca with
          phase := .persisting method request cn (.answered a) }), s.issued⟩ := by
  have hphase := inv.calls i ca p
  rw [dc] at hphase
  obtain ⟨⟨cl, hn⟩, hnx, hr, _⟩ := hphase
  have hsame : ∀ old, s.calls i = some old → old.service = ca.service ∧ old.token = ca.token := by
    intro old h
    rw [p, some.injEq] at h
    exact h ▸ ⟨rfl, rfl⟩
  have hmade : MadeWith jwt sv s.calls i rf := by
    refine ⟨ca, cl, p, ?_⟩
    rw [hr]
    exact { hn with }
  have hcand : rf.nextRefreshJti = request.nextRefreshJti := by rw [hr]
  have hpend : method = .rotateRefresh → ca.phase.pending = some request.nextRefreshJti := by
    rintro rfl
    rw [dc]
    rfl
  refine ⟨c.sound inv.store, ?_, ?_, ?_, ?_, ?_, ?_⟩
  · intro jti hj
    rcases c.placed hj with h | ⟨hmt, hnw⟩
    · exact inv.placed h
    · rw [hnw, hcand]
      exact (inv.pending i ca _ p (hpend hmt)).1
  · refine forall_update ⟨⟨cl, hn⟩, hnx, ?_⟩ ?_
    · intro ha
      cases c with
      | unchanged d => exact absurd ha d
      | @rotated _ row rg m rc sn _ =>
        refine ⟨⟨i, rf, row⟩, ?_, rfl, hcand⟩
        rw [rc]
        exact mem_cons_self
      | revoked m rc sn d => exact absurd ha d
    · intro j o _ ho
      cases c with
      | unchanged d => exact inv.calls j o ho
      | rotated rg m rc sn _ | revoked m rc sn d =>
        exact (inv.calls j o ho).grows m
  · intro j o jti ho
    revert j o
    refine forall_update ?_ ?_
    · intro hj
      cases method <;> cases hj
    · intro j o hji ho hj
      obtain ⟨hi, hu⟩ := inv.pending j o jti ho hj
      refine ⟨hi, fun hp => ?_⟩
      rcases c.placed hp with h | ⟨hmt, hnw⟩
      · exact hu h
      · rw [hnw, hcand] at hj
        exact hji (inv.apart j i o ca _ ho p hj (hpend hmt))
  · refine inv.apart.update fun j o jti hji ho hj => ?_
    cases method <;> cases hj
  · cases c with
    | unchanged d =>
      exact fun rt hm => ⟨(inv.rotated rt hm).1, (inv.rotated rt hm).2.update hsame⟩
    | rotated rg m rc sn _ =>
      rw [rc]
      intro rt hm
      rcases mem_cons.mp hm with rfl | h
      · exact ⟨sn, hmade.update hsame⟩
      · exact ⟨(inv.rotated rt h).1, (inv.rotated rt h).2.update hsame⟩
    | revoked m rc sn d =>
      rw [rc]
      exact fun rt hm => ⟨(inv.rotated rt hm).1, (inv.rotated rt hm).2.update hsame⟩
  · cases c with
    | unchanged d =>
      exact fun r hm =>
        ⟨(inv.revoked r hm).1, (inv.revoked r hm).2.update hsame⟩
    | rotated rg m rc sn _ =>
      intro r hm
      have h : r ∈ revocations s.store.record := by rwa [rc] at hm
      exact ⟨(inv.revoked r h).1.grows m, (inv.revoked r h).2.update hsame⟩
    | revoked m rc sn d =>
      intro r hm
      rw [rc] at hm
      rcases mem_cons.mp hm with rfl | h
      · exact ⟨sn.grows m, hmade.update hsame⟩
      · exact ⟨(inv.revoked r h).1.grows m, (inv.revoked r h).2.update hsame⟩

/-- **Every step keeps the invariant.** -/
theorem AuthInv.step (inv : AuthInv jwt sv s) (m : Move jwt sv s t) : AuthInv jwt sv t := by
  cases m with
  | coordinated c => exact ⟨inv.1, inv.2, inv.3, inv.4, inv.5, inv.6, inv.7⟩
  | @login ss store h u f =>
    have hunused : ss.currentRefreshJti ∉ (succession s.store.record).placed :=
      fun hp => u (inv.placed hp)
    have hmove := StoreMove.of_login h hunused f
    have hrec := login_record h
    refine inv.administered hmove (by rw [hrec]; rfl) (by rw [hrec]; rfl) (fun _ => mem_cons_of_mem _) ?_
    intro jti hj
    rw [hrec] at hj
    rcases mem_cons.mp hj with rfl | hl
    · exact .inr ⟨mem_cons_self, u⟩
    · exact .inl hl
  | @logout si pr store h =>
    have hmove := StoreMove.of_logout inv.store h
    obtain ⟨row, _, rfl⟩ := map_eq_some_iff.mp h
    exact inv.administered hmove rfl rfl (List.Subset.refl _) fun jti hj => .inl hj
  | @called i a service token cl =>
    have hsame : ∀ old, s.calls i = some old → old.service = service ∧ old.token = token := by
      intro old hl
      rw [a] at hl
      cases hl
    refine ⟨inv.store, inv.placed, forall_update trivial fun j o _ => inv.calls j o, ?_, ?_, ?_, ?_⟩
    · intro j o jti ho
      revert j o
      exact forall_update nofun fun j o _ ho => inv.pending j o jti ho
    · exact inv.apart.update fun j o jti _ _ hj => by cases hj
    · exact fun rt hm => ⟨(inv.rotated rt hm).1, (inv.rotated rt hm).2.update hsame⟩
    · exact fun r hm =>
        ⟨(inv.revoked r hm).1, (inv.revoked r hm).2.update hsame⟩
  | stepped p c g cn l st =>
    exact inv.stepped p c g cn l st
  | @committed i ca p method request rr cd plan d ft ot pr rf =>
    have hphase := inv.calls i ca p
    rw [d] at hphase
    refine inv.committed p d (Commits.apply ?_ ft)
    refine commits_of_commit inv.store hphase.2.2.2 ?_ ot pr rf
    rintro rfl
    have hunused := (inv.pending i ca request.nextRefreshJti p (by rw [d]; rfl)).2
    rw [hphase.2.2.1]
    exact hunused

lemma AuthInv.initial [DecidableEq κ] (c : κ → RefreshCoordinator) :
    AuthInv jwt sv (AuthSystem.initial c : AuthSystem ι κ E) where
  store := SessionStore.empty_sound
  placed := nil_subset _
  calls := by intro i ca h; cases h
  pending := by intro i ca jti h; cases h
  apart := by intro i j ca o jti h; cases h
  rotated := by intro rt h; cases h
  revoked := by intro r h; cases h

/-- The invariant holds in every state that is reached while what is drawn is new. -/
theorem AuthInv.run [DecidableEq κ] {c : κ → RefreshCoordinator} {e : List (AuthEvent ι κ E)}
    (h : Run (Guarded FreshIds (AuthStep jwt sv)) (AuthSystem.initial c) e s) : AuthInv jwt sv s :=
  h.invariant (fun _ _ _ inv hs => inv.step (move_of_step hs.1 hs.2)) (.initial c)

end

/-! ## What is promised -/

def RefreshCall.presented (jwt : Jsonwebtoken) (services : ι → RefreshTokenService κ) (call : RefreshCall ι E) :
    Option RefreshJti :=
  ((services call.service).claimsOf jwt call.token).bind TokenClaims.jti

def Released (s : AuthSystem ι κ E) (i : ℕ) (call : RefreshCall ι E) (pair : AuthTokenPair) : Prop :=
  s.calls i = some call ∧ call.phase = .returned (.ok (.rotated pair))

/-- Credentials are used once. -/
structure SingleUse (jwt : Jsonwebtoken) (services : ι → RefreshTokenService κ) (s : AuthSystem ι κ E) :
    Prop where
  /-- No credential is rotated twice. -/
  once : ((rotations s.store.record).map fun rotation => rotation.request.currentRefreshJti).Nodup
  /-- One call at most returns credentials for it. -/
  oneOutcome : ∀ i j call other pair pair', Released s i call pair → Released s j other pair' →
    call.presented jwt services = other.presented jwt services → i = j
  /-- What is returned was put into the session, in exchange for what the call was made with. -/
  committed : ∀ i call pair, Released s i call pair →
    ∃ rotation ∈ rotations s.store.record, rotation.call = i ∧
      rotation.request.nextRefreshJti = pair.refreshJti ∧
      call.presented jwt services = some rotation.request.currentRefreshJti
  /-- What a session gives up is what it was given last. -/
  chain : ∀ sessionId,
    ((rotations s.store.record).filter fun rotation => rotation.session.sessionId = sessionId).IsChain
      fun last earlier => last.request.currentRefreshJti = earlier.request.nextRefreshJti
  /-- A session that was revoked for a reuse, and every session that was revoked with it, is not rotated
  any more. -/
  afterReuse : ∀ later revocation earlier, s.store.record = later ++ .revoked revocation :: earlier →
    revocation.request.sessionId ∈ revocation.sessions ∧
      ∀ rotation ∈ rotations later, rotation.session.sessionId ∉ revocation.sessions
  /-- Rotations are of the session that the call's token names, and neither is expired. -/
  rotated : ∀ rotation ∈ rotations s.store.record, Eligible rotation.request rotation.session ∧
    MadeWith jwt services s.calls rotation.call rotation.request
  /-- So are revocations, and what they take along belongs to the account that the token names. -/
  revoked : ∀ revocation ∈ revocations s.store.record, Eligible revocation.request revocation.session ∧
    MadeWith jwt services s.calls revocation.call revocation.request ∧
    ∀ sessionId ∈ revocation.sessions, ownerOf sessionId s.store.record = some revocation.request.subject
  /-- The record tells which sessions are open, and with which credential. -/
  faithful : ∀ sessionId jti, (succession s.store.record).holds sessionId = some jti ↔
    ∃ session, s.store.rows sessionId = some session ∧ session.currentRefreshJti = jti ∧
      session.revoked = false

section

lemma consumed_succession (rc : List Committed) :
    (succession rc).consumed = (rotations rc).map fun r => r.request.currentRefreshJti := by
  induction rc with
  | nil => rfl
  | cons c rc ih =>
    cases c with
    | opened ss => exact ih
    | rotated r => exact congrArg (r.request.currentRefreshJti :: ·) ih
    | revoked rv =>
      rw [succession_closed rfl, Succession.consumed_close_all]
      exact ih
    | closed si => exact ih

lemma rotations_rotated (r : Rotation) (rc : List Committed) :
    rotations (.rotated r :: rc) = r :: rotations rc := rfl

lemma replacements_succession (si : SessionId) (rc : List Committed) : (succession rc).replacements si =
    ((rotations rc).filter fun r => r.session.sessionId = si).map fun r =>
      (r.request.currentRefreshJti, r.request.nextRefreshJti) := by
  induction rc with
  | nil => rfl
  | cons c rc ih =>
    cases c with
    | opened ss => exact ih
    | rotated r =>
      rw [succession_cons, Committed.entries, singleton_append, Succession.replacements, ih,
        rotations_rotated, filter_cons]
      by_cases hsame : r.session.sessionId = si
      · rw [if_pos hsame, if_pos (decide_eq_true hsame)]
        rfl
      · rw [if_neg hsame, if_neg (by rwa [decide_eq_true_eq])]
    | revoked rv =>
      rw [succession_closed rfl, Succession.replacements_close_all]
      exact ih
    | closed si => exact ih

lemma mem_succession_of_rotation {rc : List Committed} {r : Rotation} (h : r ∈ rotations rc) :
    .replaced r.session.sessionId r.request.currentRefreshJti r.request.nextRefreshJti ∈ succession rc := by
  obtain ⟨c, hm, hr⟩ := mem_filterMap.mp h
  refine mem_flatMap.mpr ⟨c, hm, ?_⟩
  cases c with
  | rotated o =>
    cases hr
    exact mem_singleton_self _
  | opened ss => cases hr
  | revoked rv => cases hr
  | closed si => cases hr

variable {jwt : Jsonwebtoken} {se : ι → RefreshTokenService κ} {s : AuthSystem ι κ E}

lemma AuthInv.released (inv : AuthInv jwt se s) {call : RefreshCall ι E} {p : AuthTokenPair}
    (h : Released s i call p) :
    ∃ r ∈ rotations s.store.record, r.call = i ∧ r.request.nextRefreshJti = p.refreshJti ∧
      call.presented jwt se = some r.request.currentRefreshJti := by
  have hphase := inv.calls i call h.1
  rw [h.2] at hphase
  obtain ⟨r, hm, hc, hnx⟩ := hphase
  obtain ⟨o, c, ho, hn⟩ := (inv.rotated r hm).2
  rw [hc, h.1] at ho
  cases ho
  refine ⟨r, hm, hc, hnx, ?_⟩
  rw [RefreshCall.presented, hn.decoded]
  exact hn.jti

/-- The invariant is enough. -/
theorem AuthInv.singleUse (inv : AuthInv jwt se s) : SingleUse jwt se s where
  once := consumed_succession s.store.record ▸ inv.store.valid.consumed_nodup
  oneOutcome := by
    intro i j call o p p' hc ho hsm
    obtain ⟨r, hm, hi, _, hp⟩ := inv.released hc
    obtain ⟨r', hm', hj, _, hp'⟩ := inv.released ho
    have hjti : r.request.currentRefreshJti = r'.request.currentRefreshJti := by
      rw [hp, hp'] at hsm
      exact some.inj hsm
    have honce : ((rotations s.store.record).map fun r =>
        r.request.currentRefreshJti).Nodup :=
      consumed_succession s.store.record ▸ inv.store.valid.consumed_nodup
    have hr : r = r' := inj_on_of_nodup_map honce hm hm' hjti
    rw [← hi, ← hj, hr]
  committed := fun i call p h => inv.released h
  chain := by
    intro si
    have hchain := inv.store.valid.replacements_chain si
    rw [replacements_succession, isChain_map] at hchain
    exact hchain
  afterReuse := by
    intro l rv e hrc
    have hm : rv ∈ revocations s.store.record := by
      rw [hrc, revocations, filterMap_append]
      exact mem_append_right _ mem_cons_self
    refine ⟨(inv.revoked rv hm).1.named, ?_⟩
    intro r hr hcl
    have hvalid := inv.store.valid
    rw [hrc, succession, flatMap_append] at hvalid
    refine hvalid.not_replaced_after_closed ?_ (mem_succession_of_rotation hr)
    exact mem_append_left _ (mem_map.mpr ⟨_, hcl, rfl⟩)
  rotated := fun r hm => ⟨(inv.rotated r hm).1.eligible, (inv.rotated r hm).2⟩
  revoked := by
    intro rv hm
    obtain ⟨hs, hmd⟩ := inv.revoked rv hm
    exact ⟨hs.eligible, hmd, fun si hss => (hs.owned si hss).2⟩
  faithful := by
    intro si jti
    constructor
    · exact inv.store.held si jti
    · rintro ⟨ss, hrw, rfl, hl⟩
      exact (inv.store.rows si ss hrw).holds hl

end

/-- **Refresh credentials are used once.**  In every state that any calls on any services lead to, while
what is drawn is new: a credential was rotated at most once, credentials are returned only for a rotation
that was committed, the rotations of a session form a chain that ends when a reuse was detected, and no
rotation or revocation was of an expired credential, an expired session, or a session of somebody else. -/
theorem refresh_single_use [DecidableEq κ] {jwt : Jsonwebtoken} {services : ι → RefreshTokenService κ}
    {coordinators : κ → RefreshCoordinator} {events : List (AuthEvent ι κ E)} {s : AuthSystem ι κ E}
    (h : Run (Guarded FreshIds (AuthStep jwt services)) (AuthSystem.initial coordinators) events s) :
    SingleUse jwt services s :=
  (AuthInv.run h).singleUse

/-! ## A replay -/

section

def jtiB : RefreshJti := ⟨['b'], by decide⟩

def jtiC : RefreshJti := ⟨['c'], by decide⟩

def namedTokens : Jsonwebtoken where
  encode := fun _ _ claims => some (claims.jti.elim [] Subtype.val)
  decodeHeader := fun _ => some (some .hs256)
  decode := fun _ _ token => if token = ['a'] then some firstClaims else none

def localService : RefreshTokenService Unit := ⟨⟨localKey, localPolicy⟩, ⟨localKey, localPolicy⟩, .strict, ()⟩

def firstSession : RefreshSession where
  subject := subject42
  sessionId := session1
  currentRefreshJti := jtiA
  previousRefreshJti := none
  lastSeenAt := 0
  refreshExpiresAt := 604800
  revoked := false
  client := ⟨none, none⟩

def refreshWithFirst (i : ℕ) (next : RefreshJti) : List (AuthEvent Unit Unit Unit) :=
  [.call i () ['a'] ⟨none, none⟩, .start i ⟨true, .ok 10⟩, .register i, .grant i,
    .prepare i ⟨⟨true, .ok 10⟩, .ok 10, ⟨true, .ok 10⟩, .ok next⟩, .read i 11 .active (some session1),
    .commit i .answered [] false (.error ()), .receive i, .sweep () i]

instance (s : AuthSystem Unit Unit Unit) (event : AuthEvent Unit Unit Unit) : Decidable (FreshIds s event) :=
  match event with
  | .login _ => inferInstanceAs (Decidable (_ ∧ _))
  | .prepare _ ⟨_, _, _, .ok jti⟩ =>
    decidable_of_iff (jti ∉ s.issued) ⟨fun h _ hjti => Except.ok.inj hjti ▸ h, fun h => h jti rfl⟩
  | .prepare _ ⟨_, _, _, .error _⟩ => .isTrue fun _ hjti => by cases hjti
  | .logout .. | .call .. | .start .. | .register _ | .grant _ | .read .. | .commit .. | .receive _
  | .cancel _ | .drop _ | .sweep .. | .close _ => .isTrue trivial

/-- A step, if what it draws is new. -/
def nextFresh (s : AuthSystem Unit Unit Unit) (event : AuthEvent Unit Unit Unit) :
    Option (AuthSystem Unit Unit Unit) :=
  if FreshIds s event then s.next namedTokens (fun () => localService) event else none

/-- A login, a refresh, and the same refresh again. -/
def replay : List (AuthEvent Unit Unit Unit) :=
  .login firstSession :: refreshWithFirst 0 jtiB ++ refreshWithFirst 1 jtiC

theorem refresh_single_use_replay :
    ∃ s, execute nextFresh (AuthSystem.initial fun () => .fromLimit 1024) replay = some s ∧
      (rotations s.store.record).length = 1 ∧ (revocations s.store.record).length = 1 ∧
      SingleUse namedTokens (fun () => localService) s := by
  have hobs : (execute nextFresh (AuthSystem.initial fun () => .fromLimit 1024) replay).map
      (fun s => ((rotations s.store.record).length, (revocations s.store.record).length)) = some (1, 1) := by
    decide +kernel
  obtain ⟨s, hs, hc⟩ := map_eq_some_iff.mp hobs
  obtain ⟨hrt, hr⟩ := Prod.mk.inj hc
  have hrun : Run (Guarded FreshIds (AuthStep namedTokens fun () => localService))
      (AuthSystem.initial fun () => .fromLimit 1024) replay s := by
    refine (run_of_execute hs).mono fun s e t hst => ?_
    rw [nextFresh] at hst
    split at hst
    · next hfresh => exact ⟨hfresh, hst⟩
    · cases hst
  exact ⟨s, hs, hrt, hr, refresh_single_use hrun⟩

end

end AsterForge.Auth
