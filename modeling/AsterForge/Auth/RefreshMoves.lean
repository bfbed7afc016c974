import AsterForge.Auth.RefreshService
import AsterForge.Auth.SessionHistory

/-!
# What a step of the refresh system can do

Every step is one of five: the coordinators change, the product opens or closes a session, a call is made,
a call goes on without the store, or a transaction ends.  Everything that is proved about runs is proved by
these.

* **`move_of_step`** — there are no others.
-/

namespace AsterForge.Auth

open Library List.Subset AuthSystem Function Option

variable {ι κ E : Type}

def RefreshTokenService.claimsOf (jwt : Jsonwebtoken) (service : RefreshTokenService κ) (token : Text) :
    Option TokenClaims :=
  jwt.decode service.verifier.policy.algorithm service.verifier.key token

structure NamedBy (jwt : Jsonwebtoken) (service : RefreshTokenService κ) (token : Text)
    (request : RefreshRotationRequest) (claims : TokenClaims) : Prop where
  decoded : service.claimsOf jwt token = some claims
  jti : claims.jti = some request.currentRefreshJti
  subject : claims.sub = request.subject
  sessionId : claims.sid = request.sessionId
  deadline : request.currentRefreshValidUntil = claims.exp + service.verifier.policy.leewaySecs

section

variable (jwt : Jsonwebtoken) (service : RefreshTokenService κ) (token : Text) (store : SessionStore)
  (issued issued' : List RefreshJti)

/-- A call goes on without the store being changed. -/
inductive PhaseStep : RefreshPhase E → RefreshPhase E → Prop
  | stays (phase : RefreshPhase E) : PhaseStep phase phase
  | failed {phase : RefreshPhase E} (error : RefreshError E) : PhaseStep phase (.returned (.error error))
  | dropped {phase : RefreshPhase E} : PhaseStep phase .dropped
  | queued {claims : TokenClaims} {current : RefreshJti}
      (decoded : service.claimsOf jwt token = some claims) (jti : claims.jti = some current) :
      PhaseStep .called (.queued claims current)
  | guarded {claims : TokenClaims} {current : RefreshJti} :
      PhaseStep (.queued claims current) (.guarded claims current)
  | prepared {claims : TokenClaims} {current : RefreshJti} {request : RefreshRotationRequest}
      {candidate : AuthTokenPair} (presented : request.currentRefreshJti = current)
      (subject : request.subject = claims.sub) (sessionId : request.sessionId = claims.sid)
      (deadline : request.currentRefreshValidUntil = claims.exp + service.verifier.policy.leewaySecs)
      (next : candidate.refreshJti = request.nextRefreshJti) (unused : request.nextRefreshJti ∉ issued)
      (drawn : request.nextRefreshJti ∈ issued') :
      PhaseStep (.guarded claims current) (.persisting .rotateRefresh request candidate .opened)
  | read {method : StoreMethod} {request : RefreshRotationRequest} {candidate : AuthTokenPair} (now : ℤ)
      (account : AccountState) (found : Option SessionId) :
      PhaseStep (.persisting method request candidate .opened) (.persisting method request candidate
          (.decided { request with now := now }
            (Plan.of account { request with now := now } (found.bind store.rows))))
  | received {method : StoreMethod} {request : RefreshRotationRequest} {candidate : AuthTokenPair}
      {answer : Except E RefreshStoreOutcome} :
      PhaseStep (.persisting method request candidate (.answered answer)) (received request candidate answer)

end

inductive Move (jwt : Jsonwebtoken) (services : ι → RefreshTokenService κ) (s : AuthSystem ι κ E) :
    AuthSystem ι κ E → Prop
  | coordinated (coordinators : κ → RefreshCoordinator) :
      Move jwt services s { s with coordinators := coordinators }
  | login {session : RefreshSession} {store : SessionStore} (h : s.store.login session = some store)
      (unused : session.currentRefreshJti ∉ s.issued)
      (fresh : session.sessionId ∉ (succession s.store.record).registered) :
      Move jwt services s { s with store := store, issued := session.currentRefreshJti :: s.issued }
  | logout {sessionId : SessionId} {purge : Bool} {store : SessionStore}
      (h : s.store.logout sessionId purge = some store) : Move jwt services s { s with store := store }
  | called {i : ℕ} (absent : s.calls i = none) (service : ι) (token : Text) (client : ClientContext) :
      Move jwt services s (s.put i ⟨service, token, client, false, true, .called⟩)
  | stepped {i : ℕ} {call : RefreshCall ι E} (present : s.calls i = some call)
      (coordinators : κ → RefreshCoordinator) {issued : List RefreshJti} (grows : s.issued ⊆ issued)
      (cancelled listening : Bool) {phase : RefreshPhase E}
      (step : PhaseStep jwt (services call.service) call.token s.store s.issued issued call.phase phase) :
      Move jwt services s ⟨coordinators, s.store, update s.calls i
            (some { call with cancelled := cancelled, listening := listening, phase := phase }), issued⟩
  | committed {i : ℕ} {call : RefreshCall ι E} (present : s.calls i = some call) {method : StoreMethod}
      {request refreshed : RefreshRotationRequest} {candidate : AuthTokenPair} {plan : Plan}
      (deciding : call.phase = .persisting method request candidate (.decided refreshed plan)) (fate : Fate E)
      (others : List SessionId) (purge : Bool) (refusal : Except E RefreshRejection) :
      Move jwt services s
        ⟨s.coordinators, (fate.apply s.store (s.store.commit method i refreshed others purge refusal plan)).1,
          update s.calls i (some { call with
            phase := .persisting method request candidate (.answered
              (fate.apply s.store (s.store.commit method i refreshed others purge refusal plan)).2) }),
          s.issued⟩

/-! ## What calls compute -/

section

variable {jwt : Jsonwebtoken} {sr : RefreshTokenService κ} {tk : Text} {cm : TokenClaims} {cr : RefreshJti}

lemma admitted_sound {a : Surroundings} (h : sr.admitted jwt a tk = .ok (cm, cr)) :
    sr.claimsOf jwt tk = some cm ∧ cm.jti = some cr := by
  simp only [RefreshTokenService.admitted, bind_eq_ok, okOr_eq_ok, except_pure, Except.ok.injEq,
    Prod.mk.injEq] at h
  obtain ⟨cl', hv, c', hj, rfl, rfl⟩ := h
  exact ⟨(verify_sound hv).1, hj⟩

lemma prepared_sound {rd : Readings} {st : Bool} {cl : ClientContext}
    {r : RefreshRotationRequest} {c : AuthTokenPair} (h : sr.prepared jwt rd st tk cl cm cr = .ok (r, c)) :
    r.currentRefreshJti = cr ∧ r.subject = cm.sub ∧ r.sessionId = cm.sid ∧
      r.currentRefreshValidUntil = cm.exp + sr.verifier.policy.leewaySecs ∧
      c.refreshJti = r.nextRefreshJti ∧ rd.nextId = .ok r.nextRefreshJti := by
  simp only [RefreshTokenService.prepared, bind_eq_ok, except_pure, Except.ok.injEq, Prod.mk.injEq] at h
  obtain ⟨_, _, now, _, c', hi, _, _, _, _, rfl, rfl⟩ := h
  exact ⟨rfl, rfl, rfl, rfl, rfl, issue_refreshJti hi⟩

end

/-! ## There are no other steps -/

variable {jwt : Jsonwebtoken} {sv : ι → RefreshTokenService κ} {s t : AuthSystem ι κ E}

lemma draw_eq (s : AuthSystem ι κ E) (ni : Except AuthError RefreshJti) :
    ∃ issued, s.issued ⊆ issued ∧ (∀ jti, ni = .ok jti → jti ∈ issued) ∧
      s.draw ni = { s with issued := issued } := by
  cases ni with
  | ok jti =>
    refine ⟨jti :: s.issued, fun _ => List.mem_cons_of_mem _, ?_, rfl⟩
    intro o ho
    cases ho
    exact List.mem_cons_self
  | error e =>
    refine ⟨s.issued, refl _, ?_, rfl⟩
    intro o ho
    cases ho

variable [DecidableEq κ]

lemma settle_eq (s : AuthSystem ι κ E) (c : κ) (i : ℕ) (cl : RefreshCall ι E) (p : RefreshPhase E) :
    ∃ cr, s.settle c i cl p = ⟨cr, s.store, update s.calls i (some { cl with phase := p }), s.issued⟩ := by
  cases p with
  | returned r => exact ⟨_, rfl⟩
  | called | queued | guarded | persisting | dropped => exact ⟨s.coordinators, rfl⟩

variable {e : AuthEvent ι κ E}

lemma move_of_go {i : ℕ} {call : RefreshCall ι E} (present : s.calls i = some call)
    (hf : FreshIds s e) (h : s.go jwt sv i call e = some t) : Move jwt sv s t := by
  cases e with
  | start j around =>
    simp only [go] at h
    split at h
    · next hphase =>
        split at h
        · next error _ =>
            cases h
            exact .stepped present s.coordinators (refl _) call.cancelled call.listening
              (.failed (.auth error))
        · next claims current hadm =>
            obtain ⟨hdc, hj⟩ := admitted_sound hadm
            split at h
            · next error _ =>
                cases h
                exact .stepped present s.coordinators (refl _) call.cancelled call.listening
                  (.failed (.auth error))
            · cases h
              exact .stepped present _ (refl _) call.cancelled call.listening (hphase ▸ .queued hdc hj)
    · cases h
  | register j =>
    obtain ⟨coordinator, _, rfl⟩ := map_eq_some_iff.mp h
    exact .coordinated _
  | grant j =>
    simp only [go] at h
    split at h
    · next claims current hphase =>
        split at h
        · cases h
        · next error _ =>
            cases h
            exact .stepped present _ (refl _) call.cancelled call.listening (.failed (.auth error))
        · cases h
          exact .stepped present _ (refl _) call.cancelled call.listening (hphase ▸ .guarded)
    · cases h
  | prepare j readings =>
    obtain ⟨issued, hg, hdr, hd⟩ := draw_eq s readings.nextId
    simp only [go] at h
    split at h
    · next claims current hphase =>
        split at h
        · next error _ =>
            cases h
            rw [hd]
            obtain ⟨coordinators, hs⟩ := settle_eq { s with issued := issued }
              (sv call.service).coordinator i call (.returned (.error (.auth error)))
            rw [hs]
            exact .stepped present coordinators hg call.cancelled call.listening (.failed (.auth error))
        · next request candidate hprep =>
            cases h
            obtain ⟨hp, hsb, hss, hdd, hn, hid⟩ := prepared_sound hprep
            rw [hd]
            exact .stepped present s.coordinators hg call.cancelled call.listening
              (hphase ▸ .prepared hp hsb hss hdd hn (hf _ hid) (hdr _ hid))
    · cases h
  | read j now account found =>
    simp only [go] at h
    split at h
    · next method request candidate hphase =>
        cases h
        exact .stepped present s.coordinators (refl _) call.cancelled call.listening
          (hphase ▸ .read now account found)
    · cases h
  | commit j fate others purge refusal =>
    simp only [go] at h
    split at h
    · next method request candidate refreshed plan hphase =>
        cases h
        exact .committed present hphase fate others purge refusal
    · cases h
  | receive j =>
    simp only [go] at h
    split at h
    · next method request candidate answer hphase =>
        split at h
        · cases h
          obtain ⟨coordinators, hs⟩ := settle_eq s (sv call.service).coordinator i call
            (received request candidate answer)
          rw [hs]
          exact .stepped present coordinators (refl _) call.cancelled call.listening (hphase ▸ .received)
        · cases h
    · cases h
  | cancel j =>
    cases h
    exact .stepped present s.coordinators (refl _) true call.listening (.stays _)
  | drop j =>
    simp only [go] at h
    split at h
    · cases h
      exact .stepped present s.coordinators (refl _) call.cancelled false .dropped
    · cases h
      exact .stepped present _ (refl _) call.cancelled false .dropped
    · cases h
      exact .stepped present _ (refl _) call.cancelled false .dropped
    · split at h
      · cases h
        exact .stepped present _ (refl _) call.cancelled false (.stays _)
      · cases h
    · cases h
    · cases h
  | login | logout | call | sweep | close => cases h

/-- **Every step is one of these**, as long as what is drawn is new. -/
theorem move_of_step (hf : FreshIds s e) (h : AuthStep jwt sv s e t) : Move jwt sv s t := by
  have hgo : ∀ i, (s.calls i).bind (fun cl => s.go jwt sv i cl e) = some t → Move jwt sv s t := by
    intro i hn
    obtain ⟨cl, p, hn⟩ := bind_eq_some_iff.mp hn
    exact move_of_go p hf hn
  cases e with
  | login ss =>
    obtain ⟨store, hs, rfl⟩ := map_eq_some_iff.mp h
    exact .login hs hf.1 hf.2
  | logout si pr =>
    obtain ⟨store, hs, rfl⟩ := map_eq_some_iff.mp h
    exact .logout hs
  | call i service token cn =>
    simp only [AuthStep, next] at h
    split at h
    · next habs =>
        cases h
        exact .called habs service token cn
    · cases h
  | sweep c i =>
    obtain ⟨cr, _, rfl⟩ := map_eq_some_iff.mp h
    exact .coordinated _
  | close c =>
    cases h
    exact .coordinated _
  | start i ar => exact hgo i h
  | register i => exact hgo i h
  | grant i => exact hgo i h
  | prepare i r => exact hgo i h
  | read i now a f => exact hgo i h
  | commit i ft o pr rf => exact hgo i h
  | receive i => exact hgo i h
  | cancel i => exact hgo i h
  | drop i => exact hgo i h

end AsterForge.Auth
