import AsterForge.Auth.RefreshStore

/-!
# What the store keeps

The record of what was committed is a history in which every credential is new, and the sessions agree
with it: one that is not revoked has the credential that the history says it holds.

* `SessionStore.Seen` — a session that was read: as long as it has the credential it had, it is unchanged.
* **`StoreMove.sound`**, **`StoreMove.seen`** — both last.
-/

namespace AsterForge.Auth

open Library SessionStore Function List Option Table

/-- What can be done to the store, with what is known when it is done. -/
inductive StoreMove (store : SessionStore) : SessionStore → Prop
  | opened {session : RefreshSession} (live : session.revoked = false)
      (unused : session.currentRefreshJti ∉ (succession store.record).placed)
      (fresh : session.sessionId ∉ (succession store.record).registered) :
      StoreMove store ⟨update store.rows session.sessionId (some session), .opened session :: store.record⟩
  | rotated (call : ℕ) {request : RefreshRotationRequest} {row : RefreshSession}
      (found : store.rows row.sessionId = some row)
      (current : row.currentRefreshJti = request.currentRefreshJti) (live : row.revoked = false)
      (unused : request.nextRefreshJti ∉ (succession store.record).placed) :
      StoreMove store ⟨update store.rows row.sessionId (some (row.rotate request)),
          .rotated ⟨call, request, row⟩ :: store.record⟩
  | closed {committed : Committed} {sessions : List SessionId} (purge : Bool)
      (entries : committed.entries = sessions.map .closed)
      (owner : ∀ sessionId, ownerOf sessionId (committed :: store.record) = ownerOf sessionId store.record)
      (known : sessions ⊆ (succession store.record).registered) :
      StoreMove store ⟨store.closeRows sessions purge, committed :: store.record⟩

structure SessionStore.Agrees (store : SessionStore) (sessionId : SessionId) (session : RefreshSession) :
    Prop where
  key : session.sessionId = sessionId
  owner : ownerOf sessionId store.record = some session.subject
  registered : sessionId ∈ (succession store.record).registered
  placed : session.currentRefreshJti ∈ (succession store.record).placed
  holds : session.revoked = false → (succession store.record).holds sessionId = some session.currentRefreshJti

/-- The record is a history of new credentials, and the sessions agree with it. -/
structure SessionStore.Sound (store : SessionStore) : Prop where
  valid : (succession store.record).Valid
  rows : ∀ sessionId session, store.rows sessionId = some session → store.Agrees sessionId session
  held : ∀ sessionId jti, (succession store.record).holds sessionId = some jti →
    ∃ session, store.rows sessionId = some session ∧ session.currentRefreshJti = jti ∧ session.revoked = false

/-- A session that was read: while there is one with its identity and its credential, not revoked, it is
that one. -/
structure SessionStore.Seen (store : SessionStore) (session : RefreshSession) : Prop where
  owner : ownerOf session.sessionId store.record = some session.subject
  registered : session.sessionId ∈ (succession store.record).registered
  placed : session.currentRefreshJti ∈ (succession store.record).placed
  same : ∀ row, store.rows session.sessionId = some row →
    row.currentRefreshJti = session.currentRefreshJti → row.revoked = false → row = session

variable {st a : SessionStore}

namespace SessionStore

variable {ss : RefreshSession} {si : SessionId}

lemma empty_sound : empty.Sound :=
  ⟨.nil, nofun, nofun⟩

lemma Sound.seen (h : st.Sound) (hr : st.rows si = some ss) : st.Seen ss := by
  have hagr := h.rows si ss hr
  have hkey := hagr.key
  subst hkey
  refine ⟨hagr.owner, hagr.registered, hagr.placed, ?_⟩
  intro row hs _ _
  exact some.inj (hs.symm.trans hr)

lemma mem_closeRows {s : List SessionId} {p : Bool} (h : st.closeRows s p si = some ss) :
    (si ∉ s ∧ st.rows si = some ss) ∨ ∃ row, st.rows si = some row ∧ ss = { row with revoked := true } := by
  rw [closeRows] at h
  split at h
  · obtain ⟨row, hr, hc⟩ := bind_eq_some_iff.mp h
    cases p with
    | true => cases hc
    | false =>
      cases hc
      exact .inr ⟨row, hr, rfl⟩
  · next hmem => exact .inl ⟨fun h => hmem (contains_iff_mem.mpr h), h⟩

end SessionStore

/-! ## The operations are moves -/

variable {session : RefreshSession}

lemma login_record (h : st.login session = some a) : a.record = .opened session :: st.record := by
  rw [login] at h
  split at h
  · cases h
  · obtain ⟨r, _, rfl⟩ := map_eq_some_iff.mp h
    rfl

lemma StoreMove.of_login (h : st.login session = some a)
    (u : session.currentRefreshJti ∉ (succession st.record).placed)
    (f : session.sessionId ∉ (succession st.record).registered) : StoreMove st a := by
  rw [login] at h
  split at h
  · cases h
  · next hlive =>
      obtain ⟨r, hr, rfl⟩ := map_eq_some_iff.mp h
      obtain ⟨_, rfl⟩ := insertRow_eq_some hr
      exact .opened (Bool.eq_false_iff.mpr hlive) u f

variable {sessionId : SessionId}

lemma StoreMove.of_logout {p : Bool} (hs : st.Sound) (h : st.logout sessionId p = some a) : StoreMove st a := by
  obtain ⟨row, hr, rfl⟩ := map_eq_some_iff.mp h
  refine .closed p rfl (fun _ => rfl) ?_
  intro o ho
  rw [mem_singleton.mp ho]
  exact (hs.rows _ _ hr).registered

lemma StoreMove.of_rotate {c : ℕ} {r : RefreshRotationRequest}
    (hs : st.Sound) (h : st.rotate c r sessionId = some a) (u : r.nextRefreshJti ∉ (succession st.record).placed) :
    StoreMove st a ∧ ∃ row, st.rows sessionId = some row ∧
      row.currentRefreshJti = r.currentRefreshJti ∧ row.revoked = false ∧
      a.record = .rotated ⟨c, r, row⟩ :: st.record := by
  obtain ⟨row, hf, rfl⟩ := map_eq_some_iff.mp h
  obtain ⟨hr, hu⟩ := filter_eq_some_iff.mp hf
  obtain ⟨hc, hl⟩ := of_decide_eq_true hu
  have hkey := (hs.rows _ _ hr).key
  subst hkey
  exact ⟨.rotated c hr hc hl u, row, hr, hc, hl, rfl⟩

variable {session : RefreshSession}

lemma StoreMove.of_revoke (hs : st.Sound) (hsn : st.Seen session)
    (c : ℕ) (r : RefreshRotationRequest) (o : List SessionId) (p : Bool) :
    StoreMove st (st.revoke c r session o p) := by
  refine .closed p rfl (fun _ => rfl) ?_
  intro ot ho
  rcases mem_cons.mp ho with rfl | ho
  · exact hsn.registered
  · have haccount := (mem_filter.mp ho).2
    cases hrow : st.rows ot with
    | none =>
      rw [ofAccount, hrow] at haccount
      cases haccount
    | some row => exact (hs.rows _ _ hrow).registered

/-! ## What moves keep -/

lemma succession_cons (c : Committed) (r : List Committed) : succession (c :: r) = c.entries ++ succession r := rfl

lemma succession_closed {c : Committed} {s : List SessionId} (e : c.entries = s.map .closed) (r : List Committed) :
    succession (c :: r) = s.map .closed ++ succession r := by
  rw [succession_cons, e]

namespace StoreMove

section

variable (h : StoreMove st a)
include h

lemma record_grows : ∃ c, a.record = c :: st.record ∧
    (∀ sessionId ∈ (succession st.record).registered,
      ownerOf sessionId a.record = ownerOf sessionId st.record) ∧
    (succession st.record).registered ⊆ (succession a.record).registered ∧
    (succession st.record).placed ⊆ (succession a.record).placed := by
  cases h with
  | @opened session l u f =>
    refine ⟨_, rfl, ?_, fun _ => mem_cons_of_mem _, fun _ => mem_cons_of_mem _⟩
    intro sessionId hr
    rw [ownerOf, if_neg]
    rintro rfl
    exact f hr
  | rotated cl fn cr l u =>
    exact ⟨_, rfl, fun _ _ => rfl, List.Subset.refl _, fun _ => mem_cons_of_mem _⟩
  | @closed c s p e o k =>
    refine ⟨c, rfl, fun sessionId _ => o sessionId, ?_, ?_⟩
    · rw [succession_closed e, Succession.registered_close_all]
      exact List.Subset.refl _
    · rw [succession_closed e, Succession.placed_close_all]
      exact List.Subset.refl _

lemma valid (hs : st.Sound) : (succession a.record).Valid := by
  cases h with
  | opened l u f => exact .opened f u hs.valid
  | rotated cl fn c l u =>
    exact .replaced (c ▸ (hs.rows _ _ fn).holds l) u hs.valid
  | closed p e o k =>
    rw [succession_closed e]
    exact hs.valid.close_all k

lemma agrees (hs : st.Sound) (hr : a.rows sessionId = some session) : a.Agrees sessionId session := by
  obtain ⟨c, _, how, hrg, hp⟩ := h.record_grows
  cases h with
  | @opened op l u fr =>
    obtain ⟨rfl, ⟨⟩⟩ | ⟨hsm, hr⟩ := update_eq_iff.mp hr
    · exact ⟨rfl, if_pos rfl, mem_cons_self, mem_cons_self, fun _ => if_pos rfl⟩
    · have hagr := hs.rows _ _ hr
      refine ⟨hagr.key, (how _ hagr.registered).trans hagr.owner,
        hrg hagr.registered, hp hagr.placed, fun hl => ?_⟩
      exact (if_neg fun h => hsm h.symm).trans (hagr.holds hl)
  | @rotated cl r row f cr l u =>
    obtain ⟨rfl, ⟨⟩⟩ | ⟨hsm, hr⟩ := update_eq_iff.mp hr
    · have hagr := hs.rows _ _ f
      exact ⟨rfl, hagr.owner, hagr.registered, mem_cons_self, fun _ => if_pos rfl⟩
    · have hagr := hs.rows _ _ hr
      refine ⟨hagr.key, hagr.owner, hagr.registered, hp hagr.placed, fun hl => ?_⟩
      exact (if_neg fun h => hsm h.symm).trans (hagr.holds hl)
  | closed p e o k =>
    rcases mem_closeRows hr with ⟨ho, hd⟩ | ⟨old, hd, rfl⟩
    · have hagr := hs.rows _ _ hd
      refine ⟨hagr.key, (o _).trans hagr.owner, hrg hagr.registered, hp hagr.placed, fun hl => ?_⟩
      rw [succession_closed e, Succession.holds_close_all, if_neg ho]
      exact hagr.holds hl
    · have hagr := hs.rows _ _ hd
      exact ⟨hagr.key, (o _).trans hagr.owner, hrg hagr.registered, hp hagr.placed, fun hl => by cases hl⟩

lemma held (hs : st.Sound) {jti : RefreshJti} (hh : (succession a.record).holds sessionId = some jti) :
    ∃ session, a.rows sessionId = some session ∧ session.currentRefreshJti = jti ∧
      session.revoked = false := by
  cases h with
  | @opened o l u f =>
    dsimp only at hh ⊢
    rw [succession_cons, Committed.entries, singleton_append, Succession.holds] at hh
    split at hh
    · next hsame =>
        subst hsame
        exact ⟨o, update_self .., some.inj hh, l⟩
    · next hother =>
        rw [update_of_ne fun h => hother h.symm]
        exact hs.held sessionId jti hh
  | @rotated cl r row fn c l u =>
    dsimp only at hh ⊢
    rw [succession_cons, Committed.entries, singleton_append, Succession.holds] at hh
    split at hh
    · next hsame =>
        subst hsame
        exact ⟨row.rotate r, update_self .., some.inj hh, l⟩
    · next hother =>
        rw [update_of_ne fun h => hother h.symm]
        exact hs.held sessionId jti hh
  | closed p e ow k =>
    dsimp only at hh ⊢
    rw [succession_closed e, Succession.holds_close_all] at hh
    split at hh
    · cases hh
    · next hother =>
        rw [closeRows, if_neg fun h => hother (contains_iff_mem.mp h)]
        exact hs.held sessionId jti hh

/-- **Record and sessions go on to agree.** -/
theorem sound (hs : st.Sound) : a.Sound :=
  ⟨h.valid hs, fun _ _ hr => h.agrees hs hr, fun _ _ hh => h.held hs hh⟩

/-- **What was read is still what is stored**, or was superseded for good. -/
theorem seen (hs : st.Seen session) : a.Seen session := by
  obtain ⟨c, _, ho, hrg, hp⟩ := h.record_grows
  refine ⟨(ho _ hs.registered).trans hs.owner, hrg hs.registered, hp hs.placed, ?_⟩
  intro row hr hc hl
  cases h with
  | @opened o _ u f =>
    obtain ⟨hsm, -⟩ | ⟨-, hr⟩ := update_eq_iff.mp hr
    · exact absurd (hsm ▸ hs.registered) f
    · exact hs.same row hr hc hl
  | @rotated cl r old fn cr l u =>
    obtain ⟨-, ⟨⟩⟩ | ⟨-, hr⟩ := update_eq_iff.mp hr
    · have hnext : r.nextRefreshJti = session.currentRefreshJti := hc
      exact absurd (hnext ▸ hs.placed) u
    · exact hs.same row hr hc hl
  | closed p e ow k =>
    rcases mem_closeRows hr with ⟨_, hd⟩ | ⟨old, _, rfl⟩
    · exact hs.same row hd hc hl
    · cases hl

end

end StoreMove

end AsterForge.Auth
