import AsterForge.Library.Runs
import AsterForge.Windows.CallbackRequest
/-!
# A connection and its requests
One connection session with the leases it gave out and the requests that own one.  Any number of threads
accept callbacks, own requests, release leases, begin to close and record the disconnect, while the platform
and the watchdog exchange the gates of fetches: every locked section, every exchange and every native
operation is a step.
* `ConnectionInvariant` with **`ConnectionInvariant.step`** — the session follows its history, native
  requests are sound, and a lease is live until its request is settled.
* **`fetch_settles`**, **`preflight_settles`** — every request gets to its end.
* **`connection_single_answer`** — the lifecycle of the connection, one answer for every preflight, and the
  fetches that are always answered once.
-/
namespace AsterForge.Windows
open AsterForge.Core Library List Option
/-! ## The steps -/
/-- A connection.  `closing` and `disconnected` say whether closing was begun and whether the disconnect was
recorded. -/
structure NativeConnection where
  session : WindowsConnectionSession
  leases : List WindowsCallbackLease
  fetches : List WindowsFetchDataRequest
  preflights : List WindowsPreflightRequest
  closing : Bool
  disconnected : Bool
inductive ConnectionLabel
  | beginCallback (callbackGeneration : SessionGeneration)
  /-- A lease that no request owns is released or dropped. -/
  | releaseLease (lease : ℕ)
  | beginClosing
  | markDisconnected
  /-- A fetch is bound to a lease. -/
  | acceptFetch (completionAuthority : NativeCompletionAuthority) (snapshot : WindowsFetchDataSnapshot)
      (lease : ℕ)
  /-- A preflight is bound to a lease. -/
  | acceptPreflight (completionAuthority : NativeCompletionAuthority) (snapshot : WindowsPreflightSnapshot)
      (lease : ℕ)
  | fetch (request : ℕ) (move : FetchMove)
  | cancelByPlatform (request : ℕ) (attempt : GateAttempt)
  | cancelByWatchdog (request : ℕ)
  /-- The lease of a fetch is dropped. -/
  | releaseFetch (request : ℕ)
  | preflight (request : ℕ) (move : PreflightMove)
  /-- The lease of a preflight is dropped. -/
  | releasePreflight (request : ℕ)
def validateRequestGeneration (snapshot lease : SessionGeneration) : Except WindowsCloudFilesError Unit :=
  if snapshot = lease then .ok () else .error (.staleConnectionGeneration lease.value snapshot.value)
namespace NativeConnection
def initial (generation : SessionGeneration) : NativeConnection :=
  ⟨.new generation, [], [], [], false, false⟩
def bind (system : NativeConnection) (lease : ℕ) (generation : SessionGeneration)
    (onBound : NativeConnection → WindowsCallbackLease → NativeConnection) : Option NativeConnection := do
  let owned ← system.leases[lease]?
  if owned.live = false then none
  else
    match validateRequestGeneration generation system.session.generation with
    | .error _ =>
      some { system with
        session := (owned.releaseInner system.session).2
        leases := system.leases.set lease (owned.releaseInner system.session).1 }
    | .ok () => some (onBound { system with leases := system.leases.eraseIdx lease } owned)
/-- One step, or `none` when the label cannot happen in this state. -/
def step (system : NativeConnection) : ConnectionLabel → Option NativeConnection
  | .beginCallback callbackGeneration =>
    match system.session.beginCallback callbackGeneration with
    | .error _ => some system
    | .ok (lease, session) => some { system with session, leases := system.leases ++ [lease] }
  | .releaseLease lease => do
    let owned ← system.leases[lease]?
    some { system with
      session := (owned.releaseInner system.session).2
      leases := system.leases.set lease (owned.releaseInner system.session).1 }
  | .beginClosing => some { system with session := system.session.beginClosing.2, closing := true }
  | .markDisconnected =>
    match system.session.markDisconnected with
    | .error _ => some system
    | .ok session => some { system with session, disconnected := true }
  | .acceptFetch completionAuthority snapshot lease =>
    system.bind lease snapshot.info.generation fun system owned =>
      { system with fetches := system.fetches ++ [.new completionAuthority snapshot owned] }
  | .acceptPreflight completionAuthority snapshot lease =>
    system.bind lease snapshot.info.generation fun system owned =>
      { system with preflights := system.preflights ++ [.new completionAuthority snapshot owned] }
  | .fetch index move => do
    let request ← system.fetches[index]?
    let request ← request.advance move
    some { system with fetches := system.fetches.set index request }
  | .cancelByPlatform index attempt => do
    let request ← system.fetches[index]?
    some { system with fetches := system.fetches.set index (request.cancelByPlatform attempt) }
  | .cancelByWatchdog index => do
    let request ← system.fetches[index]?
    some { system with fetches := system.fetches.set index request.cancelByWatchdog }
  | .releaseFetch index => do
    let request ← system.fetches[index]?
    match request.stage with
    | .releasing =>
      some { system with
        session := (request.lease.releaseInner system.session).2
        fetches := system.fetches.set index { request with
          lease := (request.lease.releaseInner system.session).1, stage := .settled } }
    | _ => none
  | .preflight index move => do
    let request ← system.preflights[index]?
    let request ← request.advance move
    some { system with preflights := system.preflights.set index request }
  | .releasePreflight index => do
    let request ← system.preflights[index]?
    match request.stage with
    | .releasing =>
      some { system with
        session := (request.lease.releaseInner system.session).2
        preflights := system.preflights.set index { request with
          lease := (request.lease.releaseInner system.session).1, stage := .settled } }
    | _ => none
def Step (system : NativeConnection) (label : ConnectionLabel) (system' : NativeConnection) : Prop :=
  system.step label = some system'
def ReachableFrom (generation : SessionGeneration) (system : NativeConnection) : Prop :=
  Reachable (fun s => s = initial generation) Step system
/-- The number of live leases, wherever they are. -/
def live (system : NativeConnection) : ℕ :=
  system.leases.countP WindowsCallbackLease.live +
    system.fetches.countP (fun request => request.lease.live) +
      system.preflights.countP (fun request => request.lease.live)
end NativeConnection
/-! ## Counting -/
section
variable {α : Type*} {p : α → Bool} {l : List α} {i : ℕ} {a : α}
lemma countP_set_add (h : l[i]? = some a) (b : α) :
    (l.set i b).countP p + (if p a = true then 1 else 0) = l.countP p + if p b = true then 1 else 0 := by
  obtain ⟨hi, rfl⟩ := List.getElem?_eq_some_iff.mp h
  rw [List.countP_set hi]
  by_cases hp : p l[i] = true
  · have hpos : 0 < l.countP p := List.countP_pos_iff.mpr ⟨_, List.getElem_mem hi, hp⟩
    rw [if_pos hp]
    omega
  · rw [if_neg hp]
    omega
lemma countP_eraseIdx_add (h : l[i]? = some a) :
    (l.eraseIdx i).countP p + (if p a = true then 1 else 0) = l.countP p := by
  induction l generalizing i with
  | nil => simp at h
  | cons b l ih =>
    cases i with
    | zero =>
      cases h
      rw [eraseIdx_cons_zero, countP_cons]
    | succ i =>
      rw [eraseIdx_cons_succ, countP_cons, countP_cons, ← ih h]
      omega
lemma forall_mem_set {P : α → Prop} (hl : ∀ b ∈ l, P b) (ha : P a) : ∀ b ∈ l.set i a, P b := by
  intro b hb
  rcases mem_or_eq_of_mem_set hb with hb | rfl
  · exact hl b hb
  · exact ha
lemma forall_mem_concat {P : α → Prop} (hl : ∀ b ∈ l, P b) (ha : P a) : ∀ b ∈ l ++ [a], P b := by
  intro b hb
  rcases mem_append.mp hb with hb | hb
  · exact hl b hb
  · exact mem_singleton.mp hb ▸ ha
end
/-! ## The invariant -/
/-- What holds of a fetch: one of the platform is sound, and its lease is live until it is settled. -/
structure FetchKept (request : WindowsFetchDataRequest) : Prop where
  sound : request.completionAuthority = .native → FetchSound request
  live : request.lease.live = true ↔ request.stage ≠ .settled
structure PreflightKept (request : WindowsPreflightRequest) : Prop where
  sound : request.completionAuthority = .native → PreflightSound request
  live : request.lease.live = true ↔ request.stage ≠ .settled
variable {request : WindowsFetchDataRequest}
lemma FetchKept.advance {r' : WindowsFetchDataRequest} (h : FetchKept request) {m : FetchMove}
    (hm : request.advance m = some r') : FetchKept r' := by
  obtain ⟨-, hl, ha, hs⟩ := fetch_advance_frame hm
  have hbef : request.stage ≠ .settled := by
    intro hst
    have hrank := fetch_advance_rank hm
    rw [hst] at hrank
    exact Nat.not_lt_zero _ hrank
  refine ⟨fun hn => ?_, ?_⟩
  · have hn : request.completionAuthority = .native := ha ▸ hn
    exact (h.sound hn).advance hn hm
  · rw [hl]
    exact ⟨fun _ => hs, fun _ => h.live.mpr hbef⟩
lemma cancelByPlatform_frame (r : WindowsFetchDataRequest) (att : GateAttempt) :
    (r.cancelByPlatform att).lease = r.lease ∧ (r.cancelByPlatform att).stage = r.stage ∧
      (r.cancelByPlatform att).completionAuthority = r.completionAuthority ∧
      (r.cancelByPlatform att).snapshot = r.snapshot := by
  unfold WindowsFetchDataRequest.cancelByPlatform
  split <;> exact ⟨rfl, rfl, rfl, rfl⟩
lemma PreflightKept.advance {rq r' : WindowsPreflightRequest} (h : PreflightKept rq)
    {m : PreflightMove} (hm : rq.advance m = some r') : PreflightKept r' := by
  obtain ⟨hl, ha, hs⟩ := preflight_advance_frame hm
  have hbef : rq.stage ≠ .settled := by
    intro hst
    simp only [WindowsPreflightRequest.advance, hst] at hm
    cases hm
  refine ⟨fun hn => ?_, ?_⟩
  · have hn : rq.completionAuthority = .native := ha ▸ hn
    exact (h.sound hn).advance hn hm
  · rw [hl]
    exact ⟨fun _ => hs, fun _ => h.live.mpr hbef⟩
lemma FetchKept.settled {r : WindowsFetchDataRequest} (h : FetchKept r)
    (hs : r.stage = .releasing) (s : WindowsConnectionSession) :
    FetchKept { r with lease := (r.lease.releaseInner s).1, stage := .settled } := by
  refine ⟨fun hn => ?_, by simp⟩
  have hsound := h.sound hn
  have hended : r.stage.phase = .ended := by
    rw [hs]
    rfl
  exact {
    __ := hsound
    executing := by
      intro he
      cases he
    answered := fun ha _ => hsound.answered ha (by rw [hended]; decide)
    second := by
      intro hsn
      cases hsn
    ended := fun _ => hsound.ended hended }
lemma PreflightKept.settled {r : WindowsPreflightRequest} (h : PreflightKept r)
    (hs : r.stage = .releasing) (s : WindowsConnectionSession) :
    PreflightKept { r with lease := (r.lease.releaseInner s).1, stage := .settled } := by
  refine ⟨fun hn => ?_, by simp⟩
  have hsound := h.sound hn
  exact ⟨hsound.unanswered, hsound.answered, fun _ => hsound.ended (.inl hs)⟩
/-! ## What a step does -/
/-- What a step does, whatever its label: nothing, or one operation of the session or of one request. -/
inductive ConnectionStep (system : NativeConnection) : NativeConnection → Prop
  | unchanged : ConnectionStep system system
  | begun {callbackGeneration : SessionGeneration} {lease : WindowsCallbackLease}
      {session : WindowsConnectionSession}
      (hbegin : system.session.beginCallback callbackGeneration = .ok (lease, session)) :
      ConnectionStep system { system with session, leases := system.leases ++ [lease] }
  | released {lease : ℕ} {owned : WindowsCallbackLease} (howned : system.leases[lease]? = some owned) :
      ConnectionStep system { system with
        session := (owned.releaseInner system.session).2
        leases := system.leases.set lease (owned.releaseInner system.session).1 }
  | closing : ConnectionStep system { system with session := system.session.beginClosing.2, closing := true }
  | disconnected {session : WindowsConnectionSession} (hmark : system.session.markDisconnected = .ok session) :
      ConnectionStep system { system with session, disconnected := true }
  | boundFetch {lease : ℕ} {owned : WindowsCallbackLease} (howned : system.leases[lease]? = some owned)
      (hlive : owned.live = true) (authority : NativeCompletionAuthority) (snapshot : WindowsFetchDataSnapshot) :
      ConnectionStep system { system with
        leases := system.leases.eraseIdx lease
        fetches := system.fetches ++ [.new authority snapshot owned] }
  | boundPreflight {lease : ℕ} {owned : WindowsCallbackLease} (howned : system.leases[lease]? = some owned)
      (hlive : owned.live = true) (authority : NativeCompletionAuthority) (snapshot : WindowsPreflightSnapshot) :
      ConnectionStep system { system with
        leases := system.leases.eraseIdx lease
        preflights := system.preflights ++ [.new authority snapshot owned] }
  | movedFetch {index : ℕ} {request request' : WindowsFetchDataRequest}
      (hget : system.fetches[index]? = some request) (hlease : request'.lease = request.lease)
      (hkept : FetchKept request → FetchKept request') :
      ConnectionStep system { system with fetches := system.fetches.set index request' }
  | movedPreflight {index : ℕ} {request request' : WindowsPreflightRequest}
      (hget : system.preflights[index]? = some request) (hlease : request'.lease = request.lease)
      (hkept : PreflightKept request → PreflightKept request') :
      ConnectionStep system { system with preflights := system.preflights.set index request' }
  | settledFetch {index : ℕ} {request : WindowsFetchDataRequest}
      (hget : system.fetches[index]? = some request) (hstage : request.stage = .releasing) :
      ConnectionStep system { system with
        session := (request.lease.releaseInner system.session).2
        fetches := system.fetches.set index { request with
          lease := (request.lease.releaseInner system.session).1, stage := .settled } }
  | settledPreflight {index : ℕ} {request : WindowsPreflightRequest}
      (hget : system.preflights[index]? = some request) (hstage : request.stage = .releasing) :
      ConnectionStep system { system with
        session := (request.lease.releaseInner system.session).2
        preflights := system.preflights.set index { request with
          lease := (request.lease.releaseInner system.session).1, stage := .settled } }
variable {system system' : NativeConnection}
lemma connectionStep_of_bind {ls : ℕ} {g : SessionGeneration}
    {ob : NativeConnection → WindowsCallbackLease → NativeConnection} (hb : system.bind ls g ob = some system')
    (hbn : ∀ o, system.leases[ls]? = some o → o.live = true →
      ConnectionStep system (ob { system with leases := system.leases.eraseIdx ls } o)) :
    ConnectionStep system system' := by
  simp only [NativeConnection.bind, bind_eq_bind, bind_eq_some_iff] at hb
  obtain ⟨o, ho, hb⟩ := hb
  split_ifs at hb with hlive
  split at hb
  · cases hb
    exact .released ho
  · cases hb
    exact hbn o ho (Bool.not_eq_false _ ▸ hlive)
open NativeConnection
variable {lb : ConnectionLabel}
theorem connectionStep_of_step (hs : NativeConnection.Step system lb system') : ConnectionStep system system' := by
  unfold NativeConnection.Step step at hs
  cases lb with
  | beginCallback cg =>
    dsimp only at hs
    split at hs
    · cases hs
      exact .unchanged
    case h_2 hbegin =>
      cases hs
      exact .begun hbegin
  | releaseLease ls =>
    obtain ⟨o, ho, hs⟩ := bind_eq_some_iff.mp hs
    cases hs
    exact .released ho
  | beginClosing =>
    cases hs
    exact .closing
  | markDisconnected =>
    dsimp only at hs
    split at hs
    · cases hs
      exact .unchanged
    case h_2 hmark =>
      cases hs
      exact .disconnected hmark
  | acceptFetch ca s ls =>
    exact connectionStep_of_bind hs fun _ ho hl => .boundFetch ho hl _ _
  | acceptPreflight ca s ls =>
    exact connectionStep_of_bind hs fun _ ho hl => .boundPreflight ho hl _ _
  | fetch ix m =>
    obtain ⟨request, hg, hs⟩ := bind_eq_some_iff.mp hs
    obtain ⟨r', ha, hs⟩ := bind_eq_some_iff.mp hs
    cases hs
    exact .movedFetch hg (fetch_advance_frame ha).2.1 fun hk => hk.advance ha
  | cancelByPlatform ix att =>
    obtain ⟨request, hg, hs⟩ := bind_eq_some_iff.mp hs
    cases hs
    obtain ⟨hls, hst, hat, -⟩ := cancelByPlatform_frame request att
    refine .movedFetch hg hls fun hk =>
      ⟨fun hn => (hk.sound (hat ▸ hn)).cancel att, ?_⟩
    rw [hls, hst]
    exact hk.live
  | cancelByWatchdog ix =>
    obtain ⟨request, hg, hs⟩ := bind_eq_some_iff.mp hs
    cases hs
    exact .movedFetch hg rfl fun hk => ⟨fun hn => (hk.sound hn).timeOut, hk.live⟩
  | releaseFetch ix =>
    obtain ⟨request, hg, hs⟩ := bind_eq_some_iff.mp hs
    split at hs
    case h_1 hst =>
      cases hs
      exact .settledFetch hg hst
    case h_2 => cases hs
  | preflight ix m =>
    obtain ⟨request, hg, hs⟩ := bind_eq_some_iff.mp hs
    obtain ⟨r', ha, hs⟩ := bind_eq_some_iff.mp hs
    cases hs
    exact .movedPreflight hg (preflight_advance_frame ha).1 fun hk => hk.advance ha
  | releasePreflight ix =>
    obtain ⟨request, hg, hs⟩ := bind_eq_some_iff.mp hs
    split at hs
    case h_1 hst =>
      cases hs
      exact .settledPreflight hg hst
    case h_2 => cases hs
structure ConnectionInvariant (system : NativeConnection) : Prop where
  follows : Follows system.session system.closing system.disconnected system.live
  fetches : ∀ request ∈ system.fetches, FetchKept request
  preflights : ∀ request ∈ system.preflights, PreflightKept request
namespace ConnectionInvariant
variable {s s' : NativeConnection}
lemma initial (g : SessionGeneration) : ConnectionInvariant (.initial g) where
  follows := .new g
  fetches := by simp [NativeConnection.initial]
  preflights := by simp [NativeConnection.initial]
lemma follows_of_live (h : ConnectionInvariant s) {lv : ℕ} (hl : lv = s.live) :
    Follows s.session s.closing s.disconnected lv :=
  hl ▸ h.follows
/-- **A release** of a lease that was counted takes it out of the count. -/
lemma follows_release (h : ConnectionInvariant s) {ls : WindowsCallbackLease} {lv : ℕ}
    (hl : lv + (if ls.live = true then 1 else 0) = s.live) :
    Follows (ls.releaseInner s.session).2 s.closing s.disconnected lv :=
  .releaseInner (h.follows_of_live hl)
/-- **Every step** keeps the invariant. -/
theorem step (h : ConnectionInvariant s) {label : ConnectionLabel}
    (hst : NativeConnection.Step s label s') : ConnectionInvariant s' := by
  cases connectionStep_of_step hst with
  | unchanged => exact h
  | @begun _ lease session hb =>
    obtain ⟨-, hl, hf⟩ := h.follows.beginCallback hb
    refine ⟨?_, h.fetches, h.preflights⟩
    have hcount : live { s with session, leases := s.leases ++ [lease] } = s.live + 1 := by
      rw [live, live]
      dsimp only
      rw [countP_append, countP_singleton, if_pos hl]
      omega
    rw [hcount]
    exact hf
  | @released lease owned ho =>
    refine ⟨h.follows_release ?_, h.fetches, h.preflights⟩
    have hcount := countP_set_add (p := WindowsCallbackLease.live) ho (owned.releaseInner s.session).1
    rw [live_releaseInner, if_neg Bool.false_ne_true] at hcount
    simp only [live]
    omega
  | closing => exact ⟨h.follows.beginClosing, h.fetches, h.preflights⟩
  | disconnected hm => exact ⟨h.follows.markDisconnected hm, h.fetches, h.preflights⟩
  | @boundFetch lease owned ho hl authority snapshot =>
    have hcount := countP_eraseIdx_add (p := WindowsCallbackLease.live) ho
    rw [if_pos hl] at hcount
    refine ⟨h.follows_of_live ?_, forall_mem_concat h.fetches ⟨?_, ?_⟩, h.preflights⟩
    · have hnew : (WindowsFetchDataRequest.new authority snapshot owned).lease.live = true := hl
      simp only [live, countP_append, countP_singleton, if_pos hnew]
      omega
    · rintro ⟨⟩
      exact .new snapshot owned
    · refine ⟨fun _ hs => ?_, fun _ => hl⟩
      cases hs
  | @boundPreflight lease owned ho hl authority snapshot =>
    have hcount := countP_eraseIdx_add (p := WindowsCallbackLease.live) ho
    rw [if_pos hl] at hcount
    refine ⟨h.follows_of_live ?_, h.fetches, forall_mem_concat h.preflights ⟨?_, ?_⟩⟩
    · have hnew : (WindowsPreflightRequest.new authority snapshot owned).lease.live = true := hl
      simp only [live, countP_append, countP_singleton, if_pos hnew]
      omega
    · rintro ⟨⟩
      exact .new snapshot owned
    · refine ⟨fun _ hs => ?_, fun _ => hl⟩
      cases hs
  | @movedFetch index request request' hg hls hk =>
    refine ⟨h.follows_of_live ?_,
      forall_mem_set h.fetches (hk (h.fetches request (mem_of_getElem? hg))), h.preflights⟩
    have hcount := countP_set_add (p := fun request : WindowsFetchDataRequest => request.lease.live) hg request'
    rw [hls] at hcount
    rw [live, live, Nat.add_right_cancel hcount]
  | @movedPreflight index request request' hg hls hk =>
    refine ⟨h.follows_of_live ?_, h.fetches,
      forall_mem_set h.preflights (hk (h.preflights request (mem_of_getElem? hg)))⟩
    have hcount := countP_set_add (p := fun request : WindowsPreflightRequest => request.lease.live) hg request'
    rw [hls] at hcount
    rw [live, live, Nat.add_right_cancel hcount]
  | @settledFetch index request hg hs =>
    have hk := h.fetches request (mem_of_getElem? hg)
    refine ⟨h.follows_release ?_, forall_mem_set h.fetches (hk.settled hs _), h.preflights⟩
    have hcount := countP_set_add (p := fun request : WindowsFetchDataRequest => request.lease.live) hg
      { request with lease := (request.lease.releaseInner s.session).1, stage := .settled }
    rw [live_releaseInner, if_neg Bool.false_ne_true] at hcount
    simp only [live]
    omega
  | @settledPreflight index request hg hs =>
    have hk := h.preflights request (mem_of_getElem? hg)
    refine ⟨h.follows_release ?_, h.fetches, forall_mem_set h.preflights (hk.settled hs _)⟩
    have hcount := countP_set_add (p := fun request : WindowsPreflightRequest => request.lease.live) hg
      { request with lease := (request.lease.releaseInner s.session).1, stage := .settled }
    rw [live_releaseInner, if_neg Bool.false_ne_true] at hcount
    simp only [live]
    omega
theorem of_reachable {g : SessionGeneration} (h : NativeConnection.ReachableFrom g s) : ConnectionInvariant s := by
  refine h.induction ?_ ?_
  · rintro _ rfl
    exact .initial g
  · intro _ _ _ _ hi hs
    exact hi.step hs
end ConnectionInvariant
/-! ## The lifecycle -/
/-- **The state only advances**, by any step. -/
theorem lifecycleRank_step (hs : NativeConnection.Step system lb system') :
    lifecycleRank system.session.state ≤ lifecycleRank system'.session.state := by
  cases connectionStep_of_step hs with
  | begun hb =>
    obtain ⟨-, -, -, rfl⟩ := beginCallback_eq_ok hb
    exact le_rfl
  | closing => exact lifecycleRank_beginClosing system.session
  | disconnected hm => exact lifecycleRank_markDisconnected hm
  | released | settledFetch | settledPreflight => exact lifecycleRank_releaseInner _ system.session
  | _ => exact le_rfl
structure ConnectionContract (system : NativeConnection) : Prop where
  /-- The count is that of the live leases. -/
  active : system.session.activeCallbacks = system.live
  draining : system.session.state = .draining → 0 < system.live
  closed : system.session.state = .closed → system.live = 0
  /-- Once the disconnect is recorded, the connection is closed as soon as no lease is left. -/
  lastRelease : system.disconnected = true → system.live = 0 → system.session.state = .closed
  /-- No callback is accepted once closing has begun. -/
  refused : system.closing = true → ∀ callbackGeneration accepted,
    system.session.beginCallback callbackGeneration ≠ .ok accepted
  /-- Nor one of another generation. -/
  stale : ∀ callbackGeneration accepted,
    system.session.beginCallback callbackGeneration = .ok accepted →
      callbackGeneration = system.session.generation
  advances : ∀ label system', NativeConnection.Step system label system' →
    lifecycleRank system.session.state ≤ lifecycleRank system'.session.state
  /-- A preflight is answered at most once, and settled only with an answer. -/
  preflights : ∀ request ∈ system.preflights, request.completionAuthority = .native →
    request.answers.length ≤ 1 ∧ (request.stage = .settled → request.answers.length = 1)
/-- What is promised of a fetch: one answer in the end, at most one at any time, and none if the platform's
cancellation won. -/
structure AnsweredOnce (request : WindowsFetchDataRequest) : Prop where
  atMostOne : request.answers.length ≤ 1
  cancelled : request.platformWon = true → request.answers = []
  settled : request.stage = .settled → request.platformWon = false → request.answers.length = 1
theorem ConnectionInvariant.contract {system : NativeConnection} (h : ConnectionInvariant system) :
    ConnectionContract system where
  active := h.follows.active
  draining hstate := Nat.pos_of_ne_zero (h.follows.draining_iff.mp hstate).2
  closed hstate := (h.follows.closed_iff.mp hstate).2
  lastRelease hdisc hlive := h.follows.closed_iff.mpr ⟨hdisc, hlive⟩
  refused := by
    rintro hc cg ⟨ls, s⟩ hb
    rw [(h.follows.beginCallback hb).1] at hc
    cases hc
  stale := by
    rintro cg ⟨ls, s⟩ hb
    exact (beginCallback_eq_ok hb).1
  advances _ _ hstep := lifecycleRank_step hstep
  preflights := by
    intro request hm hn
    have hsound := (h.preflights request hm).sound hn
    refine ⟨?_, fun hs => hsound.answered (hsound.ended (.inr hs))⟩
    cases hack : request.acknowledged with
    | false =>
      rw [hsound.unanswered hack]
      exact Nat.zero_le _
    | true => exact (hsound.answered hack).le
lemma FetchSound.answeredOnce (h : FetchSound request)
    (hf : request.snapshot.Failable) : AnsweredOnce request where
  atMostOne := h.atMostOne
  cancelled hwon := by
    refine h.unanswered ?_
    rw [h.won.mp hwon]
    decide
  settled hsettl hnotWon := by
    have hended : request.stage.phase = .ended := by
      rw [hsettl]
      rfl
    have hexec : request.stage.phase ≠ .executing := by
      rw [hended]
      decide
    rcases h.ended hended with ha | hc
    · exact h.answered ha hexec hf
    · rw [h.won.mpr hc] at hnotWon
      cases hnotWon
/-! ## Requests get to their end -/
variable (system : NativeConnection)
/-- **A fetch can always be brought to its end** by its owner. -/
theorem fetch_settles {ix : ℕ} (hg : system.fetches[ix]? = some request) :
    ∃ lb system' r', Run NativeConnection.Step system lb system' ∧
      system'.fetches[ix]? = some r' ∧ r'.stage = .settled := by
  refine Run.exists_done fetches (fun r => r.stage.rank) (fun s r hr hopen => ?_) hg
  by_cases hrel : r.stage = .releasing
  · refine ⟨.releaseFetch ix, { s with
        session := (r.lease.releaseInner s.session).2
        fetches := s.fetches.set ix
          { r with lease := (r.lease.releaseInner s.session).1, stage := .settled } },
      _, ?_, rfl, ?_⟩
    · simp [NativeConnection.Step, step, hr, hrel]
    · simp [hrel, FetchStage.rank]
  · obtain ⟨m, r', hm⟩ := fetch_advance_enabled r hrel hopen
    refine ⟨.fetch ix m, { s with fetches := s.fetches.set ix r' }, r', ?_, rfl, fetch_advance_rank hm⟩
    simp [NativeConnection.Step, step, hr, hm]

/-- **A preflight can always be brought to its end** by its owner. -/
theorem preflight_settles {ix : ℕ} {rq : WindowsPreflightRequest} (hg : system.preflights[ix]? = some rq) :
    ∃ lb system' r', Run NativeConnection.Step system lb system' ∧
      system'.preflights[ix]? = some r' ∧ r'.stage = .settled := by
  refine Run.exists_done preflights (fun r => r.stage.rank) (fun s r hr hopen => ?_) hg
  by_cases hrel : r.stage = .releasing
  · refine ⟨.releasePreflight ix, { s with
        session := (r.lease.releaseInner s.session).2
        preflights := s.preflights.set ix
          { r with lease := (r.lease.releaseInner s.session).1, stage := .settled } },
      _, ?_, rfl, ?_⟩
    · simp [NativeConnection.Step, step, hr, hrel]
    · simp [hrel, PreflightStage.rank]
  · obtain ⟨m, r', hm, hless⟩ := preflight_advance_enabled r hrel hopen
    refine ⟨.preflight ix m, { s with preflights := s.preflights.set ix r' }, r', ?_, rfl, hless⟩
    simp [NativeConnection.Step, step, hr, hm]

/-! ## The fetch that nobody answers -/
/-- A fetch without a range to fail that is dropped by its holder: the drop wins the gate, the completing
function gives up, and nothing is answered. -/
lemma unanswered_run {s : WindowsFetchDataSnapshot} (h : ¬ s.Failable) :
    ∃ system, NativeConnection.ReachableFrom s.info.generation system ∧ ∃ request ∈ system.fetches,
      request.snapshot = s ∧ request.completionAuthority = .native ∧ request.stage = .settled ∧
        request.platformWon = false ∧ request.answers = [] := by
  set generation := s.info.generation with hgen
  set pending : PendingCompletion := ⟨.failure .providerTerminated, .ok (), true⟩ with hpend
  set session : WindowsConnectionSession := ⟨generation, .accepting, 1⟩ with hsess
  set request : WindowsFetchDataRequest := .new .native s ⟨false⟩ with hreq
  have hacc : NativeConnection.Step (.initial generation) (.beginCallback generation)
      ⟨session, [⟨false⟩], [], [], false, false⟩ := by
    have hfits : 0 + 1 ≤ usizeMax := by decide
    simp [NativeConnection.Step, NativeConnection.step, NativeConnection.initial, WindowsConnectionSession.new,
      WindowsConnectionSession.beginCallback, hfits, hsess]
  have hbound : NativeConnection.Step ⟨session, [⟨false⟩], [], [], false, false⟩
      (.acceptFetch .native s 0) ⟨session, [], [request], [], false, false⟩ := by
    simp [NativeConnection.Step, NativeConnection.step, NativeConnection.bind, validateRequestGeneration,
      WindowsCallbackLease.live, hsess, hreq, hgen]
  have haband : NativeConnection.Step ⟨session, [], [request], [], false, false⟩ (.fetch 0 .abandon)
      ⟨session, [], [{ request with stage := .dropping }], [], false, false⟩ := rfl
  have hdrop : NativeConnection.Step ⟨session, [], [{ request with stage := .dropping }], [], false, false⟩
      (.fetch 0 .next)
      ⟨session, [], [{ request with stage := .beginning pending .fromPending }], [], false, false⟩ := rfl
  have hwon : NativeConnection.Step
      ⟨session, [], [{ request with stage := .beginning pending .fromPending }], [], false, false⟩
      (.fetch 0 .next)
      ⟨session, [], [{ request with terminal := .nativeAttempted, stage := .executing pending }], [], false,
        false⟩ := rfl
  have hgivenUp : NativeConnection.Step
      ⟨session, [], [{ request with terminal := .nativeAttempted, stage := .executing pending }], [], false,
        false⟩ (.fetch 0 (.execute (.ok ())))
      ⟨session, [], [{ request with terminal := .nativeAttempted, stage := .releasing }], [], false, false⟩ := by
    have hop := operation_failure_of_not_failable h .providerTerminated
    simp [NativeConnection.Step, NativeConnection.step, WindowsFetchDataRequest.advance,
      WindowsFetchDataRequest.execute, hpend, hreq, WindowsFetchDataRequest.new, hop,
      WindowsFetchDataRequest.finish]
  have hrel : NativeConnection.Step
      ⟨session, [], [{ request with terminal := .nativeAttempted, stage := .releasing }], [], false, false⟩
      (.releaseFetch 0)
      ⟨{ session with activeCallbacks := 0 }, [], [{ request with
        lease := ⟨true⟩, terminal := .nativeAttempted, stage := .settled }], [], false, false⟩ := rfl
  have hrun := Run.cons hacc (.cons hbound (.cons haband (.cons hdrop (.cons hwon (.cons hgivenUp
    (.cons hrel (.nil _)))))))
  exact ⟨_, ⟨_, _, rfl, hrun⟩, _, mem_singleton_self _, rfl, rfl, rfl, rfl, rfl⟩
def fetchedItem : CloudItemKey := ⟨⟨⟨"n", by decide⟩, ⟨"r", by decide⟩⟩, ⟨"i", by decide⟩⟩
def fetchedIdentity : WindowsFileIdentity where
  bytes := [0x41, 0x46, 0x43, 0x46, 1, 1, 0, 0, 0, 1, 0, 0, 0, 1, 0, 0, 0, 0x6e, 0x72, 0x69]
  size := by decide
  decodes := ⟨fetchedItem, decodeBytes_of_encodeBytes (by rfl)⟩
/-- A fetch of everything from the end of a file of 4096 bytes on. -/
def fetchAtEof : WindowsFetchDataSnapshot where
  info := { generation := firstGeneration, connectionKey := 1, transferKey := 1, requestKey := 1, fileId := 1
            fileSize := 4096, fileIdentity := fetchedIdentity, fileSize_le := by decide }
  requiredRange := ⟨4096, .toEnd, by decide, by simp⟩
/-! ## The contract -/
/-- **The connection and the answers of its requests.**  In every state a connection reaches, the count is
that of the live leases, the lifecycle is where it should be and no step takes it back, no callback is
accepted that must not be, and every preflight is answered once; every request can be brought to its end;
and the fetches that are answered once in every run, unless the platform's cancellation wins, are those whose
failure can be reported. -/
theorem connection_single_answer (generation : SessionGeneration) (system : NativeConnection) (index : ℕ)
    (snapshot : WindowsFetchDataSnapshot) :
    (NativeConnection.ReachableFrom generation system → ConnectionContract system) ∧
      ((∀ request, system.fetches[index]? = some request → ∃ labels system' request',
          Run NativeConnection.Step system labels system' ∧ system'.fetches[index]? = some request' ∧
            request'.stage = .settled) ∧
        (∀ request, system.preflights[index]? = some request → ∃ labels system' request',
          Run NativeConnection.Step system labels system' ∧ system'.preflights[index]? = some request' ∧
            request'.stage = .settled)) ∧
      ((∀ reached, NativeConnection.ReachableFrom snapshot.info.generation reached →
          ∀ request ∈ reached.fetches, request.snapshot = snapshot → request.completionAuthority = .native →
          AnsweredOnce request) ↔
        (snapshot.requiredRange.length = .toEnd → snapshot.requiredRange.offset < snapshot.info.fileSize)) := by
  refine ⟨fun hr => (ConnectionInvariant.of_reachable hr).contract,
    ⟨fun _ => fetch_settles system, fun _ => preflight_settles system⟩, ?_⟩
  constructor
  · intro ha
    by_contra hf
    obtain ⟨reached, hr, request, hm, hsn, hn, hs, hnw, he⟩ :=
      unanswered_run hf
    have hone := (ha reached hr request hm hsn hn).settled hs hnw
    rw [he] at hone
    cases hone
  · rintro hf reached hr request hm rfl hn
    have hkept := (ConnectionInvariant.of_reachable hr).fetches request hm
    exact (hkept.sound hn).answeredOnce hf
/-- The fetch that starts at the end of its file: dropped, it is settled without an answer. -/
theorem fetch_at_eof_counterexample :
    ¬ ∀ generation system, NativeConnection.ReachableFrom generation system → ConnectionContract system ∧
      ∀ request ∈ system.fetches, request.completionAuthority = .native → AnsweredOnce request := by
  intro hc
  have hfailable : ¬ fetchAtEof.Failable := by
    intro h
    exact absurd (h rfl) (Nat.lt_irrefl 4096)
  obtain ⟨system, hr, request, hm, -, hn, hs, hnw, he⟩ := unanswered_run hfailable
  have hone := ((hc _ system hr).2 request hm hn).settled hs hnw
  rw [he] at hone
  cases hone
end AsterForge.Windows
