import AsterForge.Db.ScheduledFiring

/-!
# Calls of the store that nothing disturbs

The store of scheduled tasks as a runtime sees it when the database answers every statement and nothing comes
between the statements of one call: a call is then one step from a table to a table with an answer.  This is
the store that the exclusion of scheduled tasks is about; what other callers may do between two statements is
in the modules before.

* **`claimScheduledTask_cases`** — a claim is granted where no fresh one is, or nothing happens.
* **`renewScheduledTaskClaim_cases`**, **`completeScheduledTask_held`** — what the holder of a claim gets.
-/

namespace AsterForge.Db

open Library ScheduledCall Function Table

/-! ## Whole calls -/

section

variable (duplicateKey : Text → DbErr)

/-- Executes the statements of a call one after the other, at most as many as given. -/
def settle : ℕ → ScheduledTaskTable → ScheduledCall ⊕ ScheduledAnswer →
    ScheduledTaskTable × Option ScheduledAnswer
  | _, table, .inr answer => (table, some answer)
  | 0, table, .inl _ => (table, none)
  | fuel + 1, table, .inl call =>
    settle fuel (call.run duplicateKey table .answered).1 (call.run duplicateKey table .answered).2

variable (table : ScheduledTaskTable)

/-- Puts a task of the catalogue into the table, undisturbed by others. -/
def ensureScheduledTask (entry : ScheduledTaskCatalogEntry) : ScheduledTaskTable × Option ScheduledAnswer :=
  settle duplicateKey 4 table (ensureTask entry)

/-- Claims a task that is due, or whose claim has expired. -/
def claimScheduledTask (request : ScheduledTaskClaimRequest) : ScheduledTaskTable × Option ScheduledAnswer :=
  settle duplicateKey 4 table (claimDue request)

/-- Sets a new expiry for a claim that the row still has. -/
def renewScheduledTaskClaim (renewal : ScheduledTaskClaimRenewal) :
    ScheduledTaskTable × Option ScheduledAnswer :=
  settle duplicateKey 4 table (renewClaim renewal)

/-- Ends a claim that the row still has. -/
def completeScheduledTask (completion : ScheduledTaskCompletion) :
    ScheduledTaskTable × Option ScheduledAnswer :=
  settle duplicateKey 4 table (completeClaim completion)

end

variable {dk : Text → DbErr} {t : ScheduledTaskTable}

/-! ## Claims in rows

A claim is in the row of its task: its owner, the instant it was taken at, and when it expires.  Whoever has the
claim can say what the row holds. -/

/-- The row of the task is under the claim, which expires then. -/
def UnderClaim (table : ScheduledTaskTable) (claim : ScheduledTaskClaim) (expiresAt : ℤ) : Prop :=
  ∃ model, table claim.taskId = some model ∧ currentFor claim model = true ∧
    model.claimExpiresAt = some expiresAt

/-- Rows stay under their claims, with the same expiry. -/
def KeepsClaims (table table' : ScheduledTaskTable) : Prop :=
  ∀ claim expiresAt, UnderClaim table claim expiresAt → UnderClaim table' claim expiresAt

/-- The rows of all other tasks are as they were. -/
def SameElsewhere (taskId : Text) (table table' : ScheduledTaskTable) : Prop :=
  ∀ other, other ≠ taskId → table' other = table other

variable {cl : ScheduledTaskClaim} {expiresAt : ℤ} {t' t'' : ScheduledTaskTable}

lemma KeepsClaims.refl (tb : ScheduledTaskTable) : KeepsClaims tb tb := fun _ _ hh => hh

lemma KeepsClaims.trans (h : KeepsClaims t t') (h' : KeepsClaims t' t'') :
    KeepsClaims t t'' := fun cl expiresAt hh => h' cl expiresAt (h cl expiresAt hh)

lemma sameElsewhere_update (tb : ScheduledTaskTable) (ti : Text) (row : Option ScheduledTaskModel) :
    SameElsewhere ti tb (update tb ti row) := by
  intro o ho
  rw [update_of_ne ho]

lemma SameElsewhere.held {ti : Text} (hs : SameElsewhere ti t t')
    (ho : cl.taskId ≠ ti) (hh : UnderClaim t cl expiresAt) : UnderClaim t' cl expiresAt := by
  obtain ⟨model, hr, hc, he⟩ := hh
  exact ⟨model, (hs _ ho).trans hr, hc, he⟩

variable {model : ScheduledTaskModel} {now : ℤ} {rq : ScheduledTaskClaimRequest}

/-- The row that is put under a claim is under it. -/
lemma held_update (hc : currentFor cl model = true) (he : model.claimExpiresAt = some expiresAt) :
    UnderClaim (update t cl.taskId (some model)) cl expiresAt :=
  ⟨model, update_self .., hc, he⟩

/-- A claim is fresh until it expires. -/
lemma UnderClaim.fresh (hh : UnderClaim t cl expiresAt)
    (hr : t cl.taskId = some model) (hl : now < expiresAt) : isClaimFresh model now = true := by
  obtain ⟨m', hr', hc, he⟩ := hh
  cases hr.symm.trans hr'
  obtain ⟨ho, -⟩ := of_decide_eq_true hc
  unfold isClaimFresh
  rw [ho, he]
  exact decide_eq_true hl

/-- A row has one expiry. -/
lemma UnderClaim.unique {ea' : ℤ} (h : UnderClaim t cl expiresAt) (h' : UnderClaim t cl ea') :
    expiresAt = ea' := by
  obtain ⟨model, hr, -, he⟩ := h
  obtain ⟨m', hr', -, he'⟩ := h'
  cases hr.symm.trans hr'
  exact Option.some.inj (he.symm.trans he')

/-! ## The catalog

Entries of the catalog become rows, and rows get the names of their entries; neither has to do with claims. -/

/-- The statements that look after the catalog. -/
def ScheduledCall.Ensures : ScheduledCall → Prop
  | .inserting .. | .finding .. | .updating .. | .rereading _ => True
  | .looking .. | .claiming .. | .renewing .. | .completing _ => False

lemma insertTask_keeps (e : ScheduledTaskCatalogEntry) (ti : Text) : KeepsClaims t (insertTask dk t e ti).1 := by
  unfold insertTask
  split
  case h_1 t' hins =>
    obtain ⟨ha, rfl⟩ := insertRow_eq_some hins
    intro cl expiresAt hh
    refine (sameElsewhere_update t ti _).held ?_ hh
    obtain ⟨model, hr, -⟩ := hh
    intro hs
    rw [hs, ha] at hr
    cases hr
  case h_2 => exact .refl t

lemma renameTask_keeps (e : ScheduledTaskCatalogEntry) (ti : Text) : KeepsClaims t (renameTask t e ti).1 := by
  unfold renameTask
  obtain ⟨model, hr, -, hu⟩ | ⟨-, hu⟩ := updateWhere_cases t ti (fun _ => true)
    fun model => { model with displayName := e.displayName, updatedAt := e.firstRunAt }
  · rw [hu]
    intro cl expiresAt hh
    by_cases hsame : cl.taskId = ti
    · obtain ⟨m', hr', hc, he⟩ := hh
      subst hsame
      cases hr.symm.trans hr'
      exact held_update hc he
    · exact (sameElsewhere_update t ti _).held hsame hh
  · rw [hu]
    exact .refl t

/-- **One statement** for the catalog leaves every claim alone, and another one for the catalog comes next. -/
theorem ScheduledCall.Ensures.run {c : ScheduledCall} (h : c.Ensures) :
    KeepsClaims t (c.run dk t .answered).1 ∧ ∀ next, (c.run dk t .answered).2 = .inl next → next.Ensures := by
  constructor
  · cases c with
    | inserting e ti => exact insertTask_keeps e ti
    | finding e ti ie => exact .refl t
    | updating e ti => exact renameTask_keeps e ti
    | rereading ti => exact .refl t
    | looking rq ti => cases h
    | claiming rq ti ex cea => cases h
    | renewing r cea => cases h
    | completing cm => cases h
  · intro next hn
    cases run_goesOn hn with
    | find e ti ie => trivial
    | rename e ti ie => trivial
    | reread e ti => trivial
    | claim rq ti ex cea => cases h

/-- Calls of such statements only leave every claim alone; the induction is on the statements left. -/
lemma settle_keeps (f : ℕ) (tb : ScheduledTaskTable) (s : ScheduledCall ⊕ ScheduledAnswer)
    (he : ∀ c, s = .inl c → c.Ensures) : KeepsClaims tb (settle dk f tb s).1 := by
  induction f generalizing tb s with
  | zero =>
    cases s with
    | inl c => exact .refl tb
    | inr a => exact .refl tb
  | succ f ih =>
    cases s with
    | inl c =>
      obtain ⟨hk, hn⟩ := @ScheduledCall.Ensures.run dk tb c (he c rfl)
      exact hk.trans (ih _ _ hn)
    | inr a => exact .refl tb

/-- **Looking after the catalog** leaves every claim alone. -/
theorem ensureScheduledTask_keeps (d : Text → DbErr) (tb : ScheduledTaskTable)
    (e : ScheduledTaskCatalogEntry) : KeepsClaims tb (ensureScheduledTask d tb e).1 := by
  refine settle_keeps 4 tb _ ?_
  intro c hs
  unfold ensureTask at hs
  split at hs
  case h_1 =>
    cases hs
    trivial
  case h_2 => cases hs

/-! ## Claims

A claim looks at the row first, and asks again in its update; undisturbed, both see the same row. -/

/-- What the look has found claimable, the update does too. -/
lemma claimable_of_looked {e : ScheduledTaskModel}
    (hd : ¬ rq.now < e.nextRunAt) (hs : ¬ isClaimFresh e rq.now = true) : claimable rq e e = true := by
  refine decide_eq_true ⟨rfl, not_lt.mp hd, ?_⟩
  cases howner : e.claimOwnerId with
  | none => exact .inl rfl
  | some oi =>
    cases hexp : e.claimExpiresAt with
    | none => exact .inr (.inl rfl)
    | some expiresAt =>
      refine .inr (.inr ⟨expiresAt, rfl, ?_⟩)
      unfold isClaimFresh at hs
      rw [howner, hexp] at hs
      exact not_lt.mp fun hl => hs (decide_eq_true hl)

/-- A claim that was granted: the request is valid, no fresh claim was in the way, and the row of the task, and
no other, is under the claim now. -/
structure ClaimGranted (table table' : ScheduledTaskTable) (request : ScheduledTaskClaimRequest)
    (claim : ScheduledTaskClaim) : Prop where
  taskId : claim.taskId = taskKey request.taskNamespace request.taskName
  ownerId : claim.ownerId = request.ownerId
  valid : validateClaimRequest request = .ok ()
  stale : ∀ model, table claim.taskId = some model → isClaimFresh model request.now = false
  held : ∃ expiresAt, claimExpiry request.now request.claimTtl = .ok expiresAt ∧
    UnderClaim table' claim expiresAt
  elsewhere : SameElsewhere claim.taskId table table'

/-- **A claim** is granted, or nothing happens. -/
theorem claimScheduledTask_cases (d : Text → DbErr) (tb : ScheduledTaskTable)
    (request : ScheduledTaskClaimRequest) :
    (∃ cl, (claimScheduledTask d tb request).2 = some (.claimed (.ok (some cl))) ∧
      ClaimGranted tb (claimScheduledTask d tb request).1 request cl) ∨
    ((claimScheduledTask d tb request).1 = tb ∧
      ∀ cl, (claimScheduledTask d tb request).2 ≠ some (.claimed (.ok (some cl)))) := by
  unfold claimScheduledTask claimDue
  split
  case h_2 error hinvalid => exact .inr ⟨rfl, by intro cl h; cases h⟩
  case h_1 taskId hid =>
    obtain ⟨⟨⟩, hv, hid⟩ := bind_eq_ok.mp hid
    have hkey := scheduledTaskRowId_eq_ok hid
    rw [settle, run, Prod.map_fst, Prod.map_snd, Fate.apply, findTask]
    dsimp only [id]
    unfold afterLook
    split
    case h_1 error hfail => exact .inr ⟨rfl, by intro cl h; cases h⟩
    case h_2 habs => exact .inr ⟨rfl, by intro cl h; cases h⟩
    case h_3 existing hfound =>
      have hrow : tb taskId = some existing := Except.ok.inj hfound
      by_cases hdue : request.now < existing.nextRunAt
      · rw [if_pos hdue]
        exact .inr ⟨rfl, by intro cl h; cases h⟩
      rw [if_neg hdue]
      by_cases hfresh : isClaimFresh existing request.now = true
      · rw [if_pos hfresh]
        exact .inr ⟨rfl, by intro cl h; cases h⟩
      rw [if_neg hfresh]
      split
      case h_1 error hover => exact .inr ⟨rfl, by intro cl h; cases h⟩
      case h_2 claimExpiresAt hexp =>
        rw [settle, run, claimTask, updateWhere_of_met hrow (claimable_of_looked hdue hfresh)]
        refine .inl ⟨claimOf request taskId existing claimExpiresAt, rfl, hkey, rfl, hv, ?_, ?_, ?_⟩
        · intro model hm
          cases hrow.symm.trans hm
          exact Bool.eq_false_iff.mpr hfresh
        · exact ⟨claimExpiresAt, hexp, held_update (decide_eq_true ⟨rfl, rfl⟩) rfl⟩
        · exact sameElsewhere_update tb taskId _

lemma claimExpiry_eq_ok {ea : ℤ} {ct : ℕ} (h : claimExpiry now ct = .ok ea) : ea = now + ct := by
  obtain ⟨ttl, hs, ha⟩ := bind_eq_ok.mp h
  unfold checkedSigned at hs
  unfold checkedAddSigned at ha
  split at hs
  case isTrue hfits =>
    cases hs
    split at ha
    case isTrue hbef =>
      cases ha
      rfl
    case isFalse => cases ha
  case isFalse => cases hs

/-- Who has a claim may renew it as far as its texts go. -/
lemma validateRenewal_of_granted (h : ClaimGranted t t' rq cl) (now : ℤ) :
    validateRenewal ⟨cl, now, rq.claimTtl⟩ = .ok () := by
  have hv := h.valid
  obtain ⟨⟨⟩, hn, hv⟩ := bind_eq_ok.mp hv
  obtain ⟨⟨⟩, hl, hv⟩ := bind_eq_ok.mp hv
  obtain ⟨⟨⟩, -, hv⟩ := bind_eq_ok.mp hv
  obtain ⟨⟨⟩, -, ht⟩ := bind_eq_ok.mp hv
  unfold validateRenewal
  rw [h.ownerId, hn, hl, ht]
  rfl

/-- **The holder of a claim** renews it, unless the store refuses the renewal for its text or its instant. -/
theorem renewScheduledTaskClaim_cases (d : Text → DbErr) (r : ScheduledTaskClaimRenewal)
    (hh : UnderClaim t r.claim expiresAt) :
    (∃ ea', validateRenewal r = .ok () ∧ claimExpiry r.now r.claimTtl = .ok ea' ∧
      (renewScheduledTaskClaim d t r).2 = some (.renewed (.ok true)) ∧
      UnderClaim (renewScheduledTaskClaim d t r).1 r.claim ea' ∧
      SameElsewhere r.claim.taskId t (renewScheduledTaskClaim d t r).1) ∨
    (∃ e, renewScheduledTaskClaim d t r = (t, some (.renewed (.error e))) ∧
      ∀ ea', validateRenewal r = .ok () → claimExpiry r.now r.claimTtl ≠ .ok ea') := by
  unfold renewScheduledTaskClaim renewClaim
  split
  case h_1 ea' hstart =>
    obtain ⟨⟨⟩, hv, he⟩ := bind_eq_ok.mp hstart
    obtain ⟨model, hr, hc, hex⟩ := hh
    rw [settle, run, renewTask, updateWhere_of_met hr hc]
    exact .inl ⟨ea', hv, he, rfl, held_update hc rfl, sameElsewhere_update t _ _⟩
  case h_2 e hstart =>
    refine .inr ⟨e, rfl, ?_⟩
    intro ea' hv he
    rw [hv, he] at hstart
    cases hstart

/-- **The holder of a claim** completes it, if the task moves on. -/
theorem completeScheduledTask_held (d : Text → DbErr) (c : ScheduledTaskCompletion)
    (hh : UnderClaim t c.claim expiresAt) (hm : c.claim.scheduledAt < c.nextRunAt) :
    (completeScheduledTask d t c).2 = some (.completed (.ok true)) ∧
      SameElsewhere c.claim.taskId t (completeScheduledTask d t c).1 := by
  have hvalid : validateCompletion c = .ok () := refuse_of_not (not_le.mpr hm)
  obtain ⟨model, hr, hc, -⟩ := hh
  unfold completeScheduledTask completeClaim
  rw [hvalid]
  rw [settle, run, completeTask, updateWhere_of_met hr hc]
  exact ⟨rfl, sameElsewhere_update t _ _⟩

end AsterForge.Db
