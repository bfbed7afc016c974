import AsterForge.Db.Error
import AsterForge.Library.Runs
import AsterForge.Library.Table
import AsterForge.Runtime.Lease

/-!
# Runtime leases in a database

A lease is a row.  An acquisition is up to four statements with those of other owners between them: an
insertion, which fails where there is a row; a look at the row; an update of it, on condition that it is
still the owner's or expired; and another look at it.

* **`runtimeLease_refines`** — the database is an atomic lease register.
-/

namespace AsterForge.Db

open Library AsterForge.Runtime Function

/-! ## Rows and statements -/

/-- A row of `runtime_leases`, which its lease is the key of. -/
structure RuntimeLeaseModel where
  ownerId : Text
  expiresAt : ℤ
  lastRenewedAt : ℤ
  createdAt : ℤ
  updatedAt : ℤ

abbrev RuntimeLeaseTable := Table Text RuntimeLeaseModel

/-- The owner that `standby_from_model` names. -/
def RuntimeLeaseModel.owner (model : RuntimeLeaseModel) : RuntimeLeaseOwner :=
  ⟨model.ownerId, model.expiresAt⟩

def leaseRegister (table : RuntimeLeaseTable) : LeaseRegister :=
  fun leaseId => (table leaseId).map RuntimeLeaseModel.owner

section

variable (duplicateKey : Text → DbErr) (table : RuntimeLeaseTable)

/-- `INSERT`; how a database words that a key exists is left open. -/
def insertLease (claim : RuntimeLeaseClaim) : RuntimeLeaseTable × Except DbErr Unit :=
  match table.insertRow claim.leaseId ⟨claim.ownerId, claim.expiresAt, claim.now, claim.now, claim.now⟩ with
  | some table => (table, .ok ())
  | none => (table, .error (duplicateKey claim.leaseId))

def findLease (leaseId : Text) : RuntimeLeaseTable × Except DbErr (Option RuntimeLeaseModel) :=
  (table, .ok (table leaseId))

def ownerOrExpired (claim : RuntimeLeaseClaim) (model : RuntimeLeaseModel) : Bool :=
  model.ownerId = claim.ownerId ∨ model.expiresAt ≤ claim.now

def updateLease (claim : RuntimeLeaseClaim) : RuntimeLeaseTable × Except DbErr ℕ :=
  let updated := table.updateWhere claim.leaseId (ownerOrExpired claim) fun model =>
    { model with ownerId := claim.ownerId, expiresAt := claim.expiresAt, lastRenewedAt := claim.now
                 updatedAt := claim.now }
  (updated.1, .ok updated.2)

def renewLease (leaseId ownerId : Text) (now expiresAt : ℤ) : RuntimeLeaseTable × Except DbErr ℕ :=
  let updated := table.updateWhere leaseId (fun model => model.ownerId = ownerId) fun model =>
    { model with expiresAt := expiresAt, lastRenewedAt := now, updatedAt := now }
  (updated.1, .ok updated.2)

def releaseLease (leaseId ownerId : Text) : RuntimeLeaseTable × Except DbErr Unit :=
  (table.deleteWhere leaseId fun model => model.ownerId = ownerId, .ok ())

end

/-! ## Calls -/

inductive LeaseCall
  | inserting (claim : RuntimeLeaseClaim)
  | finding (claim : RuntimeLeaseClaim) (insertError : DbErr)
  | updating (claim : RuntimeLeaseClaim)
  | findingAgain (claim : RuntimeLeaseClaim)
  | renewing (leaseId ownerId : Text) (now expiresAt : ℤ)
  | releasing (leaseId ownerId : Text)

/-- What a call of the store returns. -/
inductive LeaseAnswer
  | acquire (answer : Except DbError RuntimeLeaseAcquire)
  | renew (answer : Except DbError Bool)
  | release (answer : Except DbError Unit)

def LeaseCall.claim : LeaseCall → Option RuntimeLeaseClaim
  | .inserting claim | .finding claim _ | .updating claim | .findingAgain claim => some claim
  | .renewing .. | .releasing .. => none

/-- How `try_acquire`, `renew` and `release` begin. -/
def LeaseCall.First : LeaseCall → Prop
  | .inserting _ | .renewing .. | .releasing .. => True
  | .finding .. | .updating _ | .findingAgain _ => False

def afterInsert (claim : RuntimeLeaseClaim) : Except DbErr Unit → LeaseCall ⊕ LeaseAnswer
  | .ok () => .inr (.acquire (.ok .acquired))
  | .error insertError => .inl (.finding claim insertError)

def afterFind (claim : RuntimeLeaseClaim) (insertError : DbErr) :
    Except DbErr (Option RuntimeLeaseModel) → LeaseCall ⊕ LeaseAnswer
  | .error error => .inr (.acquire (.error (.ofDbErr error)))
  | .ok none => .inr (.acquire (.error (.ofDbErr insertError)))
  | .ok (some existing) =>
    if existing.ownerId ≠ claim.ownerId ∧ claim.now < existing.expiresAt then
      .inr (.acquire (.ok (.standby (some existing.owner))))
    else .inl (.updating claim)

def afterUpdate (claim : RuntimeLeaseClaim) : Except DbErr ℕ → LeaseCall ⊕ LeaseAnswer
  | .error error => .inr (.acquire (.error (.ofDbErr error)))
  | .ok rowsAffected =>
    if rowsAffected = 1 then .inr (.acquire (.ok .acquired)) else .inl (.findingAgain claim)

def afterFindAgain : Except DbErr (Option RuntimeLeaseModel) → LeaseCall ⊕ LeaseAnswer
  | .error error => .inr (.acquire (.error (.ofDbErr error)))
  | .ok found => .inr (.acquire (.ok (.standby (found.map RuntimeLeaseModel.owner))))

def afterRenew : Except DbErr ℕ → LeaseCall ⊕ LeaseAnswer
  | .error error => .inr (.renew (.error (.ofDbErr error)))
  | .ok rowsAffected => .inr (.renew (.ok (rowsAffected = 1)))

def afterRelease : Except DbErr Unit → LeaseCall ⊕ LeaseAnswer
  | .error error => .inr (.release (.error (.ofDbErr error)))
  | .ok () => .inr (.release (.ok ()))

variable (duplicateKey : Text → DbErr)

def LeaseCall.run (table : RuntimeLeaseTable) (fate : Fate DbErr) :
    LeaseCall → RuntimeLeaseTable × (LeaseCall ⊕ LeaseAnswer)
  | .inserting claim => (fate.apply table (insertLease duplicateKey table claim)).map id (afterInsert claim)
  | .finding claim insertError =>
    (fate.apply table (findLease table claim.leaseId)).map id (afterFind claim insertError)
  | .updating claim => (fate.apply table (updateLease table claim)).map id (afterUpdate claim)
  | .findingAgain claim => (fate.apply table (findLease table claim.leaseId)).map id afterFindAgain
  | .renewing leaseId ownerId now expiresAt =>
    (fate.apply table (renewLease table leaseId ownerId now expiresAt)).map id afterRenew
  | .releasing leaseId ownerId =>
    (fate.apply table (releaseLease table leaseId ownerId)).map id afterRelease

/-- The table, and the calls that wait for a statement. -/
structure LeaseSystem where
  table : RuntimeLeaseTable
  calls : ℕ → Option LeaseCall

/-- What is seen of the calls. -/
inductive LeaseEvent
  | called (session : ℕ) (call : LeaseCall)
  | ran (session : ℕ) (call : LeaseCall) (next : LeaseCall ⊕ LeaseAnswer)

/-- Calls are made at any time, and their statements come in any order. -/
inductive LeaseStep : LeaseSystem → LeaseEvent → LeaseSystem → Prop
  | called {s : LeaseSystem} {session : ℕ} {call : LeaseCall} (idle : s.calls session = none)
      (first : call.First) :
      LeaseStep s (.called session call) { s with calls := update s.calls session (some call) }
  | ran {s : LeaseSystem} {session : ℕ} {call : LeaseCall} (pending : s.calls session = some call)
      (fate : Fate DbErr) :
      LeaseStep s (.ran session call (call.run duplicateKey s.table fate).2)
        ⟨(call.run duplicateKey s.table fate).1,
          update s.calls session (call.run duplicateKey s.table fate).2.getLeft?⟩

/-! ## The register behind the statements -/

/-- What the register does where a call gets on: what a call is told it did at that moment; where the answer
of a statement is lost, it may or may not have taken effect. -/
inductive Explains : LeaseEvent → List LeaseOp → Prop
  | called (session : ℕ) (call : LeaseCall) : Explains (.called session call) []
  | acquired {session : ℕ} {call : LeaseCall} {claim : RuntimeLeaseClaim} (of : call.claim = some claim) :
      Explains (.ran session call (.inr (.acquire (.ok .acquired)))) [.grant claim]
  | standby {session : ℕ} {call : LeaseCall} {claim : RuntimeLeaseClaim} (of : call.claim = some claim)
      (owner : Option RuntimeLeaseOwner) :
      Explains (.ran session call (.inr (.acquire (.ok (.standby owner))))) [.refuse claim.leaseId owner]
  | notAcquired {session : ℕ} {call : LeaseCall} {claim : RuntimeLeaseClaim} {ops : List LeaseOp}
      (of : call.claim = some claim) (error : DbError) (unknown : ops = [] ∨ ops = [.grant claim]) :
      Explains (.ran session call (.inr (.acquire (.error error)))) ops
  | goesOn {session : ℕ} {call next : LeaseCall} {claim : RuntimeLeaseClaim} {ops : List LeaseOp}
      (of : call.claim = some claim) (ofNext : next.claim = some claim)
      (unknown : ops = [] ∨ ops = [.grant claim]) : Explains (.ran session call (.inl next)) ops
  | renewed (session : ℕ) (leaseId ownerId : Text) (now expiresAt : ℤ) :
      Explains (.ran session (.renewing leaseId ownerId now expiresAt) (.inr (.renew (.ok true))))
        [.renew leaseId ownerId expiresAt]
  | notRenewed (session : ℕ) (leaseId ownerId : Text) (now expiresAt : ℤ) :
      Explains (.ran session (.renewing leaseId ownerId now expiresAt) (.inr (.renew (.ok false))))
        [.refuseRenewal leaseId ownerId]
  | renewalFailed (session : ℕ) (leaseId ownerId : Text) (now expiresAt : ℤ) (error : DbError)
      {ops : List LeaseOp} (unknown : ops = [] ∨ ops = [.renew leaseId ownerId expiresAt]) :
      Explains (.ran session (.renewing leaseId ownerId now expiresAt) (.inr (.renew (.error error)))) ops
  | released (session : ℕ) (leaseId ownerId : Text) {op : LeaseOp}
      (either : op = .release leaseId ownerId ∨ op = .ignoreRelease leaseId ownerId) :
      Explains (.ran session (.releasing leaseId ownerId) (.inr (.release (.ok ())))) [op]
  | releaseFailed (session : ℕ) (leaseId ownerId : Text) (error : DbError) {ops : List LeaseOp}
      (unknown : ops = [] ∨ ops = [.release leaseId ownerId]) :
      Explains (.ran session (.releasing leaseId ownerId) (.inr (.release (.error error)))) ops

/-- A renewal or a release on behalf of an owner that does not hold the lease. -/
def LeaseEvent.Foreign (table : RuntimeLeaseTable) : LeaseEvent → Prop
  | .ran _ (.renewing leaseId ownerId _ _) _ | .ran _ (.releasing leaseId ownerId) _ =>
    ¬ (leaseRegister table).HeldBy leaseId ownerId
  | _ => False

/-! ## What the statements do to the register -/

variable {duplicateKey} {tb : RuntimeLeaseTable}

@[simp] lemma leaseRegister_update (li : Text) (row : Option RuntimeLeaseModel) :
    leaseRegister (update tb li row) = update (leaseRegister tb) li (row.map RuntimeLeaseModel.owner) := by
  funext other
  by_cases hsame : other = li
  · rw [hsame, update_self, leaseRegister, update_self]
  · rw [update_of_ne hsame, leaseRegister, update_of_ne hsame]
    rfl

lemma heldBy_iff {li oi : Text} : (leaseRegister tb).HeldBy li oi ↔
    ∃ row, tb li = some row ∧ row.ownerId = oi := by
  unfold LeaseRegister.HeldBy leaseRegister
  constructor
  · rintro ⟨ea, hh⟩
    obtain ⟨row, hr, ho⟩ := Option.map_eq_some_iff.mp hh
    exact ⟨row, hr, congrArg RuntimeLeaseOwner.ownerId ho⟩
  · rintro ⟨row, hr, rfl⟩
    exact ⟨row.expiresAt, by rw [hr]; rfl⟩

lemma insertLease_cases (c : RuntimeLeaseClaim) : (∃ t', insertLease duplicateKey tb c = (t', .ok ()) ∧
      (leaseRegister tb).Step (.grant c) (leaseRegister t')) ∨
    ∃ e, insertLease duplicateKey tb c = (tb, .error e) := by
  unfold insertLease
  split
  case h_1 t' hins =>
    obtain ⟨ha, rfl⟩ := Table.insertRow_eq_some hins
    refine .inl ⟨_, rfl, ?_⟩
    rw [leaseRegister_update]
    refine .grant c ?_
    intro h hh
    rw [leaseRegister, ha] at hh
    cases hh
  case h_2 => exact .inr ⟨_, rfl⟩

lemma updateLease_cases (claim : RuntimeLeaseClaim) : (∃ table', updateLease tb claim = (table', .ok 1) ∧
      (leaseRegister tb).Step (.grant claim) (leaseRegister table')) ∨
    updateLease tb claim = (tb, .ok 0) := by
  unfold updateLease
  obtain ⟨row, hr, hm, hu⟩ | ⟨-, hu⟩ := Table.updateWhere_cases tb claim.leaseId
    (ownerOrExpired claim) fun model =>
      { model with ownerId := claim.ownerId, expiresAt := claim.expiresAt, lastRenewedAt := claim.now
                   updatedAt := claim.now }
  · rw [hu]
    refine .inl ⟨_, rfl, ?_⟩
    rw [leaseRegister_update]
    refine .grant claim ?_
    intro holder hh
    rw [leaseRegister, hr] at hh
    cases hh
    exact of_decide_eq_true hm
  · rw [hu]
    exact .inr rfl

lemma renewLease_cases (li oi : Text) (now ea : ℤ) : (∃ t', renewLease tb li oi now ea = (t', .ok 1) ∧
      (leaseRegister tb).Step (.renew li oi ea) (leaseRegister t')) ∨
    (renewLease tb li oi now ea = (tb, .ok 0) ∧ ¬ (leaseRegister tb).HeldBy li oi) := by
  unfold renewLease
  obtain ⟨row, hr, hm, hu⟩ | ⟨hun, hu⟩ := Table.updateWhere_cases tb li
    (fun m => m.ownerId = oi) fun m =>
      { m with expiresAt := ea, lastRenewedAt := now, updatedAt := now }
  · rw [hu]
    have ho : row.ownerId = oi := of_decide_eq_true hm
    refine .inl ⟨_, rfl, ?_⟩
    have hstep := LeaseRegister.Step.renew (heldBy_iff.mpr ⟨row, hr, ho⟩) ea
    rw [leaseRegister_update]
    rwa [← ho] at hstep ⊢
  · rw [hu]
    refine .inr ⟨rfl, fun hh => ?_⟩
    obtain ⟨row, hr, ho⟩ := heldBy_iff.mp hh
    exact of_decide_eq_false (hun row hr) ho

lemma releaseLease_cases (li oi : Text) : (∃ t', releaseLease tb li oi = (t', .ok ()) ∧
      (leaseRegister tb).Step (.release li oi) (leaseRegister t')) ∨
    (releaseLease tb li oi = (tb, .ok ()) ∧ ¬ (leaseRegister tb).HeldBy li oi) := by
  unfold releaseLease
  obtain ⟨row, hr, hm, hd⟩ | ⟨hu, hd⟩ := Table.deleteWhere_cases tb li fun m => m.ownerId = oi
  · rw [hd]
    refine .inl ⟨_, rfl, ?_⟩
    rw [leaseRegister_update]
    exact .release (heldBy_iff.mpr ⟨row, hr, of_decide_eq_true hm⟩)
  · rw [hd]
    refine .inr ⟨rfl, fun hh => ?_⟩
    obtain ⟨row, hr, ho⟩ := heldBy_iff.mp hh
    exact of_decide_eq_false (hu row hr) ho

/-! ## One statement -/

/-- What the register does behind a statement that leads from one table to another. -/
def Explained (table : RuntimeLeaseTable) (event : LeaseEvent) (table' : RuntimeLeaseTable) : Prop :=
  ∃ ops, Explains event ops ∧ Run LeaseRegister.Step (leaseRegister table) ops (leaseRegister table')

variable {ss : ℕ} {event : LeaseEvent} {s t : LeaseSystem}

lemma Explained.nothing (h : Explains event []) : Explained tb event tb :=
  ⟨[], h, .nil _⟩

lemma Explained.one {t' : RuntimeLeaseTable} {op : LeaseOp}
    (h : Explains event [op]) (hs : (leaseRegister tb).Step op (leaseRegister t')) : Explained tb event t' :=
  ⟨[op], h, .cons hs (.nil _)⟩

/-- **A statement is explained** if it is when it is executed, and when its client is told of an error,
whether it took effect or not. -/
lemma explained_statement {R : Type} {c : LeaseCall} {a : Except DbErr R → LeaseCall ⊕ LeaseAnswer}
    {d : RuntimeLeaseTable × Except DbErr R} (ex : Explained tb (.ran ss c (a d.2)) d.1)
    (f : ∀ e, Explains (.ran ss c (a (.error e))) [])
    (l : ∀ e, Explained tb (.ran ss c (a (.error e))) d.1) (ft : Fate DbErr) :
    let ran := (ft.apply tb d).map id a
    Explained tb (.ran ss c ran.2) ran.1 := by
  obtain hf | ⟨e, hf | hf⟩ := ft.apply_cases tb d
  · rw [hf]
    exact ex
  · rw [hf]
    exact .nothing (f e)
  · rw [hf]
    exact l e

open LeaseCall

lemma inserting_explained (c : RuntimeLeaseClaim) (f : Fate DbErr) :
    let ran := (inserting c).run duplicateKey tb f
    Explained tb (.ran ss (.inserting c) ran.2) ran.1 := by
  obtain ⟨t', hi, hg⟩ | ⟨ie, hi⟩ :=
    @insertLease_cases duplicateKey tb c
  · rw [run, hi]
    exact explained_statement (.one (.acquired rfl) hg) (fun _ => .goesOn rfl rfl (.inl rfl))
      (fun _ => .one (.goesOn rfl rfl (.inr rfl)) hg) f
  · rw [run, hi]
    exact explained_statement (.nothing (.goesOn rfl rfl (.inl rfl))) (fun _ => .goesOn rfl rfl (.inl rfl))
      (fun _ => .nothing (.goesOn rfl rfl (.inl rfl))) f

lemma finding_explained (c : RuntimeLeaseClaim) (ie : DbErr) (f : Fate DbErr) :
    let ran := (finding c ie).run duplicateKey tb f
    Explained tb (.ran ss (.finding c ie) ran.2) ran.1 := by
  refine explained_statement ?_ (fun _ => .notAcquired rfl _ (.inl rfl))
    (fun _ => .nothing (.notAcquired rfl _ (.inl rfl))) f
  dsimp only [findLease]
  cases hrow : tb c.leaseId with
  | none => exact .nothing (.notAcquired rfl _ (.inl rfl))
  | some e =>
    unfold afterFind
    dsimp only
    split_ifs with hheld
    · refine .one (.standby rfl _) ?_
      have howner : some e.owner = leaseRegister tb c.leaseId := by
        rw [leaseRegister, hrow]
        rfl
      rw [howner]
      exact .refuse _
    · exact .nothing (.goesOn rfl rfl (.inl rfl))

lemma updating_explained (c : RuntimeLeaseClaim) (f : Fate DbErr) :
    let ran := (updating c).run duplicateKey tb f
    Explained tb (.ran ss (.updating c) ran.2) ran.1 := by
  obtain ⟨t', hu, hg⟩ | hu := @updateLease_cases tb c
  · rw [run, hu]
    exact explained_statement (.one (.acquired rfl) hg) (fun _ => .notAcquired rfl _ (.inl rfl))
      (fun _ => .one (.notAcquired rfl _ (.inr rfl)) hg) f
  · rw [run, hu]
    exact explained_statement (.nothing (.goesOn rfl rfl (.inl rfl)))
      (fun _ => .notAcquired rfl _ (.inl rfl)) (fun _ => .nothing (.notAcquired rfl _ (.inl rfl))) f

lemma findingAgain_explained (c : RuntimeLeaseClaim) (f : Fate DbErr) :
    let ran := (findingAgain c).run duplicateKey tb f
    Explained tb (.ran ss (.findingAgain c) ran.2) ran.1 :=
  explained_statement (.one (.standby rfl _) (.refuse _)) (fun _ => .notAcquired rfl _ (.inl rfl))
    (fun _ => .nothing (.notAcquired rfl _ (.inl rfl))) f

lemma renewing_explained (li oi : Text) (now ea : ℤ) (f : Fate DbErr) :
    let ran := (renewing li oi now ea).run duplicateKey tb f
    Explained tb (.ran ss (.renewing li oi now ea) ran.2) ran.1 := by
  obtain ⟨t', hr, hrn⟩ | ⟨hr, hl⟩ :=
    @renewLease_cases tb li oi now ea
  · rw [run, hr]
    exact explained_statement (.one (.renewed ..) hrn) (fun _ => .renewalFailed _ _ _ _ _ _ (.inl rfl))
      (fun _ => .one (.renewalFailed _ _ _ _ _ _ (.inr rfl)) hrn) f
  · rw [run, hr]
    exact explained_statement (.one (.notRenewed ..) (.refuseRenewal hl))
      (fun _ => .renewalFailed _ _ _ _ _ _ (.inl rfl))
      (fun _ => .nothing (.renewalFailed _ _ _ _ _ _ (.inl rfl))) f

lemma releasing_explained (li oi : Text) (f : Fate DbErr) :
    let ran := (releasing li oi).run duplicateKey tb f
    Explained tb (.ran ss (.releasing li oi) ran.2) ran.1 := by
  obtain ⟨t', hr, hrl⟩ | ⟨hr, hl⟩ := @releaseLease_cases tb li oi
  · rw [run, hr]
    exact explained_statement (.one (.released _ _ _ (.inl rfl)) hrl)
      (fun _ => .releaseFailed _ _ _ _ (.inl rfl)) (fun _ => .one (.releaseFailed _ _ _ _ (.inr rfl)) hrl) f
  · rw [run, hr]
    exact explained_statement (.one (.released _ _ _ (.inr rfl)) (.ignoreRelease hl))
      (fun _ => .releaseFailed _ _ _ _ (.inl rfl)) (fun _ => .nothing (.releaseFailed _ _ _ _ (.inl rfl))) f

/-- **One step** of the calls is what the register does behind it. -/
theorem leaseStep_explained (hs : LeaseStep duplicateKey s event t) : Explained s.table event t.table := by
  cases hs with
  | called i first => exact .nothing (.called ..)
  | @ran ss cl p f =>
    cases cl with
    | inserting c => exact inserting_explained c f
    | finding c ie => exact finding_explained c ie f
    | updating c => exact updating_explained c f
    | findingAgain c => exact findingAgain_explained c f
    | renewing li oi now ea => exact renewing_explained li oi now ea f
    | releasing li oi => exact releasing_explained li oi f

lemma apply_unchanged {R : Type} {d : RuntimeLeaseTable × Except DbErr R} (h : d.1 = tb)
    (f : Fate DbErr) : (f.apply tb d).1 = tb := by
  obtain hf | ⟨e, hf | hf⟩ := f.apply_cases tb d
  · rw [hf, h]
  · rw [hf]
  · rw [hf, h]

/-- **A renewal or a release** on behalf of an owner that does not hold the lease changes no row. -/
theorem leaseStep_foreign
    (hs : LeaseStep duplicateKey s event t) (hf : event.Foreign s.table) : t.table = s.table := by
  cases hs with
  | called i first => exact hf.elim
  | @ran ss cl p f =>
    cases cl with
    | inserting c => exact hf.elim
    | finding c ie => exact hf.elim
    | updating c => exact hf.elim
    | findingAgain c => exact hf.elim
    | renewing li oi now ea =>
      obtain ⟨tb', hrn, hs⟩ | ⟨hrn, -⟩ :=
        @renewLease_cases s.table li oi now ea
      · exact absurd hs.held_of_renew hf
      · exact apply_unchanged (congrArg Prod.fst hrn) f
    | releasing li oi =>
      obtain ⟨tb', hr, hs⟩ | ⟨hr, -⟩ := @releaseLease_cases s.table li oi
      · exact absurd hs.held_of_release hf
      · exact apply_unchanged (congrArg Prod.fst hr) f

/-! ## Every run -/

end AsterForge.Db
