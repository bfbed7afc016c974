import AsterForge.Db.Error
import AsterForge.Library.Runs
import AsterForge.Library.Table
import AsterForge.Library.Time
import AsterForge.Mail.Outbox

/-!
# The mail outbox in a database

Any number of dispatchers work on one table.  A claim is an update on the condition that the row is due, or
that its processing is stale; a mark is an update on the condition that the row is being processed, whoever
processes it.

* `OutboxSystem`, `OutboxStep` — the dispatchers and the table, with who claimed each row last and a record of
  the marks.
* **`outboxStep_change`** — what a step does to the rows.
-/

namespace AsterForge.Db

open Library Mail Function List

/-! ## Rows and statements -/

/-- A row of `mail_outbox`, which its id is the key of. -/
structure MailOutboxModel where
  templateCode : Text
  toAddress : Text
  toName : Option Text
  payloadJson : Text
  status : MailOutboxStatus
  attemptCount : ℤ
  nextAttemptAt : ℤ
  processingStartedAt : Option ℤ
  sentAt : Option ℤ
  lastError : Option Text
  createdAt : ℤ
  updatedAt : ℤ

abbrev MailOutboxTable := Table ℤ MailOutboxModel

structure MailOutboxCreate where
  templateCode : Text
  toAddress : Text
  toName : Option Text
  payloadJson : Text
  nextAttemptAt : ℤ
  now : ℤ

def validateCreate (request : MailOutboxCreate) : Except DbError Unit := do
  validateNonEmpty "mail outbox recipient address".toList request.toAddress
  validateMaxLen "mail outbox recipient address".toList request.toAddress 255
  match request.toName with
  | some toName => validateMaxLen "mail outbox recipient name".toList toName 255
  | none => pure ()
  validateMaxLen "mail outbox template code".toList request.templateCode 64

def MailOutboxCreate.model (request : MailOutboxCreate) : MailOutboxModel :=
  ⟨request.templateCode, request.toAddress, request.toName, request.payloadJson, .pending, 0,
    request.nextAttemptAt, none, none, none, request.now, request.now⟩

def MailOutboxModel.dispatchContext (model : MailOutboxModel) (id : ℤ) : MailOutboxDispatchContext :=
  ⟨id, model.attemptCount, model.templateCode, model.toAddress, model.toName⟩

def claimableCondition (now staleBefore : ℤ) (model : MailOutboxModel) : Bool :=
  ((model.status = .pending ∨ model.status = .retry) ∧ model.nextAttemptAt ≤ now) ∨
    (model.status = .processing ∧ ∃ startedAt ∈ model.processingStartedAt, startedAt ≤ staleBefore)

/-- The rows that `list_claimable` may find: claimable ones in the order in which they were created, all of
them or as many as asked for. -/
structure Listed (table : MailOutboxTable) (now staleBefore : ℤ) (limit : ℕ)
    (rows : List (ℤ × MailOutboxModel)) : Prop where
  claimable : ∀ row ∈ rows, table row.1 = some row.2 ∧ claimableCondition now staleBefore row.2 = true
  once : (rows.map Prod.fst).Nodup
  ordered : rows.Pairwise fun row later => row.2.createdAt ≤ later.2.createdAt
  limited : rows.length ≤ limit
  complete : ∀ id model, table id = some model → claimableCondition now staleBefore model = true →
    (id, model) ∈ rows ∨ (rows.length = limit ∧ ∀ row ∈ rows, row.2.createdAt ≤ model.createdAt)

variable {m : MailOutboxModel}

lemma listed_single {id now sb : ℤ} {l : ℕ} (hd : claimableCondition now sb m = true) (hl : 1 ≤ l) :
    Listed (update (fun _ => none) id (some m)) now sb l [(id, m)] where
  claimable := by
    intro row hm
    rw [mem_singleton] at hm
    subst hm
    exact ⟨update_self .., hd⟩
  once := pairwise_singleton ..
  ordered := pairwise_singleton ..
  limited := hl
  complete := by
    intro o m' ho _
    obtain ⟨rfl, ⟨⟩⟩ | ⟨-, ⟨⟩⟩ := Table.update_eq_iff.mp ho
    exact .inl mem_cons_self

section

variable (table : MailOutboxTable) (id : ℤ)

def tryClaim (now staleBefore : ℤ) : MailOutboxTable × Except DbErr ℕ :=
  let updated := table.updateWhere id (claimableCondition now staleBefore) fun model =>
    { model with status := .processing, processingStartedAt := some now, updatedAt := now }
  (updated.1, .ok updated.2)

/-- The condition of every mark. -/
def isProcessing (model : MailOutboxModel) : Bool := model.status = .processing

def MailOutboxModel.sent (sentAt : ℤ) (model : MailOutboxModel) : MailOutboxModel :=
  { model with status := .sent, sentAt := some sentAt, processingStartedAt := none, lastError := none
               payloadJson := clearedJson, updatedAt := sentAt }

def MailOutboxModel.retried (attemptCount nextAttemptAt : ℤ) (error : Text) (now : ℤ)
    (model : MailOutboxModel) : MailOutboxModel :=
  { model with status := .retry, attemptCount := attemptCount, nextAttemptAt := nextAttemptAt
               processingStartedAt := none, lastError := some error, updatedAt := now }

def MailOutboxModel.permanentlyFailed (attemptCount failedAt : ℤ) (error : Text) (model : MailOutboxModel) :
    MailOutboxModel :=
  { model with status := .failed, attemptCount := attemptCount, nextAttemptAt := failedAt
               processingStartedAt := none, lastError := some error, payloadJson := clearedJson
               updatedAt := failedAt }

def markSent (sentAt : ℤ) : MailOutboxTable × ℕ :=
  table.updateWhere id isProcessing (MailOutboxModel.sent sentAt)

def markRetry (attemptCount nextAttemptAt : ℤ) (error : Text) (now : ℤ) : MailOutboxTable × ℕ :=
  table.updateWhere id isProcessing (MailOutboxModel.retried attemptCount nextAttemptAt error now)

def markFailed (attemptCount failedAt : ℤ) (error : Text) : MailOutboxTable × ℕ :=
  table.updateWhere id isProcessing (MailOutboxModel.permanentlyFailed attemptCount failedAt error)

def markStatement (now : ℤ) (mark : DeliveryMark) : MailOutboxTable × Except DbErr ℕ :=
  let updated := match mark with
    | .sent _ => markSent table id now
    | .retry attemptCount retryDelaySecs error =>
      markRetry table id attemptCount (now + retryDelaySecs * second) error now
    | .permanentFailure attemptCount error => markFailed table id attemptCount now error
  (updated.1, .ok updated.2)

end

def MailOutboxModel.marked (now : ℤ) (model : MailOutboxModel) : DeliveryMark → MailOutboxModel
  | .sent _ => model.sent now
  | .retry attemptCount retryDelaySecs error =>
    model.retried attemptCount (now + retryDelaySecs * second) error now
  | .permanentFailure attemptCount error => model.permanentlyFailed attemptCount now error

lemma markStatement_eq (tb : MailOutboxTable) (id now : ℤ) (m : DeliveryMark) : markStatement tb id now m =
      let updated := tb.updateWhere id isProcessing fun md => md.marked now m
      (updated.1, .ok updated.2) := by
  cases m with
  | sent sb => rfl
  | retry a rds e => rfl
  | permanentFailure a e => rfl

/-! ## Dispatchers and the table -/

/-- A mark that has changed a row: who has sent it, on which row, who claimed the row last, and the attempt
counts before and after. -/
structure MarkRecord where
  session : ℕ
  id : ℤ
  claimedBy : Option ℕ
  mark : DeliveryMark
  countBefore : ℤ
  countAfter : ℤ

/-- The table and the dispatchers; who claimed each row last, the payloads that rows were enqueued with, and
the marks that have changed a row, the last first. -/
structure OutboxSystem where
  table : MailOutboxTable
  dispatchers : ℕ → Option DispatchPhase
  claimedBy : ℤ → Option ℕ
  enqueued : ℤ → Text
  log : List MarkRecord

def OutboxSystem.Initial (s : OutboxSystem) : Prop :=
  (∀ id, s.table id = none) ∧ (∀ session, s.dispatchers session = none) ∧ s.log = []

def OutboxSystem.goes (s : OutboxSystem) (session : ℕ) (next : DispatchNext DbError) : OutboxSystem :=
  { s with dispatchers := update s.dispatchers session next.getLeft? }

inductive OutboxEvent
  | enqueued (id : ℤ) (request : MailOutboxCreate)
  | began (session : ℕ)
  | died (session : ℕ)
  | listed (session : ℕ) (now : ℤ) (answer : Except DbErr (List (ℤ × MailOutboxModel)))
  | claimed (session : ℕ) (now : ℤ) (fate : Fate DbErr)
  | delivered (session : ℕ) (result : Except Text Text)
  | marked (session : ℕ) (now : ℤ) (fate : Fate DbErr)

def staleBefore (config : MailOutboxDispatchConfig) (now : ℤ) : ℤ :=
  now - config.processingStaleSecs * second

def rowsAffectedOne (answer : Except DbErr ℕ) : Except DbError Bool :=
  match answer with
  | .ok rowsAffected => .ok (rowsAffected = 1)
  | .error error => .error (.ofDbErr error)

/-- Who claimed each row last, after a claim that may have changed its row. -/
def claimers (s : OutboxSystem) (session : ℕ) (id now staleBefore : ℤ) (fate : Fate DbErr) : ℤ → Option ℕ :=
  match s.table id with
  | none => s.claimedBy
  | some model =>
    if fate.tookEffect = true ∧ claimableCondition now staleBefore model = true then
      update s.claimedBy id (some session)
    else s.claimedBy

def markRecords (s : OutboxSystem) (session : ℕ) (id : ℤ) (mark : DeliveryMark) (now : ℤ)
    (fate : Fate DbErr) : List MarkRecord :=
  match s.table id with
  | none => []
  | some model =>
    if fate.tookEffect = true ∧ isProcessing model = true then
      [⟨session, id, s.claimedBy id, mark, model.attemptCount, (model.marked now mark).attemptCount⟩]
    else []

variable (config : MailOutboxDispatchConfig)

/-- Rows are enqueued, and dispatchers begin, end at any point, and send their statements in any order. -/
inductive OutboxStep : OutboxSystem → OutboxEvent → OutboxSystem → Prop
  | enqueued {s : OutboxSystem} {id : ℤ} {request : MailOutboxCreate}
      (valid : validateCreate request = .ok ()) (fresh : s.table id = none) :
      OutboxStep s (.enqueued id request)
        { s with table := update s.table id (some request.model)
                 enqueued := update s.enqueued id request.payloadJson }
  | began {s : OutboxSystem} {session : ℕ} (idle : s.dispatchers session = none) :
      OutboxStep s (.began session) (s.goes session (.inl .listing))
  | died {s : OutboxSystem} (session : ℕ) :
      OutboxStep s (.died session) { s with dispatchers := update s.dispatchers session none }
  | listed {s : OutboxSystem} {session : ℕ} {now : ℤ} {rows : List (ℤ × MailOutboxModel)}
      (phase : s.dispatchers session = some .listing)
      (found : Listed s.table now (staleBefore config now) config.batchSize rows) :
      OutboxStep s (.listed session now (.ok rows))
        (s.goes session (afterList (.ok (rows.map fun row => row.2.dispatchContext row.1))))
  | listingFailed {s : OutboxSystem} {session : ℕ} {now : ℤ} {error : DbErr}
      (phase : s.dispatchers session = some .listing) :
      OutboxStep s (.listed session now (.error error)) (s.goes session (afterList (.error (.ofDbErr error))))
  | claimed {s : OutboxSystem} {session : ℕ} {now : ℤ} {fate : Fate DbErr} {stats : DispatchStats}
      {context : MailOutboxDispatchContext} {rest : List MailOutboxDispatchContext}
      (phase : s.dispatchers session = some (.claiming stats context rest)) :
      OutboxStep s (.claimed session now fate)
        ({ s with
            table := (fate.apply s.table (tryClaim s.table context.id now (staleBefore config now))).1
            claimedBy := claimers s session context.id now (staleBefore config now) fate }.goes session
          (afterTryClaim stats context rest (rowsAffectedOne
            (fate.apply s.table (tryClaim s.table context.id now (staleBefore config now))).2)))
  | delivered {s : OutboxSystem} {session : ℕ} {stats : DispatchStats} {context : MailOutboxDispatchContext}
      {rest : List MailOutboxDispatchContext}
      (phase : s.dispatchers session = some (.delivering stats context rest)) (result : Except Text Text) :
      OutboxStep s (.delivered session result)
        (s.goes session (.inl (afterDelivery config stats context rest result)))
  | marked {s : OutboxSystem} {session : ℕ} {now : ℤ} {fate : Fate DbErr} {stats : DispatchStats}
      {context : MailOutboxDispatchContext} {mark : DeliveryMark} {later : List ℕ}
      {rest : List MailOutboxDispatchContext}
      (phase : s.dispatchers session = some (.marking stats context mark later rest)) :
      OutboxStep s (.marked session now fate)
        ({ s with
            table := (fate.apply s.table (markStatement s.table context.id now mark)).1
            log := markRecords s session context.id mark now fate ++ s.log }.goes session
          (afterMark stats context mark later rest (rowsAffectedOne
            (fate.apply s.table (markStatement s.table context.id now mark)).2)))

/-! ## What a step does to the rows -/

/-- A mark that takes effect: it is executed, and finds its row being processed. -/
def Marks (s : OutboxSystem) (event : OutboxEvent) (session : ℕ) (context : MailOutboxDispatchContext)
    (mark : DeliveryMark) (now : ℤ) (model : MailOutboxModel) : Prop :=
  ∃ fate stats later rest, event = .marked session now fate ∧
    s.dispatchers session = some (.marking stats context mark later rest) ∧ fate.tookEffect = true ∧
    s.table context.id = some model ∧ model.status = .processing

/-- A claim that takes effect: it is executed, and finds its row due or stale. -/
def Claims (config : MailOutboxDispatchConfig) (s : OutboxSystem) (event : OutboxEvent) (session : ℕ)
    (context : MailOutboxDispatchContext) (now : ℤ) (model : MailOutboxModel) : Prop :=
  ∃ fate stats rest, event = .claimed session now fate ∧
    s.dispatchers session = some (.claiming stats context rest) ∧ fate.tookEffect = true ∧
    s.table context.id = some model ∧ claimableCondition now (staleBefore config now) model = true

def MailOutboxModel.claimed (now : ℤ) (model : MailOutboxModel) : MailOutboxModel :=
  { model with status := .processing, processingStartedAt := some now, updatedAt := now }

def OutboxSystem.record (s : OutboxSystem) (session : ℕ) (context : MailOutboxDispatchContext)
    (mark : DeliveryMark) (now : ℤ) (model : MailOutboxModel) : MarkRecord :=
  ⟨session, context.id, s.claimedBy context.id, mark, model.attemptCount,
    (model.marked now mark).attemptCount⟩

/-- The rows, who claimed them last, the payloads they were enqueued with, and the record, after a step. -/
inductive OutboxChange (config : MailOutboxDispatchConfig) (s : OutboxSystem) (event : OutboxEvent) (t : OutboxSystem) : Prop
  | nothing (unmarked : ∀ session context mark now model, ¬ Marks s event session context mark now model)
      (table : t.table = s.table) (claimedBy : t.claimedBy = s.claimedBy) (enqueued : t.enqueued = s.enqueued)
      (log : t.log = s.log)
  | enqueued {id : ℤ} {request : MailOutboxCreate} (isEnqueued : event = .enqueued id request)
      (fresh : s.table id = none) (table : t.table = update s.table id (some request.model))
      (claimedBy : t.claimedBy = s.claimedBy)
      (enqueued : t.enqueued = update s.enqueued id request.payloadJson) (log : t.log = s.log)
  | claimed {session : ℕ} {context : MailOutboxDispatchContext} {now : ℤ} {model : MailOutboxModel}
      (claims : Claims config s event session context now model)
      (table : t.table = update s.table context.id (some (model.claimed now)))
      (claimedBy : t.claimedBy = update s.claimedBy context.id (some session))
      (enqueued : t.enqueued = s.enqueued) (log : t.log = s.log)
  | marked {session : ℕ} {context : MailOutboxDispatchContext} {mark : DeliveryMark} {now : ℤ}
      {model : MailOutboxModel} (marks : Marks s event session context mark now model)
      (table : t.table = update s.table context.id (some (model.marked now mark)))
      (claimedBy : t.claimedBy = s.claimedBy) (enqueued : t.enqueued = s.enqueued)
      (log : t.log = s.record session context mark now model :: s.log)

variable {config} {s t : OutboxSystem} {e : OutboxEvent}

lemma unmarked_of_ne (h : ∀ ss now f, e ≠ .marked ss now f) (ss : ℕ)
    (c : MailOutboxDispatchContext) (mr : DeliveryMark) (now : ℤ) (m : MailOutboxModel) :
    ¬ Marks s e ss c mr now m := by
  rintro ⟨f, st, l, r, he, -⟩
  exact h ss now f he

lemma unfinished_of_claimable {now sb : ℤ}
    (h : claimableCondition now sb m = true) : m.status.isTerminal = false := by
  obtain ⟨hp | hr, -⟩ | ⟨hpr, -⟩ := of_decide_eq_true h
  · rw [hp]
    rfl
  · rw [hr]
    rfl
  · rw [hpr]
    rfl

lemma Claims.row {ss : ℕ} {c : MailOutboxDispatchContext} {now : ℤ}
    (h : Claims config s e ss c now m) : s.table c.id = some m ∧ m.status.isTerminal = false := by
  obtain ⟨-, -, -, -, -, -, hr, hc⟩ := h
  exact ⟨hr, unfinished_of_claimable hc⟩

lemma goes_dispatchers {ss o : ℕ} {next : DispatchNext DbError} {p : DispatchPhase}
    (h : (s.goes ss next).dispatchers o = some p) :
    o = ss ∧ next = .inl p ∨ ss ≠ o ∧ s.dispatchers o = some p := by
  obtain ⟨hs, hn⟩ | ⟨hne, hp⟩ := Table.update_eq_iff.mp h
  · exact .inl ⟨hs, Sum.getLeft?_eq_some_iff.mp hn⟩
  · exact .inr ⟨hne.symm, hp⟩

/-- A claim changes its row and its last claimer together, or neither; then it is not answered as one. -/
lemma claim_cases (s : OutboxSystem) (ss : ℕ) (id now sb : ℤ) (f : Fate DbErr) :
    (∃ m, f.tookEffect = true ∧ s.table id = some m ∧ claimableCondition now sb m = true ∧
      (f.apply s.table (tryClaim s.table id now sb)).1 = update s.table id (some (m.claimed now)) ∧
      claimers s ss id now sb f = update s.claimedBy id (some ss)) ∨
    ((∀ m, f.tookEffect = true → s.table id = some m → claimableCondition now sb m = false) ∧
      (f.apply s.table (tryClaim s.table id now sb)).1 = s.table ∧ claimers s ss id now sb f = s.claimedBy ∧
      rowsAffectedOne (f.apply s.table (tryClaim s.table id now sb)).2 ≠ .ok true) := by
  have href : s.table.updateWhere id (claimableCondition now sb)
      (MailOutboxModel.claimed now) = (s.table, 0) →
      rowsAffectedOne (f.apply s.table (tryClaim s.table id now sb)).2 ≠ .ok true := by
    intro hu ht
    cases f with
    | answered =>
      replace ht : rowsAffectedOne (.ok (s.table.updateWhere id (claimableCondition now sb)
        (MailOutboxModel.claimed now)).2) = .ok true := ht
      rw [hu] at ht
      cases ht
    | failed e te => cases ht
  rw [Fate.apply_fst]
  unfold claimers
  cases heff : f.tookEffect with
  | false =>
    refine .inr ⟨fun _ => nofun, rfl, ?_, ?_⟩
    · cases s.table id with
      | none => rfl
      | some m => exact if_neg fun h => Bool.false_ne_true h.1
    · cases f with
      | answered => cases heff
      | failed e te => exact nofun
  | true =>
    obtain ⟨m, hr, hm, hu⟩ | ⟨hun, hu⟩ :=
      s.table.updateWhere_cases id (claimableCondition now sb) (MailOutboxModel.claimed now)
    · refine .inl ⟨m, rfl, hr, hm, congrArg Prod.fst hu, ?_⟩
      rw [hr]
      exact if_pos ⟨rfl, hm⟩
    · refine .inr ⟨fun m _ => hun m, congrArg Prod.fst hu, ?_, href hu⟩
      cases hr : s.table id with
      | none => rfl
      | some m => exact if_neg fun h => Bool.false_ne_true ((hun m hr).symm.trans h.2)

lemma mark_cases (s : OutboxSystem) (ss : ℕ) (id : ℤ) (mr : DeliveryMark) (now : ℤ) (f : Fate DbErr) :
    (∃ m, f.tookEffect = true ∧ s.table id = some m ∧ m.status = .processing ∧
      (f.apply s.table (markStatement s.table id now mr)).1 = update s.table id (some (m.marked now mr)) ∧
      markRecords s ss id mr now f =
        [⟨ss, id, s.claimedBy id, mr, m.attemptCount, (m.marked now mr).attemptCount⟩]) ∨
    ((∀ m, f.tookEffect = true → s.table id = some m → m.status ≠ .processing) ∧
      (f.apply s.table (markStatement s.table id now mr)).1 = s.table ∧
      markRecords s ss id mr now f = []) := by
  rw [Fate.apply_fst, markStatement_eq]
  unfold markRecords
  cases heff : f.tookEffect with
  | false =>
    refine .inr ⟨fun _ => nofun, rfl, ?_⟩
    cases s.table id with
    | none => rfl
    | some m => exact if_neg fun h => Bool.false_ne_true h.1
  | true =>
    obtain ⟨m, hr, hm, hup⟩ | ⟨hu, hup⟩ :=
      s.table.updateWhere_cases id isProcessing fun m => m.marked now mr
    · refine .inl ⟨m, rfl, hr, of_decide_eq_true hm, congrArg Prod.fst hup, ?_⟩
      rw [hr]
      exact if_pos ⟨rfl, hm⟩
    · refine .inr ⟨fun m _ hr => of_decide_eq_false (hu m hr), congrArg Prod.fst hup, ?_⟩
      cases hr : s.table id with
      | none => rfl
      | some m => exact if_neg fun h => Bool.false_ne_true ((hu m hr).symm.trans h.2)

/-- **What a step does to the rows**: it enqueues one, or it is a claim or a mark that changes its row. -/
theorem outboxStep_change (hs : OutboxStep config s e t) : OutboxChange config s e t := by
  cases hs with
  | enqueued v fr => exact .enqueued rfl fr rfl rfl rfl rfl
  | began idle | died ss => exact .nothing (unmarked_of_ne fun _ _ _ => nofun) rfl rfl rfl rfl
  | listed p found | listingFailed p =>
    exact .nothing (unmarked_of_ne fun _ _ _ => nofun) rfl rfl rfl rfl
  | delivered p rs => exact .nothing (unmarked_of_ne fun _ _ _ => nofun) rfl rfl rfl rfl
  | @claimed ss now f st c r p =>
    obtain ⟨m, he, hrw, hcl, ht, hc⟩ | ⟨-, ht, hc, -⟩ :=
      claim_cases s ss c.id now (staleBefore config now) f
    · exact .claimed ⟨f, st, r, rfl, p, he, hrw, hcl⟩ ht hc rfl rfl
    · exact .nothing (unmarked_of_ne fun _ _ _ => nofun) ht hc rfl rfl
  | @marked ss now f st c mr l r p =>
    obtain ⟨m, he, hrw, hp, ht, hr⟩ | ⟨hu, ht, hr⟩ :=
      mark_cases s ss c.id mr now f
    · have hmarks : Marks s (.marked ss now f) ss c mr now m :=
        ⟨f, st, l, r, rfl, p, he, hrw, hp⟩
      exact .marked hmarks ht rfl rfl (congrArg (· ++ s.log) hr)
    · refine .nothing ?_ ht rfl rfl (congrArg (· ++ s.log) hr)
      rintro ss' c' mr' now' m ⟨f', st', l', r', ⟨⟩, p', he, hrw, hp⟩
      rw [p] at p'
      obtain ⟨-, rfl, -⟩ := DispatchPhase.marking.inj (Option.some.inj p')
      exact hu m he hrw hp

lemma Marks.logged {ss : ℕ} {c : MailOutboxDispatchContext} {mr : DeliveryMark} {now : ℤ} (h : Marks s e ss c mr now m)
    (hs : OutboxStep config s e t) : t.log = s.record ss c mr now m :: s.log := by
  have hmarks := h
  obtain ⟨f, st, l, r, rfl, hp, -, hr, -⟩ := h
  cases outboxStep_change hs with
  | nothing u => exact absurd hmarks (u _ _ _ _ _)
  | enqueued ie => cases ie
  | claimed cl =>
    obtain ⟨f', st', r', ⟨⟩, -⟩ := cl
  | marked mk _ _ _ log =>
    obtain ⟨f', st', l', r', ⟨⟩, hp', -, hr', -⟩ := mk
    rw [hp] at hp'
    obtain ⟨-, rfl, rfl, -⟩ := DispatchPhase.marking.inj (Option.some.inj hp')
    rw [hr] at hr'
    cases hr'
    exact log

lemma log_sublist (hs : OutboxStep config s e t) : s.log.Sublist t.log := by
  cases outboxStep_change hs with
  | nothing _ _ _ _ log => rw [log]
  | enqueued _ _ _ _ _ log => rw [log]
  | claimed _ _ _ _ log => rw [log]
  | marked _ _ _ _ log =>
    rw [log]
    exact sublist_cons_self ..

end AsterForge.Db
