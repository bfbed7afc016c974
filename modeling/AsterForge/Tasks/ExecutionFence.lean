import AsterForge.Library.Runs
import AsterForge.Library.Table
import AsterForge.Tasks.Execution

/-!
# Workers on one task

Any number of calls run one task under leases of their own, while its row is claimed anew, cancelled by users
and written by others.  The store is any that has the fences which its contract asks for.

* **`claimedTask_fenced`** — what a call counts, what the store has written, and the heartbeat of a call that
  has returned.
-/

namespace AsterForge.Tasks

open Library ExecutionCall Function List

/-! ## Stores and calls -/

/-- A store, with the fences of its writes: what it has to find in the row when it commits a write under a lease. -/
structure TaskStore (σ : Type) where
  processingToken : σ → ℤ
  executable : σ → Prop
  succeeded : σ → Prop
  cancellationRequested : σ → Prop
  commits : TaskWrite → TaskLease → σ → σ → Prop
  current : ∀ {write lease row row'}, commits write lease row row' →
    processingToken row = lease.processingToken ∧ processingToken row' = processingToken row
  requested : ∀ {lease row row'}, commits .cancelTaskIfRequested lease row row' → cancellationRequested row
  confirmed : ∀ {lease row row'}, commits (.completion .confirmTaskSucceeded) lease row row' →
    succeeded row ∧ row' = row
  unrequested : ∀ {completion lease row row'}, commits (.completion completion) lease row row' →
    completion ≠ .confirmTaskSucceeded → executable row ∧ ¬ cancellationRequested row

/-- How a write ends for the call that asks for it: it is committed, it is refused, or it fails, before or after
it took effect. -/
inductive WriteAnswer (E : Type)
  | committed
  | refused
  | failed (error : E) (tookEffect : Bool)

variable {σ Task E : Type}

def WriteAnswer.result : WriteAnswer E → Except E Bool
  | .committed => .ok true
  | .refused => .ok false
  | .failed error _ => .error error

def WriteAnswer.tookEffect : WriteAnswer E → Bool
  | .committed => true
  | .refused => false
  | .failed _ tookEffect => tookEffect

def TaskStore.Answers (store : TaskStore σ) (write : TaskWrite) (lease : TaskLease) (answer : WriteAnswer E)
    (row row' : σ) : Prop :=
  if answer.tookEffect then store.commits write lease row row' else row' = row

/-- A write that the store has committed: for which call, under which lease, with the row that it found, and
whether the call was told. -/
structure TaskCommit (σ : Type) where
  session : ℕ
  write : TaskWrite
  lease : TaskLease
  before : σ
  told : Bool

structure ExecutionSystem (σ Task E : Type) where
  row : σ
  calls : ℕ → Option (ExecutionCall Task E)
  commits : List (TaskCommit σ)

def ExecutionSystem.Initial (s : ExecutionSystem σ Task E) : Prop :=
  (∀ session, s.calls session = none) ∧ s.commits = []

/-- What a call does but for its writes, or what happens to it. -/
inductive CallEvent (E : Type)
  | shutdown
  | activated (now : ℤ)
  | checked (now : ℤ)
  | processed (taskResult : Except E Unit)
  | touched (now : ℤ) (result : Except E TaskHeartbeatOutcome)
  | heartbeatStopped
  | joined
  | dropped

variable (hooks : TaskHooks Task E) (config : ClaimedTaskExecutionConfig)

/-- The body of a task may check the lease at any time, and end with any result; a heartbeat may be answered
even after it is told to stop; a call may be dropped until it has returned. -/
inductive CallStep : ExecutionCall Task E → CallEvent E → ExecutionCall Task E → Prop
  | shutdown (call : ExecutionCall Task E) : CallStep call .shutdown { call with shutdown := true }
  | activated {call : ExecutionCall Task E} (now : ℤ) (phase : call.phase = .activating) :
      CallStep call (.activated now) (call.activated hooks now)
  | checked {call : ExecutionCall Task E} (now : ℤ) (phase : call.phase = .processing) :
      CallStep call (.checked now) { call with guard := (call.guard.ensureActive call.shutdown now).1 }
  | processed {call : ExecutionCall Task E} (taskResult : Except E Unit) (phase : call.phase = .processing) :
      CallStep call (.processed taskResult) (call.processed taskResult)
  | touched {call : ExecutionCall Task E} (now : ℤ) (result : Except E TaskHeartbeatOutcome)
      (running : call.heartbeat.running = true) :
      CallStep call (.touched now result) (call.heartbeatTouched now result)
  | heartbeatStopped {call : ExecutionCall Task E} (running : call.heartbeat.running = true)
      (stopped : call.heartbeat.stopToken = true) : CallStep call .heartbeatStopped call.heartbeatStopped
  | joined {call : ExecutionCall Task E} {result : Except E TaskDispatchOutcome}
      (phase : call.phase = .stopping result) (ended : call.heartbeat.running = false) :
      CallStep call .joined (call.goto (.returned result))
  | dropped {call : ExecutionCall Task E} (phase : ∀ result, call.phase ≠ .returned result) :
      CallStep call .dropped call.dropped

inductive ExecutionEvent (σ Task E : Type)
  | environment (row : σ)
  | called (session : ℕ) (task : Task) (lease : TaskLease) (shutdown : Bool) (now : ℤ)
  | went (session : ℕ) (event : CallEvent E)
  | wrote (session : ℕ) (answer : WriteAnswer E) (now : ℤ)
  | abandoned (session : ℕ)

def commitsAfter (s : ExecutionSystem σ Task E) (session : ℕ) (write : TaskWrite) (lease : TaskLease)
    (answer : WriteAnswer E) : List (TaskCommit σ) :=
  if answer.tookEffect = true then ⟨session, write, lease, s.row, answer.result.isOk⟩ :: s.commits
  else s.commits

variable (store : TaskStore σ)

/-- The row may change in any way but that a token comes again: it may be claimed, cancelled, or written by the
bodies of the calls or by anyone else. -/
inductive ExecutionStep : ExecutionSystem σ Task E → ExecutionEvent σ Task E → ExecutionSystem σ Task E → Prop
  | environment {s : ExecutionSystem σ Task E} {row : σ}
      (later : store.processingToken s.row ≤ store.processingToken row) :
      ExecutionStep s (.environment row) { s with row := row }
  | called {s : ExecutionSystem σ Task E} {session : ℕ} (fresh : s.calls session = none) (task : Task)
      (lease : TaskLease) (shutdown : Bool) (now : ℤ) :
      ExecutionStep s (.called session task lease shutdown now)
        { s with
            calls := update s.calls session (some (.start hooks config task lease shutdown now)) }
  | went {s : ExecutionSystem σ Task E} {session : ℕ} {event : CallEvent E} {call call' : ExecutionCall Task E}
      (running : s.calls session = some call) (goes : CallStep hooks call event call') :
      ExecutionStep s (.went session event) { s with calls := update s.calls session (some call') }
  | wrote {s : ExecutionSystem σ Task E} {session : ℕ} {call : ExecutionCall Task E} {write : TaskWrite}
      {answer : WriteAnswer E} {row : σ} (now : ℤ) (running : s.calls session = some call)
      (asks : call.phase.write = some write) (answers : store.Answers write call.lease answer s.row row) :
      ExecutionStep s (.wrote session answer now)
        { row := row
          calls := update s.calls session (some (call.answered hooks config answer.result now))
          commits := commitsAfter s session write call.lease answer }
  | abandoned {s : ExecutionSystem σ Task E} {session : ℕ} {call : ExecutionCall Task E} {write : TaskWrite}
      {row : σ} (running : s.calls session = some call) (asks : call.phase.write = some write)
      (commits : store.commits write call.lease s.row row) :
      ExecutionStep s (.abandoned session)
        { row := row
          calls := update s.calls session (some call.dropped)
          commits := ⟨session, write, call.lease, s.row, false⟩ :: s.commits }

/-! ## What a call counts -/

inductive TaskTransition
  | canceled
  | succeeded
  | retried
  | failed

def TaskTransition.status : TaskTransition → Text
  | .canceled => "canceled".toList
  | .succeeded => "succeeded".toList
  | .retried => "retry".toList
  | .failed => "failed".toList

def TaskTransition.outcome : TaskTransition → TaskDispatchOutcome
  | .canceled => .ofCanceled
  | .succeeded => .ofSucceeded
  | .retried => .ofRetried
  | .failed => .ofFailed

def TaskWrite.transition : TaskWrite → Option TaskTransition
  | .cancelTaskIfRequested => some .canceled
  | .completion .confirmTaskSucceeded => some .succeeded
  | .completion (.markTaskRetry _) => some .retried
  | .completion (.markTaskFailed _) => some .failed
  | .completion .releaseTaskForShutdown => none

/-- The transitions that a call was told that the store has committed. -/
def transitionsOf (commits : List (TaskCommit σ)) (session : ℕ) : List TaskTransition :=
  commits.filterMap fun commit =>
    if commit.session = session ∧ commit.told = true then commit.write.transition else none

def Accounted (transitions : List TaskTransition) (recorded : List Text) (outcome : TaskDispatchOutcome) : Prop :=
  (transitions = [] ∧ recorded = [] ∧ outcome = {}) ∨
    ∃ transition, transitions = [transition] ∧ recorded = [transition.status] ∧ outcome = transition.outcome

/-- What a call has counted: nothing before it has a result, or where the result is an error. -/
def ExecutionPhase.outcome : ExecutionPhase E → TaskDispatchOutcome
  | .stopping (.ok outcome) | .returned (.ok outcome) => outcome
  | _ => {}

lemma TaskTransition.outcome_ne (tr : TaskTransition) : tr.outcome ≠ {} := by
  cases tr with
  | canceled => decide
  | succeeded => decide
  | retried => decide
  | failed => decide

lemma Accounted.eq_nil {tr : List TaskTransition} {r : List Text} (h : Accounted tr r {}) : tr = [] ∧ r = [] := by
  obtain ⟨ht, hr, -⟩ | ⟨tn, -, -, ho⟩ := h
  · exact ⟨ht, hr⟩
  · exact absurd ho.symm tn.outcome_ne

variable {hooks config store} {call c' : ExecutionCall Task E} {event : CallEvent E}

lemma callStep_counts (h : CallStep hooks call event c') :
    c'.transitions = call.transitions ∧ c'.lease = call.lease ∧
      (c'.phase = .dropped ∨ call.phase ≠ .dropped ∧ c'.phase.outcome = call.phase.outcome) := by
  have hsame : ∀ p : ExecutionPhase E, p = .dropped ∨ p ≠ .dropped ∧ p.outcome = p.outcome :=
    fun p => (em (p = .dropped)).imp_right fun hne => ⟨hne, rfl⟩
  cases h with
  | shutdown => exact ⟨rfl, rfl, hsame _⟩
  | activated now p =>
    unfold activated
    rw [p]
    split
    · exact ⟨rfl, rfl, .inr ⟨nofun, rfl⟩⟩
    · exact ⟨rfl, rfl, .inr ⟨nofun, rfl⟩⟩
  | checked now p => exact ⟨rfl, rfl, hsame _⟩
  | processed tr p =>
    rw [p]
    exact ⟨rfl, rfl, .inr ⟨nofun, rfl⟩⟩
  | touched now r rn =>
    unfold heartbeatTouched
    split
    · exact ⟨rfl, rfl, hsame _⟩
    · exact ⟨rfl, rfl, hsame _⟩
  | heartbeatStopped rn st => exact ⟨rfl, rfl, hsame _⟩
  | @joined r p en =>
    rw [p]
    refine ⟨rfl, rfl, .inr ⟨nofun, ?_⟩⟩
    cases r with
    | ok o => rfl
    | error e => rfl
  | dropped p => exact ⟨rfl, rfl, .inl rfl⟩

def TaskWrite.told (write : TaskWrite) : Except E Bool → Option TaskTransition
  | .ok true => write.transition
  | .ok false | .error _ => none

def ExecutionCall.Counts (call call' : ExecutionCall Task E) (transition : Option TaskTransition) : Prop :=
  call'.phase ≠ .dropped ∧ call'.transitions = (transition.map TaskTransition.status).toList ++ call.transitions ∧
    call'.phase.outcome = (transition.map TaskTransition.outcome).getD {}

lemma cancellationOutcome_counts {next : ExecutionCall Task E → Option TaskDispatchOutcome → ExecutionCall Task E}
    (hc : ∀ call, next call (some .ofCanceled) = call.finish (.ok .ofCanceled))
    (hg : call.Counts (next call none) none) (a : Except E Bool) :
    call.Counts (call.cancellationOutcome a next) (TaskWrite.cancelTaskIfRequested.told a) := by
  match a with
  | .error e => exact ⟨nofun, rfl, rfl⟩
  | .ok false => exact hg
  | .ok true =>
    rw [cancellationOutcome, hc]
    exact ⟨nofun, rfl, rfl⟩

lemma complete_counts (now : ℤ) (tr : Except E Unit) : call.Counts (call.complete hooks config now tr) none := by
  cases tr with
  | ok _ => exact ⟨nofun, rfl, rfl⟩
  | error e =>
    unfold complete
    dsimp only
    split_ifs
    · exact ⟨nofun, rfl, rfl⟩
    · exact ⟨nofun, rfl, rfl⟩
    · exact ⟨nofun, rfl, rfl⟩

variable {write : TaskWrite} {lease : TaskLease} {session : ℕ}

/-- **An answer** is counted and recorded if it says that a transition was committed. -/
theorem answered_counts (ha : call.phase.write = some write) (a : Except E Bool)
    (now : ℤ) : call.Counts (call.answered hooks config a now) (write.told a) := by
  unfold answered
  generalize call.phase = phase at ha ⊢
  cases phase with
  | activating => cases ha
  | processing => cases ha
  | stopping r => cases ha
  | returned r => cases ha
  | dropped => cases ha
  | completing tr =>
    cases ha
    exact cancellationOutcome_counts (fun _ => rfl) (complete_counts now tr) a
  | acknowledging =>
    cases ha
    have hgoes : call.Counts (call.finish (.ok {})) none := ⟨nofun, rfl, rfl⟩
    exact cancellationOutcome_counts (fun _ => rfl) hgoes a
  | writing c =>
    cases ha
    match a, c with
    | .error error, _ => exact ⟨nofun, rfl, rfl⟩
    | .ok false, _ => exact ⟨nofun, rfl, rfl⟩
    | .ok true, .confirmTaskSucceeded => exact ⟨nofun, rfl, rfl⟩
    | .ok true, .markTaskRetry _ => exact ⟨nofun, rfl, rfl⟩
    | .ok true, .markTaskFailed _ => exact ⟨nofun, rfl, rfl⟩
    | .ok true, .releaseTaskForShutdown => exact ⟨nofun, rfl, rfl⟩

/-! ## Heartbeats -/

/-- A call that has a result has told its heartbeat to stop, and one that has returned has seen it end. -/
structure ExecutionCall.Joined (call : ExecutionCall Task E) : Prop where
  stopped : ∀ result, call.phase = .stopping result ∨ call.phase = .returned result →
    call.heartbeat.stopToken = true
  ended : ∀ result, call.phase = .returned result → call.heartbeat.running = false

lemma ExecutionCall.Joined.of_ne (hs : ∀ r, call.phase ≠ .stopping r)
    (hr : ∀ r, call.phase ≠ .returned r) : call.Joined where
  stopped := fun r hp => absurd hp (not_or.mpr ⟨hs r, hr r⟩)
  ended := fun r hp => absurd hp (hr r)

lemma finish_joined (r : Except E TaskDispatchOutcome) : (call.finish r).Joined where
  stopped := fun _ _ => rfl
  ended := nofun

variable {p : ExecutionPhase E}

lemma goto_joined (hs : ∀ r, p ≠ .stopping r) (hr : ∀ r, p ≠ .returned r) : (call.goto p).Joined :=
  .of_ne hs hr

lemma callStep_joined (h : CallStep hooks call event c') (hj : call.Joined) : c'.Joined := by
  cases h with
  | shutdown | checked now p => exact ⟨hj.stopped, hj.ended⟩
  | activated now p =>
    unfold activated
    split
    · exact .of_ne nofun nofun
    · exact .of_ne nofun nofun
  | processed tr p => exact goto_joined nofun nofun
  | touched now rs r =>
    unfold heartbeatTouched
    split
    · exact ⟨hj.stopped, hj.ended⟩
    · exact ⟨hj.stopped, fun _ _ => rfl⟩
  | heartbeatStopped r st => exact ⟨hj.stopped, fun _ _ => rfl⟩
  | joined p e => exact ⟨fun _ _ => hj.stopped _ (.inl p), fun _ _ => e⟩
  | dropped p => exact .of_ne nofun nofun

lemma answered_joined (ha : call.phase.write = some write) (a : Except E Bool)
    (now : ℤ) : (call.answered hooks config a now).Joined := by
  unfold answered
  generalize call.phase = phase at ha ⊢
  cases phase with
  | activating => cases ha
  | processing => cases ha
  | stopping r => cases ha
  | returned r => cases ha
  | dropped => cases ha
  | completing tr =>
    match a, tr with
    | .error e, _ => exact finish_joined _
    | .ok true, _ => exact finish_joined _
    | .ok false, .ok () => exact goto_joined nofun nofun
    | .ok false, .error e =>
      unfold complete
      dsimp only
      split_ifs
      · exact goto_joined nofun nofun
      · exact goto_joined nofun nofun
      · exact goto_joined nofun nofun
  | acknowledging =>
    match a with
    | .error e => exact finish_joined _
    | .ok true => exact finish_joined _
    | .ok false => exact finish_joined _
  | writing c =>
    match a, c with
    | .error e, _ => exact finish_joined _
    | .ok false, _ => exact goto_joined nofun nofun
    | .ok true, .confirmTaskSucceeded => exact finish_joined _
    | .ok true, .markTaskRetry _ => exact finish_joined _
    | .ok true, .markTaskFailed _ => exact finish_joined _
    | .ok true, .releaseTaskForShutdown => exact goto_joined nofun nofun

/-! ## The invariant -/

/-- What a store has found in the row when it committed a write. -/
def TaskCommit.Fenced (store : TaskStore σ) (commit : TaskCommit σ) : Prop :=
  store.processingToken commit.before = commit.lease.processingToken ∧
    match commit.write with
    | .cancelTaskIfRequested => store.cancellationRequested commit.before
    | .completion .confirmTaskSucceeded => store.succeeded commit.before
    | .completion _ => store.executable commit.before ∧ ¬ store.cancellationRequested commit.before

variable {row : σ}

lemma TaskStore.fenced {row' : σ} (h : store.commits write lease row row') (ss : ℕ) (tl : Bool) :
    TaskCommit.Fenced store ⟨ss, write, lease, row, tl⟩ := by
  refine ⟨(store.current h).1, ?_⟩
  match write with
  | .cancelTaskIfRequested => exact store.requested h
  | .completion .confirmTaskSucceeded => exact (store.confirmed h).1
  | .completion (.markTaskRetry _) => exact store.unrequested h nofun
  | .completion (.markTaskFailed _) => exact store.unrequested h nofun
  | .completion .releaseTaskForShutdown => exact store.unrequested h nofun

/-- What is true of every reachable state. -/
structure ExecutionInv (store : TaskStore σ) (s : ExecutionSystem σ Task E) : Prop where
  accounted : ∀ session call, s.calls session = some call → call.phase ≠ .dropped →
    Accounted (transitionsOf s.commits session) call.transitions call.phase.outcome
  joined : ∀ session call, s.calls session = some call → call.Joined
  fresh : ∀ session, s.calls session = none → transitionsOf s.commits session = []
  fenced : ∀ commit ∈ s.commits, commit.Fenced store

lemma transitionsOf_cons (c : TaskCommit σ) (cm : List (TaskCommit σ)) (ss : ℕ) : transitionsOf (c :: cm) ss =
    (if c.session = ss ∧ c.told = true then c.write.transition else none).toList ++
      transitionsOf cm ss := by
  unfold transitionsOf
  rw [filterMap_cons]
  split
  case h_1 hnone => rw [hnone]; rfl
  case h_2 transition hsome => rw [hsome]; rfl

lemma transitionsOf_cons_of_ne {cm : TaskCommit σ} (hne : cm.session ≠ session) (c : List (TaskCommit σ)) :
    transitionsOf (cm :: c) session = transitionsOf c session := by
  rw [transitionsOf_cons, if_neg fun h => hne h.1]
  rfl

variable {s t : ExecutionSystem σ Task E} {e : ExecutionEvent σ Task E}

lemma transitionsOf_commitsAfter (ss : ℕ) (w : TaskWrite) (l : TaskLease) (a : WriteAnswer E) :
    transitionsOf (commitsAfter s ss w l a) ss = (w.told a.result).toList ++ transitionsOf s.commits ss := by
  match a with
  | .committed =>
    change transitionsOf (⟨ss, w, l, s.row, true⟩ :: s.commits) ss = _
    rw [transitionsOf_cons, if_pos ⟨rfl, rfl⟩]
    rfl
  | .refused => rfl
  | .failed e true =>
    change transitionsOf (⟨ss, w, l, s.row, false⟩ :: s.commits) ss = _
    rw [transitionsOf_cons, if_neg fun h => Bool.false_ne_true h.2]
    rfl
  | .failed e false => rfl

lemma transitionsOf_commitsAfter_of_ne {o : ℕ} (hne : session ≠ o) (w : TaskWrite)
    (l : TaskLease) (a : WriteAnswer E) :
    transitionsOf (commitsAfter s session w l a) o = transitionsOf s.commits o := by
  unfold commitsAfter
  split_ifs
  · exact transitionsOf_cons_of_ne hne s.commits
  · rfl

lemma fenced_commitsAfter (h : ∀ c ∈ s.commits, c.Fenced store) {a : WriteAnswer E}
    (ha : store.Answers write lease a s.row row) (ss : ℕ) :
    ∀ c ∈ commitsAfter s ss write lease a, c.Fenced store := by
  unfold TaskStore.Answers at ha
  unfold commitsAfter
  split_ifs at ha ⊢
  · exact forall_mem_cons.mpr ⟨store.fenced ha ss _, h⟩
  · exact h

lemma ExecutionPhase.outcome_of_write (h : p.write = some write) : p ≠ .dropped ∧ p.outcome = {} := by
  cases p with
  | activating => cases h
  | processing => cases h
  | stopping r => cases h
  | returned r => cases h
  | dropped => cases h
  | completing tr => exact ⟨nofun, rfl⟩
  | acknowledging => exact ⟨nofun, rfl⟩
  | writing c => exact ⟨nofun, rfl⟩

lemma ExecutionCall.Counts.accounted {tr : Option TaskTransition} (h : call.Counts c' tr)
    (hn : call.transitions = []) : Accounted tr.toList c'.transitions c'.phase.outcome := by
  obtain ⟨-, ht, ho⟩ := h
  rw [ht, ho, hn]
  cases tr with
  | none => exact .inl ⟨rfl, rfl, rfl⟩
  | some tr => exact .inr ⟨tr, rfl, rfl, rfl⟩

lemma ExecutionInv.update (h : ExecutionInv store s) {c : List (TaskCommit σ)}
    (ho : ∀ o, session ≠ o → transitionsOf c o = transitionsOf s.commits o)
    (ha : c'.phase ≠ .dropped → Accounted (transitionsOf c session) c'.transitions c'.phase.outcome)
    (hj : c'.Joined) (hf : ∀ cm ∈ c, cm.Fenced store) :
    ExecutionInv store ⟨row, update s.calls session (some c'), c⟩ where
  accounted := by
    refine Table.forall_update ha ?_
    intro o call hne hc
    rw [ho o hne.symm]
    exact h.accounted o call hc
  joined := Table.forall_update hj fun o call _ => h.joined o call
  fresh := by
    intro o hn
    obtain ⟨-, ⟨⟩⟩ | ⟨hne, hn⟩ := Table.update_eq_iff.mp hn
    exact (ho o hne.symm).trans (h.fresh o hn)
  fenced := hf

/-- **One step** keeps the invariant. -/
theorem ExecutionInv.step (h : ExecutionInv store s) (hs : ExecutionStep hooks config store s e t) :
    ExecutionInv store t := by
  cases hs with
  | environment l => exact { h with }
  | @called session f ts lease sh now =>
    refine h.update (fun _ _ => rfl) ?_ ?_ h.fenced
    · intro _
      rw [h.fresh session f]
      unfold start
      split_ifs
      · exact .inl ⟨rfl, rfl, rfl⟩
      · exact .inl ⟨rfl, rfl, rfl⟩
    · unfold start
      split_ifs
      · exact .of_ne nofun nofun
      · exact .of_ne nofun nofun
  | @went session e call c' r g =>
    refine h.update (fun _ _ => rfl) ?_ (callStep_joined g (h.joined _ _ r)) h.fenced
    intro hk
    obtain ⟨ht, -, hd | ⟨hne, ho⟩⟩ := callStep_counts g
    · exact absurd hd hk
    · rw [ht, ho]
      exact h.accounted session call r hne
  | @wrote session call write a row now r ak an =>
    obtain ⟨hk, ho⟩ := ExecutionPhase.outcome_of_write ak
    have hbef := h.accounted session call r hk
    rw [ho] at hbef
    obtain ⟨hn, hu⟩ := hbef.eq_nil
    have hcounts : call.Counts (call.answered hooks config a.result now) (write.told a.result) :=
      answered_counts ak a.result now
    refine h.update ?_ ?_ ?_ ?_
    · exact fun o hne => transitionsOf_commitsAfter_of_ne hne write call.lease a
    · intro _
      rw [transitionsOf_commitsAfter, hn, append_nil]
      exact hcounts.accounted hu
    · exact answered_joined ak a.result now
    · exact fenced_commitsAfter h.fenced an session
  | @abandoned session call write row r ak c =>
    refine h.update ?_ (fun hk => absurd rfl hk) (.of_ne nofun nofun) ?_
    · exact fun o hne => transitionsOf_cons_of_ne hne s.commits
    · exact forall_mem_cons.mpr ⟨store.fenced c session false, h.fenced⟩

/-! ## Superseded calls -/

lemma TaskStore.Answers.token {a : WriteAnswer E} {row' : σ}
    (h : store.Answers write lease a row row') : store.processingToken row' = store.processingToken row := by
  unfold TaskStore.Answers at h
  split_ifs at h
  · exact (store.current h).2
  · rw [h]

/-- From one state to another, tokens do not decrease, and what is committed is committed under no lease that
was superseded before. -/
def Later (store : TaskStore σ) (s t : ExecutionSystem σ Task E) : Prop :=
  store.processingToken s.row ≤ store.processingToken t.row ∧
    ∃ later, t.commits = later ++ s.commits ∧
      ∀ commit ∈ later, store.processingToken s.row ≤ commit.lease.processingToken

lemma Later.refl (s : ExecutionSystem σ Task E) : Later store s s :=
  ⟨le_rfl, [], rfl, forall_mem_nil _⟩

lemma Later.trans {s t u : ExecutionSystem σ Task E} (h : Later store s t) (h' : Later store t u) :
    Later store s u := by
  obtain ⟨ht, l, hc, hcr⟩ := h
  obtain ⟨ht', l', hc', hcr'⟩ := h'
  refine ⟨ht.trans ht', l' ++ l, ?_, ?_⟩
  · rw [hc', hc, append_assoc]
  · intro c hm
    obtain hm | hm := mem_append.mp hm
    · exact ht.trans (hcr' c hm)
    · exact hcr c hm

lemma later_step (hs : ExecutionStep hooks config store s e t) : Later store s t := by
  cases hs with
  | environment l => exact ⟨l, [], rfl, forall_mem_nil _⟩
  | called f ts lease sh now => exact .refl s
  | went r g => exact .refl s
  | @wrote session call write an row now r ak a =>
    refine ⟨a.token.ge, ?_⟩
    unfold TaskStore.Answers at a
    unfold commitsAfter
    split_ifs at a ⊢
    · refine ⟨[_], rfl, ?_⟩
      rintro cm (_ | ⟨_, ⟨⟩⟩)
      exact (store.current a).1.le
    · exact ⟨[], rfl, forall_mem_nil _⟩
  | @abandoned session call write row r ak c =>
    obtain ⟨hc, hk⟩ := store.current c
    refine ⟨hk.ge, [_], rfl, ?_⟩
    rintro cm (_ | ⟨_, ⟨⟩⟩)
    exact hc.le

/-! ## Every run -/

/-- **The fence of claimed tasks.**  Whatever calls of one task do in whatever order, with any answers and
failures of a store that has its fences, and whatever else happens to the row, as long as its token does not
decrease: a call that has returned has counted one transition, which is the only one that it was told that the
store has committed, and has recorded that once, or it has neither counted nor recorded any and was told of
none; its heartbeat is stopped and has ended.  Whatever is committed finds its own token in the row, a
cancellation finds its request, and a retry, a failure or a release finds none.  And once a lease is superseded
nothing is committed under it any more. -/
theorem claimedTask_fenced {events : List (ExecutionEvent σ Task E)} (hinitial : s.Initial)
    (hrun : Run (ExecutionStep hooks config store) s events t) :
    (∀ session call result, t.calls session = some call → call.phase = .returned result →
      Accounted (transitionsOf t.commits session) call.transitions call.phase.outcome ∧
        call.heartbeat = { stopToken := true, running := false }) ∧
    (∀ commit ∈ t.commits, commit.Fenced store) ∧
    ∀ events' u, Run (ExecutionStep hooks config store) t events' u →
      ∃ later, u.commits = later ++ t.commits ∧
        ∀ commit ∈ later, ¬ commit.lease.processingToken < store.processingToken t.row := by
  have hinv : ExecutionInv store t := by
    refine hrun.invariant (fun _ _ _ h hs => h.step hs) ?_
    obtain ⟨hi, hn⟩ := hinitial
    have habs : ∀ session call, s.calls session ≠ some call := by
      intro session call hc
      rw [hi session] at hc
      cases hc
    refine ⟨?_, ?_, ?_, ?_⟩
    · exact fun session call hc => absurd hc (habs session call)
    · exact fun session call hc => absurd hc (habs session call)
    · intro session _
      rw [hn]
      rfl
    · rw [hn]
      exact nofun
  refine ⟨?_, hinv.fenced, ?_⟩
  · intro session call result hc hp
    have hkept : call.phase ≠ .dropped := by
      rw [hp]
      exact nofun
    obtain ⟨hst, he⟩ := hinv.joined session call hc
    refine ⟨hinv.accounted session call hc hkept, ?_⟩
    have hstopToken := hst result (.inr hp)
    have hrunn := he result hp
    cases hheartbeat : call.heartbeat with
    | mk stopToken running =>
      rw [hheartbeat] at hstopToken hrunn
      cases hstopToken
      cases hrunn
      rfl
  · intro events' u hr'
    have hlater : Later store t u :=
      hr'.related (I := fun _ => True) (R := Later store) Later.refl (fun _ _ _ => Later.trans)
        (fun _ _ _ _ _ => trivial) (fun _ _ _ _ hs => later_step hs) trivial
    obtain ⟨-, later, hcm, hcr⟩ := hlater
    exact ⟨later, hcm, fun commit hm => not_lt.mpr (hcr commit hm)⟩

/-! ## A store -/

inductive TaskStatus
  | processing
  | retry
  | succeeded
  | failed
  | canceled

structure TaskRow where
  processingToken : ℤ
  status : TaskStatus
  cancellationRequested : Bool

/-- A store of rows with a status, whose writes check the token, the status and the request at once. -/
def rowStore : TaskStore TaskRow where
  processingToken := TaskRow.processingToken
  executable row := row.status = .processing
  succeeded row := row.status = .succeeded
  cancellationRequested row := row.cancellationRequested = true
  commits write lease row row' := row.processingToken = lease.processingToken ∧
    match write with
    | .cancelTaskIfRequested =>
      row.status = .processing ∧ row.cancellationRequested = true ∧ row' = { row with status := .canceled }
    | .completion .confirmTaskSucceeded => row.status = .succeeded ∧ row' = row
    | .completion (.markTaskFailed _) =>
      row.status = .processing ∧ row.cancellationRequested = false ∧ row' = { row with status := .failed }
    | .completion (.markTaskRetry _) | .completion .releaseTaskForShutdown =>
      row.status = .processing ∧ row.cancellationRequested = false ∧ row' = { row with status := .retry }
  current := by
    rintro (_ | _ | _ | _ | _) lease row row' ⟨hcurrent, hwrite⟩
    · exact ⟨hcurrent, hwrite.2.2 ▸ rfl⟩
    · exact ⟨hcurrent, hwrite.2 ▸ rfl⟩
    · exact ⟨hcurrent, hwrite.2.2 ▸ rfl⟩
    · exact ⟨hcurrent, hwrite.2.2 ▸ rfl⟩
    · exact ⟨hcurrent, hwrite.2.2 ▸ rfl⟩
  requested := fun h => h.2.2.1
  confirmed := fun h => h.2
  unrequested := by
    rintro (_ | _ | _ | _) lease row row' ⟨-, hwrite⟩ hne
    · exact absurd rfl hne
    · exact ⟨hwrite.1, Bool.eq_false_iff.mp hwrite.2.1⟩
    · exact ⟨hwrite.1, Bool.eq_false_iff.mp hwrite.2.1⟩
    · exact ⟨hwrite.1, Bool.eq_false_iff.mp hwrite.2.1⟩

/-- A body that fails under a lease that was superseded while it ran, and one that fails under the lease that
superseded it and is retried. -/
theorem claimedTask_fenced_takeover :
    let hooks : TaskHooks Unit Unit := ⟨fun _ => false, fun _ => 0, fun _ => 3, fun _ => (), fun _ => false,
      fun _ => false, fun _ => false, fun _ => false, fun _ _ => .auto, fun _ => [], id, fun _ _ => none⟩
    let config : ClaimedTaskExecutionConfig := ⟨50 * second, fun _ => 5⟩
    ∃ t : ExecutionSystem TaskRow Unit Unit, t.row = ⟨2, .retry, false⟩ ∧
      (∀ session call result, t.calls session = some call → call.phase = .returned result →
        Accounted (transitionsOf t.commits session) call.transitions call.phase.outcome ∧
          call.heartbeat = { stopToken := true, running := false }) ∧
      (∀ commit ∈ t.commits, commit.Fenced rowStore) ∧
      ∀ events' u, Run (ExecutionStep hooks config rowStore) t events' u →
        ∃ later, u.commits = later ++ t.commits ∧
          ∀ commit ∈ later, ¬ commit.lease.processingToken < rowStore.processingToken t.row := by
  intro hooks config
  let start : ExecutionSystem TaskRow Unit Unit := ⟨⟨1, .processing, false⟩, fun _ => none, []⟩
  have hrun : Run (ExecutionStep hooks config rowStore) start
      [.called 0 () ⟨7, 1⟩ false 0, .went 0 (.activated 0), .environment ⟨2, .processing, false⟩,
        .called 1 () ⟨7, 2⟩ false 0, .went 1 (.activated 0), .went 0 (.processed (.error ())),
        .went 1 (.processed (.error ())), .wrote 0 .refused 0, .wrote 1 .refused 0, .wrote 0 .refused 0,
        .wrote 1 .committed 0, .wrote 0 .refused 0, .went 0 .heartbeatStopped, .went 0 .joined,
        .went 1 .heartbeatStopped, .went 1 .joined] _ :=
    .cons (.called rfl _ _ _ _) <| .cons (.went rfl (.activated _ rfl)) <| .cons (.environment (by decide)) <|
      .cons (.called rfl _ _ _ _) <| .cons (.went rfl (.activated _ rfl)) <|
      .cons (.went rfl (.processed _ rfl)) <| .cons (.went rfl (.processed _ rfl)) <|
      .cons (.wrote _ rfl rfl rfl) <| .cons (.wrote _ rfl rfl rfl) <| .cons (.wrote _ rfl rfl rfl) <|
      .cons (.wrote _ rfl rfl ⟨rfl, rfl, rfl, rfl⟩) <| .cons (.wrote _ rfl rfl rfl) <|
      .cons (.went rfl (.heartbeatStopped rfl rfl)) <| .cons (.went rfl (.joined rfl rfl)) <|
      .cons (.went rfl (.heartbeatStopped rfl rfl)) <| .cons (.went rfl (.joined rfl rfl)) <| .nil _
  exact ⟨_, rfl, claimedTask_fenced ⟨fun _ => rfl, rfl⟩ hrun⟩

end AsterForge.Tasks
