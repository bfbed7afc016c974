import AsterForge.Library.Runs
import AsterForge.Tasks.Consumer
/-!
# What a consumer does with its tasks
The loop of a consumer acts on what comes first, in whatever order.  What each of its actions does to what it
counts, and to what was ever handed to its futures, is said once; the results about whole runs follow.
* `HandedOut` — what becomes of the tasks of a claim: the first ones are executed, the rest are released.
* **`taskConsumer_conserves`** — claims in flight, the fate of every task, the limit, the stop, and the final
  statistics.
* **`taskConsumer_counterexample`** — what has returned in the last moment is counted as abandoned.
-/
namespace AsterForge.Tasks
open Library JoinSet Option
variable {Task E : Type}
/-! ## Handing out the tasks of a claim -/
namespace ConsumerRuntime
structure HandedOut (r r' : ConsumerRuntime Task E) (executed released : List Task) : Prop where
  spawned : r'.executing.spawned = r.executing.spawned ++ executed
  len : r'.executing.len = r.executing.len + executed.length
  joined : r'.executing.joined = r.executing.joined
  discarded : r'.executing.discarded = r.executing.discarded
  releasing : r'.releasing.spawned = r.releasing.spawned ++ released
  claiming : r'.claiming = r.claiming
  phase : r'.phase = r.phase
  claimed : r'.report.stats.claimed = r.report.stats.claimed + executed.length
  executionErrors : r'.report.executionErrors = r.report.executionErrors
  abandoned : r'.report.abandoned = r.report.abandoned
lemma HandedOut.nil (r : ConsumerRuntime Task E) : HandedOut r r [] [] := by
  constructor <;> simp
variable {r r' : ConsumerRuntime Task E} {tk : Task} {re : List Task}
lemma HandedOut.execute {e : List Task} (h : HandedOut (r.spawnExecution tk) r' e re) :
    HandedOut r r' (tk :: e) re where
  spawned := by simpa [spawnExecution] using h.spawned
  len := by
    have hlen := h.len
    simp only [spawnExecution, len_spawn] at hlen
    rw [List.length_cons]
    omega
  __ := h
  claimed := by
    have hclaimed := h.claimed
    simp only [spawnExecution] at hclaimed
    rw [List.length_cons]
    omega
lemma HandedOut.release (h : HandedOut (r.spawnRelease tk) r' [] re) : HandedOut r r' [] (tk :: re) where
  __ := h
  releasing := by simpa [spawnRelease] using h.releasing
variable {c : ℕ → Bool}
lemma handOut_refused (hm : ∀ l, c l = true → c (l + 1) = true)
    {a : ℕ} (ts : List Task) (i : ℕ) (r : ConsumerRuntime Task E)
    (h : (r.phase.stopping || c i || decide (a ≤ i)) = true) : HandedOut r (handOut c a i ts r) [] ts := by
  induction ts generalizing i r with
  | nil => exact .nil r
  | cons tk ts ih =>
    have hnext : ((r.spawnRelease tk).phase.stopping || c (i + 1) ||
        decide (a ≤ i + 1)) = true := by
      simp only [Bool.or_eq_true, decide_eq_true_eq] at h ⊢
      rcases h with (hs | hc) | ha
      · exact .inl (.inl hs)
      · exact .inl (.inr (hm i hc))
      · exact .inr (Nat.le_succ_of_le ha)
    rw [handOut, if_pos h]
    exact (ih (i + 1) (r.spawnRelease tk) hnext).release
/-- **The tasks of a claim.**  The first ones are executed, as long as the consumer has room, is not stopping
and sees no cancellation; the rest are released. -/
theorem handOut_spec (hm : ∀ l, c l = true → c (l + 1) = true)
    (a : ℕ) (ts : List Task) (i : ℕ) (r : ConsumerRuntime Task E) :
    ∃ e re, ts = e ++ re ∧ HandedOut r (handOut c a i ts r) e re ∧
      ∀ l, i ≤ l → l < i + e.length → r.phase.stopping = false ∧ c l = false ∧ l < a := by
  induction ts generalizing i r with
  | nil =>
    refine ⟨[], [], rfl, .nil r, ?_⟩
    intro l hi hl
    simp only [List.length_nil] at hl
    omega
  | cons tk ts ih =>
    by_cases h : (r.phase.stopping || c i || decide (a ≤ i)) = true
    · refine ⟨[], tk :: ts, rfl, handOut_refused hm (tk :: ts) i r h, ?_⟩
      intro l hi hl
      simp only [List.length_nil] at hl
      omega
    · obtain ⟨e, re, ht, ho, hlk⟩ := ih (i + 1) (r.spawnExecution tk)
      rw [handOut, if_neg h]
      refine ⟨tk :: e, re, by rw [ht, List.cons_append], ho.execute, ?_⟩
      simp only [Bool.or_eq_true, decide_eq_true_eq, not_or, Bool.not_eq_true, not_le] at h
      intro l hi hl
      rw [List.length_cons] at hl
      by_cases hfirst : l = i
      · subst hfirst
        exact ⟨h.1.1, h.1.2, h.2⟩
      · exact hlk l (by omega) (by omega)
def tasksOf : Except JoinError (Except E (List Task)) → List Task
  | .ok (.ok tasks) => tasks
  | .ok (.error _) | .error _ => []
lemma completedClaim_tasks (r : ConsumerRuntime Task E) (rs : ℕ) (ts : List Task) (cancelled : ℕ → Bool)
    (rd : ConsumerReadings) (now : ℕ) :
    ∃ st np b, r.completedClaim rs (.ok (.ok ts)) cancelled rd now =
      { handOut cancelled (min rs (rd.concurrency - r.executing.len)) 0 ts
          { r with status := r.status.observeAvailable true } with
        status := st, nextPoll := np, backoff := b } := by
  simp only [completedClaim]
  generalize (if (!ts.isEmpty) = true then BackgroundTaskDispatchIteration.active
    else BackgroundTaskDispatchIteration.idle) = iteration
  split
  · exact ⟨_, _, _, rfl⟩
  · exact ⟨_, _, _, rfl⟩
/-- **A claim that is handled**, whatever it came to. -/
theorem completedClaim_spec (hm : ∀ l, c l = true → c (l + 1) = true) (r : ConsumerRuntime Task E)
    (rs : ℕ) (rl : Except JoinError (Except E (List Task))) (rd : ConsumerReadings) (now : ℕ) :
    ∃ e re, tasksOf rl = e ++ re ∧ HandedOut r (r.completedClaim rs rl c rd now) e re ∧
      ∀ l, l < e.length → r.phase.stopping = false ∧ c l = false ∧
        l < min rs (rd.concurrency - r.executing.len) := by
  have hfail : HandedOut r (r.failedClaim rd now) [] [] := by
    constructor <;> simp [failedClaim, recordIteration]
  match rl with
  | .error _ => exact ⟨[], [], rfl, hfail, fun _ h => absurd h (Nat.not_lt_zero _)⟩
  | .ok (.error _) => exact ⟨[], [], rfl, hfail, fun _ h => absurd h (Nat.not_lt_zero _)⟩
  | .ok (.ok tasks) =>
    obtain ⟨e, re, ht, ho, hl⟩ :=
      handOut_spec hm (min rs (rd.concurrency - r.executing.len)) tasks 0
        { r with status := r.status.observeAvailable true }
    refine ⟨e, re, ht, ?_, ?_⟩
    · obtain ⟨st, np, b, heq⟩ := r.completedClaim_tasks rs tasks c rd now
      rw [heq]
      exact { ho with }
    · intro l hlk
      exact hl l (Nat.zero_le _) (by omega)
/-! ## What a step does -/
def returnedOk {ι α : Type} (entry : ι × Except JoinError (Except E α)) : Bool :=
  match entry.2 with
  | .ok (.ok _) => true
  | .ok (.error _) | .error _ => false
/-- Nothing was spawned or joined that counts. -/
structure SameBooks (r r' : ConsumerRuntime Task E) : Prop where
  spawned : r'.executing.spawned = r.executing.spawned
  len : r'.executing.len = r.executing.len
  joined : r'.executing.joined = r.executing.joined
  discarded : r'.executing.discarded = r.executing.discarded
  claims : r'.claiming.len ≤ r.claiming.len
  claimed : r'.claiming.joined = r.claiming.joined
  releasing : r'.releasing.spawned = r.releasing.spawned
  stats : r'.report.stats.claimed = r.report.stats.claimed
  executionErrors : r'.report.executionErrors = r.report.executionErrors
  abandoned : r'.report.abandoned = r.report.abandoned
lemma SameBooks.refl (r : ConsumerRuntime Task E) : SameBooks r r := by
  constructor <;> simp
lemma idle_iff (r : ConsumerRuntime Task E) :
    r.idle = true ↔ r.executing.len = 0 ∧ r.claiming.len = 0 ∧ r.releasing.len = 0 := by
  rw [idle, Bool.and_eq_true, Bool.and_eq_true, JoinSet.isEmpty_iff, JoinSet.isEmpty_iff, JoinSet.isEmpty_iff,
    and_assoc]
end ConsumerRuntime
open ConsumerRuntime
namespace ConsumerSystem
def Looping (s : ConsumerSystem Task E) : Prop := s.position = .head ∨ s.position = .selecting
/-- What a step may do: nothing that counts; go around; begin a claim; count an execution that has ended; hand
out the tasks of a claim; give up on what is left, and drop it; end. -/
inductive ConsumerAction (s t : ConsumerSystem Task E) : Prop
  | quiet (books : SameBooks s.runtime t.runtime) (position : t.position = s.position)
      (idle : s.runtime.idle = true → t.runtime.idle = true)
  | loops (books : SameBooks s.runtime t.runtime) (before : s.Looping) (after : t.Looping)
  | polled (executing : t.runtime.executing = s.runtime.executing) (free : s.runtime.claiming.len = 0)
      (claims : t.runtime.claiming.len = 1) (claimed : t.runtime.claiming.joined = s.runtime.claiming.joined)
      (releasing : t.runtime.releasing = s.runtime.releasing) (report : t.runtime.report = s.runtime.report)
      (before : s.Looping) (after : t.Looping)
  | counted (entry : Task × Except JoinError (Except E TaskDispatchOutcome))
      (spawned : t.runtime.executing.spawned = s.runtime.executing.spawned)
      (joined : t.runtime.executing.joined = s.runtime.executing.joined ++ [entry])
      (discarded : t.runtime.executing.discarded = s.runtime.executing.discarded)
      (claiming : t.runtime.claiming = s.runtime.claiming) (releasing : t.runtime.releasing = s.runtime.releasing)
      (stats : t.runtime.report.stats.claimed = s.runtime.report.stats.claimed)
      (executionErrors : t.runtime.report.executionErrors =
        s.runtime.report.executionErrors + if returnedOk entry then 0 else 1)
      (abandoned : t.runtime.report.abandoned = s.runtime.report.abandoned)
      (before : s.Looping) (after : t.Looping)
  | handedOut (claiming : JoinSet ℕ (Except E (List Task))) (reserved : ℕ)
      (result : Except JoinError (Except E (List Task))) (executed released : List Task)
      (claims : s.runtime.claiming.len = claiming.len + 1)
      (claimed : claiming.joined = s.runtime.claiming.joined ++ [(reserved, result)])
      (tasks : tasksOf result = executed ++ released)
      (out : HandedOut { s.runtime with claiming := claiming } t.runtime executed released)
      (before : s.Looping) (after : t.Looping)
  | gaveUp (executing : t.runtime.executing = s.runtime.executing)
      (claiming : t.runtime.claiming = s.runtime.claiming) (releasing : t.runtime.releasing = s.runtime.releasing)
      (stats : t.runtime.report.stats = s.runtime.report.stats)
      (executionErrors : t.runtime.report.executionErrors = s.runtime.report.executionErrors)
      (abandoned : t.runtime.report.abandoned = s.runtime.executing.len)
      (before : s.Looping) (after : t.position = .abandoning)
  | dropped (spawned : t.runtime.executing.spawned = s.runtime.executing.spawned)
      (len : s.runtime.executing.len = t.runtime.executing.len + 1)
      (joined : t.runtime.executing.joined = s.runtime.executing.joined)
      (discarded : t.runtime.executing.discarded.length = s.runtime.executing.discarded.length + 1)
      (claiming : t.runtime.claiming = s.runtime.claiming) (releasing : t.runtime.releasing = s.runtime.releasing)
      (report : t.runtime.report = s.runtime.report)
      (before : s.position = .abandoning) (after : t.position = .abandoning)
  | finished (books : SameBooks s.runtime t.runtime) (idle : t.runtime.idle = true)
      (before : s.position ≠ .ended) (after : t.position = .ended)
variable {s t : ConsumerSystem Task E}
lemma cancelledAtLook_mono (s : ConsumerSystem Task E) (ca : Option ℕ) (l : ℕ)
    (h : s.cancelledAtLook ca l = true) : s.cancelledAtLook ca (l + 1) = true := by
  simp only [cancelledAtLook, Bool.or_eq_true, any_eq_true, decide_eq_true_eq] at h ⊢
  rcases h with hs | ⟨first, hf, hle⟩
  · exact .inl hs
  · exact .inr ⟨first, hf, by omega⟩
lemma action_of_iterated (hp : s.position = .head) : ConsumerAction s s.iterated := by
  have hloop : s.Looping := .inl hp
  unfold iterated
  split_ifs with hdone hstop
  · rw [Bool.and_eq_true] at hdone
    refine .finished ?_ hdone.2 ?_ rfl
    · constructor <;> simp [finish]
    · rw [hp]
      decide
  · refine .loops ?_ hloop (.inl rfl)
    constructor <;> simp [drains, again, drain]
  · exact .loops (.refl _) hloop (.inr rfl)
variable {event : ConsumerEvent Task E}
lemma action_of_selected (hp : s.position = .selecting) (h : s.selected event = some t) : ConsumerAction s t := by
  have hloop : s.Looping := .inr hp
  cases event with
  | drain =>
    obtain ⟨-, ⟨⟩⟩ := ite_none_right_eq_some.mp h
    refine .loops ?_ hloop (.inl rfl)
    constructor <;> simp [drains, again, ConsumerRuntime.drain]
  | expire =>
    obtain ⟨-, ⟨⟩⟩ := ite_none_right_eq_some.mp h
    unfold expired
    split
    · refine .loops ?_ hloop (.inl rfl)
      constructor <;> simp [again, cancel]
    · exact .gaveUp rfl rfl rfl rfl rfl rfl hloop rfl
    · exact .gaveUp rfl rfl rfl rfl rfl rfl hloop rfl
  | joinExecution i rd =>
    obtain ⟨⟨task, rs, ex⟩, hj, rfl⟩ := map_eq_some_iff.mp h
    obtain ⟨hl, hs, hjn, hd⟩ := JoinSet.joinNext_eq_some hj
    refine .counted (task, rs) hs hjn hd rfl rfl ?_ ?_ ?_ hloop (.inl rfl)
    all_goals
      match rs with
      | .ok (.ok _) => rfl
      | .ok (.error _) => rfl
      | .error _ => rfl
  | joinClaim i ca rd =>
    obtain ⟨⟨rr, rs, c⟩, hj, rfl⟩ := map_eq_some_iff.mp h
    obtain ⟨hl, -, hjn, -⟩ := JoinSet.joinNext_eq_some hj
    obtain ⟨e, released, ht, ho, -⟩ := completedClaim_spec (s.cancelledAtLook_mono ca)
      { s.runtime with claiming := c } rr rs rd s.now
    exact .handedOut c rr rs e released hl hjn ht ho hloop (.inl rfl)
  | joinRelease i =>
    obtain ⟨⟨task, rs, rl⟩, hj, rfl⟩ := map_eq_some_iff.mp h
    obtain ⟨-, hs, -, -⟩ := JoinSet.joinNext_eq_some hj
    refine .loops ?_ hloop (.inl rfl)
    match rs with
    | .ok (.ok _) | .ok (.error _) | .error _ =>
      constructor <;> simp [again, completedRelease, hs]
  | poll rd =>
    simp only [selected, ite_none_right_eq_some, some.injEq, Bool.and_eq_true] at h
    obtain ⟨⟨ha, -⟩, rfl⟩ := h
    simp only [acquiring, Bool.and_eq_true, JoinSet.isEmpty_iff] at ha
    by_cases havailable : 0 < rd.concurrency - s.runtime.executing.len
    · have hpoll : s.runtime.poll rd s.now = { s.runtime with
          claiming := s.runtime.claiming.spawn (rd.concurrency - s.runtime.executing.len) } :=
        if_pos havailable
      refine .polled ?_ ha.2 ?_ ?_ ?_ ?_ hloop (.inl rfl)
      all_goals simp [again, hpoll, ha.2]
    · refine .loops ?_ hloop (.inl rfl)
      simp only [again, ConsumerRuntime.poll, if_neg havailable]
      split
      · constructor <;> simp [recordIteration]
      · constructor <;> simp [recordIteration]
  | wake rd =>
    obtain ⟨-, ⟨⟩⟩ := ite_none_right_eq_some.mp h
    refine .loops ?_ hloop (.inl rfl)
    constructor <;> simp [again, awakened, recordIteration]
  | _ => cases h
variable {rn : ConsumerRuntime Task E}
lemma action_of_dropped (hp : s.position = .abandoning) (h : s.dropped event = some rn) :
    ConsumerAction s { s with runtime := rn } := by
  cases event with
  | dropExecution i =>
    obtain ⟨e, hd, rfl⟩ := map_eq_some_iff.mp h
    obtain ⟨hl, hs, hj, hds⟩ := discardNext_eq_some hd
    exact .dropped hs hl hj hds rfl rfl rfl hp hp
  | dropClaim i =>
    simp only [ConsumerSystem.dropped, ite_none_right_eq_some, map_eq_some_iff] at h
    obtain ⟨-, c, hd, rfl⟩ := h
    obtain ⟨hl, -, hj, -⟩ := discardNext_eq_some hd
    refine .quiet ?_ rfl ?_
    · constructor <;> simp [hj, hl]
    · intro hi
      have hempty := (idle_iff _).mp hi
      omega
  | dropRelease i =>
    simp only [ConsumerSystem.dropped, ite_none_right_eq_some, map_eq_some_iff] at h
    obtain ⟨-, rl, hd, rfl⟩ := h
    obtain ⟨hl, hs, -, -⟩ := discardNext_eq_some hd
    refine .quiet ?_ rfl ?_
    · constructor <;> simp [hs]
    · intro hi
      have hempty := (idle_iff _).mp hi
      omega
  | _ => cases h
lemma act_eq_some (h : s.act s.position event = some t) : s.position = .head ∧ event = .iterate ∧ t = s.iterated ∨
    s.position = .selecting ∧ s.selected event = some t ∨
    s.position = .abandoning ∧ event = .shutDown ∧ s.runtime.idle = true ∧ t = s.finish ∨
    s.position = .abandoning ∧ ∃ rn, s.dropped event = some rn ∧ t = { s with runtime := rn } := by
  match hpos : s.position with
  | .head =>
    rw [hpos] at h
    cases event with
    | iterate =>
      cases h
      exact .inl ⟨rfl, rfl, rfl⟩
    | _ => cases h
  | .selecting =>
    rw [hpos] at h
    exact .inr (.inl ⟨rfl, h⟩)
  | .abandoning =>
    rw [hpos] at h
    cases event with
    | shutDown =>
      simp only [act, ite_none_right_eq_some, some.injEq] at h
      exact .inr (.inr (.inl ⟨rfl, rfl, h.1, h.2.symm⟩))
    | _ =>
      simp only [act, map_eq_some_iff] at h
      obtain ⟨rn, hd, rfl⟩ := h
      exact .inr (.inr (.inr ⟨rfl, rn, hd, by rw [hpos]⟩))
  | .ended =>
    rw [hpos] at h
    cases event <;> cases h
lemma action_of_act (h : s.act s.position event = some t) : ConsumerAction s t := by
  rcases act_eq_some h with ⟨hp, -, rfl⟩ | ⟨hp, hs⟩ | ⟨hp, -, hi, rfl⟩ | ⟨hp, rn, hdrop, rfl⟩
  · exact action_of_iterated hp
  · exact action_of_selected hp hs
  · refine .finished ?_ hi ?_ rfl
    · constructor <;> simp [finish]
    · rw [hp]
      decide
  · exact action_of_dropped hp hdrop
/-- **What a step does** to claims, executions, releases and counts. -/
theorem action_of_next (h : s.next event = some t) : ConsumerAction s t := by
  cases event with
  | stopClaiming | notify | elapse _ =>
    cases h
    exact .quiet (.refl _) rfl id
  | executionEnds i o =>
    obtain ⟨e, hs, rfl⟩ := map_eq_some_iff.mp h
    obtain ⟨hl, hsp, hj, hd⟩ := settle_eq_some hs
    refine .quiet ⟨hsp, hl, hj, hd, le_rfl, rfl, rfl, rfl, rfl, rfl⟩ rfl ?_
    simp [idle_iff, hl]
  | claimEnds i o =>
    obtain ⟨c, hs, rfl⟩ := map_eq_some_iff.mp h
    obtain ⟨hl, -, hj, -⟩ := settle_eq_some hs
    refine .quiet ⟨rfl, rfl, rfl, rfl, hl.le, hj, rfl, rfl, rfl, rfl⟩ rfl ?_
    simp [idle_iff, hl]
  | releaseEnds i o =>
    obtain ⟨rl, hs, rfl⟩ := map_eq_some_iff.mp h
    obtain ⟨hl, hsp, -, -⟩ := settle_eq_some hs
    refine .quiet ⟨rfl, rfl, rfl, rfl, le_rfl, rfl, hsp, rfl, rfl, rfl⟩ rfl ?_
    simp [idle_iff, hl]
  | _ => exact action_of_act h
/-! ## The books -/
def claimedTasks (s : ConsumerSystem Task E) : List Task :=
  s.runtime.claiming.joined.flatMap fun entry => tasksOf entry.2
/-- The executions that were seen to return without an error. -/
def countedOk (s : ConsumerSystem Task E) : ℕ := s.runtime.executing.joined.countP returnedOk
/-- **The books of a consumer.**  At most one claim is in flight; every task of a claim went to an execution or
to a release; every execution was counted when it was joined, or was counted as abandoned, or goes on. -/
structure Settled (s : ConsumerSystem Task E) : Prop where
  claims : s.runtime.claiming.len ≤ 1
  tasks : s.claimedTasks.Perm (s.runtime.executing.spawned ++ s.runtime.releasing.spawned)
  claimed : s.runtime.report.stats.claimed = s.runtime.executing.spawned.length
  joined : s.runtime.executing.joined.length = s.countedOk + s.runtime.report.executionErrors
  looping : s.Looping → s.runtime.report.abandoned = 0 ∧ s.runtime.executing.discarded = []
  abandoning : s.position = .abandoning →
    s.runtime.report.abandoned = s.runtime.executing.discarded.length + s.runtime.executing.len
  ended : s.position = .ended →
    s.runtime.idle = true ∧ s.runtime.report.abandoned = s.runtime.executing.discarded.length
lemma settled_start (status : TaskRuntimeStatus) (config : TaskConsumerConfig) (intervals : DispatchIntervals)
    (stopClaiming notified : Bool) (now : ℕ) :
    Settled (start status config intervals stopClaiming notified now : ConsumerSystem Task E) where
  claims := Nat.zero_le 1
  tasks := .nil
  claimed := rfl
  joined := rfl
  looping _ := ⟨rfl, rfl⟩
  abandoning := nofun
  ended := nofun
lemma Looping.ne {s : ConsumerSystem Task E} (h : s.Looping) : s.position ≠ .abandoning ∧ s.position ≠ .ended := by
  rcases h with h | h <;> rw [h] <;> decide
/-- A step on which nothing is spawned or joined keeps the books as far as they say nothing of the end. -/
lemma Settled.same (h : s.Settled) (b : SameBooks s.runtime t.runtime)
    (l : t.Looping → t.runtime.report.abandoned = 0 ∧ t.runtime.executing.discarded = [])
    (a : t.position = .abandoning →
      t.runtime.report.abandoned = t.runtime.executing.discarded.length + t.runtime.executing.len)
    (e : t.position = .ended →
      t.runtime.idle = true ∧ t.runtime.report.abandoned = t.runtime.executing.discarded.length) :
    t.Settled where
  claims := b.claims.trans h.claims
  tasks := by
    rw [claimedTasks, b.claimed, b.spawned, b.releasing]
    exact h.tasks
  claimed := by rw [b.stats, b.spawned, h.claimed]
  joined := by
    rw [countedOk, b.joined, b.executionErrors]
    exact h.joined
  looping := l
  abandoning := a
  ended := e
/-- **The books are kept**, by each step. -/
theorem Settled.step (h : s.Settled) (hac : ConsumerAction s t) : t.Settled := by
  cases hac with
  | quiet b p i =>
    refine h.same b ?_ ?_ ?_
    · intro hl
      rw [b.abandoned, b.discarded]
      exact h.looping (by rwa [Looping, p] at hl)
    · intro ha
      rw [b.abandoned, b.discarded, b.len]
      exact h.abandoning (p ▸ ha)
    · intro he
      rw [b.abandoned, b.discarded]
      obtain ⟨hi, hab⟩ := h.ended (p ▸ he)
      exact ⟨i hi, hab⟩
  | loops b bf a =>
    refine h.same b ?_ (fun hp => absurd hp a.ne.1) (fun hp => absurd hp a.ne.2)
    intro _
    rw [b.abandoned, b.discarded]
    exact h.looping bf
  | polled e f cm cl rl rp bf a =>
    refine ⟨cm.le, ?_, ?_, ?_, ?_, fun hp => absurd hp a.ne.1, fun hp => absurd hp a.ne.2⟩
    · rw [claimedTasks, cl, e, rl]
      exact h.tasks
    · rw [rp, e, h.claimed]
    · rw [countedOk, rp, e]
      exact h.joined
    · intro _
      rw [rp, e]
      exact h.looping bf
  | counted en sp j d c rl st ee ab bf a =>
    refine ⟨c ▸ h.claims, ?_, ?_, ?_, ?_, fun hp => absurd hp a.ne.1, fun hp => absurd hp a.ne.2⟩
    · rw [claimedTasks, c, sp, rl]
      exact h.tasks
    · rw [st, sp, h.claimed]
    · have hjoined := h.joined
      unfold countedOk at hjoined ⊢
      rw [j, ee, List.length_append, List.length_singleton, List.countP_append, List.countP_singleton]
      split <;> omega
    · intro _
      rw [ab, d]
      exact h.looping bf
  | handedOut c rs rt ex released cm cl ts out bf a =>
    refine ⟨?_, ?_, ?_, ?_, ?_, fun hp => absurd hp a.ne.1, fun hp => absurd hp a.ne.2⟩
    · have hone := h.claims
      rw [out.claiming]
      show c.len ≤ 1
      omega
    · rw [claimedTasks, out.claiming, cl, List.flatMap_append, List.flatMap_singleton, ts, out.spawned,
        out.releasing, List.append_assoc]
      have hsplit := List.perm_append_comm_assoc s.runtime.releasing.spawned ex released
      refine (h.tasks.append_right _).trans ?_
      rw [List.append_assoc]
      exact hsplit.append_left _
    · rw [out.claimed, out.spawned, List.length_append, ← h.claimed]
    · rw [countedOk, out.joined, out.executionErrors]
      exact h.joined
    · intro _
      rw [out.abandoned, out.discarded]
      exact h.looping bf
  | gaveUp e c rl st ee ab bf a =>
    refine ⟨c ▸ h.claims, ?_, ?_, ?_, ?_, ?_, ?_⟩
    · rw [claimedTasks, c, e, rl]
      exact h.tasks
    · rw [st, e, h.claimed]
    · rw [countedOk, e, ee]
      exact h.joined
    · intro hl
      exact absurd a hl.ne.1
    · intro _
      rw [ab, e, (h.looping bf).2, List.length_nil, Nat.zero_add]
    · intro he
      rw [a] at he
      cases he
  | dropped sp len j d c rl rp bf a =>
    refine ⟨c ▸ h.claims, ?_, ?_, ?_, ?_, ?_, ?_⟩
    · rw [claimedTasks, c, sp, rl]
      exact h.tasks
    · rw [rp, sp, h.claimed]
    · rw [countedOk, j, rp]
      exact h.joined
    · intro hl
      exact absurd a hl.ne.1
    · have hab := h.abandoning bf
      rw [rp]
      omega
    · intro he
      rw [a] at he
      cases he
  | finished b i bf a =>
    refine h.same b ?_ ?_ ?_
    · intro hl
      exact absurd a hl.ne.2
    · intro ha
      rw [a] at ha
      cases ha
    · intro _
      refine ⟨i, ?_⟩
      have hempty := (idle_iff _).mp i
      rw [b.len] at hempty
      rw [b.abandoned, b.discarded]
      match hp : s.position with
      | .head =>
        obtain ⟨hn, hd⟩ := h.looping (.inl hp)
        rw [hn, hd, List.length_nil]
      | .selecting =>
        obtain ⟨hn, hd⟩ := h.looping (.inr hp)
        rw [hn, hd, List.length_nil]
      | .abandoning =>
        rw [h.abandoning hp, hempty.1, Nat.add_zero]
      | .ended => exact absurd hp bf
def Reached : ConsumerSystem Task E → Prop :=
  Reachable (fun s => ∃ status config intervals stopClaiming notified now,
      s = start status config intervals stopClaiming notified now)
    fun s event t => next s event = some t
lemma Reached.settled (h : Reached s) : s.Settled := by
  refine Reachable.induction ?_ ?_ h
  · rintro s ⟨st, c, i, sc, n, now, rfl⟩
    exact settled_start st c i sc n now
  · intro s event t _ hs hst
    exact hs.step (action_of_next hst)
/-! ## The stop -/
/-- The consumer is stopping, or is about to see that it is to stop before it waits for anything. -/
def Closed (s : ConsumerSystem Task E) : Prop :=
  s.runtime.phase.stopping = true ∨ s.stopClaiming = true ∧ s.position ≠ .selecting
/-- Neither a claim nor an execution was begun. -/
structure NothingBegun (s t : ConsumerSystem Task E) : Prop where
  claims : t.runtime.claiming.spawned = s.runtime.claiming.spawned
  executions : t.runtime.executing.spawned = s.runtime.executing.spawned
lemma Closed.stopping (h : s.Closed) (hp : s.position = .selecting) : s.runtime.phase.stopping = true :=
  h.resolve_right fun hh => hh.2 hp
lemma closed_of_iterated (hc : s.Closed) : s.iterated.Closed ∧ NothingBegun s s.iterated := by
  have hs : s.runtime.phase.stopping = true ∨ s.stopClaiming = true := hc.imp_right And.left
  unfold iterated
  split_ifs with hdone hstopped
  · rw [Bool.and_eq_true] at hdone
    exact ⟨.inl hdone.1, rfl, rfl⟩
  · exact ⟨.inl rfl, rfl, rfl⟩
  · simp only [Bool.and_eq_true, Bool.not_eq_true', not_and, Bool.not_eq_true] at hstopped
    rcases hs with hst | hs
    · exact ⟨.inl hst, rfl, rfl⟩
    · refine ⟨.inl ?_, rfl, rfl⟩
      by_contra hrunn
      rw [Bool.not_eq_true] at hrunn
      rw [hstopped hrunn] at hs
      cases hs
lemma closed_of_selected (hs : s.runtime.phase.stopping = true)
    (h : s.selected event = some t) : t.Closed ∧ NothingBegun s t := by
  have hacquiring : s.acquiring = false := by simp [acquiring, hs]
  cases event with
  | drain => simp [selected, hs] at h
  | expire =>
    obtain ⟨-, ⟨⟩⟩ := ite_none_right_eq_some.mp h
    unfold expired
    split
    · exact ⟨.inl rfl, rfl, rfl⟩
    · exact ⟨.inl hs, rfl, rfl⟩
    · exact ⟨.inl hs, rfl, rfl⟩
  | joinExecution i rd =>
    obtain ⟨⟨task, rs, ex⟩, hj, rfl⟩ := map_eq_some_iff.mp h
    exact ⟨.inl hs, rfl, (joinNext_eq_some hj).2.1⟩
  | joinClaim i ca rd =>
    obtain ⟨⟨rr, rs, c⟩, hj, rfl⟩ := map_eq_some_iff.mp h
    obtain ⟨e, released, -, ho, hl⟩ := completedClaim_spec (s.cancelledAtLook_mono ca)
      { s.runtime with claiming := c } rr rs rd s.now
    -- a task would have been executed only by a consumer that is not stopping
    have hnone : e = [] := by
      rw [← List.length_eq_zero_iff]
      by_contra hsome
      have hrunn := (hl 0 (Nat.pos_of_ne_zero hsome)).1
      rw [hs] at hrunn
      cases hrunn
    refine ⟨.inl ?_, ?_, ?_⟩
    · exact (congrArg ConsumerPhase.stopping ho.phase).trans hs
    · exact (congrArg spawned ho.claiming).trans (joinNext_eq_some hj).2.1
    · exact ho.spawned.trans (by rw [hnone, List.append_nil])
  | joinRelease i =>
    obtain ⟨⟨task, rs, rl⟩, hj, rfl⟩ := map_eq_some_iff.mp h
    match rs with
    | .ok (.ok _) | .ok (.error _) | .error _ => exact ⟨.inl hs, rfl, rfl⟩
  | poll rd | wake rd => simp [selected, hacquiring] at h
  | _ => cases h
lemma nothingBegun_of_dropped (h : s.dropped event = some rn) :
    rn.phase = s.runtime.phase ∧ NothingBegun s { s with runtime := rn } := by
  cases event with
  | dropExecution i =>
    obtain ⟨e, hd, rfl⟩ := map_eq_some_iff.mp h
    exact ⟨rfl, rfl, (discardNext_eq_some hd).2.1⟩
  | dropClaim i =>
    simp only [ConsumerSystem.dropped, ite_none_right_eq_some, map_eq_some_iff] at h
    obtain ⟨-, c, hd, rfl⟩ := h
    exact ⟨rfl, (discardNext_eq_some hd).2.1, rfl⟩
  | dropRelease i =>
    simp only [ConsumerSystem.dropped, ite_none_right_eq_some, map_eq_some_iff] at h
    obtain ⟨-, rl, -, rfl⟩ := h
    exact ⟨rfl, rfl, rfl⟩
  | _ => cases h
/-- **A consumer that is closed** stays so, and begins nothing. -/
theorem Closed.next (hc : s.Closed) (h : s.next event = some t) : t.Closed ∧ NothingBegun s t := by
  cases event with
  | stopClaiming =>
    cases h
    exact ⟨hc.imp_right fun hst => ⟨rfl, hst.2⟩, rfl, rfl⟩
  | notify | elapse _ =>
    cases h
    exact ⟨hc, rfl, rfl⟩
  | executionEnds i o =>
    obtain ⟨e, hs, rfl⟩ := map_eq_some_iff.mp h
    exact ⟨hc, rfl, (settle_eq_some hs).2.1⟩
  | claimEnds i o =>
    obtain ⟨c, hs, rfl⟩ := map_eq_some_iff.mp h
    exact ⟨hc, (settle_eq_some hs).2.1, rfl⟩
  | releaseEnds i o =>
    obtain ⟨rl, -, rfl⟩ := map_eq_some_iff.mp h
    exact ⟨hc, rfl, rfl⟩
  | _ =>
    rcases act_eq_some h with ⟨-, -, rfl⟩ | ⟨hp, hsl⟩ | ⟨hp, -, -, rfl⟩ | ⟨-, rn, hdrop, rfl⟩
    · exact closed_of_iterated hc
    · exact closed_of_selected (hc.stopping hp) hsl
    · exact ⟨hc.imp_right fun hst => ⟨hst.1, by simp [finish]⟩, rfl, rfl⟩
    · obtain ⟨hph, hn⟩ := nothingBegun_of_dropped hdrop
      refine ⟨hc.imp_left fun hsp => ?_, hn⟩
      rw [hph, hsp]
/-- In its selection the loop sees that it is to stop when it is told so, or while it hands out the tasks of a
claim. -/
lemma closed_of_selected_observed (ho : ¬ s.observed = true)
    (h : s.selected event = some t) (ht : t.observed = true) : t.Closed := by
  cases event with
  | drain =>
    obtain ⟨-, ⟨⟩⟩ := ite_none_right_eq_some.mp h
    exact .inl rfl
  | expire =>
    obtain ⟨-, ⟨⟩⟩ := ite_none_right_eq_some.mp h
    refine absurd ?_ ho
    revert ht
    unfold expired
    split <;> exact id
  | joinClaim i ca rd =>
    obtain ⟨⟨rr, rs, c⟩, -, rfl⟩ := map_eq_some_iff.mp h
    simp only [joinedClaim, Bool.or_eq_true] at ht
    have hlooks := ht.resolve_left ho
    refine .inr ⟨?_, nofun⟩
    match rs with
    | .error _ | .ok (.error _) => cases hlooks
    | .ok (.ok tasks) =>
      simp only [Bool.if_false_left, cancelledAtLook, Bool.and_eq_true, Bool.or_eq_true, any_eq_true] at hlooks
      show (s.stopClaiming || ca.isSome) = true
      rw [Bool.or_eq_true]
      rcases hlooks.2 with hs | ⟨l, rfl, -⟩
      · exact .inl hs
      · exact .inr rfl
  | joinExecution _ _ | joinRelease _ =>
    obtain ⟨_, -, rfl⟩ := map_eq_some_iff.mp h
    exact absurd ht ho
  | poll _ | wake _ =>
    obtain ⟨-, ⟨⟩⟩ := ite_none_right_eq_some.mp h
    exact absurd ht ho
  | _ => cases h
lemma closed_of_observed (hs : s.observed = true → s.Closed)
    (h : s.next event = some t) (ht : t.observed = true) : t.Closed := by
  by_cases hobs : s.observed = true
  · exact ((hs hobs).next h).1
  have hacts : s.act s.position event = some t := by
    cases event with
    | stopClaiming | notify | elapse _ =>
      cases h
      exact absurd ht hobs
    | executionEnds _ _ | claimEnds _ _ | releaseEnds _ _ =>
      obtain ⟨_, -, rfl⟩ := map_eq_some_iff.mp h
      exact absurd ht hobs
    | _ => exact h
  rcases act_eq_some hacts with ⟨-, -, rfl⟩ | ⟨-, hsl⟩ | ⟨-, -, -, rfl⟩ | ⟨-, rn, -, rfl⟩
  · revert ht
    unfold iterated
    split_ifs
    · intro ht
      exact absurd ht hobs
    · intro _
      exact .inl rfl
    · intro ht
      exact absurd ht hobs
  · exact closed_of_selected_observed hobs hsl ht
  · exact absurd ht hobs
  · exact absurd ht hobs
lemma Reached.closed (h : Reached s) (ho : s.observed = true) : s.Closed := by
  revert ho
  refine Reachable.induction (I := fun s => s.observed = true → s.Closed) ?_ ?_ h
  · rintro s ⟨st, c, i, sc, n, now, rfl⟩
    exact nofun
  · intro s event t _ hs hst
    exact closed_of_observed hs hst
lemma Reached.nothingBegun (h : Reached s) (ho : s.observed = true) {e : List (ConsumerEvent Task E)}
    (hr : Run (fun s event t => next s event = some t) s e t) : NothingBegun s t := by
  refine hr.related (I := Closed) (R := NothingBegun) ?_ ?_ ?_ ?_ (h.closed ho)
  · intro s
    exact ⟨rfl, rfl⟩
  · intro s t u hst htu
    exact ⟨htu.claims.trans hst.claims, htu.executions.trans hst.executions⟩
  · intro s event t hc hs
    exact (hc.next hs).1
  · intro s event t hc hs
    exact (hc.next hs).2
/-! ## The consumer -/
/-- A claim that is handled leaves no more executions than there were, or than the limit allows. -/
lemma joinClaim_eq_some {i : ℕ} {ca : Option ℕ} {rd : ConsumerReadings}
    (h : s.next (.joinClaim i ca rd) = some t) :
    ∃ rs rl c e released, s.runtime.claiming.joinNext i = some (rs, rl, c) ∧ tasksOf rl = e ++ released ∧
      t.runtime.executing.spawned = s.runtime.executing.spawned ++ e ∧
      t.runtime.releasing.spawned = s.runtime.releasing.spawned ++ released ∧
      (∀ l < e.length, s.cancelledAtLook ca l = false) ∧
      t.runtime.executing.len ≤ max s.runtime.executing.len rd.concurrency := by
  have hs : s.selected (.joinClaim i ca rd) = some t := by
    have hacts : s.act s.position (.joinClaim i ca rd) = some t := h
    rcases act_eq_some hacts with ⟨-, he, -⟩ | ⟨-, hs⟩ | ⟨-, he, -⟩ | ⟨-, rn, hd, -⟩
    · cases he
    · exact hs
    · cases he
    · cases hd
  obtain ⟨⟨rs, rl, c⟩, hj, rfl⟩ := map_eq_some_iff.mp hs
  obtain ⟨e, released, ht, ho, hl⟩ := completedClaim_spec (s.cancelledAtLook_mono ca)
    { s.runtime with claiming := c } rs rl rd s.now
  refine ⟨rs, rl, c, e, released, hj, ht, ho.spawned, ho.releasing, ?_, ?_⟩
  · intro l hlk
    exact (hl l hlk).2.1
  · refine ho.len.le.trans ?_
    show s.runtime.executing.len + e.length ≤ max s.runtime.executing.len rd.concurrency
    -- the last of the executed tasks was within what the limit allows
    by_cases hnone : e.length = 0
    · omega
    · have hlast := (hl (e.length - 1) (by omega)).2.2
      replace hlast : e.length - 1 < min rs (rd.concurrency - s.runtime.executing.len) := hlast
      omega
/-- **A consumer conserves its tasks and keeps to its limit.**  At most one claim is in flight.  Every task that
a handled claim has returned went to an execution or to a release, once: the first ones, before which the token
was not seen cancelled, to executions, which are then no more than before or than the limit that was read.
Once the consumer has seen that it is to stop, it begins neither a claim nor an execution.  When its loop ends,
its sets are empty, and what it has claimed is what it has seen to return, what it has seen to fail and what it
has abandoned. -/
theorem taskConsumer_conserves (hs : Reached s) : s.runtime.claiming.len ≤ 1 ∧
    s.claimedTasks.Perm (s.runtime.executing.spawned ++ s.runtime.releasing.spawned) ∧
    (∀ index cancelledAt readings t, s.next (.joinClaim index cancelledAt readings) = some t →
      ∃ reserved result claiming executed released,
        s.runtime.claiming.joinNext index = some (reserved, result, claiming) ∧
        tasksOf result = executed ++ released ∧
        t.runtime.executing.spawned = s.runtime.executing.spawned ++ executed ∧
        t.runtime.releasing.spawned = s.runtime.releasing.spawned ++ released ∧
        (∀ look < executed.length, s.cancelledAtLook cancelledAt look = false) ∧
        t.runtime.executing.len ≤ max s.runtime.executing.len readings.concurrency) ∧
    (s.observed = true → ∀ events t, Run (fun s event t => next s event = some t) s events t →
      t.runtime.claiming.spawned = s.runtime.claiming.spawned ∧
      t.runtime.executing.spawned = s.runtime.executing.spawned) ∧
    (s.position = .ended →
      s.runtime.executing.len = 0 ∧ s.runtime.claiming.len = 0 ∧ s.runtime.releasing.len = 0 ∧
      s.runtime.report.stats.claimed =
        s.countedOk + s.runtime.report.executionErrors + s.runtime.report.abandoned) := by
  have hsettl := hs.settled
  refine ⟨hsettl.claims, hsettl.tasks, ?_, ?_, ?_⟩
  · intro index cancelledAt readings t hst
    exact joinClaim_eq_some hst
  · intro ho events t hrn
    obtain ⟨hcl, he⟩ := hs.nothingBegun ho hrn
    exact ⟨hcl, he⟩
  · intro hen
    obtain ⟨hi, ha⟩ := hsettl.ended hen
    obtain ⟨hex, hc, hr⟩ := (idle_iff _).mp hi
    refine ⟨hex, hc, hr, ?_⟩
    rw [hsettl.claimed, length_spawned, hsettl.joined, ha, hex, Nat.add_zero]
/-! ## Runs -/
/-- The executions that have returned without an error, whether the loop has seen it or not. -/
def returned (s : ConsumerSystem Task E) : ℕ := s.runtime.executing.ended.countP returnedOk
def briefly : ConsumerReadings := ⟨1, 1, ⟨second, second⟩, ⟨second, second⟩⟩
def fresh : ConsumerSystem ℕ Unit := start {} ⟨20 * second, 5 * second⟩ ⟨second, second⟩ false false 0
def claimsTwo : List (ConsumerEvent ℕ Unit) :=
  [.iterate, .poll briefly, .claimEnds 0 (.ok (.ok [7, 8])), .iterate, .joinClaim 0 none briefly]
def returnsInTime : List (ConsumerEvent ℕ Unit) :=
  [.executionEnds 0 (.ok (.ok .ofSucceeded)), .releaseEnds 0 (.ok (.ok ())), .iterate, .joinExecution 0 briefly,
    .iterate, .joinRelease 0, .stopClaiming, .iterate, .iterate]
/-- The consumer stops, and the execution returns in the moment in which the last deadline is over. -/
def returnsAtDeadline : List (ConsumerEvent ℕ Unit) :=
  [.stopClaiming, .iterate, .elapse (20 * second), .iterate, .expire, .iterate, .elapse (5 * second),
    .executionEnds 0 (.ok (.ok .ofSucceeded)), .expire, .dropExecution 0, .releaseEnds 0 (.ok (.ok ())),
    .dropRelease 0, .shutDown]
lemma reached_of_execute {e : List (ConsumerEvent ℕ Unit)} {s : ConsumerSystem ℕ Unit}
    (h : execute next fresh e = some s) : Reached s :=
  ⟨fresh, e, ⟨_, _, _, _, _, _, rfl⟩, run_of_execute h⟩
/-- Of two tasks one is executed and one is released. -/
theorem taskConsumer_conserves_two : ∃ s : ConsumerSystem ℕ Unit, s.position = .ended ∧
    s.claimedTasks = [7, 8] ∧ s.runtime.executing.spawned = [7] ∧ s.runtime.releasing.spawned = [8] ∧
    s.runtime.report.stats.claimed =
      s.countedOk + s.runtime.report.executionErrors + s.runtime.report.abandoned := by
  obtain ⟨s, hs, hended, htasks, hexec, hrel⟩ :
      ∃ s, execute next fresh (claimsTwo ++ returnsInTime) = some s ∧ s.position = .ended ∧
        s.claimedTasks = [7, 8] ∧ s.runtime.executing.spawned = [7] ∧ s.runtime.releasing.spawned = [8] :=
    ⟨_, rfl, rfl, rfl, rfl, rfl⟩
  have h := taskConsumer_conserves (reached_of_execute hs)
  exact ⟨s, hended, htasks, hexec, hrel, (h.2.2.2.2 hended).2.2.2⟩
/-- **An execution may return and be counted as abandoned**: a deadline comes before what has ended, and all
that is in the set is abandoned then. -/
theorem taskConsumer_counterexample : ¬ ∀ s : ConsumerSystem ℕ Unit, Reached s → s.position = .ended →
    s.runtime.report.stats.claimed =
      s.returned + s.runtime.report.executionErrors + s.runtime.report.abandoned := by
  intro ha
  obtain ⟨s, hs, hended, hclaimed, hret, haband⟩ :
      ∃ s, execute next fresh (claimsTwo ++ returnsAtDeadline) = some s ∧ s.position = .ended ∧
        s.runtime.report.stats.claimed = 1 ∧ s.returned = 1 ∧ s.runtime.report.abandoned = 1 :=
    ⟨_, rfl, rfl, rfl, rfl, rfl⟩
  have h := ha s (reached_of_execute hs) hended
  omega
end ConsumerSystem
end AsterForge.Tasks
