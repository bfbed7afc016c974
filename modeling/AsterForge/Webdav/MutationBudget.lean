import AsterForge.Webdav.RecursionSafety

/-!
# What a recursive mutation may use

The budget of a run is raised where work is queued and lowered where work is taken, far from the stack that
it counts.  Before each round it agrees with the run, whatever the ports answer, and the run has an end: a
visit uses up the budget, and between two visits there is only so much on the stack.

* **`round_perform`** — each item of work is such a round.
* **`loop_ends`**, **`readPages_fuel`** — the run ends, and so does the reading of a directory.
-/

namespace AsterForge.Webdav

open AsterForge.Core Library DavTraversalBudget MutationContext List

variable {σ κ : Type} {cn : MutationContext σ κ} {run next : MutationRun σ}

/-! ## Counters -/

def MutationEvent.succeeded : MutationEvent → Bool
  | .answered _ _ succeeded => succeeded
  | _ => false

structure WithinBudget (limits : DavTraversalLimits) (run : MutationRun σ) : Prop where
  limited : run.budget.limits = limits
  visitable : run.budget.progress.visitedResources ≤ limits.maximumVisitedResources
  queued : run.budget.progress.queuedWorkItems = run.work.length
  queue : run.work.length ≤ limits.maximumQueuedWorkItems
  failures : run.failures.length = run.budget.progress.failures
  failed : run.failures.length ≤ limits.maximumFailures
  completed : run.budget.progress.completedMutations =
    min (run.events.countP MutationEvent.succeeded) usizeMax
  /-- A lock is reported with its own status. -/
  locked : ∀ failure ∈ run.failures, failure.lockPath.isSome → failure.status = 423

structure Accounted (limits : DavTraversalLimits) (visited : ℕ) (work : List Work)
    (run : MutationRun σ) : Prop extends WithinBudget limits run where
  visits : run.budget.progress.visitedResources = visited
  stack : run.work = work

lemma checkedIncrement_eq_some {v m next : ℕ} (h : checkedIncrement v m = some next) :
    next = v + 1 ∧ v + 1 ≤ m := by
  obtain ⟨ha, hle⟩ := Option.filter_eq_some_iff.mp h
  obtain ⟨rfl, -⟩ := checkedAdd_eq_some.mp ha
  exact ⟨rfl, of_decide_eq_true hle⟩

lemma intoFailure_locked (e : DavMutationStepError) (h : e.intoFailure.lockPath.isSome) :
    e.intoFailure.status = 423 := by
  cases e with
  | locked ap lr => rfl
  | status ap s => cases h

namespace Accounted

variable {l : DavTraversalLimits} {v : ℕ} {wr : List Work}

section

variable (h : Accounted l v wr run)
include h

lemma withWorld (world : σ) : Accounted l v wr { run with world } := { h with }

lemma record (e : MutationEvent) (he : e.succeeded = false) : Accounted l v wr (run.record e) := by
  have hcompl := h.completed
  refine { h with completed := ?_ }
  simpa [MutationRun.record, he] using hcompl

lemma stopWith (r : DavMutationStop) : Accounted l v wr (run.stopWith r) := { h.record (.stopped r) rfl with }

lemma openFrame (p : Option ℕ) : Accounted l v wr (run.openFrame p).2 :=
  { h.record (.opened run.frames.length p) rfl with }

lemma frameOrNew (p : Option ℕ) : Accounted l v wr (run.frameOrNew p).2 := by
  cases p with
  | none => exact h.openFrame none
  | some f => exact h

lemma propagate (f : ℕ) : Accounted l v wr (run.propagateFrameFailure f) := by
  rw [MutationRun.propagateFrameFailure_eq]
  exact { h with }

lemma fail {budget : DavTraversalBudget}
    (hb : run.budget.recordFailure = .ok budget) (error : DavMutationStepError) :
    Accounted l v wr { run with budget, failures := run.failures ++ [error.intoFailure] } := by
  obtain ⟨count, hc, hb⟩ := bind_eq_ok.mp hb
  cases hb
  obtain ⟨rfl, hle⟩ := checkedIncrement_eq_some (okOr_eq_ok.mp hc)
  have hfails := h.failures
  rw [h.limited] at hle
  refine { h with failures := ?_, failed := ?_, locked := ?_ }
  · simpa using hfails
  · simpa [hfails] using hle
  · intro failure hm
    rcases mem_append.mp hm with hold | hn
    · exact h.locked failure hold
    · rw [mem_singleton.mp hn]
      exact intoFailure_locked error

lemma issue (port : DavMutationPort σ) (command : DavMutationCommand) (frame : ℕ) :
    Accounted l v wr (run.issue port command frame).2 := by
  unfold MutationRun.issue MutationRun.applyStep
  rcases port.execute run.world command with ⟨error | answer, world⟩
  · have hmark : Accounted l v wr
        { (run.record (.answered frame command false)).markFailed frame with world } :=
      { h.record (.answered frame command false) rfl with }
    dsimp only [MutationRun.markFailed, MutationRun.record]
    cases hbud : run.budget.recordFailure with
    | error error => exact hmark.stopWith _
    | ok budget => exact hmark.fail hbud error
  · refine { h with completed := ?_ }
    have hcompl := h.completed
    simp only [MutationRun.record, recordCompletedMutation, countP_append,
      Except.isOk, Except.toBool, countP_singleton, MutationEvent.succeeded, if_true]
    omega

lemma unread (error : DavDirectoryReadError) (path : DavPath)
    (frame : ℕ) : Accounted l v wr (unread run error path frame) := by
  refine propagate ?_ frame
  have hmark : Accounted l v wr ((run.record (.unreadable frame path)).markFailed frame) :=
    { h.record (.unreadable frame path) rfl with }
  have hread := readFailed run error path frame
  generalize run.recordDirectoryReadFailure error path frame = run' at hread ⊢
  cases hread with
  | stopped reason => exact h.stopWith reason
  | uncounted reason => exact hmark.stopWith reason
  | failed hb error => exact hmark.fail hb error

lemma queueWork (a : List Work) : (∃ r, run.queueWork a = run.stopWith r) ∨
    Accounted l v (a ++ wr) (run.queueWork a) := by
  unfold MutationRun.queueWork
  cases hb : run.budget.reserveWork a.length with
  | error e => exact .inl ⟨_, rfl⟩
  | ok b =>
    right
    obtain ⟨c, hc, hb⟩ := bind_eq_ok.mp hb
    obtain ⟨_, hr, hb⟩ := bind_eq_ok.mp hb
    cases hb
    obtain ⟨rfl, -⟩ := checkedAdd_eq_some.mp (okOr_eq_ok.mp hc)
    have hqueued := h.queued
    have hlen : run.budget.progress.queuedWorkItems + a.length = (a ++ run.work).length := by
      rw [hqueued, length_append, Nat.add_comm]
    refine { h with queued := hlen, queue := ?_, stack := ?_ }
    · rw [← hlen, ← h.limited]
      exact not_lt.mp (refuse_eq_ok.mp hr)
    · exact congrArg (a ++ ·) h.stack

lemma queueWork_some (a : List Work) : ∃ w', Accounted l v w' (run.queueWork a) := by
  rcases h.queueWork a with ⟨r, hs⟩ | hq
  · exact ⟨wr, hs ▸ h.stopWith r⟩
  · exact ⟨_, hq⟩

end

end Accounted

/-! ## Rounds -/

def Work.visitDepth : Work → Option ℕ
  | .transferDirectory _ _ depth _ | .transferFile _ _ depth _ | .deleteNode _ _ _ depth _
  | .finalizeFileReplacement _ _ depth _ => some depth
  | _ => none

/-- An item that queues work without a visit weighs more than what it queues. -/
def Work.weight : Work → ℕ
  | .replaceWithFile .. => 3
  | _ => 1

def stackWeight (work : List Work) : ℕ := (work.map Work.weight).sum

inductive Round (limits : DavTraversalLimits) (visited : ℕ) (item : Work) (rest : List Work)
    (next : MutationRun σ) : Prop
  | visited {depth : ℕ} {work : List Work} (hdepth : item.visitDepth = some depth)
      (hwithin : ∀ maximum ∈ limits.maximumDepth, depth ≤ maximum)
      (h : Accounted limits (visited + 1) work next)
  | lighter {work : List Work} (hless : stackWeight work < stackWeight (item :: rest))
      (h : Accounted limits visited work next)
  | stopped (reason : DavMutationStop) (hstop : next.stop = some reason)
      (h : Accounted limits visited rest next)

section

variable {lm : DavTraversalLimits} {vs : ℕ} {rs : List Work} {i : Work}

lemma Accounted.visiting {depth : ℕ} (h : Accounted lm vs rs run)
    (hd : i.visitDepth = some depth) {visit : MutationRun σ → MutationRun σ}
    (hv : ∀ budget, Accounted lm (vs + 1) rs { run with budget } →
      ∃ work, Accounted lm (vs + 1) work (visit { run with budget })) :
    Round lm vs i rs (run.visiting depth visit) := by
  unfold MutationRun.visiting
  cases hb : run.budget.visit depth with
  | error error => exact .stopped _ rfl (h.stopWith _)
  | ok budget =>
    obtain ⟨_, hs, hb⟩ := bind_eq_ok.mp hb
    obtain ⟨count, hc, hb⟩ := bind_eq_ok.mp hb
    cases hb
    obtain ⟨rfl, hle⟩ := checkedIncrement_eq_some (okOr_eq_ok.mp hc)
    have hnone := refuse_eq_ok.mp hs
    rw [h.limited] at hle hnone
    refine (hv _ ?counted).elim fun work hvs => .visited hd ?shallow hvs
    case counted => exact { h with visitable := hle, visits := congrArg (· + 1) h.visits }
    case shallow => exact fun maximum hm => not_lt.mp fun hlt => hnone ⟨maximum, hm, hlt⟩

lemma stackWeight_lt : stackWeight rs < stackWeight (i :: rs) := by
  have hweight : 0 < i.weight := by cases i <;> exact Nat.succ_pos _
  rw [stackWeight, stackWeight, map_cons, sum_cons]
  omega

lemma mergeDirectories_accounted {sr ds : DavPath} {dp f : ℕ} {s d : List Child} (h : Accounted lm vs rs run) :
    ∃ work, Accounted lm vs work (mergeDirectories run sr ds dp f s d) := by
  unfold mergeDirectories
  split
  · exact ⟨_, h.stopWith _⟩
  · split
    · exact ⟨_, (h.stopWith _).propagate f⟩
    · exact h.queueWork_some _

variable [DecidableEq κ]

section

variable (h : Accounted lm vs rs run)
include h

variable {source destination : DavPath}

lemma transferChildren_accounted {depth frame : ℕ} : ∃ work, Accounted lm vs work
    (cn.transferChildren run source destination depth frame) := by
  unfold transferChildren
  split
  · rename_i error world _
    exact ⟨_, (h.withWorld world).unread error source frame⟩
  · rename_i sources world _
    have hlisted := (h.record (.listed frame .transferSource source sources) rfl).withWorld world
    dsimp only
    split
    · rename_i error world' _
      exact ⟨_, (hlisted.withWorld world').unread error destination frame⟩
    · rename_i destinations world' _
      exact mergeDirectories_accounted
        ((hlisted.record (.listed frame .transferDestination destination destinations) rfl).withWorld world')

lemma round_transferDirectory {depth : ℕ} {parent : Option ℕ} :
    Round lm vs (.transferDirectory source destination depth parent) rs
      (cn.transferDirectory run source destination depth parent) := by
  refine h.visiting rfl fun budget hr => ?_
  have hiss := (hr.openFrame parent).issue cn.port
    ⟨cn.operation, .prepareCollection, .destination, source, some destination⟩ run.frames.length
  dsimp only
  split
  · exact ⟨_, hiss.propagate _⟩
  · exact transferChildren_accounted hiss

lemma round_deleteCollection {path : DavPath} {role : DavMutationTargetRole} {depth : ℕ} {parent : Option ℕ} :
    Round lm vs (.deleteNode path true role depth parent) rs
      (cn.deleteCollection run path role depth parent) := by
  refine h.visiting rfl fun budget hr => ?_
  have hopen := hr.openFrame parent
  dsimp only
  split
  · rename_i error world _
    exact ⟨_, (hopen.withWorld world).unread error path _⟩
  · rename_i children world _
    have hlisted := (hopen.record (.listed run.frames.length (.deletion role) path children) rfl).withWorld
      world
    split
    · exact ⟨_, hlisted.stopWith _⟩
    · exact hlisted.queueWork_some _

/-- **One item of work.** -/
theorem round_perform : Round lm vs i rs (cn.perform run i) := by
  cases i with
  | transferDirectory source destination depth parent => exact round_transferDirectory h
  | transferFile source destination depth parent =>
    show Round lm vs _ rs (cn.transferFile run source destination depth parent)
    refine h.visiting rfl fun budget hr => ?_
    exact ⟨_, (hr.frameOrNew parent).issue ..⟩
  | replaceWithFile source destination depth parent =>
    have hopen := (h.openFrame parent).record (.replacing run.frames.length source destination) rfl
    rcases hopen.queueWork [.deleteNode destination true .destination depth (some run.frames.length),
      .finalizeFileReplacement source destination depth run.frames.length] with ⟨reason, hstop⟩ | hqueued
    · have hstopped := hopen.stopWith reason
      rw [← hstop] at hstopped
      exact .stopped reason (congrArg MutationRun.stop hstop) hstopped
    · refine .lighter ?_ hqueued
      simp only [stackWeight, map_cons, map_append, map_nil, sum_append, sum_cons, sum_nil, Work.weight]
      omega
  | deleteNode path isCollection role depth parent =>
    cases isCollection with
    | false =>
      show Round lm vs _ rs (cn.deleteFile run path role depth parent)
      refine h.visiting rfl fun budget hr => ?_
      exact ⟨_, (hr.frameOrNew parent).issue ..⟩
    | true => exact round_deleteCollection h
  | finalizeTransfer source frame =>
    refine .lighter stackWeight_lt ?_
    show Accounted lm vs rs (cn.finalizeTransfer run source frame)
    unfold finalizeTransfer
    split
    · exact h.propagate frame
    · exact (h.issue ..).propagate frame
  | finalizeFileReplacement source destination depth frame =>
    show Round lm vs _ rs (cn.finalizeFileReplacement run source destination depth frame)
    unfold finalizeFileReplacement
    split
    · exact .lighter stackWeight_lt (h.propagate frame)
    · exact h.visiting rfl fun budget hr => ⟨_, (hr.issue ..).propagate frame⟩
  | finalizeDelete path role frame =>
    refine .lighter stackWeight_lt ?_
    show Accounted lm vs rs (cn.finalizeDelete run path role frame)
    unfold finalizeDelete
    split
    · exact h.propagate frame
    · exact (h.issue ..).propagate frame

end

variable {work : List Work}

/-- **One round of the loop.** -/
lemma Accounted.step (h : Accounted lm vs work run) (hs : cn.step run = some next) :
    ((∃ reason, next.stop = some reason) ∧ Accounted lm vs work next) ∨
      ∃ i rs, work = i :: rs ∧ Round lm vs i rs next := by
  obtain ⟨-, world, rfl | ⟨i, rs, hw, rfl⟩⟩ := step_cases hs
  · exact .inl ⟨⟨_, rfl⟩, (h.withWorld world).stopWith _⟩
  · refine .inr ⟨i, rs, h.stack.symm.trans hw, round_perform ?_⟩
    have hqueued := h.queued
    have hqueue := h.queue
    rw [hw, length_cons] at hqueued hqueue
    refine { h with queued := ?_, queue := Nat.le_of_succ_le hqueue, stack := rfl }
    simp [completeWork, hqueued]

/-! ## Ends -/

/-- What is left: the visits, each with the stack that it may leave, and the stack. -/
def potential (limits : DavTraversalLimits) (visited : ℕ) (work : List Work) : ℕ :=
  (limits.maximumVisitedResources - visited) * (3 * limits.maximumQueuedWorkItems + 2) + stackWeight work

lemma stackWeight_le : ∀ work : List Work, stackWeight work ≤ 3 * work.length
  | [] => Nat.le_refl 0
  | i :: work => by
    have hweight : i.weight ≤ 3 := by cases i <;> simp [Work.weight]
    have hrest := stackWeight_le work
    rw [stackWeight] at hrest
    rw [stackWeight, map_cons, sum_cons, length_cons]
    omega

lemma potential_visited (h : Accounted lm (vs + 1) work run) :
    potential lm (vs + 1) work < potential lm vs (i :: rs) := by
  have hvisits := h.visits
  have hvisitable := h.visitable
  have hstack := stackWeight_le work
  have hqueue := h.queue
  rw [h.stack] at hqueue
  obtain ⟨left, hl⟩ : ∃ left, lm.maximumVisitedResources - vs = left + 1 :=
    ⟨lm.maximumVisitedResources - vs - 1, by omega⟩
  rw [potential, potential, hl, show lm.maximumVisitedResources - (vs + 1) = left by omega,
    Nat.add_mul left 1]
  omega

lemma Round.potential_lt (h : Round lm vs i rs next) :
    (∃ r, next.stop = some r) ∨ ∃ v' w', Accounted lm v' w' next ∧
      potential lm v' w' < potential lm vs (i :: rs) := by
  cases h with
  | visited hd hw h => exact .inr ⟨_, _, h, potential_visited h⟩
  | lighter hl h => exact .inr ⟨_, _, h, Nat.add_lt_add_left hl _⟩
  | stopped r hs h => exact .inl ⟨r, hs⟩

lemma step_of_stop {r : DavMutationStop} (h : run.stop = some r) : cn.step run = none := by
  unfold step
  rw [h]

lemma loop_of_ended (h : cn.step run = none) : ∀ r, cn.loop r run = run
  | 0 => rfl
  | r + 1 => by rw [loop, h]

/-- **A run ends** within the rounds that are left. -/
theorem loop_ends : ∀ {rn visited : ℕ} {work : List Work} {run : MutationRun σ},
    Accounted lm visited work run → potential lm visited work < rn → cn.step (cn.loop rn run) = none
  | rn + 1, visited, work, run, h, hless => by
    rw [loop]
    cases hstep : cn.step run with
    | none => exact hstep
    | some next =>
      have hended : ∀ {r}, next.stop = some r → cn.step (cn.loop rn next) = none := by
        intro r hs
        rw [loop_of_ended (step_of_stop hs)]
        exact step_of_stop hs
      rcases h.step hstep with ⟨⟨r, hs⟩, -⟩ | ⟨i, rs, rfl, hr⟩
      · exact hended hs
      · rcases hr.potential_lt with ⟨r, hs⟩ | ⟨v', w', h', hl'⟩
        · exact hended hs
        · exact loop_ends h' (by omega)

omit [DecidableEq κ] in
lemma potential_root (context : MutationContext σ κ) (r : Work) :
    potential context.limits.traversal 0 [r] < context.maximumRounds := by
  have hstack := stackWeight_le [r]
  rw [length_singleton] at hstack
  rw [potential, maximumRounds, Nat.sub_zero]
  omega

lemma Accounted.step_some (h : Accounted lm vs work run)
    (hs : cn.step run = some next) : ∃ v' w', Accounted lm v' w' next := by
  rcases h.step hs with ⟨-, h'⟩ | ⟨i, rs, -, hr⟩
  · exact ⟨_, _, h'⟩
  · cases hr with
    | visited hd hw h' => exact ⟨_, _, h'⟩
    | lighter hl h' => exact ⟨_, _, h'⟩
    | stopped r hst h' => exact ⟨_, _, h'⟩

lemma Accounted.visit_within (h : Accounted lm vs work run) (hs : cn.step run = some next)
    (hc : next.budget.progress.visitedResources ≠ run.budget.progress.visitedResources) :
    ∃ i rs d, run.work = i :: rs ∧ i.visitDepth = some d ∧ ∀ m ∈ lm.maximumDepth, d ≤ m := by
  rw [h.visits, h.stack] at *
  rcases h.step hs with ⟨-, h'⟩ | ⟨i, rs, rfl, hr⟩
  · exact absurd h'.visits hc
  · cases hr with
    | visited hd hw h' => exact ⟨i, rs, _, rfl, hd, hw⟩
    | lighter hless h' | stopped reason hstop h' => exact absurd h'.visits hc

lemma accounted_initialRun {b : DavTraversalBudget} (hb : new lm = .ok b)
    (w : σ) (r : Work) : Accounted lm 0 [r] (initialRun w b r) := by
  obtain ⟨rfl, hl⟩ := new_ok hb
  have hroom : ¬ lm.maximumQueuedWorkItems < 1 := by omega
  have hreserve : reserveWork ⟨lm, ⟨0, 0, 0, 0⟩⟩ 1 = .ok ⟨lm, ⟨0, 1, 0, 0⟩⟩ := by
    simp [reserveWork, checkedAdd, hroom, usizeMax, u64Max]
  rw [initialRun, hreserve]
  refine ⟨⟨rfl, Nat.zero_le _, rfl, not_lt.mp hroom, rfl, Nat.zero_le _, ?_, ?_⟩, rfl, rfl⟩
  · simp
  · simp

end

/-! ## Directories -/

section

variable [DecidableEq κ]

lemma pagesRead_of_page {e : DavDirectoryEnumerator σ κ} {c : DavCancellation σ}
    {w w' : σ} {p : DavPath} {s s' : DavDirectoryPageState κ} {re : ℕ}
    {limits : DavDirectoryPageLimits} {pg : DavValidatedDirectoryPage}
    (h : readNextDirectoryPage e c w p s re limits = (.ok (some pg), s', w')) :
    s.pagesRead < limits.maximumPages ∧ s'.pagesRead = s.pagesRead + 1 := by
  unfold readNextDirectoryPage at h
  split at h
  · cases h
  · split at h
    · cases h
    · split at h
      · cases h
      · dsimp only at h
        split at h
        · cases h
        · split at h
          · cases h
          · rename_i hpages
            split at h
            · cases h
            · split at h
              · cases h
              · cases h
                exact ⟨not_le.mp hpages, rfl⟩

/-- **A directory ends.**  The pages that are counted are enough, however many the enumerator has. -/
theorem readPages_fuel (p : DavPath) (m : ℕ) : ∀ {f : ℕ} {s : DavDirectoryPageState κ}
    {c : List Child} {w : σ}, s.pagesRead ≤ cn.limits.directoryPages.maximumPages →
      cn.limits.directoryPages.maximumPages < s.pagesRead + f →
      cn.readPages p (f + m) s c w = cn.readPages p f s c w
  | 0, _, _, _, hread, hfuel => absurd hfuel (by omega)
  | f + 1, s, c, w, hread, hfuel => by
    rw [Nat.add_right_comm, readPages, readPages]
    split
    · rfl
    · rfl
    · rename_i page state' world' hpage
      obtain ⟨hp, hc⟩ := pagesRead_of_page hpage
      split
      · split
        · rfl
        · exact readPages_fuel p m (by omega) (by omega)
      · rfl

end

end AsterForge.Webdav
