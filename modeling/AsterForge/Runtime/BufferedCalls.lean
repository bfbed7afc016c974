import AsterForge.Library.Runs
import AsterForge.Library.Table
import AsterForge.Runtime.BufferedReports

/-!
# The calls of a buffered batch writer

Any number of callers record, flush, retry, drain and stop, each in its own order, beside the one worker.  A
flush captures what was admitted before its first poll and then looks at the state until that is persisted,
until a failure is in the way, or until its deadline; a `stop` drains, flushes, cancels and joins the worker
under the lock of its handle.  A waiting flush may look again at any time: what notifies it is left open.

* **`InCustody`** and **`batch_writer_custody`** — every accepted record is acknowledged by one successful call
  of the sink, or unconfirmed; batches are in order of admission; records whose commit is unknown are not
  written again; and a writer that drains admits nothing.
-/

namespace AsterForge.Runtime

open Library BufferState Option List

variable {ι T E : Type}

/-! ## Calls -/

/-- Where a call is: a `stop` before `begin_drain`; before the capture of the records to wait for; before a look
at the state; waiting for a change; with the result of the flush; a `stop` that waits for the lock of the
handle, for the worker, in `fail_worker`, before the end, and at the end. -/
inductive CallPhase (E : Type)
  | draining
  | capturing
  | looking
  | waiting
  | flushed (result : Except (BufferFlushError E) Unit)
  | locking (result : Except (BufferFlushError E) Unit)
  | joining (result : Except (BufferFlushError E) Unit)
  | failing (error : JoinError) (result : Except (BufferFlushError E) Unit)
  | finishing (result : Except (BufferFlushError E) Unit)
  | stopping (result : Except (BufferFlushError E) Unit)
  | stopped (result : Except (BufferFlushError E) Unit)

def CallPhase.result : CallPhase E → Option (Except (BufferFlushError E) Unit)
  | .draining | .capturing | .looking | .waiting => none
  | .flushed result | .locking result | .joining result | .failing _ result | .finishing result
  | .stopping result | .stopped result => some result

/-- A call of `flush`, or of `stop`, with the acknowledgments that it waits for, and the records that had been
admitted to each lane when it captured them. -/
structure Call (T E : Type) where
  stops : Bool
  deadline : ℕ
  batchTarget : ℕ
  directTarget : ℕ
  batchScope : List (Ticket T)
  directScope : List (Ticket T)
  phase : CallPhase E

def Call.flush (deadline : ℕ) : Call T E := ⟨false, deadline, 0, 0, [], [], .capturing⟩

def Call.stop (deadline : ℕ) : Call T E := ⟨true, deadline, 0, 0, [], [], .draining⟩

/-- A writer with its worker's handle, the call that has the handle's lock, and all calls. -/
structure BatchWriter (ι T E : Type) where
  core : Core T E
  handle : Bool
  holder : Option ι
  calls : ι → Option (Call T E)

/-- What a call goes on with, and what it does to the shared state. -/
structure CallMove (ι T E : Type) where
  call : Call T E
  op : Option (CoreOp T E)
  handle : Bool
  holder : Option ι

/-- The cause that `stop` gives to a worker that has not ended by itself. -/
def joinFailureCause : JoinError → WriteFailureCause E
  | .panic => .panicked
  | .canceled => .cancelled

def Call.next [DecidableEq ι] (w : BatchWriter ι T E) (i : ι) (call : Call T E) : Option (CallMove ι T E) :=
  let goto (phase : CallPhase E) (op : Option (CoreOp T E)) : CallMove ι T E :=
    ⟨{ call with phase }, op, w.handle, w.holder⟩
  match call.phase with
  | .draining => some (goto .capturing (some .beginDrain))
  | .capturing =>
    match w.core.state.flushTargets with
    | none => some (goto (.flushed (.error .notStarted)) none)
    | some (batchTarget, directTarget) =>
      some ⟨{ call with
        batchTarget
        directTarget
        batchScope := (w.core.log.lane false).admitted
        directScope := (w.core.log.lane true).admitted
        phase := .looking }, none, w.handle, w.holder⟩
  | .looking =>
    match w.core.state.look w.core.now call.deadline call.batchTarget call.directTarget with
    | .returns result => some (goto (.flushed result) none)
    | .waits request =>
      some (goto .waiting (if request then some (.request call.batchTarget call.batchScope) else none))
  | .waiting => some (goto .looking none)
  | .flushed result => if call.stops then some (goto (.locking result) (some .cancel)) else none
  | .locking result =>
    if w.holder.isNone then some ⟨{ call with phase := .joining result }, none, w.handle, some i⟩ else none
  | .joining result =>
    if w.handle then
      match w.core.worker with
      | .ended none => some (goto (.stopping result) none)
      | .ended (some error) => some (goto (.failing error result) none)
      | _ => none
    else some (goto (.stopping result) none)
  | .failing error result => some (goto (.finishing result) (some (.failWorker (joinFailureCause error))))
  | .finishing result => some (goto (.stopping result) (some .finish))
  | .stopping result => some ⟨{ call with phase := .stopped result }, some .stopped, false, none⟩
  | .stopped _ => none

inductive WriterEvent (ι T E : Type)
  | start
  | record (item : T)
  | beginDrain
  | retryFailed
  | flush (i : ι) (deadline : ℕ)
  | stop (i : ι) (deadline : ℕ)
  | call (i : ι)
  /-- The deadline of a waiting flush has passed. -/
  | timeout (i : ι)
  /-- A call is dropped where it waits. -/
  | drop (i : ι)
  | worker (move : WorkerMove E)
  | elapse (duration : ℕ)

namespace BatchWriter

variable [DecidableEq ι]

def new : BatchWriter ι T E := ⟨.new, false, none, fun _ => none⟩

/-- Something is done to the shared state. -/
def act (settings : WriterSettings) (w : BatchWriter ι T E) (op : CoreOp T E) : Option (BatchWriter ι T E) :=
  (w.core.apply settings op).map fun core => { w with core }

def put (w : BatchWriter ι T E) (i : ι) (call : Option (Call T E)) : BatchWriter ι T E :=
  { w with calls := Function.update w.calls i call }

def move (settings : WriterSettings) (w : BatchWriter ι T E) (i : ι) (m : CallMove ι T E) :
    Option (BatchWriter ι T E) :=
  (match m.op with
    | none => some w.core
    | some op => w.core.apply settings op).map fun core =>
      ({ core, handle := m.handle, holder := m.holder, calls := w.calls } : BatchWriter ι T E).put i (some m.call)

def next (settings : WriterSettings) (w : BatchWriter ι T E) : WriterEvent ι T E → Option (BatchWriter ι T E)
  | .start =>
    if w.holder.isNone then
      (w.core.apply settings .start).map fun core => { w with core, handle := true }
    else none
  | .record item => w.act settings (.record item)
  | .beginDrain => w.act settings .beginDrain
  | .retryFailed => w.act settings .retryFailed
  | .flush i deadline => if (w.calls i).isNone then some (w.put i (some (.flush deadline))) else none
  | .stop i deadline => if (w.calls i).isNone then some (w.put i (some (.stop deadline))) else none
  | .call i => (w.calls i).bind fun call => (call.next w i).bind (w.move settings i)
  | .timeout i =>
    (w.calls i).bind fun call =>
      match call.phase with
      | .waiting =>
        if call.deadline ≤ w.core.now then
          some (w.put i (some { call with phase := .flushed (.error .deadline) }))
        else none
      | _ => none
  | .drop i =>
    (w.calls i).bind fun call =>
      match call.phase with
      | .waiting | .locking _ => some (w.put i none)
      | .joining _ => some { w.put i none with holder := none }
      | _ => none
  | .worker move => w.act settings (.worker move)
  | .elapse duration => w.act settings (.elapse duration)

def Step (settings : WriterSettings) (w : BatchWriter ι T E) (event : WriterEvent ι T E)
    (v : BatchWriter ι T E) : Prop :=
  w.next settings event = some v

end BatchWriter

/-! ## What a step of a call can be -/

def Call.goes (w : BatchWriter ι T E) (call : Call T E) (phase : CallPhase E) (op : Option (CoreOp T E)) :
    CallMove ι T E :=
  ⟨{ call with phase }, op, w.handle, w.holder⟩

/-- The kinds of steps of a call: it drains; it finds the writer not started, or captures what was admitted; it
looks, and returns or waits; it wakes; a `stop` cancels, takes the lock, finds the worker gone as it should or
not, declares it failed, finishes in its place, and ends. -/
inductive CallStep (w : BatchWriter ι T E) (i : ι) (call : Call T E) : CallMove ι T E → Prop
  | drains (hphase : call.phase = .draining) : CallStep w i call (call.goes w .capturing (some .beginDrain))
  | notStarted (hphase : call.phase = .capturing) :
      CallStep w i call (call.goes w (.flushed (.error .notStarted)) none)
  | captures {batchTarget directTarget : ℕ} (hphase : call.phase = .capturing)
      (htargets : w.core.state.flushTargets = some (batchTarget, directTarget)) :
      CallStep w i call ⟨{ call with
        batchTarget
        directTarget
        batchScope := (w.core.log.lane false).admitted
        directScope := (w.core.log.lane true).admitted
        phase := .looking }, none, w.handle, w.holder⟩
  | returns {result : Except (BufferFlushError E) Unit} (hphase : call.phase = .looking)
      (hlook : w.core.state.look w.core.now call.deadline call.batchTarget call.directTarget = .returns result) :
      CallStep w i call (call.goes w (.flushed result) none)
  | waits {request : Bool} (hphase : call.phase = .looking) : CallStep w i call
      (call.goes w .waiting (if request then some (.request call.batchTarget call.batchScope) else none))
  | wakes (hphase : call.phase = .waiting) : CallStep w i call (call.goes w .looking none)
  | cancels {result : Except (BufferFlushError E) Unit} (hphase : call.phase = .flushed result)
      (hstops : call.stops = true) : CallStep w i call (call.goes w (.locking result) (some .cancel))
  | locks {result : Except (BufferFlushError E) Unit} (hphase : call.phase = .locking result) :
      CallStep w i call ⟨{ call with phase := .joining result }, none, w.handle, some i⟩
  | joins {result : Except (BufferFlushError E) Unit} (hphase : call.phase = .joining result) :
      CallStep w i call (call.goes w (.stopping result) none)
  | finds {error : JoinError} {result : Except (BufferFlushError E) Unit} (hphase : call.phase = .joining result)
      (hworker : w.core.worker = .ended (some error)) : CallStep w i call (call.goes w (.failing error result) none)
  | fails {error : JoinError} {result : Except (BufferFlushError E) Unit}
      (hphase : call.phase = .failing error result) : CallStep w i call
      (call.goes w (.finishing result) (some (.failWorker (joinFailureCause error))))
  | finishes {result : Except (BufferFlushError E) Unit} (hphase : call.phase = .finishing result) :
      CallStep w i call (call.goes w (.stopping result) (some .finish))
  | ends {result : Except (BufferFlushError E) Unit} (hphase : call.phase = .stopping result) :
      CallStep w i call ⟨{ call with phase := .stopped result }, some .stopped, false, none⟩

open Call

variable {w : BatchWriter ι T E}

/-- **What a step of a call can be.** -/
theorem callStep_of_next [DecidableEq ι] {i : ι} {cl : Call T E} {m : CallMove ι T E}
    (hn : cl.next w i = some m) : CallStep w i cl m := by
  cases hphase : cl.phase with
  | draining =>
    simp only [Call.next, hphase, some.injEq] at hn
    exact hn ▸ .drains hphase
  | capturing =>
    simp only [Call.next, hphase] at hn
    split at hn
    · rw [some.injEq] at hn
      exact hn ▸ .notStarted hphase
    · next htgts =>
        rw [some.injEq] at hn
        exact hn ▸ .captures hphase htgts
  | looking =>
    simp only [Call.next, hphase] at hn
    split at hn
    · next hlook =>
        rw [some.injEq] at hn
        exact hn ▸ .returns hphase hlook
    · rw [some.injEq] at hn
      exact hn ▸ .waits hphase
  | waiting =>
    simp only [Call.next, hphase, some.injEq] at hn
    exact hn ▸ .wakes hphase
  | flushed r =>
    simp only [Call.next, hphase] at hn
    split at hn
    · next hstops =>
        rw [some.injEq] at hn
        exact hn ▸ .cancels hphase hstops
    · cases hn
  | locking r =>
    simp only [Call.next, hphase] at hn
    split at hn
    · rw [some.injEq] at hn
      exact hn ▸ .locks hphase
    · cases hn
  | joining r =>
    simp only [Call.next, hphase] at hn
    split at hn
    · split at hn
      · rw [some.injEq] at hn
        exact hn ▸ .joins hphase
      · next hwork =>
          rw [some.injEq] at hn
          exact hn ▸ .finds hphase hwork
      · cases hn
    · rw [some.injEq] at hn
      exact hn ▸ .joins hphase
  | failing e r =>
    simp only [Call.next, hphase, some.injEq] at hn
    exact hn ▸ .fails hphase
  | finishing r =>
    simp only [Call.next, hphase, some.injEq] at hn
    exact hn ▸ .finishes hphase
  | stopping r =>
    simp only [Call.next, hphase, some.injEq] at hn
    exact hn ▸ .ends hphase
  | stopped r =>
    simp only [Call.next, hphase] at hn
    cases hn

/-! ## What a call knows -/

section

variable {s : BufferState (Ticket T) E} {now dd bt dt : ℕ}

lemma look_ok (h : s.look now dd bt dt = .returns (.ok ())) : bt ≤ s.batchPersisted ∧ dt ≤ s.directPersisted := by
  simp only [look] at h
  split at h
  · next hdone =>
      simp only [decide_eq_false_iff_not, Nat.not_lt] at hdone
      exact hdone
  · split at h
    · cases h
    · split at h
      · cases h
      · split at h
        · cases h
        · cases h

lemma look_write {failure : WriteFailure E} (h : s.look now dd bt dt = .returns (.error (.write failure))) :
    (s.batchPersisted < bt ∧ s.failure = some failure) ∨
      (s.directPersisted < dt ∧ s.direct.bind Direct.failure = some failure) := by
  simp only [look] at h
  split at h
  · cases h
  · split at h
    · next other hother =>
        cases h
        split at hother
        · cases hother
        · rw [or_eq_some_iff] at hother
          rcases hother with hb | ⟨_, hd⟩
          · left
            split at hb
            · next hpend => exact ⟨of_decide_eq_true hpend, hb⟩
            · cases hb
          · right
            split at hd
            · next hpend => exact ⟨of_decide_eq_true hpend, hd⟩
            · cases hd
    · split at h
      · cases h
      · split at h
        · cases h
        · cases h

end

/-- What a call has captured, has seen and may do next. -/
structure Call.Sound (c : Core T E) (call : Call T E) : Prop where
  batchScope : call.batchScope <+: (c.log.lane false).admitted
  batchTarget : call.batchScope.length = call.batchTarget
  directScope : call.directScope <+: (c.log.lane true).admitted
  directTarget : call.directScope.length = call.directTarget
  joined : ∀ error result, call.phase = .failing error result ∨ call.phase = .finishing result →
    c.worker.isEnded = true
  ok : call.phase.result = some (.ok ()) → (∀ ticket ∈ call.batchScope, ticket ∈ (c.log.lane false).acked) ∧
    ∀ ticket ∈ call.directScope, ticket ∈ (c.log.lane true).acked
  failed : ∀ failure, call.phase.result = some (.error (.write failure)) →
    ∃ entries ticket, (entries, failure) ∈ c.log.reports ∧ ticket ∈ entries ∧
      (ticket ∈ call.batchScope ∨ ticket ∈ call.directScope)

variable {st : WriterSettings} {c d : Core T E} {call : Call T E}

lemma Call.Sound.later (h : call.Sound c) (hl : Later c d) : call.Sound d := by
  constructor
  · exact h.batchScope.trans (hl.admitted false)
  · exact h.batchTarget
  · exact h.directScope.trans (hl.admitted true)
  · exact h.directTarget
  · intro e r hp
    have hended := h.joined e r hp
    cases hwork : c.worker with
    | ended e => rw [hl.ended e hwork]; rfl
    | absent | checking => rw [hwork] at hended; cases hended
    | selecting | waiting => rw [hwork] at hended; cases hended
    | polling work | writing work => rw [hwork] at hended; cases hended
    | completing work r | failing => rw [hwork] at hended; cases hended
    | finishing => rw [hwork] at hended; cases hended
  · intro hok
    obtain ⟨hb, hd⟩ := h.ok hok
    exact ⟨fun ticket ht => (hl.acked false).subset (hb ticket ht),
      fun ticket ht => (hl.acked true).subset (hd ticket ht)⟩
  · intro failure hf
    obtain ⟨en, ticket, hr, ht, hs⟩ := h.failed failure hf
    exact ⟨en, ticket, hl.reports.subset hr, ht, hs⟩

lemma Call.Sound.goto (h : call.Sound c) {phase : CallPhase E}
    (hj : ∀ error result, phase = .failing error result ∨ phase = .finishing result → c.worker.isEnded = true)
    (hr : phase.result = none ∨ phase.result = call.phase.result ∨
      ∃ error, phase.result = some (.error error) ∧ ∀ failure, error ≠ .write failure) :
    Call.Sound c { call with phase } := by
  refine ⟨h.batchScope, h.batchTarget, h.directScope, h.directTarget, hj, ?_, ?_⟩
  · intro hok
    rcases hr with hn | hs | ⟨error, he, _⟩
    · exact absurd (hn.symm.trans hok) (by intro h; cases h)
    · exact h.ok (hs.symm.trans hok)
    · exact absurd (he.symm.trans hok) (by intro h; cases h)
  · intro failure hf
    rcases hr with hn | hs | ⟨error, he, hne⟩
    · exact absurd (hn.symm.trans hf) (by intro h; cases h)
    · exact h.failed failure (hs.symm.trans hf)
    · have heq := he.symm.trans hf
      rw [some.injEq, Except.error.injEq] at heq
      exact absurd heq (hne failure)

lemma Call.sound_flush (deadline : ℕ) : (flush deadline : Call T E).Sound c := by
  refine ⟨ nil_prefix, rfl, nil_prefix, rfl, ?_, ?_, ?_⟩
  · intro error result hp
    rcases hp with h | h <;> cases h
  · intro h
    cases h
  · intro failure h
    cases h

lemma Call.sound_stop (deadline : ℕ) : (stop deadline : Call T E).Sound c := by
  refine ⟨ nil_prefix, rfl, nil_prefix, rfl, ?_, ?_, ?_⟩
  · intro error result hp
    rcases hp with h | h <;> cases h
  · intro h
    cases h
  · intro failure h
    cases h

variable {fl : WriteFailure E} {sc : List (Ticket T)} {direct : Bool}

lemma Reported.batch_front (h : Reported c) (hb : Books st c) (hf : c.state.failure = some fl)
    (hs : sc <+: (c.log.lane false).admitted) (hlt : c.state.batchPersisted < sc.length) :
    ∃ e ticket, (e, fl) ∈ c.log.reports ∧ ticket ∈ e ∧ ticket ∈ sc := by
  obtain ⟨hp, hle, hr⟩ := h.batch fl hf
  cases hqueue : c.state.queue with
  | nil =>
    rw [hqueue, length_nil] at hle
    omega
  | cons f b =>
    refine ⟨_, f, hr, ?_, ?_⟩
    · rw [hqueue, ← Nat.succ_pred_eq_of_pos hp]
      exact mem_cons_self
    · rw [hb.batchPersisted] at hlt
      exact (hb.balances false).front_mem hs hlt hqueue

lemma Reported.direct_front (h : Reported c) (hb : Books st c) (hf : c.state.direct.bind Direct.failure = some fl)
    (hs : sc <+: (c.log.lane true).admitted) (hlt : c.state.directPersisted < sc.length) :
    ∃ e ticket, (e, fl) ∈ c.log.reports ∧ ticket ∈ e ∧ ticket ∈ sc := by
  obtain ⟨p, hp, hfl⟩ := bind_eq_some_iff.mp hf
  refine ⟨_, p.item, h.direct p fl hp hfl, mem_singleton_self _, ?_⟩
  rw [hb.directPersisted] at hlt
  have hheld : c.state.held true = [p.item] := by simp [held, hp]
  exact (hb.balances true).front_mem hs hlt hheld

/-- **A step of a call** is sound, and what it does to the shared state is allowed. -/
theorem Call.Sound.next [DecidableEq ι] (h : call.Sound w.core)
    (hb : Books st w.core) (hr : Reported w.core) {i : ι} {m : CallMove ι T E} (hn : call.next w i = some m) :
    m.call.Sound w.core ∧ ∀ op, m.op = some op → op.Allowed w.core := by
  have hnoth : ∀ op : CoreOp T E, none = some op → op.Allowed w.core := by
    intro op hop
    cases hop
  cases callStep_of_next hn with
  | drains hp =>
    refine ⟨h.goto ?_ (.inl rfl), ?_⟩
    · rintro error result (h | h) <;> cases h
    · intro op hop
      cases hop
      trivial
  | notStarted hp =>
    refine ⟨h.goto ?_ (.inr (.inr ⟨.notStarted, rfl, ?_⟩)), hnoth⟩
    · rintro error result (h | h) <;> cases h
    · intro fl h
      cases h
  | captures hp ht =>
    rw [flushTargets] at ht
    split at ht
    · cases ht
    · rw [some.injEq, Prod.mk.injEq] at ht
      obtain ⟨hbt, hd⟩ := ht
      refine ⟨⟨prefix_rfl, ?_, prefix_rfl, ?_, ?_, ?_, ?_⟩, hnoth⟩
      · rw [← hbt, hb.batchWatermark]
      · rw [← hd, ← (hb.balances true).length, hb.directPersisted]
        cases hpend : w.core.state.direct <;> simp [held, hpend]
      · rintro error result (h | h) <;> cases h
      · intro h
        cases h
      · intro fl h
        cases h
  | returns hp hl =>
    refine ⟨⟨h.batchScope, h.batchTarget, h.directScope, h.directTarget, ?_, ?_, ?_⟩, hnoth⟩
    · rintro error result (h | h) <;> cases h
    · intro hok
      cases hok
      obtain ⟨hbt, hd⟩ := look_ok hl
      rw [hb.batchPersisted, ← h.batchTarget] at hbt
      rw [hb.directPersisted, ← h.directTarget] at hd
      exact ⟨(hb.balances false).covered h.batchScope hbt, (hb.balances true).covered h.directScope hd⟩
    · intro fl hfl
      cases hfl
      rcases look_write hl with ⟨hlt, hf⟩ | ⟨hlt, hf⟩
      · rw [← h.batchTarget] at hlt
        obtain ⟨entries, ticket, hrp, hm, hs⟩ :=
          hr.batch_front hb hf h.batchScope hlt
        exact ⟨entries, ticket, hrp, hm, .inl hs⟩
      · rw [← h.directTarget] at hlt
        obtain ⟨entries, ticket, hrp, hm, hs⟩ :=
          hr.direct_front hb hf h.directScope hlt
        exact ⟨entries, ticket, hrp, hm, .inr hs⟩
  | @waits request hp =>
    refine ⟨h.goto ?_ (.inl rfl), ?_⟩
    · rintro error result (h | h) <;> cases h
    · intro op hop
      cases request with
      | true =>
        cases hop
        exact ⟨h.batchScope, h.batchTarget⟩
      | false => cases hop
  | wakes hp =>
    refine ⟨h.goto ?_ (.inl rfl), hnoth⟩
    rintro error result (h | h) <;> cases h
  | cancels hp hstops | ends hp =>
    refine ⟨h.goto ?_ (.inr (.inl (by rw [hp]; rfl))), ?_⟩
    · rintro error result (h | h) <;> cases h
    · intro op hop
      cases hop
      trivial
  | locks hp | joins hp =>
    refine ⟨h.goto ?_ (.inr (.inl (by rw [hp]; rfl))), hnoth⟩
    rintro error result (h | h) <;> cases h
  | finds hp hw =>
    refine ⟨h.goto ?_ (.inr (.inl (by rw [hp]; rfl))), hnoth⟩
    intro _ _ _
    rw [hw]
    rfl
  | fails hp =>
    have hended : w.core.worker.isEnded = true := h.joined _ _ (.inl hp)
    refine ⟨h.goto (fun _ _ _ => hended) (.inr (.inl (by rw [hp]; rfl))), ?_⟩
    intro op hop
    cases hop
    exact hended
  | finishes hp =>
    refine ⟨h.goto ?_ (.inr (.inl (by rw [hp]; rfl))), ?_⟩
    · rintro error result (h | h) <;> cases h
    · intro op hop
      cases hop
      exact h.joined .panic _ (.inr hp)

/-! ## The invariant -/

/-- The shared state is in order, and every call is sound. -/
structure WriterInv (settings : WriterSettings) (w : BatchWriter ι T E) : Prop where
  books : Books settings w.core
  flow : Flow w.core
  reported : Reported w.core
  asked : Asked w.core
  sound : ∀ i call, w.calls i = some call → call.Sound w.core

/-- The shared state is left alone, or something is done to it that is allowed. -/
def CoreStep (settings : WriterSettings) (c d : Core T E) : Prop :=
  d = c ∨ ∃ op : CoreOp T E, op.Allowed c ∧ c.apply settings op = some d

lemma CoreStep.later (hf : Flow c) (h : CoreStep st c d) : Later c d := by
  rcases h with rfl | ⟨op, _, ha⟩
  · exact later_refl _
  · exact later_of_apply hf ha

open BatchWriter

lemma writerInv_new (settings : WriterSettings) : WriterInv settings (new : BatchWriter ι T E) where
  books := books_new settings
  flow := flow_new
  reported := ⟨fun fl h => absurd h (by cases h), fun p fl h => absurd h (by cases h)⟩
  asked := ⟨.inl rfl, fun sc h => absurd h not_mem_nil⟩
  sound i call h := by cases h

section

variable [DecidableEq ι] {w v : BatchWriter ι T E} {i : ι}

/-- Where an operation on the shared state comes from. -/
inductive OpOrigin (w : BatchWriter ι T E) : WriterEvent ι T E → CoreOp T E → Prop
  | start : OpOrigin w .start .start
  | record (item : T) : OpOrigin w (.record item) (.record item)
  | beginDrain : OpOrigin w .beginDrain .beginDrain
  | retryFailed : OpOrigin w .retryFailed .retryFailed
  | call {i : ι} {call : Call T E} {m : CallMove ι T E} {op : CoreOp T E} (hcall : w.calls i = some call)
      (hnext : call.next w i = some m) (hop : m.op = some op) : OpOrigin w (.call i) op
  | worker (move : WorkerMove E) : OpOrigin w (.worker move) (.worker move)
  | elapse (duration : ℕ) : OpOrigin w (.elapse duration) (.elapse duration)

/-- Where a call comes from that was not there before a step: it begins, takes its next step, or times out. -/
inductive CallOrigin (settings : WriterSettings) (w : BatchWriter ι T E) (d : Core T E) (i : ι) :
    Call T E → Prop
  | flush (deadline : ℕ) : CallOrigin settings w d i (.flush deadline)
  | stop (deadline : ℕ) : CallOrigin settings w d i (.stop deadline)
  | next {call : Call T E} {m : CallMove ι T E} (hcall : w.calls i = some call) (hnext : call.next w i = some m)
      (hop : ∀ op, m.op = some op → w.core.apply settings op = some d) : CallOrigin settings w d i m.call
  | timeout {call : Call T E} (hcall : w.calls i = some call) (hphase : call.phase = .waiting) :
      CallOrigin settings w d i { call with phase := .flushed (.error .deadline) }

variable {e : WriterEvent ι T E}

/-- **What a step can do**: one thing to the shared state, and to one call. -/
theorem step_cases (hs : w.Step st e v) :
    (v.core = w.core ∨ ∃ op, OpOrigin w e op ∧ w.core.apply st op = some v.core) ∧
      ∀ i call, v.calls i = some call → w.calls i = some call ∨ CallOrigin st w v.core i call := by
  have hact : ∀ op : CoreOp T E, OpOrigin w e op → w.act st op = some v →
      (v.core = w.core ∨ ∃ op, OpOrigin w e op ∧ w.core.apply st op = some v.core) ∧
        ∀ i call, v.calls i = some call → w.calls i = some call ∨ CallOrigin st w v.core i call := by
    intro op hor hac
    obtain ⟨core, ha, hv⟩ := map_eq_some_iff.mp hac
    subst hv
    exact ⟨.inr ⟨op, hor, ha⟩, fun _ _ hc => .inl hc⟩
  have hput : ∀ i (call : Option (Call T E)), (∀ other, call = some other → CallOrigin st w v.core i other) →
      v.core = w.core → v.calls = (w.put i call).calls →
      (v.core = w.core ∨ ∃ op, OpOrigin w e op ∧ w.core.apply st op = some v.core) ∧
        ∀ i call, v.calls i = some call → w.calls i = some call ∨ CallOrigin st w v.core i call := by
    intro i call hor hcr hcl
    refine ⟨.inl hcr, ?_⟩
    intro j other ho
    rw [hcl] at ho
    rcases Table.update_eq_iff.mp ho with ⟨rfl, hnw⟩ | ⟨-, hold⟩
    · exact .inr (hor other hnw)
    · exact .inl hold
  rw [BatchWriter.Step] at hs
  cases e with
  | start =>
    simp only [BatchWriter.next] at hs
    split at hs
    · obtain ⟨core, ha, hv⟩ := map_eq_some_iff.mp hs
      subst hv
      exact ⟨.inr ⟨.start, .start, ha⟩, fun _ _ hc => .inl hc⟩
    · cases hs
  | record item => exact hact (.record item) (.record item) hs
  | beginDrain => exact hact .beginDrain .beginDrain hs
  | retryFailed => exact hact .retryFailed .retryFailed hs
  | flush i deadline =>
    simp only [BatchWriter.next] at hs
    split at hs
    · cases hs
      refine hput i (some (.flush deadline)) ?_ rfl rfl
      intro other ho
      cases ho
      exact .flush deadline
    · cases hs
  | stop i deadline =>
    simp only [BatchWriter.next] at hs
    split at hs
    · cases hs
      refine hput i (some (.stop deadline)) ?_ rfl rfl
      intro other ho
      cases ho
      exact .stop deadline
    · cases hs
  | call i =>
    obtain ⟨call, hc, hn⟩ := bind_eq_some_iff.mp hs
    obtain ⟨m, hm, hmv⟩ := bind_eq_some_iff.mp hn
    obtain ⟨core, hcr, hv⟩ := map_eq_some_iff.mp hmv
    subst hv
    have hop : ∀ op, m.op = some op → w.core.apply st op = some core := by
      intro op hop
      rw [hop] at hcr
      exact hcr
    constructor
    · cases hmop : m.op with
      | none =>
        rw [hmop, some.injEq] at hcr
        exact .inl hcr.symm
      | some op => exact .inr ⟨op, .call hc hm hmop, hop op hmop⟩
    · intro j other ho
      rcases Table.update_eq_iff.mp ho with ⟨rfl, ⟨⟩⟩ | ⟨-, hold⟩
      · exact .inr (.next hc hm hop)
      · exact .inl hold
  | timeout i =>
    obtain ⟨call, hc, hs⟩ := bind_eq_some_iff.mp hs
    split at hs
    · next hphase =>
        split at hs
        · cases hs
          refine hput i _ ?_ rfl rfl
          intro other ho
          cases ho
          exact .timeout hc hphase
        · cases hs
    · cases hs
  | drop i =>
    obtain ⟨call, hc, hs⟩ := bind_eq_some_iff.mp hs
    have hnone : ∀ other, (none : Option (Call T E)) = some other → CallOrigin st w v.core i other := by
      intro other ho
      cases ho
    split at hs
    · cases hs
      exact hput i none hnone rfl rfl
    · cases hs
      exact hput i none hnone rfl rfl
    · cases hs
      exact hput i none hnone rfl rfl
    · cases hs
  | worker move => exact hact (.worker move) (.worker move) hs
  | elapse duration => exact hact (.elapse duration) (.elapse duration) hs

lemma WriterInv.allowed (h : WriterInv st w) {op : CoreOp T E} (ho : OpOrigin w e op) : op.Allowed w.core := by
  cases ho with
  | call hc hn hop => exact ((h.sound _ _ hc).next h.books h.reported hn).2 op hop
  | start => trivial
  | record it => trivial
  | beginDrain => trivial
  | retryFailed => trivial
  | worker m => trivial
  | elapse dr => trivial

lemma WriterInv.coreStep (h : WriterInv st w) (hs : w.Step st e v) : CoreStep st w.core v.core := by
  rcases (step_cases hs).1 with hsm | ⟨op, ho, ha⟩
  · exact .inl hsm
  · exact .inr ⟨op, h.allowed ho, ha⟩

lemma WriterInv.sound_of_origin (h : WriterInv st w) {d : Core T E} {cl : Call T E}
    (ho : CallOrigin st w d i cl) : cl.Sound w.core := by
  cases ho with
  | flush deadline => exact sound_flush deadline
  | stop deadline => exact sound_stop deadline
  | next hc hn hop => exact ((h.sound _ _ hc).next h.books h.reported hn).1
  | timeout hc hp =>
    refine (h.sound _ _ hc).goto ?_ (.inr (.inr ⟨.deadline, rfl, ?_⟩))
    · rintro error result (h | h) <;> cases h
    · intro fl h
      cases h

/-- **One step** keeps the invariant. -/
theorem WriterInv.step (h : WriterInv st w) (hs : w.Step st e v) : WriterInv st v := by
  have hcore := h.coreStep hs
  have hlater := hcore.later h.flow
  have hsound : ∀ i call, v.calls i = some call → call.Sound v.core := by
    intro i call hc
    rcases (step_cases hs).2 i call hc with hl | hn
    · exact (h.sound i call hl).later hlater
    · exact (h.sound_of_origin hn).later hlater
  rcases hcore with heq | ⟨op, hal, ha⟩
  · refine ⟨?_, ?_, ?_, ?_, hsound⟩
    · rw [heq]
      exact h.books
    · rw [heq]
      exact h.flow
    · rw [heq]
      exact h.reported
    · rw [heq]
      exact h.asked
  · exact ⟨h.books.apply h.flow ha, h.flow.apply hal ha, h.reported.apply h.flow ha,
      h.asked.apply h.books h.flow hal ha, hsound⟩

/-- **A whole run** keeps it. -/
theorem writerInv_of_run {e : List (WriterEvent ι T E)}
    (hr : Run (BatchWriter.Step st) new e w) : WriterInv st w :=
  hr.invariant (fun _ _ _ h hs => h.step hs) (writerInv_new st)

end

/-! ## Custody -/

open Classical in
/-- How many successful calls of the sink had a record. -/
noncomputable def successes (ticket : Ticket T) (attempts : List (Attempt (Ticket T) (WriteFailure E))) : ℕ :=
  attempts.countP fun attempt => attempt.succeeded && decide (ticket ∈ attempt.entries)

open Classical in
structure InCustody (settings : WriterSettings) (w : BatchWriter ι T E) : Prop where
  /-- A record was acknowledged by one successful call of the sink, or it is unconfirmed. -/
  once : ∀ ticket ∈ w.core.log.accepted, successes ticket (w.core.log.lane false).attempts +
    successes ticket (w.core.log.lane true).attempts + w.core.state.unconfirmed.count ticket = 1
  /-- What was acknowledged is followed by what is held, and writes take what comes next. -/
  ordered : ∀ direct, (w.core.log.lane direct).Balances (w.core.state.held direct)
  capacity : w.core.state.queue.length ≤ settings.queueCapacity
  one_direct : (w.core.state.held true).length ≤ 1
  persisted : w.core.state.persisted = (w.core.log.lane false).acked.length + (w.core.log.lane true).acked.length
  directPersisted : w.core.state.directPersisted = (w.core.log.lane true).acked.length
  /-- The counters can be subtracted. -/
  no_underflow : w.core.state.directPersisted ≤ w.core.state.persisted
  /-- Records that must not be written again are in no later write, ended or begun. -/
  never_again : ∀ direct earlier attempt later,
    (w.core.log.lane direct).attempts = earlier ++ attempt :: later → Barred attempt → later = [] ∧
      ∀ ticket ∈ attempt.entries, (∀ other ∈ (w.core.log.lane !direct).attempts, ticket ∉ other.entries) ∧
        ∀ work, w.core.worker.work = some work → ticket ∉ work.entries

variable {settings : WriterSettings}

variable {c : Core T E}

lemma accepted_nodup (h : Books settings c) : c.log.accepted.Nodup :=
  List.Nodup.of_map _ h.numbered

variable {t : Ticket T}

lemma not_mem_other (h : Books settings c)
    (hm : t ∈ (c.log.lane direct).admitted) : t ∉ (c.log.lane !direct).admitted := by
  have hdisj : (c.log.lane false).admitted.Disjoint (c.log.lane true).admitted :=
    disjoint_of_nodup_append (accepted_eq c.log ▸ accepted_nodup h)
  intro ho
  cases direct with
  | false => exact hdisj hm ho
  | true => exact hdisj ho hm

lemma attempt_subset (h : Books settings c)
    {a : Attempt (Ticket T) (WriteFailure E)} (ha : a ∈ (c.log.lane direct).attempts) :
    ∀ t ∈ a.entries, t ∈ (c.log.lane direct).admitted := by
  intro t ht
  obtain ⟨e, l, hs⟩ := append_of_mem ha
  exact mem_of_mem_drop (((h.balances direct).ordered e a l hs).subset ht)

lemma work_subset (h : Books settings c) (hf : Flow c) {wr : WriteWork T} (hw : c.worker.work = some wr) :
    ∀ t ∈ wr.entries, t ∈ (c.log.lane wr.direct).admitted := by
  intro t ht
  rw [← (h.balances wr.direct).admitted_eq]
  exact mem_append_right _ ((hf.front wr hw).2.subset ht)

open Classical in
lemma Books.once (h : Books settings c) (ht : t ∈ c.log.accepted) :
    successes t (c.log.lane false).attempts + successes t (c.log.lane true).attempts +
      c.state.unconfirmed.count t = 1 := by
  have hnodup := accepted_nodup h
  have hlane : ∀ direct, successes t (c.log.lane direct).attempts + (c.state.held direct).count t =
      (c.log.lane direct).admitted.count t := by
    intro direct
    have hadm : (c.log.lane direct).admitted.Nodup := by
      rw [accepted_eq] at hnodup
      cases direct with
      | false => exact hnodup.of_append_left
      | true => exact hnodup.of_append_right
    exact (h.balances direct).handed_once hadm t
  have hcount : c.log.accepted.count t = 1 := count_eq_one_of_mem hnodup ht
  rw [accepted_eq, count_append, ← hlane, ← hlane] at hcount
  rw [unconfirmed, count_append]
  have hqueue : c.state.held false = c.state.queue := rfl
  have hdir : c.state.held true = (c.state.direct.map Direct.item).toList := rfl
  rw [hqueue, hdir] at hcount
  omega

lemma WriterInv.inCustody (h : WriterInv settings w) : InCustody settings w := by
  constructor
  · intro t ht
    exact h.books.once ht
  · exact h.books.balances
  · exact h.books.capacity
  · rw [held]
    cases w.core.state.direct with
    | none => exact Nat.zero_le _
    | some p => exact Nat.le_refl _
  · exact h.books.persisted
  · exact h.books.directPersisted
  · rw [h.books.persisted, h.books.directPersisted]
    exact Nat.le_add_left _ _
  · intro direct e a l hs hb
    have hatt : a ∈ (w.core.log.lane direct).attempts := by
      rw [hs]
      exact mem_append_right _ mem_cons_self
    refine ⟨h.flow.last direct e a l hs hb, ?_⟩
    intro t ht
    have hadm := attempt_subset h.books hatt t ht
    constructor
    · intro o ho hm
      exact not_mem_other h.books hadm (attempt_subset h.books ho t hm)
    · intro wr hwr hm
      by_cases heq : wr.direct = direct
      · subst heq
        exact h.flow.not_barred hwr a hatt hb
      · have ho : wr.direct = !direct := by
          cases hd : direct <;> cases hw : wr.direct <;> simp_all
        exact not_mem_other h.books hadm (ho ▸ work_subset h.books h.flow hwr t hm)

section

variable [DecidableEq ι] {settings : WriterSettings}

/-- After `begin_drain` the admission stays closed, whatever happens. -/
lemma staysClosed_of_run {w v : BatchWriter ι T E} (h : WriterInv settings w)
    (hc : w.core.state.lifecycle.isClosed = true) {e : List (WriterEvent ι T E)}
    (hr : Run (BatchWriter.Step settings) w e v) : StaysClosed w.core v.core := by
  have hkeeps : WriterInv settings v ∧ StaysClosed w.core v.core := by
    refine hr.invariant (I := fun v => WriterInv settings v ∧ StaysClosed w.core v.core) ?_ ⟨h, hc, rfl⟩
    intro s event t hs hsp
    obtain ⟨hi, hst, hsm⟩ := hs
    refine ⟨hi.step hsp, ?_⟩
    rcases hi.coreStep hsp with heq | ⟨op, _, ha⟩
    · rw [heq]
      exact ⟨hst, hsm⟩
    · obtain ⟨hd, hac⟩ := nothing_admitted hst ha
      exact ⟨hd, hac.trans hsm⟩
  exact hkeeps.2

lemma beginDrain_closes {c d : Core T E}
    (ha : c.apply settings .beginDrain = some d) : d.state.lifecycle.isClosed = true := by
  cases Core.coreStep_of_apply ha with
  | drains hl => rfl
  | drained hs =>
    rw [hs]
    rfl

/-- **Neither lost nor duplicated.**  In every interleaving of callers and worker, with every answer of the
sink: an accepted record was acknowledged by one successful call of the sink or is unconfirmed; writes take
records in the order of their admission; the bounds and the counters hold; a record that must not be written
again is not; and nothing is admitted once the writer drains. -/
theorem batch_writer_custody (settings : WriterSettings) {w : BatchWriter ι T E}
    {events : List (WriterEvent ι T E)} (hrun : Run (BatchWriter.Step settings) new events w) :
    InCustody settings w ∧ (∀ v, w.Step settings .beginDrain v → v.core.state.lifecycle.isClosed = true) ∧
      ∀ v more, w.core.state.lifecycle.isClosed = true → Run (BatchWriter.Step settings) w more v →
        v.core.state.lifecycle.isClosed = true ∧ v.core.log.accepted = w.core.log.accepted := by
  have hinv := writerInv_of_run hrun
  refine ⟨hinv.inCustody, ?_, ?_⟩
  · intro v hs
    obtain ⟨core, ha, hv⟩ := map_eq_some_iff.mp (show w.act settings .beginDrain = some v from hs)
    exact hv ▸ beginDrain_closes ha
  · intro v more hc hm
    exact staysClosed_of_run hinv hc hm

/-! ## A run -/

/-- Room for one record in the queue, which is a whole batch. -/
def oneByOne : WriterSettings := .new ⟨1, 1, 5⟩ .directWrite 1000

/-- A write of the direct lane fails and the queued record is written; the failed record is resumed and written
as well, and a `stop` ends the worker. -/
def retriedAndStopped : List (WriterEvent ℕ ℕ Unit) :=
  [.start, .record 1, .record 2, .worker .next, .worker .next, .worker .next,
    .worker (.returns (some (.error ⟨.retryable, .persistence ()⟩))), .worker .next, .worker .next, .worker .next,
    .worker .next, .worker (.returns (some (.ok ()))), .worker .next, .retryFailed, .worker .next, .worker .next,
    .worker .next, .worker (.returns (some (.ok ()))), .worker .next, .stop 1 100, .call 1, .call 1, .call 1,
    .call 1, .call 1, .worker .next, .worker .next, .call 1, .call 1]

/-- Of three calls of the sink two acknowledge, one for each record. -/
theorem batch_writer_custody_retriedAndStopped : ∃ w : BatchWriter ℕ ℕ Unit, InCustody oneByOne w ∧
    w.core.log.invoked = [⟨1, 2⟩, ⟨0, 1⟩, ⟨1, 2⟩] ∧ w.core.state.persisted = 2 ∧ w.core.worker = .ended none := by
  have hobs : (execute (next oneByOne) new retriedAndStopped).map
      (fun w => (w.core.log.invoked, w.core.state.persisted, w.core.worker)) =
        some ([⟨1, 2⟩, ⟨0, 1⟩, ⟨1, 2⟩], 2, .ended none) := by
    rfl
  obtain ⟨w, hw, hs⟩ := map_eq_some_iff.mp hobs
  simp only [Prod.mk.injEq] at hs
  exact ⟨w, (batch_writer_custody oneByOne (run_of_execute hw)).1, hs⟩

end

end AsterForge.Runtime
