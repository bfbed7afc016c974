import AsterForge.Core.MutationRunner
import AsterForge.Library.Journal

/-!
# Safety of concurrent mutation runners

* `RunnersSafe` — the invariant: the durable record is coherent, every copy that an invocation holds
  is the durable record or an earlier one, and what a completed invocation has seen is durable.
* **`step_spec`** — what one atomic step of an invocation does to all of this.
* **`mutationRunner_safe`** — what holds in every run of any number of invocations.
-/

namespace AsterForge.Core

open Library Invocation Option

/-! ## Writes to the store -/

abbrev MutationAdvances := Advances MutationRecord.Later MutationRecord.Coherent

def StoreCoherent (record : Option MutationRecord) : Prop := ∀ current ∈ record, current.Coherent

variable (sessions : Sessions)

lemma advances_persistMutationIntent (i : MutationIntent) {r : Option MutationRecord} (h : StoreCoherent r) :
    MutationAdvances r (persistMutationIntent sessions i r).2 := by
  have hkept : MutationAdvances r r := .refl h
  unfold persistMutationIntent
  cases hfirst : MutationRecord.persist i with
  | error e => exact hkept
  | ok first =>
    cases sessions i.desired.scope with
    | none => exact hkept
    | some ss =>
      dsimp only
      split_ifs
      · exact hkept
      · cases r with
        | some ex =>
          dsimp only
          split_ifs
          · exact hkept
          · exact hkept
        | none => exact .create (MutationRecord.coherent_persist hfirst)

lemma advances_withFencedMutation (generation : SessionGeneration)
    (t : MutationTransition) {r : Option MutationRecord} (h : StoreCoherent r) :
    MutationAdvances r (withFencedMutation sessions generation t r).2 := by
  cases r with
  | none => exact .refl h
  | some c =>
    have hkept : MutationAdvances (some c) (some c) := .refl h
    have hnext : MutationAdvances (some c) (some (c.apply t).2) :=
      .write (MutationRecord.later_apply (h c rfl) t).1 (MutationRecord.later_apply (h c rfl) t).2
    simp only [withFencedMutation]
    cases activeGeneration sessions c.intent.desired.scope generation with
    | error k => exact hkept
    | ok a =>
      cases a with
      | false => exact hkept
      | true =>
        generalize c.apply t = result at hnext
        obtain ⟨an | tr, next⟩ := result
        · exact hnext
        · cases tr <;> exact hnext

/-! ## The invariant of an invocation -/

namespace Invocation

def Holds (record : Option MutationRecord) : Invocation → Prop
  | .submitting _ _ | .loading _ => True
  | .applying _ held => held.state = .remoteApplying ∧ StoredLater MutationRecord.Later held record
  | .reconciling _ held =>
    held.state = .remoteOutcomeUnknown ∧ StoredLater MutationRecord.Later held record
  | .transitioning _ held _ pending allowStableUnknown
  | .observing _ held _ pending allowStableUnknown =>
    StoredLater MutationRecord.Later held record ∧ (allowStableUnknown = true → pending = true)
  | .finished (.ok .completed) => ∃ current ∈ record,
      current.state = .completed ∧ current.validateRecordedOutcome = .ok ()
  | .finished _ => True

variable {invocation : Invocation} {held : MutationRecord}

variable {record record' : Option MutationRecord}

lemma Holds.mono (h : invocation.Holds record) (hl : RecordLater MutationRecord.Later record record') :
    invocation.Holds record' := by
  cases invocation with
  | submitting => trivial
  | loading => trivial
  | applying generation held | reconciling generation held => exact ⟨h.1, h.2.mono hl⟩
  | transitioning generation held t pending allowStableUnknown
  | observing generation held st pending allowStableUnknown => exact ⟨h.1.mono hl, h.2⟩
  | finished r =>
    rcases r with e | o
    · trivial
    · cases o with
      | completed =>
        obtain ⟨c, hc, hd, hv⟩ := h
        obtain ⟨c', hc', hle⟩ := hl c hc
        obtain rfl := hle.eq_of_completed hd
        exact ⟨c', hc', hd, hv⟩
      | remoteOutcomePending => trivial
      | fenced => trivial

def storedRank (record : Option MutationRecord) : ℕ :=
  match record with
  | some current => current.state.rank
  | none => 0

/-- How many more steps an invocation can take: four in each round, one round for each rank that
is still ahead. -/
def budget (record : Option MutationRecord) : Invocation → ℕ
  | .submitting _ _ => 26
  | .loading _ => 25 - 4 * storedRank record
  | .applying _ held | .reconciling _ held => 24 - 4 * held.state.rank
  | .transitioning _ held _ _ _ => 23 - 4 * held.state.rank
  | .observing _ held _ _ _ => 22 - 4 * held.state.rank
  | .finished _ => 0

lemma storedRank_mono
    (h : RecordLater MutationRecord.Later record record') : storedRank record ≤ storedRank record' := by
  cases record with
  | none => exact Nat.zero_le _
  | some held =>
    obtain ⟨current, hc, hle⟩ := h held rfl
    obtain rfl : record' = some current := hc
    exact hle.rank_le

lemma budget_mono (h : RecordLater MutationRecord.Later record record') (i : Invocation) :
    i.budget record' ≤ i.budget record := by
  have hrank := storedRank_mono h
  cases i with
  | loading generation =>
    simp only [budget]
    omega
  | _ => exact Nat.le_refl _

/-! ## One step -/

/-- What one step of an invocation establishes: the store advances, the invariant holds again, the
budget goes down, and a round that goes on has seen a record of larger rank. -/
structure StepSpec (record record' : Option MutationRecord) (invocation invocation' : Invocation) : Prop where
  advances : MutationAdvances record record'
  holds : invocation'.Holds record'
  budget_lt : invocation'.budget record' < invocation.budget record
  next_round : ∀ generation held status pending allowStableUnknown generation',
    invocation = .observing generation held status pending allowStableUnknown →
    invocation' = .loading generation' → ∃ current ∈ record', held.state.rank < current.state.rank

variable (generation : SessionGeneration)

lemma dispatch_spec {r : Option MutationRecord} {l : MutationRecord} (hr : r = some l) :
    (dispatch generation l).Holds r ∧ (dispatch generation l).budget r ≤ 24 - 4 * l.state.rank := by
  have hstor : StoredLater MutationRecord.Later l r := .of_eq hr
  unfold dispatch
  cases hstate : l.state with
  | intentPersisted => exact ⟨⟨hstor, by simp⟩, by simp [budget, hstate, MutationState.rank]⟩
  | remoteApplying => exact ⟨⟨hstate, hstor⟩, by simp [budget, hstate, MutationState.rank]⟩
  | remoteOutcomeUnknown =>
    exact ⟨⟨hstate, hstor⟩, by simp [budget, hstate, MutationState.rank]⟩
  | remoteOutcomeKnown | platformReconciled =>
    cases l.validateRecordedOutcome with
    | error e => exact ⟨trivial, Nat.zero_le _⟩
    | ok _ => exact ⟨⟨hstor, by simp⟩, by simp [budget, hstate, MutationState.rank]⟩
  | completed =>
    cases hvalid : l.validateRecordedOutcome with
    | error e => exact ⟨trivial, Nat.zero_le _⟩
    | ok _ => exact ⟨⟨l, hr, hstate, hvalid⟩, Nat.zero_le _⟩

variable {rc : Option MutationRecord}

lemma afterBackend_spec (hs : StoredLater MutationRecord.Later held rc)
    (a : Except CloudBackendError MutationRemoteOutcome) (r : Bool) : (afterBackend generation held a r).Holds rc
      ∧ (afterBackend generation held a r).budget rc ≤ 23 - 4 * held.state.rank := by
  unfold afterBackend
  cases a with
  | error e => exact ⟨trivial, Nat.zero_le _⟩
  | ok o =>
    dsimp only
    cases validateRemoteOutcome held.intent o with
    | error e => exact ⟨trivial, Nat.zero_le _⟩
    | ok _ =>
      refine ⟨⟨hs, fun ha => ?_⟩, Nat.le_refl _⟩
      exact (Bool.and_eq_true_iff.mp ha).2

/-- What an observation leads to: the end of the invocation, or a next round after the durable
record has moved past the held one. -/
lemma observe_cases {c : MutationRecord} (st : StoreWriteStatus) {pending allowStableUnknown : Bool}
    (hl : held.Later c) (ha : allowStableUnknown = true → pending = true) :
    (∃ r, observe generation held st pending allowStableUnknown c = .finished r ∧ r ≠ .ok .completed)
      ∨ observe generation held st pending allowStableUnknown c = .loading generation
        ∧ held.state.rank < c.state.rank := by
  unfold observe
  by_cases hmoved : c = held
  · rw [if_neg (not_not.mpr hmoved)]
    split_ifs with hfence hstable hpend
    · exact .inl ⟨_, rfl, by simp⟩
    · exact .inl ⟨_, rfl, by simp⟩
    -- a stable unknown outcome ends the round, since it is only allowed for a pending one
    · exact absurd ⟨ha hstable.1, hstable.2.2⟩ hpend
    · exact .inl ⟨_, rfl, by simp⟩
  · split_ifs
    · exact .inl ⟨_, rfl, by simp⟩
    · exact .inr ⟨rfl, (hl.resolve_left hmoved).1⟩

/-- An invocation that ends without `Completed` has nothing left to show. -/
lemma holds_finished {r : Except MutationRunError MutationRunOutcome} (h : r ≠ .ok .completed) :
    (finished r).Holds rc := by
  rcases r with e | o
  · trivial
  · cases o with
    | completed => exact absurd rfl h
    | remoteOutcomePending => trivial
    | fenced => trivial

lemma loadMutation_cases (f : StoreFault) (r : Option MutationRecord) :
    f.call loadMutation r = (.ok r, r) ∨ ∃ k, f.call loadMutation r = (.error k, r) := by
  cases f with
  | none => exact .inl rfl
  | beforePersist k => exact .inr ⟨k, rfl⟩
  | beforeReturn k => exact .inr ⟨k, rfl⟩

lemma storedRank_le (r : Option MutationRecord) : storedRank r ≤ 5 := by
  cases r with
  | none => exact Nat.zero_le _
  | some c => exact c.state.rank_le

section

attribute [local simp] step

variable {ss : Sessions} {record r' : Option MutationRecord} {invocation' : Invocation}
  {e : RunnerEvent} {iv : Invocation} {hd : MutationRecord} {p asu : Bool}

lemma spec_finished {r : Except MutationRunError MutationRunOutcome}
    (ha : MutationAdvances record r') (hr : r ≠ .ok .completed) (hb : 0 < iv.budget record) :
    StepSpec record r' iv (.finished r) :=
  ⟨ha, holds_finished hr, hb, by simp⟩

variable {g : SessionGeneration}

section

variable (hch : StoreCoherent record)
include hch

lemma step_submitting {i : MutationIntent} (h : (submitting i g).step ss record e = some (invocation', r')) :
    StepSpec record r' (submitting i g) invocation' := by
  cases e with
  | applyMutation a => simp at h
  | reconcileMutation a => simp at h
  | store f =>
    have hkept : MutationAdvances record record := .refl hch
    have hwrite : MutationAdvances record (f.call (persistMutationIntent ss i) record).2 :=
      f.call_state hkept (advances_persistMutationIntent ss i hch)
    have hloading : ∀ {w}, MutationAdvances record w → StepSpec record w (submitting i g) (loading g) := by
      intro w ha
      refine ⟨ha, trivial, ?_, by simp⟩
      simp only [budget]
      omega
    simp only [step] at h
    split_ifs at h with hgen
    · cases h
      exact spec_finished hkept (by simp) (by simp [budget])
    · generalize f.call (persistMutationIntent ss i) record = result at h hwrite
      obtain ⟨k | st, w⟩ := result
      · cases h
        exact spec_finished hwrite (by simp) (by simp [budget])
      · cases st with
        | fenced =>
          cases h
          exact spec_finished hwrite (by simp) (by simp [budget])
        | applied | alreadyApplied =>
          cases h
          exact hloading hwrite

lemma step_loading (h : (loading g).step ss record e = some (invocation', r')) :
    StepSpec record r' (loading g) invocation' := by
  cases e with
  | applyMutation a => simp at h
  | reconcileMutation a => simp at h
  | store f =>
    have hkept : MutationAdvances record record := .refl hch
    have hbud : 0 < (loading g).budget record := by
      have hrank := storedRank_le record
      simp only [budget]
      omega
    rcases loadMutation_cases f record with ha | ⟨k, ha⟩
    · simp only [step, ha] at h
      cases record with
      | none =>
        cases h
        exact spec_finished hkept (by simp) hbud
      | some l =>
        cases h
        obtain ⟨hh, hle⟩ := @dispatch_spec g (some l) l rfl
        refine ⟨hkept, hh, ?_, by simp⟩
        have hloading : (loading g).budget (some l) = 25 - 4 * l.state.rank := rfl
        omega
    · simp only [step, ha] at h
      cases h
      exact spec_finished hkept (by simp) hbud

lemma step_transitioning {t : MutationTransition} (hh : (transitioning g hd t p asu).Holds record)
    (h : (transitioning g hd t p asu).step ss record e = some (invocation', r')) :
    StepSpec record r' (transitioning g hd t p asu)
      invocation' := by
  cases e with
  | applyMutation a => simp at h
  | reconcileMutation a => simp at h
  | store f =>
    have hrank := hd.state.rank_le
    have hwrite : MutationAdvances record (f.call (withFencedMutation ss g t) record).2 :=
      f.call_state (.refl hch) (advances_withFencedMutation ss g t hch)
    simp only [step] at h
    generalize f.call (withFencedMutation ss g t) record = result at h hwrite
    obtain ⟨k | st, w⟩ := result
    · cases h
      refine spec_finished hwrite (by simp) ?_
      simp only [budget]
      omega
    · cases h
      refine ⟨hwrite, ⟨hh.1.mono hwrite.later, hh.2⟩, ?_, by simp⟩
      simp only [budget]
      omega

lemma step_observing {status : StoreWriteStatus} (hh : (observing g hd status p asu).Holds record)
    (h : (observing g hd status p asu).step ss record e = some (invocation', r')) :
    StepSpec record r' (observing g hd status p asu)
      invocation' := by
  cases e with
  | applyMutation answer => simp at h
  | reconcileMutation answer => simp at h
  | store fault =>
    have hkept : MutationAdvances record record := .refl hch
    have hrank := hd.state.rank_le
    have hbud : 0 < (observing g hd status p asu).budget
        record := by
      simp only [budget]
      omega
    rcases loadMutation_cases fault record with ha | ⟨kind, ha⟩
    · simp only [step, ha] at h
      obtain ⟨⟨current, hc, hl⟩, hal⟩ := hh
      obtain rfl : record = some current := hc
      obtain ⟨hn, rfl⟩ := Prod.mk.inj (some.inj h)
      rcases observe_cases g status hl hal with
        ⟨result, hobserve, hres⟩ | ⟨hobserve, hmoved⟩
      · rw [← hn, hobserve]
        exact spec_finished hkept hres hbud
      · rw [← hn, hobserve]
        refine ⟨hkept, trivial, ?_, ?_⟩
        · simp only [budget, storedRank]
          omega
        · intro generation₁ he status₁ pending₁ allow₁ generation₂ ho _
          obtain ⟨-, rfl, -⟩ := observing.inj ho
          exact ⟨current, rfl, hmoved⟩
    · simp only [step, ha] at h
      cases h
      exact spec_finished hkept (by simp) hbud

/-- **One step of an invocation.** -/
theorem step_spec (hh : iv.Holds record) (h : iv.step ss record e = some (invocation', r')) :
    StepSpec record r' iv invocation' := by
  have hkept : MutationAdvances record record := .refl hch
  cases iv with
  | submitting i g => exact step_submitting hch h
  | loading g => exact step_loading hch h
  | applying g hd =>
    cases e with
    | applyMutation a =>
      cases h
      obtain ⟨hn, hle⟩ := afterBackend_spec g hh.2 a false
      refine ⟨hkept, hn, ?_, by simp⟩
      have hrank := hd.state.rank_le
      have hbud : (applying g hd).budget record = 24 - 4 * hd.state.rank := rfl
      omega
    | store f => simp at h
    | reconcileMutation a => simp at h
  | reconciling g hd =>
    cases e with
    | reconcileMutation a =>
      cases h
      obtain ⟨hn, hle⟩ := afterBackend_spec g hh.2 a true
      refine ⟨hkept, hn, ?_, by simp⟩
      have hrank := hd.state.rank_le
      have hbud : (reconciling g hd).budget record = 24 - 4 * hd.state.rank := rfl
      omega
    | store f => simp at h
    | applyMutation a => simp at h
  | transitioning g hd t p asu =>
    exact step_transitioning hch hh h
  | observing g hd st p asu =>
    exact step_observing hch hh h
  | finished r => cases e <;> simp at h

end

end

lemma exists_step (sessions : Sessions) (rc : Option MutationRecord) (h : ∀ r, invocation ≠ .finished r) :
    ∃ event, (invocation.step sessions rc event).isSome = true := by
  cases invocation with
  | submitting i generation =>
    refine ⟨.store (.beforePersist .persistenceFailure), ?_⟩
    simp only [step, StoreFault.call]
    split_ifs <;> rfl
  | applying generation held => exact ⟨.applyMutation (.error (.new .internal)), rfl⟩
  | reconciling generation held => exact ⟨.reconcileMutation (.error (.new .internal)), rfl⟩
  | finished r => exact absurd rfl (h r)
  | _ => exact ⟨.store (.beforePersist .persistenceFailure), rfl⟩

end Invocation

/-! ## The system -/

namespace MutationSystem

variable {ι : Type} [DecidableEq ι]

/-- **The invariant of the system.** -/
structure RunnersSafe (s : MutationSystem ι) : Prop where
  coherent : StoreCoherent s.record
  holds : ∀ i, (s.runners i).Holds s.record

def actionOf (i : ι) : MutationAction ι → Bool
  | .runner j _ => decide (j = i)
  | _ => false

variable {operationId : OperationId} {s : MutationSystem ι}

omit [DecidableEq ι] in
lemma safe_of_initial (h : s.Initial operationId) : s.RunnersSafe := by
  refine ⟨fun record hr => (h.record record hr).2, fun i => ?_⟩
  have hstart := h.runners i
  cases hrunner : s.runners i with
  | submitting it generation => trivial
  | loading generation => trivial
  | _ => simp [hrunner, Starting] at hstart

variable {s' : MutationSystem ι}

lemma next_runner {i : ι} {event : RunnerEvent} (h : Step s (.runner i event) s') : ∃ invocation record,
    (s.runners i).step s.sessions s.record event = some (invocation, record) ∧
    s' = { s with record := record, runners := Function.update s.runners i invocation } := by
  simp only [Step, next, map_eq_some_iff] at h
  obtain ⟨⟨invocation, record⟩, hst, hs'⟩ := h
  exact ⟨invocation, record, hst, hs'.symm⟩

/-- **One step of the system** keeps the invariant, moves the record to a later one, lengthens no
invocation's way and shortens the way of the one that moves. -/
theorem safe_step {a : MutationAction ι} (hs : s.RunnersSafe) (h : Step s a s') :
    s'.RunnersSafe ∧ RecordLater MutationRecord.Later s.record s'.record
      ∧ (∀ i, (s'.runners i).budget s'.record ≤ (s.runners i).budget s.record)
      ∧ ∀ i, actionOf i a = true → (s'.runners i).budget s'.record < (s.runners i).budget s.record := by
  have hquiet : ∀ sessions, s' = { s with sessions := sessions } → (∀ i, actionOf i a = false) →
      s'.RunnersSafe ∧ RecordLater MutationRecord.Later s.record s'.record
        ∧ (∀ i, (s'.runners i).budget s'.record ≤ (s.runners i).budget s.record)
        ∧ ∀ i, actionOf i a = true → (s'.runners i).budget s'.record < (s.runners i).budget s.record := by
    rintro sessions rfl ho
    refine ⟨⟨hs.coherent, hs.holds⟩, .refl _, fun _ => Nat.le_refl _, fun i hi => ?_⟩
    exact absurd hi (by simp [ho i])
  cases a with
  | activateSession scope generation | transitionSession scope generation state =>
    exact hquiet _ (some.inj h).symm fun _ => rfl
  | runner i event =>
    obtain ⟨invocation, record, hst, rfl⟩ := next_runner h
    have hspec := step_spec hs.coherent (hs.holds i) hst
    refine ⟨⟨hspec.advances.stored, fun j => ?_⟩, hspec.advances.later, fun j => ?_, fun j hj => ?_⟩
    · by_cases hij : j = i
      · subst hij
        simpa using hspec.holds
      · simpa [hij] using (hs.holds j).mono hspec.advances.later
    · by_cases hij : j = i
      · subst hij
        simpa using Nat.le_of_lt hspec.budget_lt
      · simpa [hij] using budget_mono hspec.advances.later (s.runners j)
    · obtain rfl : i = j := by simpa [actionOf] using hj
      simpa using hspec.budget_lt

variable {l : List (MutationAction ι)}

lemma safe_run (hsf : s.RunnersSafe) (hr : Run Step s l s') : s'.RunnersSafe :=
  hr.invariant (I := RunnersSafe) (fun _ _ _ hs hst => (safe_step hs hst).1) hsf

lemma recordLater_run (hsf : s.RunnersSafe) (hr : Run Step s l s') :
    RecordLater MutationRecord.Later s.record s'.record :=
  hr.related (I := RunnersSafe) (R := fun s s' => RecordLater MutationRecord.Later s.record s'.record)
    (fun s => .refl s.record) (fun _ _ _ h h' => h.trans h') (fun _ _ _ hs hst => (safe_step hs hst).1)
    (fun _ _ _ hs hst => (safe_step hs hst).2.1) hsf

omit [DecidableEq ι] in
lemma budget_le_of_initial (h : s.Initial operationId) (i : ι) : (s.runners i).budget s.record ≤ 26 := by
  have hstart := h.runners i
  cases hrunner : s.runners i with
  | submitting it generation => exact Nat.le_refl _
  | loading generation =>
    simp only [budget]
    omega
  | _ => simp [hrunner, Starting] at hstart

lemma count_actionOf_le (hin : s.Initial operationId)
    (hr : Run Step s l s') (i : ι) : l.countP (actionOf i) ≤ 26 := by
  have hcount := hr.count_le_of_decreasing (I := RunnersSafe) (P := actionOf i)
    (fun s => (s.runners i).budget s.record) (fun _ _ _ hs hst => (safe_step hs hst).1)
    (fun _ _ _ hs hst => (safe_step hs hst).2.2.1 i)
    (fun _ _ _ hs hi hst => (safe_step hs hst).2.2.2 i hi) (safe_of_initial hin)
  have hbud := budget_le_of_initial hin i
  omega

/-- **Safety of concurrent mutation runners**, in every run of any number of invocations of one
operation.

* The durable record never goes away, its state never moves backwards, and a known outcome stays
  as it is.
* `apply_mutation` is only called with a record in `RemoteApplying`, `reconcile_mutation` only with
  one in `RemoteOutcomeUnknown`.
* An invocation has completed only if the durable record is, with a validated known outcome.
* A round of the loop that goes on has seen the rank of the durable record grow; an invocation
  takes at most 26 steps, and one that has not finished can always take the next. -/
theorem mutationRunner_safe {operationId : OperationId} {s₀ s : MutationSystem ι}
    {labels : List (MutationAction ι)} (hinit : s₀.Initial operationId) (hrun : Run Step s₀ labels s) :
    (∀ later s', Run Step s later s' → ∀ record ∈ s.record, ∃ record' ∈ s'.record,
        record.state.rank ≤ record'.state.rank ∧
        ∀ outcome, record.remoteOutcome = some outcome → outcome ≠ .remoteOutcomeUnknown →
          record'.remoteOutcome = some outcome)
      ∧ (∀ i answer s', Step s (.runner i (.applyMutation answer)) s' →
          ∃ generation held, s.runners i = .applying generation held ∧ held.state = .remoteApplying)
      ∧ (∀ i answer s', Step s (.runner i (.reconcileMutation answer)) s' →
          ∃ generation held, s.runners i = .reconciling generation held ∧ held.state = .remoteOutcomeUnknown)
      ∧ (∀ i, s.runners i = .finished (.ok .completed) → ∃ record ∈ s.record,
          record.state = .completed ∧ ∃ outcome, record.remoteOutcome = some outcome
            ∧ outcome ≠ .remoteOutcomeUnknown ∧ validateRemoteOutcome record.intent outcome = .ok ())
      ∧ (∀ i event s' generation held status pending allowStableUnknown generation',
          Step s (.runner i event) s' →
          s.runners i = .observing generation held status pending allowStableUnknown →
          s'.runners i = .loading generation' → ∃ record ∈ s'.record, held.state.rank < record.state.rank)
      ∧ (∀ i, labels.countP (actionOf i) ≤ 26)
      ∧ ∀ i, (∀ result, s.runners i ≠ .finished result) → ∃ event s', Step s (.runner i event) s' := by
  have hsafe := safe_run (safe_of_initial hinit) hrun
  refine ⟨?_, ?_, ?_, ?_, ?_, count_actionOf_le hinit hrun, ?_⟩
  · intro later s' hl record hr
    obtain ⟨record', hr', hle⟩ := recordLater_run hsafe hl record hr
    refine ⟨record', hr', hle.rank_le, fun outcome ho hk => ?_⟩
    rcases hle with rfl | ⟨-, -, hsm⟩
    · exact ho
    · exact (hsm ⟨outcome, ho, hk⟩).trans ho
  · intro i answer s' hs
    obtain ⟨invocation, record, hi, -⟩ := next_runner hs
    have hholds := hsafe.holds i
    cases hrunner : s.runners i with
    | applying generation held =>
      rw [hrunner] at hholds
      exact ⟨generation, held, rfl, hholds.1⟩
    | _ => simp [hrunner, step] at hi
  · intro i answer s' hs
    obtain ⟨invocation, record, hi, -⟩ := next_runner hs
    have hholds := hsafe.holds i
    cases hrunner : s.runners i with
    | reconciling generation held =>
      rw [hrunner] at hholds
      exact ⟨generation, held, rfl, hholds.1⟩
    | _ => simp [hrunner, step] at hi
  · intro i hf
    have hholds := hsafe.holds i
    rw [hf] at hholds
    obtain ⟨record, hr, hd, hv⟩ := hholds
    exact ⟨record, hr, hd, MutationRecord.validateRecordedOutcome_eq_ok hv⟩
  · intro i event s' generation held status pending allowStableUnknown generation' hs hobserving hloading
    obtain ⟨invocation, record, hi, rfl⟩ := next_runner hs
    have hspec := step_spec hsafe.coherent (hsafe.holds i) hi
    exact hspec.next_round _ _ _ _ _ generation' hobserving (by simpa using hloading)
  · intro i hu
    obtain ⟨event, he⟩ := exists_step s.sessions s.record hu
    obtain ⟨⟨invocation, record⟩, hs⟩ := isSome_iff_exists.mp he
    refine ⟨event, { s with
      record := record, runners := Function.update s.runners i invocation }, ?_⟩
    simp [Step, next, hs]

/-! ## Two runners -/

/-- A delete of one item under the first session generation. -/
def sampleIntent : MutationIntent where
  operationId := sampleOperationId
  idempotencyKey := sampleIdempotencyKey
  origin := .platformCommand
  sessionGeneration := firstGeneration
  desired := .delete sampleItemKey
  preconditions := ⟨none, none⟩
  localContent := none
  platformCorrelation := none
  remoteReconciliationKey := none
  retry := ⟨0, none⟩

/-- One invocation submits the delete, the other resumes it. -/
def twoRunners : MutationSystem Bool where
  sessions := fun _ => some ⟨firstGeneration, .accepting⟩
  record := none
  runners
    | false => .submitting sampleIntent firstGeneration
    | true => .loading firstGeneration

/-- Both apply the mutation, the second one learns that it is committed already, and the first one
drives the record to completion. -/
def twoRunnersRun : List (MutationAction Bool) :=
  [MutationAction.runner false (.store .none), .runner false (.store .none), .runner true (.store .none),
    .runner false (.store .none), .runner true (.store .none), .runner false (.store .none),
    .runner true (.store .none), .runner false (.store .none), .runner true (.store .none),
    .runner false (.applyMutation (.ok (.committed none))),
    .runner true (.applyMutation (.ok (.alreadyCommitted none))),
    .runner false (.store .none), .runner true (.store .none)]
    ++ List.replicate 8 (MutationAction.runner false (.store .none))

/-- The run exists, and its completed invocation has a completed record behind it. -/
theorem mutationRunner_safe_twoRunners : ∃ s, execute next twoRunners twoRunnersRun = some s
    ∧ s.runners false = .finished (.ok .completed)
    ∧ ∃ record ∈ s.record, record.state = .completed ∧ ∃ outcome,
        record.remoteOutcome = some outcome ∧ outcome ≠ .remoteOutcomeUnknown
        ∧ validateRemoteOutcome record.intent outcome = .ok () := by
  have hinit : twoRunners.Initial sampleOperationId :=
    ⟨fun record hr => by simp [twoRunners] at hr,
      fun i => by cases i <;> simp [twoRunners, Starting, sampleIntent]⟩
  have hdone : ((execute next twoRunners twoRunnersRun).map fun s => s.runners false)
      = some (.finished (.ok .completed)) := by decide
  obtain ⟨s, hs, hf⟩ := map_eq_some_iff.mp hdone
  have hsafe := mutationRunner_safe hinit (run_of_execute hs)
  exact ⟨s, hs, hf, hsafe.2.2.2.1 false hf⟩

end MutationSystem

end AsterForge.Core
