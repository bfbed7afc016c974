import AsterForge.Core.HydrationSystem
/-!
# The terminal race of a waiter
A waiter may be ended by its own `wait`, by any clone of its cancellation handle, and by its `Drop`.
They race for one compare-and-exchange, and whoever wins wakes the cancellation channel, swaps the
`released` flag and runs the locked section that gives the works back.  `Hydration` has one label for a
cancellation and one phase for a release; here every atomic action is a step of its own.
* `RacingWaiter.Ordered` — the invariant of one waiter; `ReleaseProgress` says that at most one call is
  ever past the exchange, and how far it is.
* **`race_simulates`** — every step of the race is a step of `Hydration` or no step at all.
* **`hydration_terminal_race`** — one terminal state, one release, at most one successful cancellation,
  and no work taken from a waiter that has not released it.
-/
namespace AsterForge.Core
open Library List Option Reachable
/-! ## The state -/
/-- Who called `WaiterInner::cancel` or `WaiterInner::complete`. -/
inductive SettleCaller
  | handle
  | drop
  | completion
  deriving DecidableEq
def SettleCaller.terminal : SettleCaller → WaiterTerminal
  | .handle | .drop => .cancelled
  | .completion => .completed
/-- What a call that won the exchange does next: take the channel's sender, and signal with it
unless the waiter completed; swap the `released` flag; run the locked section. -/
inductive ReleaseStage
  | notify
  | swap
  | locked
structure ReleaseCall where
  caller : SettleCaller
  stage : ReleaseStage
inductive WaiterOwner
  /-- `wait` has not been polled. -/
  | idle
  /-- `wait` polls the works and the cancellation channel. -/
  | selecting
  /-- The works have resolved, and `complete` is next. -/
  | settling
  /-- `complete` has won and releases. -/
  | completing
  /-- `wait` has returned. -/
  | returned
  /-- The waiter was dropped before `wait` returned. -/
  | dropped
  deriving DecidableEq
/-- Result of attempting to cancel one hydration waiter. -/
inductive HydrationCancellationOutcome
  | cancelled
  | alreadyCancelled
  | alreadyCompleted
  deriving DecidableEq
/-- A registered waiter with its atomics, the calls in flight on them, and what was answered. -/
structure RacingWaiter where
  request : HydrationRequest
  registration : Registration
  terminal : WaiterTerminal
  released : Bool
  /-- Whether the cancellation channel still has its sender. -/
  sender : Bool
  calls : List ReleaseCall
  owner : WaiterOwner
  joined : Option (Except HydrationError (List ContentReadResponse))
  outcome : Option (Except HydrationError ContentReadResponse)
  /-- What cancellation handles were told, in order. -/
  reports : List HydrationCancellationOutcome
  /-- What the cancellation by `Drop` came to. -/
  dropReport : Option HydrationCancellationOutcome
  /-- How often the locked release section ran. -/
  releases : ℕ
/-- A coordinator with its waiters. -/
structure HydrationRace where
  coordinator : CoordinatorState
  waiters : List RacingWaiter
  answers : AList fun _ : SharedRead => Except HydrationError ContentReadResponse
def HydrationRace.initial : HydrationRace := ⟨CoordinatorState.empty, [], ∅⟩
namespace RacingWaiter
/-- A waiter as `request` returns it. -/
def new (request : HydrationRequest) (registration : Registration) : RacingWaiter :=
  ⟨request, registration, .pending, false, true, [], .idle, none, none, [], none, 0⟩
variable (waiter : RacingWaiter)
def workIds : List ℕ :=
  waiter.registration.dependencies.map WorkDependency.id
/-- The compare-and-exchange from `pending`; the winner has its release before it. -/
def exchange (caller : SettleCaller) : RacingWaiter :=
  if waiter.terminal = .pending then
    { waiter with
      terminal := caller.terminal
      calls := waiter.calls ++ [⟨caller, .notify⟩] }
  else waiter
def cancelAnswer : HydrationCancellationOutcome :=
  match waiter.terminal with
  | .pending => .cancelled
  | .cancelled => .alreadyCancelled
  | .completed => .alreadyCompleted
/-- `wait` returns that the waiter was cancelled. -/
def returnCancelled : RacingWaiter :=
  { waiter with owner := .returned, outcome := some (.error .cancelled) }
end RacingWaiter
/-! ## The steps -/
/-- One atomic action. -/
inductive RaceLabel
  /-- `HydrationCoordinator::request`. -/
  | request (request : HydrationRequest)
  /-- The backend answers a shared future. -/
  | resolve (future : SharedRead) (answer : Except CloudBackendError ContentReadResponse)
  /-- A clone of the cancellation handle calls `cancel`, up to and including its exchange. -/
  | cancel (waiter : ℕ)
  /-- The waiter, or the future of its `wait`, is dropped before it has finished. -/
  | drop (waiter : ℕ)
  /-- The check at the entry of `wait`. -/
  | enter (waiter : ℕ)
  /-- The select finds that `try_join_all` has all answers. -/
  | join (waiter : ℕ)
  /-- The select finds that `try_join_all` has given up at a failed future. -/
  | joinFailed (waiter : ℕ) (future : SharedRead)
  /-- The select finds the cancellation channel resolved. -/
  | observeSignal (waiter : ℕ)
  /-- The exchange of `complete`. -/
  | complete (waiter : ℕ)
  /-- A call past its exchange takes its next action. -/
  | advance (waiter : ℕ) (call : ℕ)
  /-- `complete` has returned, and `wait` returns what the works gave. -/
  | finish (waiter : ℕ)
def RacingWaiter.next (answers : AList fun _ : SharedRead => Except HydrationError ContentReadResponse)
    (waiter : RacingWaiter) : RaceLabel → Option RacingWaiter
  | .cancel _ =>
    some { waiter.exchange .handle with reports := waiter.reports ++ [waiter.cancelAnswer] }
  | .drop _ =>
    if waiter.owner = .idle ∨ waiter.owner = .selecting then
      some { waiter.exchange .drop with
        owner := .dropped, dropReport := some waiter.cancelAnswer }
    else none
  | .enter _ =>
    if waiter.owner = .idle then
      if waiter.terminal = .cancelled then some waiter.returnCancelled
      else some { waiter with owner := .selecting }
    else none
  | .join _ =>
    if waiter.owner = .selecting then
      (joinAll answers waiter.registration.dependencies).map fun responses =>
        { waiter with owner := .settling, joined := some (.ok responses) }
    else none
  | .joinFailed _ future =>
    if waiter.owner = .selecting ∧ future ∈ waiter.registration.dependencies.map WorkDependency.future then
      match answers.lookup future with
      | some (.error error) =>
        some { waiter with owner := .settling, joined := some (.error error) }
      | _ => none
    else none
  | .observeSignal _ =>
    if waiter.owner = .selecting ∧ waiter.sender = false then some waiter.returnCancelled
    else none
  | .complete _ =>
    if waiter.owner = .settling then
      if waiter.terminal = .pending then
        some { waiter.exchange .completion with owner := .completing }
      else some waiter.returnCancelled
    else none
  | .finish _ =>
    -- `complete` runs on the owner's own thread, so its call is over before `wait` goes on
    if waiter.owner = .completing ∧ ∀ call ∈ waiter.calls, call.caller ≠ .completion then
      match waiter.joined with
      | some (.ok responses) =>
        some { waiter with
          owner := .returned
          outcome := some (assemble waiter.request waiter.registration responses) }
      | some (.error error) =>
        some { waiter with owner := .returned, outcome := some (.error error) }
      | none => none
    else none
  | _ => none
def RaceLabel.waiter? : RaceLabel → Option ℕ
  | .cancel waiter | .drop waiter | .enter waiter | .join waiter | .joinFailed waiter _
  | .observeSignal waiter | .complete waiter | .finish waiter => some waiter
  | _ => none
def RacingWaiter.advance (coordinator : CoordinatorState) (waiter : RacingWaiter) (index : ℕ) :
    Option (CoordinatorState × RacingWaiter) :=
  match waiter.calls[index]? with
  | none => none
  | some ⟨caller, .notify⟩ =>
    some (coordinator, { waiter with
      sender := false
      calls := waiter.calls.set index ⟨caller, .swap⟩ })
  | some ⟨caller, .swap⟩ =>
    if waiter.released then
      some (coordinator, { waiter with calls := waiter.calls.eraseIdx index })
    else
      some (coordinator, { waiter with
        released := true
        calls := waiter.calls.set index ⟨caller, .locked⟩ })
  | some ⟨_, .locked⟩ =>
    some (releaseWork coordinator waiter.workIds, { waiter with
      releases := waiter.releases + 1
      calls := waiter.calls.eraseIdx index })
/-- One step of the race, or `none` when the label cannot happen in this state. -/
def HydrationRace.step (limits : HydrationLimits) (race : HydrationRace) (label : RaceLabel) :
    Option HydrationRace :=
  match label with
  | .request read =>
    match request limits race.coordinator read with
    | (.error _, coordinator) => some { race with coordinator }
    | (.ok registration, coordinator) =>
      some { race with
        coordinator
        waiters := race.waiters ++ [RacingWaiter.new read registration] }
  | .resolve future answer =>
    if race.answers.lookup future = none ∧ ∃ waiter ∈ race.waiters, waiter.outcome = none ∧
        future ∈ waiter.registration.dependencies.map WorkDependency.future then
      some { race with
        answers := race.answers.insert future (readOutcome future.request answer) }
    else none
  | .advance index call =>
    match race.waiters[index]? with
    | none => none
    | some waiter =>
      (waiter.advance race.coordinator call).map fun (coordinator, waiter) =>
        { race with coordinator, waiters := race.waiters.set index waiter }
  | label =>
    match label.waiter? with
    | none => none
    | some index =>
      match race.waiters[index]? with
      | none => none
      | some waiter =>
        (waiter.next race.answers label).map fun waiter =>
          { race with waiters := race.waiters.set index waiter }
def HydrationRace.Step (limits : HydrationLimits) (race : HydrationRace) (label : RaceLabel)
    (race' : HydrationRace) : Prop :=
  race.step limits label = some race'
/-- The states a coordinator with the given limits reaches. -/
def HydrationRace.ReachableFrom (limits : HydrationLimits) (race : HydrationRace) : Prop :=
  Reachable (fun s => s = HydrationRace.initial) (HydrationRace.Step limits) race
/-! ## Results that are no cancellation -/
lemma checkedSliceTotal_ne_cancelled (t : ℕ) (l : List ℕ) : checkedSliceTotal t l ≠ .error .cancelled := by
  induction l generalizing t with
  | nil => exact nofun
  | cons ln l ih =>
    rw [checkedSliceTotal]
    split
    · exact ih _
    · exact nofun
lemma combineSlices_ne_cancelled (s : List (List UInt8)) : combineSlices s ≠ .error .cancelled := by
  unfold combineSlices
  split
  · exact nofun
  · exact nofun
  · split
    case h_1 error herror =>
      rintro ⟨⟩
      exact checkedSliceTotal_ne_cancelled _ _ herror
    case h_2 => exact nofun
lemma copySlices_ne_cancelled (te c : ℕ) (p : List (WorkDependency × ContentReadResponse)) :
    copySlices te c p ≠ .error .cancelled := by
  induction p generalizing c with
  | nil => exact nofun
  | cons pr p ih =>
    rw [copySlices]
    split
    · exact ih c
    simp only []
    split
    · exact nofun
    split
    · exact nofun
    split
    case h_1 error herror =>
      rintro ⟨⟩
      exact ih _ herror
    case h_2 => exact nofun
lemma assemble_ne_cancelled (rq : HydrationRequest) (r : Registration) (rs : List ContentReadResponse) :
    assemble rq r rs ≠ .error .cancelled := by
  unfold assemble
  simp only []
  split
  · cases ContentReadResponse.new rq.read.revision r.targetStart [] rq.read.expectedSize <;> exact nofun
  split
  · exact nofun
  split
  case h_1 error herror =>
    rintro ⟨⟩
    exact copySlices_ne_cancelled _ _ _ herror
  case h_2 =>
    split
    · exact nofun
    split
    case h_1 error herror =>
      rintro ⟨⟩
      exact combineSlices_ne_cancelled _ herror
    case h_2 =>
      split
      · exact nofun
      split <;> exact nofun
/-! ## The invariant of one waiter -/
/-- How far the release of a waiter is: nobody has won the exchange, or exactly one call has, or
that call is over and the locked section has run once. -/
inductive ReleaseProgress (terminal : WaiterTerminal) : List ReleaseCall → Bool → Bool → ℕ → Prop
  | held : terminal = .pending → ReleaseProgress terminal [] false true 0
  | notify {caller : SettleCaller} :
      caller.terminal = terminal → ReleaseProgress terminal [⟨caller, .notify⟩] false true 0
  | swap {caller : SettleCaller} :
      caller.terminal = terminal → ReleaseProgress terminal [⟨caller, .swap⟩] false false 0
  | locked {caller : SettleCaller} :
      caller.terminal = terminal → ReleaseProgress terminal [⟨caller, .locked⟩] true false 0
  | done : terminal ≠ .pending → ReleaseProgress terminal [] true false 1
def RacingWaiter.OwnerFits (waiter : RacingWaiter) : Prop :=
  match waiter.owner with
  | .idle | .selecting =>
    waiter.joined = none ∧ waiter.outcome = none ∧ waiter.terminal ≠ .completed
  | .settling => waiter.joined ≠ none ∧ waiter.outcome = none ∧ waiter.terminal ≠ .completed
  | .completing => waiter.joined ≠ none ∧ waiter.outcome = none ∧ waiter.terminal = .completed
  | .returned =>
    (waiter.terminal = .cancelled ∧ waiter.outcome = some (.error .cancelled)) ∨
      (waiter.terminal = .completed ∧ ∃ outcome, waiter.outcome = some outcome ∧ outcome ≠ .error .cancelled)
  | .dropped => waiter.outcome = none ∧ waiter.terminal = .cancelled
structure RacingWaiter.Ordered (waiter : RacingWaiter) : Prop where
  progress : ReleaseProgress waiter.terminal waiter.calls waiter.released waiter.sender waiter.releases
  owner : waiter.OwnerFits
  dropped : waiter.dropReport ≠ none ↔ waiter.owner = .dropped
  wins : (waiter.reports ++ waiter.dropReport.toList).count .cancelled =
    if waiter.terminal = .cancelled then 1 else 0
  errors : waiter.joined ≠ some (.error .cancelled)
variable {calls : List ReleaseCall} {released sender : Bool} {rl : ℕ} {waiter' : RacingWaiter}
variable {t : WaiterTerminal}
lemma ReleaseProgress.of_pending (h : ReleaseProgress t calls released sender rl) (hp : t = .pending) :
    calls = [] ∧ released = false ∧ sender = true ∧ rl = 0 := by
  have hcaller : ∀ caller : SettleCaller, caller.terminal ≠ .pending := by
    intro caller
    cases caller <;> decide
  cases h with
  | held _ => exact ⟨rfl, rfl, rfl, rfl⟩
  | notify h | swap h => exact absurd (h.trans hp) (hcaller _)
  | locked h => exact absurd (h.trans hp) (hcaller _)
  | done h => exact absurd hp h
namespace RacingWaiter
variable {w : RacingWaiter} {c : SettleCaller}
@[simp] lemma exchange_fields : (w.exchange c).request = w.request ∧
    (w.exchange c).registration = w.registration ∧ (w.exchange c).joined = w.joined ∧
    (w.exchange c).outcome = w.outcome ∧ (w.exchange c).owner = w.owner ∧
    (w.exchange c).reports = w.reports ∧ (w.exchange c).dropReport = w.dropReport ∧
    (w.exchange c).releases = w.releases := by
  unfold exchange
  split <;> simp
lemma exchange_terminal : (w.exchange c).terminal = if w.terminal = .pending then c.terminal else w.terminal := by
  unfold exchange
  split <;> simp_all
lemma exchange_progress (h : ReleaseProgress w.terminal w.calls w.released w.sender w.releases) :
    ReleaseProgress (w.exchange c).terminal (w.exchange c).calls (w.exchange c).released (w.exchange c).sender
      (w.exchange c).releases := by
  unfold exchange
  split
  case isTrue hpend =>
    obtain ⟨hc, hrl, hs, hr⟩ := h.of_pending hpend
    rw [hc, hrl, hs, hr]
    exact .notify rfl
  case isFalse => exact h
lemma wins_exchange (cl : SettleCaller) {a : List HydrationCancellationOutcome}
    (hc : cl.terminal = .cancelled) (hw : a.count .cancelled = if w.terminal = .cancelled then 1 else 0) :
    (a ++ [w.cancelAnswer]).count .cancelled = if (w.exchange cl).terminal = .cancelled then 1 else 0 := by
  rw [count_append, hw, exchange_terminal]
  unfold cancelAnswer
  cases w.terminal <;> simp [hc]
lemma OwnerFits.exchange (h : w.OwnerFits) (hc : c.terminal = .cancelled) : (w.exchange c).OwnerFits := by
  unfold OwnerFits at h ⊢
  simp only [exchange_fields, exchange_terminal]
  cases hterm : w.terminal <;> cases howner : w.owner <;> simp_all
lemma Ordered.cancelled_of_signal (h : w.Ordered) (hs : w.sender = false)
    (ht : w.terminal ≠ .completed) : w.terminal = .cancelled := by
  cases hwait : w.terminal
  · have hheld := (h.progress.of_pending hwait).2.2.1
    rw [hs] at hheld
    cases hheld
  · exact absurd hwait ht
  · rfl
lemma Ordered.move (h : w.Ordered) {owner : WaiterOwner}
    {joined : Option (Except HydrationError (List ContentReadResponse))}
    {outcome : Option (Except HydrationError ContentReadResponse)}
    (hf : w.owner ≠ .dropped) (hto : owner ≠ .dropped) (hft : { w with owner, joined, outcome }.OwnerFits)
    (he : joined ≠ some (.error .cancelled)) : { w with owner, joined, outcome }.Ordered where
  __ := h
  owner := hft
  dropped := by
    have hnone := h.dropped.not.mpr hf
    simp only [hto, iff_false]
    exact hnone
  errors := he
lemma Ordered.returnCancelled (h : w.Ordered) (hf : w.owner ≠ .dropped)
    (ht : w.terminal = .cancelled) : w.returnCancelled.Ordered :=
  h.move hf nofun (.inl ⟨ht, rfl⟩) h.errors
/-- **What one label does to its own waiter keeps the invariant.** -/
theorem Ordered.next {w' : RacingWaiter} {label : RaceLabel}
    {answers : AList fun _ : SharedRead => Except HydrationError ContentReadResponse}
    (ha : ∀ future, answers.lookup future ≠ some (.error .cancelled))
    (h : w.Ordered) (hn : w.next answers label = some w') : w'.Ordered := by
  have ho := h.owner
  have hdrop := h.dropped
  unfold OwnerFits at ho
  cases label with
  | cancel _ =>
    cases hn
    have hrep : ∀ tail : List HydrationCancellationOutcome,
        (w.reports ++ [w.cancelAnswer] ++ tail).count .cancelled =
          ((w.reports ++ tail) ++ [w.cancelAnswer]).count .cancelled := by
      simp only [count_append]
      omega
    exact
      { progress := exchange_progress h.progress
        owner := h.owner.exchange rfl
        dropped := by simpa using h.dropped
        wins := by
          simp only [exchange_fields]
          rw [hrep]
          exact wins_exchange _ rfl h.wins
        errors := by simpa using h.errors }
  | drop _ =>
    obtain ⟨hh, ⟨⟩⟩ := ite_none_right_eq_some.mp hn
    have hnone : w.dropReport = none := by
      rw [← not_not (a := w.dropReport = none), ← ne_eq, hdrop]
      rcases hh with hh | hh <;> simp [hh]
    have hterm : w.outcome = none ∧ w.terminal ≠ .completed := by
      rcases hh with hh | hh <;> simp only [hh] at ho <;> exact ho.2
    exact
      { progress := exchange_progress h.progress
        owner := by
          refine ⟨by simpa using hterm.1, ?_⟩
          rw [exchange_terminal]
          cases hwait : w.terminal
          · rfl
          · exact absurd hwait hterm.2
          · rfl
        dropped := by simp
        wins := by
          have hwins := h.wins
          rw [hnone, toList_none] at hwins
          simpa using wins_exchange .drop rfl hwins
        errors := by simpa using h.errors }
  | enter _ =>
    obtain ⟨hi, hn⟩ := ite_none_right_eq_some.mp hn
    simp only [hi] at ho
    by_cases hcanc : w.terminal = .cancelled
    · rw [if_pos hcanc] at hn
      cases hn
      exact h.returnCancelled (by simp [hi]) hcanc
    · rw [if_neg hcanc] at hn
      cases hn
      exact h.move (by simp [hi]) nofun ho h.errors
  | join _ =>
    simp only [RacingWaiter.next, ite_none_right_eq_some, map_eq_some_iff] at hn
    obtain ⟨hs, responses, -, rfl⟩ := hn
    simp only [hs] at ho
    exact h.move (by simp [hs]) nofun ⟨nofun, ho.2⟩ nofun
  | joinFailed _ future =>
    obtain ⟨⟨hs, -⟩, hn⟩ := ite_none_right_eq_some.mp hn
    simp only [hs] at ho
    split at hn
    case h_1 error hans =>
      cases hn
      refine h.move (by simp [hs]) nofun ⟨nofun, ho.2⟩ ?_
      rintro ⟨⟩
      exact ha future hans
    case h_2 => cases hn
  | observeSignal _ =>
    obtain ⟨⟨hs, hsn⟩, ⟨⟩⟩ := ite_none_right_eq_some.mp hn
    simp only [hs] at ho
    exact h.returnCancelled (by simp [hs]) (h.cancelled_of_signal hsn ho.2.2)
  | complete _ =>
    obtain ⟨hst, hn⟩ := ite_none_right_eq_some.mp hn
    simp only [hst] at ho
    by_cases hpend : w.terminal = .pending
    · rw [if_pos hpend] at hn
      cases hn
      have hterm : (w.exchange .completion).terminal = .completed := by
        rw [exchange_terminal, if_pos hpend]
        rfl
      exact
        { progress := exchange_progress h.progress
          owner := ⟨by simpa using ho.1, by simpa using ho.2.1, hterm⟩
          dropped := by simpa [hst] using h.dropped
          wins := by simpa [hterm, hpend] using h.wins
          errors := by simpa using h.errors }
    · rw [if_neg hpend] at hn
      cases hn
      refine h.returnCancelled (by simp [hst]) ?_
      cases hterm : w.terminal
      · exact absurd hterm hpend
      · exact absurd hterm ho.2.2
      · rfl
  | finish _ =>
    obtain ⟨⟨hc, -⟩, hn⟩ := ite_none_right_eq_some.mp hn
    simp only [hc] at ho
    split at hn
    case h_1 responses hjoined =>
      cases hn
      exact h.move (by simp [hc]) nofun (.inr ⟨ho.2.2, _, rfl, assemble_ne_cancelled _ _ _⟩) h.errors
    case h_2 error hjoined =>
      cases hn
      refine h.move (by simp [hc]) nofun (.inr ⟨ho.2.2, _, rfl, ?_⟩) h.errors
      rintro ⟨⟩
      exact h.errors hjoined
    case h_3 => cases hn
  | request _ => cases hn
  | resolve _ _ => cases hn
  | advance _ _ => cases hn
/-- **A call past its exchange takes its next action.**  It is the only one, and it leaves the
coordinator alone until it runs the locked section, which it does once. -/
theorem Ordered.advance {c c' : CoordinatorState} {w' : RacingWaiter} {index : ℕ} (h : w.Ordered)
    (ha : w.advance c index = some (c', w')) :
    w'.Ordered ∧ w'.terminal = w.terminal ∧ w.terminal ≠ .pending ∧
      ((c' = c ∧ ∃ released sender calls, w' = { w with released, sender, calls }) ∨
        (c' = releaseWork c w.workIds ∧ w.releases = 0 ∧ ∃ calls, w' = { w with releases := 1, calls })) := by
  have hcalls : w.calls ≠ [] := by
    intro hn
    simp [RacingWaiter.advance, hn] at ha
  have hterm : w.terminal ≠ .pending := fun hp =>
    hcalls (h.progress.of_pending hp).1
  obtain ⟨request, registration, terminal, released, sender, calls, owner, joined, outcome, reports,
    dropReport, rl⟩ := w
  obtain ⟨hpr, ho, hd, hw, he⟩ := h
  cases index with
  | succ index => cases hpr <;> simp [RacingWaiter.advance] at ha
  | zero =>
    cases hpr with
    | held hp => exact absurd hp hterm
    | done _ => simp at hcalls
    | notify hc =>
      cases ha
      exact ⟨⟨.swap hc, ho, hd, hw, he⟩, rfl, hterm, .inl ⟨rfl, _, _, _, rfl⟩⟩
    | swap hc =>
      cases ha
      exact ⟨⟨.locked hc, ho, hd, hw, he⟩, rfl, hterm, .inl ⟨rfl, _, _, _, rfl⟩⟩
    | locked hc =>
      cases ha
      exact ⟨⟨.done hterm, ho, hd, hw, he⟩, rfl, hterm, .inr ⟨rfl, rfl, _, rfl⟩⟩
end RacingWaiter
/-! ## The race refines the system -/
/-- Where the release stands, as `Hydration` sees it: the locked section is the release. -/
def RacingWaiter.phase (waiter : RacingWaiter) : ReleasePhase :=
  if waiter.terminal = .pending then .held
  else if waiter.releases = 0 then .releasing
  else .released
def RacingWaiter.waiter (waiter : RacingWaiter) : Waiter :=
  ⟨waiter.request, waiter.registration, waiter.terminal, waiter.phase, waiter.joined, waiter.outcome⟩
/-- The race as a state of `Hydration`. -/
def HydrationRace.system (race : HydrationRace) : Hydration :=
  ⟨race.coordinator, race.waiters.map RacingWaiter.waiter, race.answers⟩
namespace RacingWaiter
variable {wt : RacingWaiter} {caller : SettleCaller}
lemma waiter_exchange (cl : SettleCaller) (h : wt.Ordered) :
    (wt.exchange cl).waiter = wt.waiter.settle cl.terminal := by
  have hcaller : cl.terminal ≠ .pending := by
    cases cl <;> simp [SettleCaller.terminal]
  unfold exchange Waiter.settle RacingWaiter.waiter
  by_cases hpend : wt.terminal = .pending
  · have hrel := (h.progress.of_pending hpend).2.2.2
    simp [hpend, phase, hcaller, hrel]
  · simp [hpend]
lemma Ordered.released_of_completed (h : wt.Ordered) (ht : wt.terminal = .completed)
    (hcl : ∀ c ∈ wt.calls, c.caller ≠ .completion) : wt.phase = .released := by
  obtain ⟨request, registration, terminal, released, sender, calls, owner, joined, outcome, reports,
    dropReport, rl⟩ := wt
  subst ht
  have hc : ∀ {cl : SettleCaller} {s : ReleaseStage}, cl.terminal = .completed → calls ≠ [⟨cl, s⟩] := by
    rintro cl s hc rfl
    have hne := hcl _ mem_cons_self
    cases cl with
    | handle => cases hc
    | drop => cases hc
    | completion => exact hne rfl
  cases h.progress with
  | held hp => cases hp
  | notify h | swap h => exact absurd rfl (hc h)
  | locked h => exact absurd rfl (hc h)
  | done _ => rfl
/-- **A label of one waiter is a label of `Hydration`**, or nothing that `Hydration` sees. -/
theorem Ordered.next_simulates {waiter' : RacingWaiter} {label : RaceLabel} {index : ℕ}
    {a : AList fun _ : SharedRead => Except HydrationError ContentReadResponse}
    (h : wt.Ordered) (hn : wt.next a label = some waiter') :
    waiter'.waiter = wt.waiter ∨ ∃ s : HydrationLabel, s.waiter? = some index ∧
        wt.waiter.next a s = some waiter'.waiter := by
  have howner := h.owner
  unfold OwnerFits at howner
  have hreturn : ∀ {t : WaiterTerminal}, wt.terminal = t → t = .cancelled → wt.outcome = none →
        wt.waiter.next a (.observeCancelled index) = some wt.returnCancelled.waiter := by
    rintro _ ht rfl ho
    have hguard : wt.waiter.terminal = .cancelled ∧ wt.waiter.outcome = none :=
      ⟨ht, ho⟩
    rw [Waiter.next, if_pos hguard]
    rfl
  cases label with
  | cancel _ =>
    cases hn
    refine .inr ⟨.cancel index, rfl, ?_⟩
    exact congrArg some (waiter_exchange .handle h).symm
  | drop _ =>
    obtain ⟨-, ⟨⟩⟩ := ite_none_right_eq_some.mp hn
    refine .inr ⟨.cancel index, rfl, ?_⟩
    exact congrArg some (waiter_exchange .drop h).symm
  | enter _ =>
    obtain ⟨hi, hn⟩ := ite_none_right_eq_some.mp hn
    simp only [hi] at howner
    by_cases hcanc : wt.terminal = .cancelled
    · rw [if_pos hcanc] at hn
      cases hn
      exact .inr ⟨.observeCancelled index, rfl, hreturn hcanc rfl howner.2.1⟩
    · rw [if_neg hcanc] at hn
      cases hn
      exact .inl rfl
  | join _ =>
    simp only [RacingWaiter.next, ite_none_right_eq_some, map_eq_some_iff] at hn
    obtain ⟨hs, r, hj, rfl⟩ := hn
    simp only [hs] at howner
    refine .inr ⟨.join index, rfl, ?_⟩
    have hfresh : wt.waiter.joined = none := howner.1
    have hjoin' : joinAll a wt.waiter.registration.dependencies = some r := hj
    rw [Waiter.next, if_pos hfresh, hjoin']
    rfl
  | joinFailed _ f =>
    obtain ⟨⟨hs, hf⟩, hn⟩ := ite_none_right_eq_some.mp hn
    simp only [hs] at howner
    split at hn
    case h_1 error hans =>
      cases hn
      refine .inr ⟨.joinFailed index f, rfl, ?_⟩
      have hguard : wt.waiter.joined = none ∧
          f ∈ wt.waiter.registration.dependencies.map WorkDependency.future :=
        ⟨howner.1, hf⟩
      rw [Waiter.next, if_pos hguard, hans]
      rfl
    case h_2 => cases hn
  | observeSignal _ =>
    obtain ⟨⟨hs, hsn⟩, ⟨⟩⟩ := ite_none_right_eq_some.mp hn
    simp only [hs] at howner
    refine .inr ⟨.observeCancelled index, rfl, hreturn rfl ?_ howner.2.1⟩
    exact h.cancelled_of_signal hsn howner.2.2
  | complete _ =>
    obtain ⟨hst, hn⟩ := ite_none_right_eq_some.mp hn
    simp only [hst] at howner
    refine .inr ⟨.complete index, rfl, ?_⟩
    have hguard : wt.waiter.joined ≠ none ∧ wt.waiter.outcome = none ∧
        wt.waiter.terminal ≠ .completed := howner
    rw [Waiter.next, if_pos hguard]
    by_cases hpend : wt.terminal = .pending
    · have hpend' : wt.waiter.terminal = .pending := hpend
      rw [if_pos hpend] at hn
      cases hn
      rw [if_pos hpend']
      exact congrArg some (waiter_exchange .completion h).symm
    · have hpend' : ¬ wt.waiter.terminal = .pending := hpend
      rw [if_neg hpend] at hn
      cases hn
      rw [if_neg hpend']
      rfl
  | finish _ =>
    obtain ⟨⟨hcm, hc⟩, hn⟩ := ite_none_right_eq_some.mp hn
    simp only [hcm] at howner
    refine .inr ⟨.finish index, rfl, ?_⟩
    have hguard : wt.waiter.terminal = .completed ∧ wt.waiter.phase = .released ∧ wt.waiter.outcome = none :=
      ⟨howner.2.2, h.released_of_completed howner.2.2 hc, howner.2.1⟩
    rw [Waiter.next, if_pos hguard]
    split at hn
    case h_1 r hjoined =>
      cases hn
      simp only [RacingWaiter.waiter, hjoined]
      rfl
    case h_2 error hjoined =>
      cases hn
      simp only [RacingWaiter.waiter, hjoined]
      rfl
    case h_3 => cases hn
  | request _ => cases hn
  | resolve _ _ => cases hn
  | advance _ _ => cases hn
end RacingWaiter
/-! ## The invariant of the race -/
/-- The invariant of the race: every waiter is ordered, and no shared future resolves to a
cancellation. -/
structure RaceInvariant (race : HydrationRace) : Prop where
  ordered : ∀ waiter ∈ race.waiters, waiter.Ordered
  answers : ∀ future, race.answers.lookup future ≠ some (.error .cancelled)
inductive RaceStepSpec (limits : HydrationLimits) (race : HydrationRace) : RaceLabel → HydrationRace → Prop
  | failed {read : HydrationRequest} {error : HydrationError} {coordinator : CoordinatorState} :
      request limits race.coordinator read = (.error error, coordinator) →
        RaceStepSpec limits race (.request read) { race with coordinator }
  | registered {read : HydrationRequest} {registration : Registration} {coordinator : CoordinatorState} :
      request limits race.coordinator read = (.ok registration, coordinator) →
        RaceStepSpec limits race (.request read) { race with
          coordinator, waiters := race.waiters ++ [RacingWaiter.new read registration] }
  | resolved {future : SharedRead} {answer : Except CloudBackendError ContentReadResponse} :
      race.answers.lookup future = none → (∃ waiter ∈ race.waiters, waiter.outcome = none ∧
        future ∈ waiter.registration.dependencies.map WorkDependency.future) →
        RaceStepSpec limits race (.resolve future answer) { race with
          answers := race.answers.insert future (readOutcome future.request answer) }
  | advanced {index call : ℕ} {waiter waiter' : RacingWaiter} {coordinator : CoordinatorState} :
      race.waiters[index]? = some waiter →
      waiter.advance race.coordinator call = some (coordinator, waiter') →
        RaceStepSpec limits race (.advance index call) { race with
          coordinator, waiters := race.waiters.set index waiter' }
  | moved {label : RaceLabel} {index : ℕ} {waiter waiter' : RacingWaiter} :
      race.waiters[index]? = some waiter → waiter.next race.answers label = some waiter' →
        RaceStepSpec limits race label { race with waiters := race.waiters.set index waiter' }
variable {limits : HydrationLimits} {race race' : HydrationRace} {l : RaceLabel}
open HydrationRace
lemma race_step_spec (hs : race.step limits l = some race') : RaceStepSpec limits race l race' := by
  have hlocal : ∀ {index : ℕ}, (match race.waiters[index]? with
      | none => none
      | some waiter => (waiter.next race.answers l).map fun waiter =>
        { race with waiters := race.waiters.set index waiter }) = some race' →
      RaceStepSpec limits race l race' := by
    intro index h
    cases hget : race.waiters[index]? with
    | none => simp [hget] at h
    | some waiter =>
      simp only [hget, map_eq_some_iff] at h
      obtain ⟨waiter', hn, rfl⟩ := h
      exact .moved hget hn
  cases l with
  | request rd =>
    simp only [step] at hs
    rcases hres : request limits race.coordinator rd with ⟨_ | r, c⟩
    · simp only [hres, some.injEq] at hs
      exact hs ▸ .failed hres
    · simp only [hres, some.injEq] at hs
      exact hs ▸ .registered hres
  | resolve f a =>
    obtain ⟨⟨hf, hd⟩, ⟨⟩⟩ := ite_none_right_eq_some.mp hs
    exact .resolved hf hd
  | advance index cl =>
    simp only [step] at hs
    cases hget : race.waiters[index]? with
    | none => simp [hget] at hs
    | some waiter =>
      simp only [hget, map_eq_some_iff] at hs
      obtain ⟨⟨c, waiter'⟩, ha, rfl⟩ := hs
      exact .advanced hget ha
  | cancel index => exact hlocal hs
  | drop index => exact hlocal hs
  | enter index => exact hlocal hs
  | join index => exact hlocal hs
  | joinFailed index _ => exact hlocal hs
  | observeSignal index => exact hlocal hs
  | complete index => exact hlocal hs
  | finish index => exact hlocal hs
variable {i : ℕ}
lemma ordered_set {w : List RacingWaiter} (h : ∀ waiter ∈ w, waiter.Ordered) (hw' : waiter'.Ordered) :
    ∀ waiter ∈ w.set i waiter', waiter.Ordered := by
  intro waiter hw
  rcases mem_or_eq_of_mem_set hw with hw | rfl
  · exact h waiter hw
  · exact hw'
lemma new_ordered (rd : HydrationRequest) (r : Registration) : (RacingWaiter.new rd r).Ordered where
  progress := .held rfl
  owner := ⟨rfl, rfl, nofun⟩
  dropped := by simp [RacingWaiter.new]
  wins := rfl
  errors := nofun
lemma readOutcome_ne_cancelled (r : ContentReadRequest) (a : Except CloudBackendError ContentReadResponse) :
    readOutcome r a ≠ .error .cancelled := by
  unfold readOutcome
  split
  · exact nofun
  · split <;> exact nofun
/-- **Every step keeps the invariant of the race.** -/
theorem race_invariant_step (h : RaceInvariant race)
    (hs : race.step limits l = some race') : RaceInvariant race' := by
  cases race_step_spec hs with
  | failed _ => exact ⟨h.ordered, h.answers⟩
  | registered _ =>
    refine ⟨fun waiter hw => ?_, h.answers⟩
    rcases mem_append.mp hw with hw | hw
    · exact h.ordered waiter hw
    · rw [mem_singleton.mp hw]
      exact new_ordered _ _
  | resolved _ _ =>
    refine ⟨h.ordered, fun o => ?_⟩
    rw [lookup_insert_eq]
    split
    · rw [Ne, some.injEq]
      exact readOutcome_ne_cancelled _ _
    · exact h.answers o
  | advanced hg ha =>
    exact ⟨ordered_set h.ordered ((h.ordered _ (mem_of_getElem? hg)).advance ha).1, h.answers⟩
  | moved hg hn =>
    exact ⟨ordered_set h.ordered ((h.ordered _ (mem_of_getElem? hg)).next h.answers hn), h.answers⟩
lemma race_invariant_of_reachable (h : race.ReachableFrom limits) : RaceInvariant race := by
  refine induction ?_ ?_ h
  · rintro _ rfl
    exact ⟨by simp [initial], by simp [initial]⟩
  · exact fun _ _ _ _ hi hs => race_invariant_step hi hs
lemma system_waiters_getElem? (index : ℕ) :
    race.system.waiters[index]? = race.waiters[index]?.map RacingWaiter.waiter :=
  getElem?_map
lemma set_getElem?_self {α : Type} {xs : List α} {x : α} (h : xs[i]? = some x) : xs.set i x = xs := by
  obtain ⟨hi, rfl⟩ := List.getElem?_eq_some_iff.mp h
  exact List.set_getElem_self hi
lemma step_of_next {s : Hydration} {label : HydrationLabel}
    {waiter waiter' : Waiter} (hi : label.waiter? = some i) (hg : s.waiters[i]? = some waiter)
    (hn : waiter.next s.answers label = some waiter') :
    s.step limits label = some { s with waiters := s.waiters.set i waiter' } := by
  cases label <;> simp [HydrationLabel.waiter?] at hi
  all_goals
    subst hi
    simp [Hydration.step, HydrationLabel.waiter?, hg, hn]
lemma step_release {s : Hydration} {waiter : Waiter}
    (hg : s.waiters[i]? = some waiter) (hp : waiter.phase = .releasing) :
    s.step limits (.release i) = some { s with
      coordinator := releaseWork s.coordinator waiter.workIds
      waiters := s.waiters.set i { waiter with phase := .released } } := by
  simp only [Hydration.step, hg, if_pos hp]
/-- **The race refines the system**: an atomic action is a step of `Hydration`, or nothing that
`Hydration` sees. -/
theorem race_simulates (h : RaceInvariant race) (hs : race.step limits l = some race') :
    race'.system = race.system ∨ ∃ s, race.system.step limits s = some race'.system := by
  cases race_step_spec hs with
  | @failed r _ _ hrq =>
    refine .inr ⟨.request r, ?_⟩
    rw [Hydration.step, system, hrq]
    rfl
  | @registered r rg c hrq =>
    refine .inr ⟨.request r, ?_⟩
    rw [Hydration.step, system, hrq]
    simp only [system, map_append, map_cons, map_nil]
    rfl
  | @resolved f a hfr hd =>
    refine .inr ⟨.resolve f a, ?_⟩
    obtain ⟨waiter, hw, ho, hf⟩ := hd
    have hguard : race.system.answers.lookup f = none ∧
        ∃ waiter ∈ race.system.waiters, waiter.outcome = none ∧
          f ∈ waiter.registration.dependencies.map WorkDependency.future :=
      ⟨hfr, waiter.waiter, mem_map_of_mem hw, ho, hf⟩
    rw [Hydration.step, if_pos hguard]
    rfl
  | @advanced i cl waiter waiter' c hg ha =>
    obtain ⟨-, -, ht, hc⟩ :=
      (h.ordered _ (mem_of_getElem? hg)).advance ha
    have hget' : race.system.waiters[i]? = some waiter.waiter := by
      rw [system_waiters_getElem?, hg, map_some]
    rcases hc with ⟨rfl, released, sender, calls, rfl⟩ | ⟨rfl, hr, calls, rfl⟩
    · refine .inl ?_
      have hsame : { waiter with released, sender, calls }.waiter = waiter.waiter := rfl
      simp only [system, map_set, hsame]
      exact congrArg (Hydration.mk _ · _) (set_getElem?_self hget')
    · refine .inr ⟨.release i, ?_⟩
      have hphase : waiter.waiter.phase = .releasing := by
        simp [RacingWaiter.waiter, RacingWaiter.phase, ht, hr]
      have hrel : { waiter with releases := 1, calls }.waiter =
          { waiter.waiter with phase := .released } := by
        simp [RacingWaiter.waiter, RacingWaiter.phase, ht]
      rw [step_release hget' hphase]
      simp only [system, map_set, hrel]
      rfl
  | @moved _ i waiter waiter' hg hn =>
    have hget' : race.system.waiters[i]? = some waiter.waiter := by
      rw [system_waiters_getElem?, hg, map_some]
    have hsys : system { race with waiters := race.waiters.set i waiter' } =
        { race.system with waiters := race.system.waiters.set i waiter'.waiter } := by
      simp [system]
    rcases (h.ordered _ (mem_of_getElem? hg)).next_simulates hn with
      hsame | ⟨s, hindex, hnext'⟩
    · refine .inl ?_
      rw [hsys, hsame, set_getElem?_self hget']
    · refine .inr ⟨s, ?_⟩
      rw [hsys]
      exact step_of_next hindex hget' hnext'
lemma race_reachable_system (h : race.ReachableFrom limits) : race.system.ReachableFrom limits := by
  refine induction (I := fun race => race.system.ReachableFrom limits) ?_ ?_ h
  · rintro _ rfl
    exact of_init rfl
  · intro race l race' hr hs hst
    rcases race_simulates (race_invariant_of_reachable hr) hst with hsm | ⟨s, hsi⟩
    · rw [hsm]
      exact hs
    · exact hs.tail hsi
/-! ## The terminal state stays -/
variable {waiter : RacingWaiter}

lemma RacingWaiter.next_terminal {a : AList fun _ : SharedRead => Except HydrationError ContentReadResponse}
    (hn : waiter.next a l = some waiter') (ht : waiter.terminal ≠ .pending) :
    waiter'.terminal = waiter.terminal := by
  have hexchange : ∀ caller, (waiter.exchange caller).terminal = waiter.terminal := by
    intro caller
    rw [exchange_terminal, if_neg ht]
  cases l with
  | cancel _ =>
    cases hn
    exact hexchange .handle
  | drop _ =>
    obtain ⟨-, ⟨⟩⟩ := ite_none_right_eq_some.mp hn
    exact hexchange .drop
  | enter _ | finish _ =>
    obtain ⟨-, hn⟩ := ite_none_right_eq_some.mp hn
    split at hn <;> cases hn <;> rfl
  | join _ =>
    simp only [RacingWaiter.next, ite_none_right_eq_some, map_eq_some_iff] at hn
    obtain ⟨-, _, -, rfl⟩ := hn
    rfl
  | joinFailed _ _ =>
    obtain ⟨-, hn⟩ := ite_none_right_eq_some.mp hn
    split at hn <;> cases hn
    rfl
  | observeSignal _ =>
    obtain ⟨-, ⟨⟩⟩ := ite_none_right_eq_some.mp hn
    rfl
  | complete _ =>
    obtain ⟨-, hn⟩ := ite_none_right_eq_some.mp hn
    rw [if_neg ht] at hn
    cases hn
    rfl
  | request _ => cases hn
  | resolve _ _ => cases hn
  | advance _ _ => cases hn
lemma race_step_waiter (h : RaceInvariant race) (hs : race.step limits l = some race') (hg : race.waiters[i]? = some waiter) :
    ∃ waiter', race'.waiters[i]? = some waiter' ∧
      (waiter.terminal ≠ .pending → waiter'.terminal = waiter.terminal) := by
  have hset : ∀ {o : ℕ} {old new : RacingWaiter}, race.waiters[o]? = some old →
      (old.terminal ≠ .pending → new.terminal = old.terminal) →
      ∃ waiter', (race.waiters.set o new)[i]? = some waiter' ∧
        (waiter.terminal ≠ .pending → waiter'.terminal = waiter.terminal) := by
    intro o old new ho hk
    by_cases hindex : o = i
    · subst hindex
      rw [hg] at ho
      cases ho
      obtain ⟨hlt, -⟩ := List.getElem?_eq_some_iff.mp hg
      exact ⟨new, by simp [hlt], hk⟩
    · exact ⟨waiter, by rw [List.getElem?_set_ne hindex, hg], fun _ => rfl⟩
  cases race_step_spec hs with
  | failed _ | resolved _ _ => exact ⟨waiter, hg, fun _ => rfl⟩
  | registered _ =>
    obtain ⟨hlt, -⟩ := List.getElem?_eq_some_iff.mp hg
    exact ⟨waiter, by rw [List.getElem?_append_left hlt, hg], fun _ => rfl⟩
  | advanced ho ha =>
    have hspec := (h.ordered _ (List.mem_of_getElem? ho)).advance ha
    exact hset ho fun _ => hspec.2.1
  | moved ho hn => exact hset ho (RacingWaiter.next_terminal hn)
lemma race_run_waiter (h : RaceInvariant race) {l : List RaceLabel}
    (hr : Run (HydrationRace.Step limits) race l race') (hg : race.waiters[i]? = some waiter) :
    ∃ waiter', race'.waiters[i]? = some waiter' ∧
      (waiter.terminal ≠ .pending → waiter'.terminal = waiter.terminal) := by
  induction hr generalizing waiter with
  | nil _ => exact ⟨waiter, hg, fun _ => rfl⟩
  | cons hs _ ih =>
    obtain ⟨m, hm, hk⟩ := race_step_waiter h hs hg
    obtain ⟨waiter', hw', hk'⟩ := ih (race_invariant_step h hs) hm
    refine ⟨waiter', hw', fun ht => ?_⟩
    have hsame := hk ht
    rw [hk' (hsame ▸ ht), hsame]
/-! ## The race -/
lemma ReleaseProgress.conserved (h : ReleaseProgress t calls released sender rl) :
    rl + calls.length = if t = .pending then 0 else 1 := by
  have hcaller : ∀ caller : SettleCaller, caller.terminal ≠ .pending := by
    intro caller
    cases caller <;> decide
  cases h with
  | held h => simp [h]
  | notify h => simp [← h, hcaller]
  | swap h => simp [← h, hcaller]
  | locked h => simp [← h, hcaller]
  | done h => simp [h]
/-- **The terminal race.**  In every reachable state, for every waiter:
* it has a terminal state once `wait` has returned or the waiter was dropped, and no run changes
  the terminal state it has;
* its works are released once, by the one call that won the exchange: either the locked section
  has run once, or that call is still on its way to it and can go on;
* at most one cancellation was told that it won, and `wait` returns `Cancelled` exactly if a
  cancellation handle was;
* all its works are there until it has released them, whatever other waiters do. -/
theorem hydration_terminal_race (h : race.ReachableFrom limits) {index : ℕ}
    {waiter : RacingWaiter} (hget : race.waiters[index]? = some waiter) :
    (waiter.owner = .returned ∨ waiter.owner = .dropped → waiter.terminal ≠ .pending) ∧
    (∀ labels race', Run (HydrationRace.Step limits) race labels race' →
      ∃ waiter', race'.waiters[index]? = some waiter' ∧
        (waiter.terminal ≠ .pending → waiter'.terminal = waiter.terminal)) ∧
    waiter.releases + waiter.calls.length = (if waiter.terminal = .pending then 0 else 1) ∧
    (∀ call < waiter.calls.length, ∃ race', HydrationRace.Step limits race (.advance index call) race') ∧
    (waiter.reports ++ waiter.dropReport.toList).count .cancelled ≤ 1 ∧
    (∀ outcome, waiter.outcome = some outcome → (outcome = .error .cancelled ↔ .cancelled ∈ waiter.reports)) ∧
    (waiter.releases = 0 → ∀ id ∈ waiter.workIds, ∃ entry, race.coordinator.work.lookup id = some entry) := by
  have hinv := race_invariant_of_reachable h
  have hord := hinv.ordered waiter (mem_of_getElem? hget)
  have howner := hord.owner
  unfold RacingWaiter.OwnerFits at howner
  refine ⟨?ended, fun labels race' hrn => race_run_waiter hinv hrn hget,
    hord.progress.conserved, ?enabled, ?wins, ?outcome, ?live⟩
  case ended =>
    rintro (he | he) <;> simp only [he] at howner
    · rcases howner with ⟨ht, -⟩ | ⟨ht, -⟩ <;> simp [ht]
    · simp [howner.2]
  case enabled =>
    intro call hc
    have hstep : ∃ p, waiter.advance race.coordinator call = some p := by
      unfold RacingWaiter.advance
      rw [getElem?_eq_getElem hc]
      obtain ⟨caller, s⟩ := waiter.calls[call]
      cases s with
      | notify => exact ⟨_, rfl⟩
      | swap =>
        simp only
        split <;> exact ⟨_, rfl⟩
      | locked => exact ⟨_, rfl⟩
    obtain ⟨⟨coordinator, waiter'⟩, ha⟩ := hstep
    refine ⟨{ race with coordinator, waiters := race.waiters.set index waiter' }, ?_⟩
    simp [HydrationRace.Step, step, hget, ha]
  case wins =>
    rw [hord.wins]
    split <;> omega
  case outcome =>
    intro outcome hot
    -- only a returned waiter has an outcome, and a returned waiter was not dropped
    cases hwhere : waiter.owner <;> simp only [hwhere, hot, reduceCtorEq, false_and,
      and_false, some.injEq] at howner
    have hkept : waiter.dropReport = none := by
      have hdrop := hord.dropped.not.mpr (by simp [hwhere])
      simpa using hdrop
    have hwins := hord.wins
    rw [hkept, toList_none, append_nil] at hwins
    rw [← count_pos_iff, hwins]
    rcases howner with ⟨ht, rfl⟩ | ⟨ht, o, rfl, ho⟩
    · simp [ht]
    · simp [ht, ho]
  case live =>
    intro hr id hid
    have hsys := invariant_of_reachable (race_reachable_system h)
    obtain ⟨d, hd, rfl⟩ := mem_map.mp hid
    have hphase : waiter.waiter.phase ≠ .released := by
      simp only [RacingWaiter.waiter, RacingWaiter.phase, hr, if_true]
      split <;> simp
    obtain ⟨entry, hen, -⟩ := hsys.live waiter.waiter (mem_map_of_mem (mem_of_getElem? hget)) hphase d hd
    exact ⟨entry, hen⟩
/-- Two waiters for one read.  The first is cancelled twice, returns, and gives its work back. -/
def sharedWorkRace : List RaceLabel :=
  [.request (smallFileRead .whole), .request (smallFileRead .whole), .enter 0, .cancel 0, .cancel 0,
    .advance 0 0, .observeSignal 0, .advance 0 0, .advance 0 0]
/-- The work that both waiters share survives the first one's release. -/
theorem hydration_terminal_race_sharedWork :
    ∃ race waiter, execute (step .default) .initial sharedWorkRace = some race ∧
      race.waiters[1]? = some waiter ∧ waiter.workIds = [0] ∧
        ∃ entry, race.coordinator.work.lookup 0 = some entry := by
  have hrun : ((execute (step .default) .initial sharedWorkRace).bind fun race =>
      race.waiters[1]?.map fun waiter => (waiter.releases, waiter.workIds)) = some (0, [0]) := by
    decide
  simp only [bind_eq_some_iff, map_eq_some_iff, Prod.mk.injEq] at hrun
  obtain ⟨race, hr, waiter, hw, hrl, hi⟩ := hrun
  obtain ⟨-, -, -, -, -, -, hl⟩ :=
    hydration_terminal_race ⟨_, _, rfl, run_of_execute hr⟩ hw
  exact ⟨race, waiter, hr, hw, hi, hl hrl 0 (by simp [hi])⟩
end AsterForge.Core
