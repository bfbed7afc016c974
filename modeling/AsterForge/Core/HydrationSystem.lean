import AsterForge.Core.HydrationIndex
import AsterForge.Library.Runs

/-!
# Hydration as a system of waiters

One coordinator, any number of waiters, and a backend that answers when it likes.  Every atomic step of
the source is one label, and the labels interleave freely.

* `HydrationInvariant` — the coordinator is consistent, every waiter that has not released its works
  names live ones, and the count of a work is the number of such waiters that depend on it.
* **`invariant_step`** — every label keeps it, failing requests included.
* **`positive_step`** — no work is left without a waiter, as long as no request runs out of work
  identities part-way: the loop that inserts gap works leaves by `?`.
-/

namespace AsterForge.Core

open Library Option List

/-! ## The state -/

inductive WaiterTerminal
  | pending
  | completed
  | cancelled
  deriving DecidableEq

/-- Where the release of a waiter's works stands.  `releasing` is the stretch between winning the
terminal compare-and-exchange and the locked section; the swap of the `released` flag falls into
it, and always finds the flag unset, since only the winner gets there. -/
inductive ReleasePhase
  | held
  | releasing
  | released
  deriving DecidableEq

/-- A registered waiter: its request, what registration handed to it, and how far it is. -/
structure Waiter where
  request : HydrationRequest
  registration : Registration
  terminal : WaiterTerminal
  phase : ReleasePhase
  /-- What `try_join_all` over its works resolved to. -/
  joined : Option (Except HydrationError (List ContentReadResponse))
  /-- What `wait` returned. -/
  outcome : Option (Except HydrationError ContentReadResponse)

namespace Waiter

def workIds (waiter : Waiter) : List ℕ := waiter.registration.dependencies.map WorkDependency.id

/-- A waiter as `request` returns it. -/
def new (request : HydrationRequest) (registration : Registration) : Waiter :=
  ⟨request, registration, .pending, .held, none, none⟩

def Holds (waiter : Waiter) (id : ℕ) : Prop := waiter.phase ≠ .released ∧ id ∈ waiter.workIds
  deriving Decidable

end Waiter

/-- The coordinator, its waiters in the order of their requests, and the answers that shared
futures have resolved to. -/
structure Hydration where
  coordinator : CoordinatorState
  waiters : List Waiter
  answers : AList fun _ : SharedRead => Except HydrationError ContentReadResponse

def Hydration.initial : Hydration := ⟨CoordinatorState.empty, [], ∅⟩

/-! ## The steps -/

/-- What a shared future resolves to: the backend's answer, held to the contract of its request. -/
def readOutcome (request : ContentReadRequest) (answer : Except CloudBackendError ContentReadResponse) :
    Except HydrationError ContentReadResponse :=
  match answer with
  | .error error => .error (.backend error)
  | .ok response =>
    match request.validateResponse response with
    | .error error => .error (.contract error)
    | .ok () => .ok response

/-- One atomic step of the system. -/
inductive HydrationLabel
  /-- `HydrationCoordinator::request`. -/
  | request (request : HydrationRequest)
  /-- The backend answers a shared future that some waiter drives. -/
  | resolve (future : SharedRead) (answer : Except CloudBackendError ContentReadResponse)
  /-- A cancellation handle fires, or the waiter is dropped: both call `WaiterInner::cancel`. -/
  | cancel (waiter : ℕ)
  /-- `try_join_all` has all answers. -/
  | join (waiter : ℕ)
  /-- `try_join_all` gives up at a failed future. -/
  | joinFailed (waiter : ℕ) (future : SharedRead)
  /-- The compare-and-exchange of `WaiterInner::complete`. -/
  | complete (waiter : ℕ)
  /-- The locked section of `WaiterInner::release_work`. -/
  | release (waiter : ℕ)
  /-- `wait` finds the waiter cancelled, on entry or through its cancellation channel. -/
  | observeCancelled (waiter : ℕ)
  /-- `wait` returns its result after `complete`. -/
  | finish (waiter : ℕ)

/-- The answers to a waiter's dependencies, in their order, if every one is there and `Ok`. -/
def joinAll (answers : AList fun _ : SharedRead => Except HydrationError ContentReadResponse) :
    List WorkDependency → Option (List ContentReadResponse)
  | [] => some []
  | dependency :: rest =>
    match answers.lookup dependency.future with
    | some (.ok response) => (joinAll answers rest).map (response :: ·)
    | _ => none

/-- The waiter after losing or winning a compare-and-exchange from `pending`. -/
def Waiter.settle (waiter : Waiter) (terminal : WaiterTerminal) : Waiter :=
  if waiter.terminal = .pending then { waiter with terminal, phase := .releasing } else waiter

def Waiter.next (answers : AList fun _ : SharedRead => Except HydrationError ContentReadResponse)
    (waiter : Waiter) : HydrationLabel → Option Waiter
  | .cancel _ => some (waiter.settle .cancelled)
  | .join _ =>
    if waiter.joined = none then
      (joinAll answers waiter.registration.dependencies).map fun responses =>
        { waiter with joined := some (.ok responses) }
    else none
  | .joinFailed _ future =>
    if waiter.joined = none ∧ future ∈ waiter.registration.dependencies.map WorkDependency.future then
      match answers.lookup future with
      | some (.error error) => some { waiter with joined := some (.error error) }
      | _ => none
    else none
  | .complete _ =>
    if waiter.joined ≠ none ∧ waiter.outcome = none ∧ waiter.terminal ≠ .completed then
      if waiter.terminal = .pending then some (waiter.settle .completed)
      else some { waiter with outcome := some (.error .cancelled) }
    else none
  | .observeCancelled _ =>
    if waiter.terminal = .cancelled ∧ waiter.outcome = none then
      some { waiter with outcome := some (.error .cancelled) }
    else none
  | .finish _ =>
    if waiter.terminal = .completed ∧ waiter.phase = .released ∧ waiter.outcome = none then
      match waiter.joined with
      | some (.ok responses) =>
        some { waiter with
          outcome := some (assemble waiter.request waiter.registration responses) }
      | some (.error error) => some { waiter with outcome := some (.error error) }
      | none => none
    else none
  | _ => none

def HydrationLabel.waiter? : HydrationLabel → Option ℕ
  | .cancel waiter | .join waiter | .joinFailed waiter _ | .complete waiter
  | .observeCancelled waiter | .finish waiter => some waiter
  | _ => none

variable (limits : HydrationLimits)

/-- One step of the system, or `none` when the label cannot happen in this state. -/
def Hydration.step (system : Hydration) (label : HydrationLabel) : Option Hydration :=
  match label with
  | .request read =>
    match request limits system.coordinator read with
    | (.error _, coordinator) => some { system with coordinator }
    | (.ok registration, coordinator) =>
      some { system with
        coordinator
        waiters := system.waiters ++ [Waiter.new read registration] }
  | .resolve future answer =>
    if system.answers.lookup future = none ∧ ∃ waiter ∈ system.waiters, waiter.outcome = none ∧
        future ∈ waiter.registration.dependencies.map WorkDependency.future then
      some { system with
        answers := system.answers.insert future (readOutcome future.request answer) }
    else none
  | .release waiter =>
    match system.waiters[waiter]? with
    | none => none
    | some state =>
      if state.phase = .releasing then
        some { system with
          coordinator := releaseWork system.coordinator state.workIds
          waiters := system.waiters.set waiter { state with phase := .released } }
      else none
  | label =>
    match label.waiter? with
    | none => none
    | some waiter =>
      match system.waiters[waiter]? with
      | none => none
      | some state =>
        (state.next system.answers label).map fun state =>
          { system with waiters := system.waiters.set waiter state }

def Hydration.Step (system : Hydration) (label : HydrationLabel) (system' : Hydration) : Prop :=
  system.step limits label = some system'

/-- The states a coordinator with the given limits reaches. -/
def Hydration.ReachableFrom (system : Hydration) : Prop :=
  Reachable (fun s => s = Hydration.initial) (Hydration.Step limits) system

/-! ## The invariant -/

/-- The number of waiters that depend on a work and have not released it. -/
def holders (waiters : List Waiter) (id : ℕ) : ℕ :=
  waiters.countP fun waiter => decide (waiter.Holds id)

/-- The waiter's works are registered once each, and it starts its release exactly when it leaves
the pending state. -/
structure Waiter.WellFormed (waiter : Waiter) : Prop where
  nodup : waiter.workIds.Nodup
  held_iff : waiter.phase = .held ↔ waiter.terminal = .pending

structure HydrationInvariant (limits : HydrationLimits) (system : Hydration) : Prop where
  consistent : Consistent limits system.coordinator
  waiter : ∀ waiter ∈ system.waiters, waiter.WellFormed
  live : ∀ waiter ∈ system.waiters, waiter.phase ≠ .released →
    ∀ dependency ∈ waiter.registration.dependencies,
      dependency.Live (HydrationContentKey.fromRequest waiter.request) system.coordinator
  count_eq : ∀ id entry, system.coordinator.work.lookup id = some entry →
    entry.waiterCount = holders system.waiters id

variable {l : HydrationLimits}

open Hydration

lemma invariant_initial : HydrationInvariant l initial where
  consistent := consistent_empty
  waiter := by simp [initial]
  live := by simp [initial]
  count_eq := by simp [initial, CoordinatorState.empty]

variable {sy sy' : Hydration} {i : ℕ} {lb : HydrationLabel}

lemma HydrationInvariant.holders_fresh (h : HydrationInvariant l sy)
    {id : ℕ} (hid : sy.coordinator.nextWorkId ≤ id) : holders sy.waiters id = 0 := by
  refine countP_eq_zero.mpr fun w hm => ?_
  simp only [decide_eq_true_eq]
  rintro ⟨hp, hh⟩
  obtain ⟨d, hd, rfl⟩ := mem_map.mp hh
  obtain ⟨e, hl, -⟩ := h.live w hm hp d hd
  exact absurd (h.consistent.lt_nextWorkId hl) (Nat.not_lt.mpr hid)

lemma WorkDependency.Live.registered {d : WorkDependency} {c : HydrationContentKey}
    {ids : List ℕ} {s s' : CoordinatorState} (h : d.Live c s)
    (hc : Consistent l s) (hr : Registered l ids s s') : d.Live c s' := by
  obtain ⟨e, hl, hrs⟩ := h
  refine ⟨e.gain (ids.count d.id), ?_, hrs⟩
  rw [hr.old (hc.lt_nextWorkId hl), hl, map_some]

lemma HydrationInvariant.count_registered (h : HydrationInvariant l sy) {ids : List ℕ} {s' : CoordinatorState}
    (hr : Registered l ids sy.coordinator s') {id : ℕ} {e : WorkEntry} (hl : s'.work.lookup id = some e) :
    e.waiterCount = holders sy.waiters id + ids.count id := by
  by_cases hid : id < sy.coordinator.nextWorkId
  · rw [hr.old hid, map_eq_some_iff] at hl
    obtain ⟨old, hd, rfl⟩ := hl
    simp only [WorkEntry.gain, h.count_eq id old hd]
  · rw [hr.new (Nat.le_of_not_lt hid) hl, h.holders_fresh (Nat.le_of_not_lt hid), Nat.zero_add]

/-- **A request keeps the invariant**, whether it succeeds or fails. -/
theorem invariant_request {r : HydrationRequest} (h : HydrationInvariant l sy)
    (hs : sy.step l (.request r) = some sy') : HydrationInvariant l sy' := by
  simp only [step] at hs
  rcases request_cases l sy.coordinator r with
    ⟨_, _, heq⟩ | ⟨targetStart, targetEnd, hext, heq⟩
  · rw [heq] at hs
    cases hs
    exact h
  have hspec := register_spec h.consistent hext
  rcases hreg : register l sy.coordinator r targetStart targetEnd with ⟨rs, s'⟩
  rw [hreg] at heq hspec
  rw [heq] at hs
  cases rs with
  | error e =>
    cases hs
    have hr := hspec.error e rfl
    exact
      { consistent := hr.consistent
        waiter := h.waiter
        live := fun w hm hp dp hd =>
          (h.live w hm hp dp hd).registered h.consistent hr
        count_eq := fun id en hl => by simpa using h.count_registered hr hl }
  | ok d =>
    cases hs
    obtain ⟨hr, hn, -, hlv⟩ := hspec.ok d rfl
    set new := Waiter.new r ⟨targetStart, targetEnd, d⟩ with hnew
    have hmem_iff : ∀ w, w ∈ sy.waiters ++ [new] ↔ w ∈ sy.waiters ∨ w = new := by simp
    constructor
    case consistent => exact hr.consistent
    case waiter =>
      intro w hm
      rcases (hmem_iff w).mp hm with hm | rfl
      · exact h.waiter w hm
      · exact ⟨hn, by simp [hnew, Waiter.new]⟩
    case live =>
      intro w hm hp dp hd
      rcases (hmem_iff w).mp hm with hm | rfl
      · exact (h.live w hm hp dp hd).registered h.consistent hr
      · exact hlv dp hd
    case count_eq =>
      intro id en hl
      have hcount : (d.map WorkDependency.id).count id = if new.Holds id then 1 else 0 := by
        have hholds : new.Holds id ↔ id ∈ d.map WorkDependency.id := by
          simp [Waiter.Holds, Waiter.workIds, hnew, Waiter.new]
        rw [hn.count]
        simp only [hholds]
      rw [h.count_registered hr hl, hcount, holders, holders, countP_append]
      simp

/-- **A release keeps the invariant**: each of the waiter's works loses one waiter, and those that
other waiters still hold survive it. -/
theorem invariant_release (h : HydrationInvariant l sy) (hs : sy.step l (.release i) = some sy') :
    HydrationInvariant l sy' := by
  simp only [step] at hs
  cases hget : sy.waiters[i]? with
  | none => simp [hget] at hs
  | some s =>
    simp only [hget, ite_none_right_eq_some, some.injEq] at hs
    obtain ⟨hp, rfl⟩ := hs
    obtain ⟨hi, hg'⟩ := List.getElem?_eq_some_iff.mp hget
    have hmem : s ∈ sy.waiters := List.mem_of_getElem? hget
    have hnodup := (h.waiter s hmem).nodup
    set released : Waiter := { s with phase := .released } with hrel
    -- the released waiter is the only one whose hold on a work changes
    have hcount : ∀ id, holders (sy.waiters.set i released) id =
        holders sy.waiters id - if id ∈ s.workIds then 1 else 0 := by
      intro id
      rw [holders, holders, countP_set hi]
      simp [hg', Waiter.Holds, hrel, hp]
    constructor
    case consistent => exact h.consistent.releaseWork _
    case waiter =>
      intro w hw
      rcases mem_or_eq_of_mem_set hw with hw | rfl
      · exact h.waiter w hw
      · have hheld := (h.waiter s hmem).held_iff
        refine ⟨hnodup, ?_⟩
        simp only [hp, reduceCtorEq, false_iff] at hheld
        simp [hrel, hheld]
    case live =>
      intro w hw hh d hdp
      have hd : w ∈ sy.waiters := by
        rcases mem_or_eq_of_mem_set hw with hd | rfl
        · exact hd
        · exact absurd rfl hh
      obtain ⟨e, hl, hr⟩ := h.live w hd hh d hdp
      have hpos : 0 < holders (sy.waiters.set i released) d.id := by
        refine countP_pos_iff.mpr ⟨w, hw, ?_⟩
        simpa using ⟨hh, mem_map_of_mem hdp⟩
      rw [hcount, ← h.count_eq _ e hl] at hpos
      simp only [WorkDependency.Live]
      rw [releaseWork_lookup _ hnodup, hl, bind_some]
      by_cases hin : d.id ∈ s.workIds
      · rw [if_pos hin] at hpos ⊢
        rw [WorkEntry.lose, if_neg (by omega)]
        exact ⟨_, rfl, hr⟩
      · rw [if_neg hin]
        exact ⟨e, rfl, hr⟩
    case count_eq =>
      intro id e hl
      rw [releaseWork_lookup _ hnodup] at hl
      rw [hcount]
      by_cases hin : id ∈ s.workIds
      · rw [if_pos hin, bind_eq_some_iff] at hl
        obtain ⟨old, hd, hls⟩ := hl
        simp only [WorkEntry.lose, ite_none_left_eq_some, some.injEq] at hls
        obtain ⟨-, rfl⟩ := hls
        simp only [h.count_eq id old hd, if_pos hin]
      · rw [if_neg hin] at hl
        rw [if_neg hin]
        exact h.count_eq id e hl

/-- The labels that touch one waiter only keep its request and its works, and neither start nor
undo the release of a waiter that is past it. -/
lemma Waiter.next_spec {a : AList fun _ : SharedRead => Except HydrationError ContentReadResponse}
    {w w' : Waiter} (hwf : w.WellFormed) (hn : w.next a lb = some w') :
    w'.request = w.request ∧ w'.registration = w.registration ∧
      (w'.phase = .released ↔ w.phase = .released) ∧ w'.WellFormed := by
  have hheld := hwf.held_iff
  have hsettl : ∀ t, t ≠ .pending → (w.settle t).request = w.request ∧
      (w.settle t).registration = w.registration ∧ ((w.settle t).phase = .released ↔ w.phase = .released) ∧
      (w.settle t).WellFormed := by
    intro t ht
    unfold Waiter.settle
    split
    case isTrue hpend =>
      rw [hheld.mpr hpend]
      exact ⟨rfl, rfl, by simp, ⟨hwf.nodup, by simpa using ht⟩⟩
    case isFalse => exact ⟨rfl, rfl, Iff.rfl, hwf⟩
  cases lb with
  | cancel _ =>
    cases hn
    exact hsettl .cancelled (by decide)
  | join _ =>
    simp only [Waiter.next, ite_none_right_eq_some, map_eq_some_iff] at hn
    obtain ⟨-, _, -, rfl⟩ := hn
    exact ⟨rfl, rfl, Iff.rfl, hwf.nodup, hheld⟩
  | joinFailed _ f =>
    obtain ⟨-, hn⟩ := ite_none_right_eq_some.mp hn
    split at hn <;> cases hn
    exact ⟨rfl, rfl, Iff.rfl, hwf.nodup, hheld⟩
  | complete _ =>
    obtain ⟨-, hn⟩ := ite_none_right_eq_some.mp hn
    split at hn <;> cases hn
    · exact hsettl .completed (by decide)
    · exact ⟨rfl, rfl, Iff.rfl, hwf.nodup, hheld⟩
  | observeCancelled _ =>
    obtain ⟨-, ⟨⟩⟩ := ite_none_right_eq_some.mp hn
    exact ⟨rfl, rfl, Iff.rfl, hwf.nodup, hheld⟩
  | finish _ =>
    obtain ⟨-, hn⟩ := ite_none_right_eq_some.mp hn
    split at hn <;> cases hn
    · exact ⟨rfl, rfl, Iff.rfl, hwf.nodup, hheld⟩
    · exact ⟨rfl, rfl, Iff.rfl, hwf.nodup, hheld⟩
  | request _ => cases hn
  | resolve _ _ => cases hn
  | release _ => cases hn

lemma step_local (hl : lb.waiter? = some i) (hs : sy.step l lb = some sy') :
    ∃ w w', sy.waiters[i]? = some w ∧ w.next sy.answers lb = some w' ∧
      sy' = { sy with waiters := sy.waiters.set i w' } := by
  have hlocal : (match sy.waiters[i]? with
      | none => none
      | some s => (s.next sy.answers lb).map fun s =>
        { sy with waiters := sy.waiters.set i s }) = some sy' := by
    cases lb <;> simp [HydrationLabel.waiter?] at hl <;> subst hl <;> exact hs
  cases hget : sy.waiters[i]? with
  | none => simp [hget] at hlocal
  | some w =>
    simp only [hget, map_eq_some_iff] at hlocal
    obtain ⟨w', hn, rfl⟩ := hlocal
    exact ⟨w, w', rfl, hn, rfl⟩

lemma invariant_local (h : HydrationInvariant l sy) (hlb : lb.waiter? = some i)
    (hs : sy.step l lb = some sy') : HydrationInvariant l sy' := by
  obtain ⟨old, new, hg, hn, rfl⟩ := step_local hlb hs
  obtain ⟨hi, hg'⟩ := List.getElem?_eq_some_iff.mp hg
  have hmem : old ∈ sy.waiters := List.mem_of_getElem? hg
  obtain ⟨hrq, hrg, hr, hwf⟩ := Waiter.next_spec (h.waiter old hmem) hn
  have hholds : ∀ id, new.Holds id ↔ old.Holds id := by
    intro id
    simp [Waiter.Holds, Waiter.workIds, hrg, hr]
  constructor
  case consistent => exact h.consistent
  case waiter =>
    intro wt hw
    rcases mem_or_eq_of_mem_set hw with hw | rfl
    · exact h.waiter wt hw
    · exact hwf
  case live =>
    intro wt hw hp
    rcases mem_or_eq_of_mem_set hw with hw | rfl
    · exact h.live wt hw hp
    · rw [hrg, hrq]
      exact h.live old hmem (fun hl => hp (hr.mpr hl))
  case count_eq =>
    intro id e hlk
    rw [h.count_eq id e hlk, holders, holders, countP_set hi, hg']
    have hpos : old.Holds id → 0 < sy.waiters.countP fun w => decide (w.Holds id) :=
      fun hl => countP_pos_iff.mpr ⟨old, hmem, by simpa using hl⟩
    by_cases hl : old.Holds id
    · have := hpos hl
      simp only [hholds, hl, decide_true, if_true]
      omega
    · simp [hholds, hl]

/-- **Every step keeps the invariant.** -/
theorem invariant_step (h : HydrationInvariant l sy) (hs : sy.step l lb = some sy') :
    HydrationInvariant l sy' := by
  cases lb with
  | request r => exact invariant_request h hs
  | release i => exact invariant_release h hs
  | resolve f a =>
    obtain ⟨-, ⟨⟩⟩ := ite_none_right_eq_some.mp hs
    exact { h with }
  | cancel i | join i => exact invariant_local h rfl hs
  | joinFailed i _ | complete i => exact invariant_local h rfl hs
  | observeCancelled i | finish i => exact invariant_local h rfl hs

/-- The invariant holds in every reachable state. -/
theorem invariant_of_reachable (h : sy.ReachableFrom l) : HydrationInvariant l sy := by
  refine Reachable.induction ?_ ?_ h
  · rintro _ rfl
    exact invariant_initial
  · exact fun _ _ _ _ hi hs => invariant_step hi hs

/-! ## Works without waiters -/

/-- The requests of a run that do not run out of work identities part-way. -/
def IdsSuffice (system : Hydration) (label : HydrationLabel) : Prop :=
  ∀ read, label = .request read → runsOutPartWay limits system.coordinator read = false

def EveryWorkHeld (system : Hydration) : Prop :=
  ∀ id entry, system.coordinator.work.lookup id = some entry → 0 < entry.waiterCount

/-- **No work is left without a waiter** by a step that does not run out of identities part-way. -/
theorem positive_step (h : HydrationInvariant l sy) (hp : EveryWorkHeld sy)
    (hi : IdsSuffice l sy lb) (hs : sy.step l lb = some sy') : EveryWorkHeld sy' := by
  have hlocal : ∀ {i}, lb.waiter? = some i → EveryWorkHeld sy' := by
    intro i hlb
    obtain ⟨_, _, _, _, rfl⟩ := step_local hlb hs
    exact hp
  cases lb with
  | request r =>
    simp only [step] at hs
    rcases hres : request l sy.coordinator r with ⟨er | rg, s'⟩
    · have hsame := request_error h.consistent (hi r rfl) (congrArg Prod.fst hres)
      rw [hres] at hsame hs
      cases hsame
      cases hs
      exact hp
    · rw [hres] at hs
      cases hs
      rcases request_cases l sy.coordinator r with
        ⟨_, _, heq⟩ | ⟨targetStart, targetEnd, hext, heq⟩
      · rw [hres] at heq
        cases heq
      rcases hreg : register l sy.coordinator r targetStart targetEnd with
        ⟨_ | dependencies, final⟩
      · simp [hres, hreg, Except.map] at heq
      rw [hres, hreg] at heq
      cases heq
      have hspec := register_spec h.consistent hext
      rw [hreg] at hspec
      obtain ⟨hr, -, hn, -⟩ := hspec.ok dependencies rfl
      intro id e hl
      by_cases hid : id < sy.coordinator.nextWorkId
      · rw [hr.old hid, map_eq_some_iff] at hl
        obtain ⟨old, hd, rfl⟩ := hl
        exact (hp id old hd).trans_le (Nat.le_add_right _ _)
      · have hge := Nat.le_of_not_lt hid
        rw [hr.new hge hl]
        exact count_pos_iff.mpr (hn id hge (hr.consistent.lt_nextWorkId hl))
  | release i =>
    simp only [step] at hs
    cases hget : sy.waiters[i]? with
    | none => simp [hget] at hs
    | some w =>
      simp only [hget, ite_none_right_eq_some, some.injEq] at hs
      obtain ⟨-, rfl⟩ := hs
      intro id e hl
      rw [releaseWork_lookup _ (h.waiter w (mem_of_getElem? hget)).nodup] at hl
      split at hl
      · rw [bind_eq_some_iff] at hl
        obtain ⟨old, hd, hls⟩ := hl
        simp only [WorkEntry.lose, ite_none_left_eq_some, some.injEq] at hls
        obtain ⟨hc, rfl⟩ := hls
        exact Nat.pos_of_ne_zero hc
      · exact hp id e hl
  | resolve f a =>
    obtain ⟨-, ⟨⟩⟩ := ite_none_right_eq_some.mp hs
    exact hp
  | cancel i => exact hlocal rfl
  | join i => exact hlocal rfl
  | joinFailed i _ => exact hlocal rfl
  | complete i => exact hlocal rfl
  | observeCancelled i => exact hlocal rfl
  | finish i => exact hlocal rfl

/-- A read of one twelve-byte file, as an adapter without alignment constraints sends it. -/
def smallFileRead (readRange : ContentReadRange) : HydrationRequest where
  read :=
    { key := sampleItemKey
      revision := sampleRevision
      expectedSize := 12
      expectedSize_le := by decide
      readRange }
  alignment := ⟨1, Nat.one_pos, one_le_u64Max⟩
  sessionGeneration := firstGeneration

def middleRange : ByteRange := ⟨4, 4, by decide, by decide⟩

end AsterForge.Core
