import AsterForge.Events.Supervisor
import AsterForge.Library.Runs

/-!
# What a subscription supervisor says

The log of a supervisor is every step that it took, with the time and what it put into the channel.  Such a
log goes in rounds, each of which ends with a call for a new subscription.  A supervisor that is shut down,
or whose channel is closed, stops where it is.

* **`supervise_rounds`** — a log is the beginning of rounds; nothing that was received is lost or repeated,
  only the first update of all says `Connected`, and no wait is longer than the policy allows.
-/

namespace AsterForge.Events

open Library List

variable {ν : Type}

structure SupervisorStep (ν : Type) where
  now : ℕ
  event : SupervisorEvent ν
  sent : Option (EventSubscriptionUpdate ν)

abbrev SupervisorLog (ν : Type) := List (SupervisorStep ν)

/-- Items, with when each was received and when it was sent. -/
abbrev PassedItems (ν : Type) := List (ℕ × ν × ℕ)

variable (policy : EventReconnectPolicy)

def EventSupervisor.Steps (s : EventSupervisor ν) (step : SupervisorStep ν) (t : EventSupervisor ν) : Prop :=
  s.next policy step.now step.event = some (t, step.sent)

def EventSubscriptionUpdate.passed : EventSubscriptionUpdate ν → Option ν
  | .connection _ => none
  | .item value => some value

def SupervisorEvent.passed : SupervisorEvent ν → Option ν
  | .received item => some item
  | _ => none

/-- The updates of a log, in the order in which they were sent. -/
def updates (log : SupervisorLog ν) : List (EventSubscriptionUpdate ν) :=
  log.filterMap SupervisorStep.sent

def receivedItems (log : SupervisorLog ν) : List ν := log.filterMap fun step => step.event.passed

/-- The items that were received and are not in the channel yet. -/
def EventSupervisor.unsent (supervisor : EventSupervisor ν) : List ν :=
  match supervisor.phase with
  | .sending updates _ => updates.filterMap EventSubscriptionUpdate.passed
  | .subscribing | .receiving | .sleeping _ => []

/-! ## Rounds -/

/-- How so many failures are written: in 32 bits, without wrapping. -/
def attemptNumber (failures : ℕ) : ℕ := min failures (2 ^ 32 - 1)

def delayAfter (failures draw : ℕ) : ℕ := policy.reconnectDelay (attemptNumber failures) draw

def opens (before : ℕ) : EventSubscriptionUpdate ν :=
  .connection ⟨if before = 0 then .connected else .recovered, attemptNumber before, 0⟩

def disconnects (failures : ℕ) : EventSubscriptionUpdate ν :=
  .connection ⟨.disconnected, attemptNumber failures, 0⟩

def reconnects (failures draw : ℕ) : EventSubscriptionUpdate ν :=
  .connection ⟨.reconnecting, attemptNumber failures, delayAfter policy failures draw⟩

/-- What follows a failure: it is announced, and after the announced delay there is a new call. -/
def failureSteps (failures draw saidAt announcedAt calledAt : ℕ) : SupervisorLog ν :=
  [⟨saidAt, .sent, some (disconnects failures)⟩,
    ⟨announcedAt, .sent, some (reconnects policy failures draw)⟩, ⟨calledAt, .woke, none⟩]

/-- A subscription behind so many failures, and its items. -/
def openedSteps (before openedAt connectedAt : ℕ) (items : PassedItems ν) : SupervisorLog ν :=
  ⟨openedAt, .subscribed, none⟩ :: ⟨connectedAt, .sent, some (opens before)⟩ ::
    items.flatMap fun (receivedAt, item, sentAt) =>
      [⟨receivedAt, .received item, none⟩, ⟨sentAt, .sent, some (.item item)⟩]

/-- The failures in a row, with the one that ends a subscription. -/
def failuresAfter (before connectedAt failedAt : ℕ) (items : PassedItems ν) : ℕ :=
  if items ≠ [] ∨ policy.stableResetAfter ≤ failedAt - connectedAt then 1 else before + 1

/-- The steps of a round up to its failure. -/
inductive Failing (before : ℕ) : SupervisorLog ν → ℕ → ℕ → Prop
  | refused (failedAt draw : ℕ) : Failing before [⟨failedAt, .subscribeFailed draw, none⟩] (before + 1) draw
  | dropped (openedAt connectedAt : ℕ) (items : PassedItems ν) (failedAt draw : ℕ) :
      Failing before (openedSteps before openedAt connectedAt items ++ [⟨failedAt, .receiveFailed draw, none⟩])
        (failuresAfter policy before connectedAt failedAt items) draw

/-- Rounds behind which there were so many failures in a row. -/
inductive Rounds : ℕ → SupervisorLog ν → Prop
  | nil : Rounds 0 []
  | round {before failures draw saidAt announcedAt calledAt : ℕ}
      {log opening : SupervisorLog ν} (hlog : Rounds before log)
      (hopening : Failing policy before opening failures draw)
      (hwait : announcedAt + delayAfter policy failures draw ≤ calledAt) :
      Rounds failures (log ++ (opening ++ failureSteps policy failures draw saidAt announcedAt calledAt))

/-- Where a supervisor is in the round behind so many failures, and the steps of that round so far. -/
inductive Inside (before : ℕ) : EventSupervisor ν → SupervisorLog ν → Prop
  | subscribing (since : ℕ) : Inside before ⟨attemptNumber before, since, .subscribing⟩ []
  | opened (since openedAt : ℕ) :
      Inside before ⟨attemptNumber before, since, .sending [opens before] .stabilize⟩
        [⟨openedAt, .subscribed, none⟩]
  | receiving (openedAt connectedAt : ℕ) (items : PassedItems ν) :
      Inside before ⟨if items = [] then attemptNumber before else 0, connectedAt, .receiving⟩
        (openedSteps before openedAt connectedAt items)
  | passing (openedAt connectedAt : ℕ) (items : PassedItems ν) (receivedAt : ℕ) (item : ν) :
      Inside before ⟨0, connectedAt, .sending [.item item] .receive⟩
        (openedSteps before openedAt connectedAt items ++ [⟨receivedAt, .received item, none⟩])
  | failed {opening : SupervisorLog ν} {failures draw : ℕ} (since : ℕ)
      (hopening : Failing policy before opening failures draw) :
      Inside before ⟨attemptNumber failures, since, .sending
        [disconnects failures, reconnects policy failures draw] (.sleep (delayAfter policy failures draw))⟩
        opening
  | disconnected {opening : SupervisorLog ν} {failures draw : ℕ} (since saidAt : ℕ)
      (hopening : Failing policy before opening failures draw) :
      Inside before ⟨attemptNumber failures, since, .sending
        [reconnects policy failures draw] (.sleep (delayAfter policy failures draw))⟩
        (opening ++ (failureSteps policy failures draw saidAt 0 0).take 1)
  | sleeping {opening : SupervisorLog ν} {failures draw : ℕ}
      (since saidAt announcedAt : ℕ) (hopening : Failing policy before opening failures draw) :
      Inside before ⟨attemptNumber failures, since, .sleeping (announcedAt + delayAfter policy failures draw)⟩
        (opening ++ (failureSteps policy failures draw saidAt announcedAt 0).take 2)

variable {policy} {before failures dr : ℕ} {s t : EventSupervisor ν}
  {log o all : SupervisorLog ν} {sp : SupervisorStep ν}

lemma fails_eq (sp : EventSupervisor ν) (f draw : ℕ) : sp.fails policy (attemptNumber f) draw =
    ⟨attemptNumber (f + 1), sp.connectedAt, .sending [disconnects (f + 1), reconnects policy (f + 1) draw]
      (.sleep (delayAfter policy (f + 1) draw))⟩ := by
  have hatt : min (attemptNumber f + 1) (2 ^ 32 - 1) = attemptNumber (f + 1) := by
    simp only [attemptNumber]
    omega
  rw [EventSupervisor.fails, hatt]
  rfl

/-- The failure that ends a subscription starts the count anew behind an item or a stable period. -/
lemma exists_failuresAfter (b ca fa : ℕ) (i : PassedItems ν) :
    ∃ failures, failuresAfter policy b ca fa i = failures + 1 ∧
      (if policy.stableResetAfter ≤ fa - ca then 0
        else if i = [] then attemptNumber b else 0) = attemptNumber failures := by
  by_cases hreset : i ≠ [] ∨ policy.stableResetAfter ≤ fa - ca
  · refine ⟨0, if_pos hreset, ?_⟩
    rcases hreset with hi | hs
    · rw [if_neg hi, ite_self]
      rfl
    · rw [if_pos hs]
      rfl
  · refine ⟨b, if_neg hreset, ?_⟩
    obtain ⟨hi, hu⟩ := not_or.mp hreset
    rw [if_neg hu, if_pos (not_not.mp hi)]

lemma openedSteps_append (b oa ca ra sa : ℕ) (i : ν) (it : PassedItems ν) :
    openedSteps b oa ca (it ++ [(ra, i, sa)]) = openedSteps b oa ca it ++
        [⟨ra, .received i, none⟩, ⟨sa, .sent, some (.item i)⟩] := by
  simp [openedSteps]

/-- **One step** goes on in the round, or completes it. -/
lemma Inside.next (ha : Rounds policy before all) (h : Inside policy before s log)
    (hs : EventSupervisor.Steps policy s sp t) :
    ∃ failures all' c, Rounds policy failures all' ∧ Inside policy failures t c ∧
      all ++ (log ++ [sp]) = all' ++ c := by
  obtain ⟨now, e, st⟩ := sp
  cases h with
  | subscribing sn =>
    cases e with
    | subscribed =>
      cases hs
      have hlabel : (attemptNumber before = 0) = (before = 0) := propext (by simp [attemptNumber])
      simp only [hlabel]
      exact ⟨_, _, _, ha, .opened sn now, rfl⟩
    | subscribeFailed dr =>
      simp only [EventSupervisor.Steps, EventSupervisor.next, fails_eq] at hs
      cases hs
      exact ⟨_, _, _, ha, .failed sn (.refused now dr), rfl⟩
    | _ => cases hs
  | opened sn oa =>
    cases e with
    | sent =>
      cases hs
      exact ⟨_, _, _, ha, .receiving oa now [], rfl⟩
    | _ => cases hs
  | receiving oa ca i =>
    cases e with
    | received it =>
      cases hs
      exact ⟨_, _, _, ha, .passing oa ca i now it, rfl⟩
    | receiveFailed dr =>
      obtain ⟨failures, hf, hat⟩ :=
        @exists_failuresAfter ν policy before ca now i
      have hfailing := @Failing.dropped ν policy before oa ca i now dr
      rw [hf] at hfailing
      simp only [EventSupervisor.Steps, EventSupervisor.next, hat, fails_eq] at hs
      cases hs
      exact ⟨_, _, _, ha, .failed ca hfailing, rfl⟩
    | _ => cases hs
  | passing oa ca i ra it =>
    cases e with
    | sent =>
      cases hs
      have hreceiving := @Inside.receiving _ policy before oa ca (i ++ [(ra, it, now)])
      rw [if_neg (append_ne_nil_of_right_ne_nil _ (cons_ne_nil _ _)), openedSteps_append,
        append_cons] at hreceiving
      exact ⟨_, _, _, ha, hreceiving, rfl⟩
    | _ => cases hs
  | failed sn ho =>
    cases e with
    | sent =>
      cases hs
      exact ⟨_, _, _, ha, .disconnected sn now ho, rfl⟩
    | _ => cases hs
  | disconnected sn sa ho =>
    cases e with
    | sent =>
      cases hs
      rw [append_assoc]
      exact ⟨_, _, _, ha, .sleeping sn sa now ho, rfl⟩
    | _ => cases hs
  | sleeping sn sa aa ho =>
    cases e with
    | woke =>
      simp only [EventSupervisor.Steps, EventSupervisor.next, Option.ite_none_right_eq_some] at hs
      obtain ⟨hw, hs⟩ := hs
      cases hs
      rw [append_assoc]
      exact ⟨_, _, [], ha.round ho hw, .subscribing sn, (append_nil _).symm⟩
    | _ => cases hs

/-- The steps so far of a round are the beginning of one. -/
lemma Inside.completes (ha : Rounds policy before all) (h : Inside policy before s log) :
    ∃ failures w, Rounds policy failures w ∧ all ++ log <+: w := by
  have hprefix : ∀ {opening : SupervisorLog ν} {failures draw : ℕ} (d r : ℕ),
      Failing policy before opening failures draw →
      log <+: opening ++ (failureSteps policy failures draw d r 0).take 2 →
      ∃ failures w, Rounds policy failures w ∧ all ++ log <+: w := by
    intro opening failures draw d r ho hl
    have hround := @Rounds.round _ _ _ _ draw d r _ _ _ ha ho le_rfl
    have hbegun : log <+: opening ++ failureSteps policy failures draw d r (r + delayAfter policy failures draw) :=
      hl.trans ((prefix_append_right_inj opening).mpr (prefix_append _ [_]))
    exact ⟨failures, _, hround, (prefix_append_right_inj all).mpr hbegun⟩
  have hdrop : ∀ (oa ca : ℕ) (i : PassedItems ν), log <+: openedSteps before oa ca i →
      ∃ failures w, Rounds policy failures w ∧ all ++ log <+: w := by
    intro oa ca i hl
    refine hprefix 0 0 (.dropped oa ca i 0 0) (hl.trans ?_)
    rw [append_assoc]
    exact prefix_append _ _
  cases h with
  | subscribing sn => exact ⟨before, all, ha, (append_nil all).symm ▸ prefix_rfl⟩
  | opened sn oa => exact hdrop oa 0 [] (prefix_append [_] _)
  | receiving oa ca i => exact hdrop oa ca i prefix_rfl
  | passing oa ca i ra it =>
    refine hdrop oa ca (i ++ [(ra, it, 0)]) ?_
    rw [openedSteps_append]
    exact (prefix_append_right_inj _).mpr (prefix_append [_] _)
  | failed sn ho => exact hprefix 0 0 ho (prefix_append _ _)
  | disconnected sn sa ho =>
    exact hprefix sa 0 ho ((prefix_append_right_inj _).mpr (prefix_append [_] _))
  | sleeping sn sa aa ho =>
    exact hprefix sa aa ho prefix_rfl

/-- **A run is inside a round** behind complete ones. -/
lemma run_inside {d : SupervisorLog ν} (h : Run (EventSupervisor.Steps policy) s log t)
    (ha : Rounds policy before all) (hs : Inside policy before s d) :
    ∃ failures all' c, Rounds policy failures all' ∧ Inside policy failures t c ∧
      all ++ d ++ log = all' ++ c := by
  induction h generalizing before all d with
  | nil s => exact ⟨before, all, d, ha, hs, append_nil _⟩
  | @cons s t u sp log hst _ ih =>
    obtain ⟨_, m, c, hm, ht, heq⟩ := hs.next ha hst
    obtain ⟨failures, all', l, ha', hu, hl⟩ := ih hm ht
    refine ⟨failures, all', l, ha', hu, ?_⟩
    rw [← hl, ← heq, append_assoc, append_assoc, append_assoc, singleton_append]

/-! ## Updates -/

/-- An update says that a subscription is the first. -/
def EventSubscriptionUpdate.SaysConnected : EventSubscriptionUpdate ν → Prop
  | .connection observation => observation.state = .connected
  | .item _ => False

def EventSubscriptionUpdate.backoff : EventSubscriptionUpdate ν → ℕ
  | .connection observation => observation.backoff
  | .item _ => 0

lemma updates_append (log m : SupervisorLog ν) : updates (log ++ m) = updates log ++ updates m :=
  filterMap_append

lemma updates_openedSteps (b oa ca : ℕ) (i : PassedItems ν) :
    updates (openedSteps b oa ca i) = opens b :: i.map fun it => .item it.2.1 := by
  simp [updates, openedSteps, filterMap_flatMap, ← map_eq_flatMap]

lemma mem_tail_append {α : Type} {a : α} {f bc : List α} (h : a ∈ (f ++ bc).tail) : a ∈ f.tail ∨ a ∈ bc := by
  cases f with
  | nil => exact .inr (mem_of_mem_tail h)
  | cons b f => exact mem_append.mp h

lemma Failing.says (h : Failing policy before o failures dr) :
    failures ≠ 0 ∧ (∀ u ∈ updates o, u.backoff = 0) ∧ (∀ u ∈ (updates o).tail, ¬ u.SaysConnected) ∧
      (before ≠ 0 → ∀ u ∈ updates o, ¬ u.SaysConnected) := by
  cases h with
  | refused =>
    exact ⟨Nat.succ_ne_zero _, forall_mem_nil _, forall_mem_nil _, fun _ => forall_mem_nil _⟩
  | dropped oa ca i fa =>
    obtain ⟨failures, hf, -⟩ := @exists_failuresAfter ν policy before ca fa i
    have hupdates : updates (openedSteps before oa ca i ++
        [⟨fa, .receiveFailed dr, none⟩]) = opens before :: i.map fun it => .item it.2.1 := by
      rw [updates_append, updates_openedSteps]
      exact append_nil _
    have hitems : ∀ u ∈ i.map fun it => EventSubscriptionUpdate.item it.2.1,
        u.backoff = 0 ∧ ¬ u.SaysConnected := by
      intro u hm
      obtain ⟨it, -, rfl⟩ := mem_map.mp hm
      exact ⟨rfl, id⟩
    rw [hf, hupdates]
    refine ⟨Nat.succ_ne_zero _, forall_mem_cons.mpr ⟨rfl, fun u hm => (hitems u hm).1⟩,
      fun u hm => (hitems u hm).2, fun hb => forall_mem_cons.mpr ⟨?_, fun u hm => (hitems u hm).2⟩⟩
    rw [opens, if_neg hb]
    intro h
    cases h

/-- **What rounds say**: the first update of all is the only one that may say `Connected`, and every
announced delay is within the bound. -/
lemma Rounds.says (h : Rounds policy failures log) :
    (updates log = [] ∨ failures ≠ 0) ∧ (∀ u ∈ (updates log).tail, ¬ u.SaysConnected) ∧
      ∀ u ∈ updates log, u.backoff ≤ policy.maxDelay := by
  induction h with
  | nil => exact ⟨.inl rfl, forall_mem_nil _, forall_mem_nil _⟩
  | @round before failures dr d r c log o hlg ho hw ih =>
    obtain ⟨hs, hc, hb⟩ := ih
    obtain ⟨hf, hz, hfr, hl⟩ := ho.says
    have hfail : ∀ u ∈ updates (failureSteps (ν := ν) policy failures dr d r c),
        ¬ u.SaysConnected ∧ u.backoff ≤ policy.maxDelay := by
      simp [updates, failureSteps, disconnects, reconnects, EventSubscriptionUpdate.SaysConnected,
        EventSubscriptionUpdate.backoff, delayAfter, reconnectDelay_le]
    rw [updates_append, updates_append]
    refine ⟨.inr hf, ?_, ?_⟩
    · intro u hm
      rcases hs with he | hbf
      · rw [he, nil_append] at hm
        rcases mem_tail_append hm with hm | hm
        · exact hfr u hm
        · exact (hfail u hm).1
      · rcases mem_tail_append hm with hm | hm
        · exact hc u hm
        · exact (mem_append.mp hm).elim (hl hbf u) fun hm => (hfail u hm).1
    · intro u hm
      rcases mem_append.mp hm with hm | hm
      · exact hb u hm
      · rcases mem_append.mp hm with hm | hm
        · exact (hz u hm).le.trans (Nat.zero_le _)
        · exact (hfail u hm).2

/-- **Nothing that was received is lost or repeated.** -/
lemma run_items (h : Run (EventSupervisor.Steps policy) s log t) : s.unsent ++ receivedItems log =
    (updates log).filterMap EventSubscriptionUpdate.passed ++ t.unsent := by
  induction h with
  | nil s => simp [receivedItems, updates]
  | @cons s t u sp log hs _ ih =>
    obtain ⟨att, ca, ph⟩ := s
    obtain ⟨now, e, sn⟩ := sp
    cases ph with
    | sending p a =>
      cases p with
      | nil => cases e <;> cases hs
      | cons up m =>
        cases e with
        | sent =>
          have ht : sn = some up ∧ t.unsent = m.filterMap EventSubscriptionUpdate.passed := by
            cases m with
            | nil =>
              cases hs
              exact ⟨rfl, by cases a <;> rfl⟩
            | cons next m =>
              cases hs
              exact ⟨rfl, rfl⟩
          obtain ⟨rfl, ht⟩ := ht
          rw [ht] at ih
          cases up with
          | connection o => exact ih
          | item v => exact congrArg (v :: ·) ih
        | _ => cases hs
    | subscribing =>
      cases e with
      | subscribed | subscribeFailed dr =>
        cases hs
        exact ih
      | _ => cases hs
    | receiving =>
      cases e with
      | received item | receiveFailed dr =>
        cases hs
        exact ih
      | _ => cases hs
    | sleeping w =>
      cases e with
      | woke =>
        simp only [EventSupervisor.Steps, EventSupervisor.next, Option.ite_none_right_eq_some] at hs
        obtain ⟨-, hs⟩ := hs
        cases hs
        exact ih
      | _ => cases hs

/-- **The updates of a supervisor go in rounds.** -/
theorem supervise_rounds (h : Run (EventSupervisor.Steps policy) .new log s) :
    (∃ failures all, Rounds policy failures all ∧ log <+: all) ∧
      receivedItems log = (updates log).filterMap EventSubscriptionUpdate.passed ++ s.unsent ∧
      (∀ update ∈ (updates log).tail, ¬ update.SaysConnected) ∧
      ∀ update ∈ updates log, update.backoff ≤ policy.maxDelay := by
  have hnew : Inside policy 0 (.new : EventSupervisor ν) [] := .subscribing 0
  obtain ⟨_, f, c, hf, hi, hl⟩ := run_inside h .nil hnew
  obtain ⟨failures, all, ha, hp⟩ := hi.completes hf
  rw [← hl, append_nil, nil_append] at hp
  refine ⟨⟨failures, all, ha, hp⟩, run_items h, ?_⟩
  obtain ⟨m, rfl⟩ := hp
  obtain ⟨-, hc, hb⟩ := ha.says
  rw [updates_append] at hc hb
  have htail : (updates log).tail ⊆ (updates log ++ updates m).tail := by
    cases updates log with
    | nil => exact nil_subset _
    | cons update r => exact subset_append_left _ _
  exact ⟨fun update hm => hc update (htail hm), fun update hm => hb update (mem_append_left _ hm)⟩

def EventReconnectPolicy.default : EventReconnectPolicy where
  initialDelay := second / 4
  maxDelay := 30 * second
  stableResetAfter := 30 * second
  jitterMinPercent := 80
  jitterMaxPercent := 120

/-! ## Many failures -/

/-- So many calls that fail, one behind another. -/
def refusals (policy : EventReconnectPolicy) : ℕ → ℕ → SupervisorLog ν
  | _, 0 => []
  | before, more + 1 => [⟨0, .subscribeFailed 0, none⟩] ++ failureSteps policy (before + 1) 0 0 0
      (delayAfter policy (before + 1) 0) ++ refusals policy (before + 1) more

lemma run_refusals (b m sn : ℕ) :
    Run (EventSupervisor.Steps policy) (⟨attemptNumber b, sn, .subscribing⟩ : EventSupervisor ν)
      (refusals policy b m) ⟨attemptNumber (b + m), sn, .subscribing⟩ := by
  induction m generalizing b with
  | zero => exact .nil _
  | succ m ih =>
    have hfail : EventSupervisor.Steps policy (⟨attemptNumber b, sn, .subscribing⟩ : EventSupervisor ν)
        ⟨0, .subscribeFailed 0, none⟩ _ := congrArg (fun s => some (s, none)) (fails_eq _ b 0)
    have hrest := ih (b + 1)
    rw [Nat.add_assoc, Nat.add_comm 1] at hrest
    exact .cons hfail (.cons rfl (.cons rfl (.cons (if_pos (Nat.zero_add _).le) hrest)))

/-- A call that fails, and a subscription with one item. -/
def itemAfterFailure : SupervisorLog ℕ :=
  refusals .default 0 1 ++ [⟨0, .subscribed, none⟩, ⟨1, .sent, some (opens 1)⟩, ⟨2, .received 7, none⟩]

theorem supervise_rounds_itemAfterFailure : (∃ failures all,
    Rounds EventReconnectPolicy.default failures all ∧ itemAfterFailure <+: all) ∧
      ∀ update ∈ updates itemAfterFailure, update.backoff ≤ 30 * second := by
  have hrun : Run (EventSupervisor.Steps .default) (.new : EventSupervisor ℕ) itemAfterFailure
      ⟨0, 1, .sending [.item 7] .receive⟩ :=
    (run_refusals 0 1 0).append (.cons (Eq.refl _) (.cons (Eq.refl _) (.cons (Eq.refl _) (.nil _))))
  obtain ⟨hrounds, -, -, hbackoff⟩ := supervise_rounds hrun
  exact ⟨hrounds, hbackoff⟩

lemma rounds_refusals (m : ℕ) (h : Rounds policy before log) :
    Rounds policy (before + m) (log ++ refusals policy before m) := by
  induction m generalizing before log with
  | zero => exact (append_nil log).symm ▸ h
  | succ m ih =>
    have hround := @Rounds.round _ _ _ _ 0 0 0 _ _ _ h (.refused 0 0) (Nat.zero_add _).le
    have hrest := ih hround
    rw [append_assoc, Nat.add_assoc, Nat.add_comm 1] at hrest
    exact hrest

/-- What rounds end with is the number of failures, as it is written. -/
lemma Rounds.getLast? (h : Rounds policy failures log) (hf : failures ≠ 0) :
    ∃ dl, (updates log).getLast? = some (.connection ⟨.reconnecting, attemptNumber failures, dl⟩) := by
  cases h with
  | nil => exact absurd rfl hf
  | @round _ _ dr d r c log o =>
    refine ⟨delayAfter policy failures dr, ?_⟩
    rw [updates_append, updates_append, ← append_assoc]
    exact getLast?_append_cons _ _ _

/-- The number stops at the largest that is written in 32 bits. -/
theorem attempts_saturate : ∃ (log : List (SupervisorStep Unit)) (s : EventSupervisor Unit) (delay : ℕ),
    Run (EventSupervisor.Steps .default) .new log s ∧ Rounds .default (2 ^ 32) log ∧
      (updates log).getLast? = some (.connection ⟨.reconnecting, 2 ^ 32 - 1, delay⟩) := by
  have hrounds := @rounds_refusals Unit .default 0 [] (2 ^ 32) .nil
  rw [Nat.zero_add, nil_append] at hrounds
  obtain ⟨delay, hl⟩ := hrounds.getLast? (by decide)
  exact ⟨_, _, delay, run_refusals 0 (2 ^ 32) 0, hrounds, hl⟩

end AsterForge.Events
