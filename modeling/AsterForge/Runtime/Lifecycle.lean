import AsterForge.Runtime.Component

/-!
# The run of a runtime

`AsterRuntime::run` starts the components, runs the main service beside a task that waits for a
termination signal, and cleans up: the shutdown tokens are cancelled, the signal task is joined, the
product's hook is called, and the shutdown phases of the components run.  Everything that a product
supplies may return an error or panic, at every stage and in any combination.

A run is a list of events and a result.  What the callbacks of the product do is part of the data:
every one of them is called at most once on a run.

* **`run_complete`** — which startup phases are started, that every shutdown phase runs exactly once
  after the tokens are cancelled and the signal task is joined, when the result is a success, and
  which failure is reported otherwise.
-/

namespace AsterForge.Runtime

open RuntimeComponentRegistry List

/-! ## Events -/

inductive RuntimeEvent
  | startupPhase (index : ℕ)
  | signalTaskSpawned
  | serviceStarted
  /-- The signal callback of the service. -/
  | stopOnSignal
  | serviceStopped
  | shutdownTokenCancelled
  | serviceShutdownTokenCancelled
  | signalTaskJoined
  | beforeShutdown
  | shutdownPhase (index : ℕ)
  deriving DecidableEq

/-- How the service future ends; its output may be an error of the product. -/
inductive ServiceRun (α : Type*)
  | finished (output : α)
  | panicked

/-- What the signal task has done when it is aborted and joined.  A panic of its callback is only
logged. -/
inductive SignalRun
  | waiting
  | received

inductive HookRun
  | finished
  | panicked

/-- On a signal the task cancels both tokens and calls the callback of the service. -/
def SignalRun.events : SignalRun → List RuntimeEvent
  | .waiting => []
  | .received => [.shutdownTokenCancelled, .serviceShutdownTokenCancelled, .stopOnSignal]

/-! ## Running -/

inductive AsterRuntimeError
  | startup (report : StartupReport) (shutdownReport : ShutdownReport)
  | service (shutdownReport : ShutdownReport) (beforeShutdownPanicked : Bool)
  | beforeShutdown (shutdownReport : ShutdownReport)
  | shutdown (report : ShutdownReport)

structure AsterRuntime (α : Type*) where
  service : ServiceRun α
  stopOnSignal : SignalRun
  beforeShutdown : HookRun
  registry : RuntimeComponentRegistry

def RuntimeComponentRegistry.runStartup (self : RuntimeComponentRegistry) :
    List RuntimeEvent × StartupReport :=
  let reports := StartupCoordinator.run self.startup
  ((List.range reports.length).map .startupPhase, ⟨reports⟩)

/-- What a run that got past its startup reports, with the earliest cause first. -/
def AsterRuntime.outcome {α : Type*} (self : AsterRuntime α) (report : ShutdownReport) :
    Except AsterRuntimeError α :=
  let beforeShutdownFailed :=
    match self.beforeShutdown with
    | .finished => false
    | .panicked => true
  match self.service with
  | .panicked => .error (.service report beforeShutdownFailed)
  | .finished output =>
    if beforeShutdownFailed then .error (.beforeShutdown report)
    else if report.hasFailures then .error (.shutdown report)
    else .ok output

def AsterRuntime.run {α : Type*} (self : AsterRuntime α) : List RuntimeEvent × Except AsterRuntimeError α :=
  let startup := self.registry.runStartup
  let shutdown := self.registry.runShutdown
  let shutdownEvents := shutdown.1.map RuntimeEvent.shutdownPhase
  if startup.2.aborted then
    (startup.1 ++ [RuntimeEvent.shutdownTokenCancelled, .serviceShutdownTokenCancelled] ++ shutdownEvents,
      .error (.startup startup.2 shutdown.2))
  else
    (startup.1 ++ [RuntimeEvent.signalTaskSpawned, .serviceStarted] ++ self.stopOnSignal.events ++
        [RuntimeEvent.serviceStopped, .shutdownTokenCancelled, .serviceShutdownTokenCancelled, .signalTaskJoined,
          .beforeShutdown] ++ shutdownEvents,
      self.outcome shutdown.2)

/-! ## What can fail -/

namespace AsterRuntime

variable {α : Type*} (self : AsterRuntime α)

def StartupAborted : Prop := ∃ phase ∈ self.registry.startup, phase.Aborting

def ServicePanicked : Prop := self.service = .panicked

def BeforeShutdownPanicked : Prop := self.beforeShutdown = .panicked

def ShutdownFailed : Prop := ∃ phase ∈ self.registry.shutdown, ¬ phase.Succeeds

def eventsBeforeCleanup : List RuntimeEvent :=
  if self.registry.runStartup.2.aborted then
    self.registry.runStartup.1 ++ [RuntimeEvent.shutdownTokenCancelled, .serviceShutdownTokenCancelled]
  else
    self.registry.runStartup.1 ++ [RuntimeEvent.signalTaskSpawned, .serviceStarted] ++ self.stopOnSignal.events ++
      [RuntimeEvent.serviceStopped, .shutdownTokenCancelled, .serviceShutdownTokenCancelled, .signalTaskJoined,
        .beforeShutdown]

open RuntimeEvent

lemma run_events : self.run.1 = self.eventsBeforeCleanup ++
    self.registry.shutdownOrder.map shutdownPhase := by
  rw [run, eventsBeforeCleanup]
  split
  · rfl
  · rfl

lemma shutdownPhase_notMem_before (i : ℕ) : shutdownPhase i ∉ self.eventsBeforeCleanup := by
  rw [eventsBeforeCleanup]
  split
  · simp [runStartup]
  · cases self.stopOnSignal <;> simp [runStartup, SignalRun.events]

/-! ## The startup -/

/-- The report aborts exactly if a required phase failed: later phases, which are not in the report,
are not needed to see it. -/
lemma startup_aborted_iff : self.registry.runStartup.2.aborted = true ↔ self.StartupAborted := by
  obtain ⟨s, r, hph, hr, hc⟩ := startup_run_eq self.registry.startup
  simp only [runStartup, StartupReport.aborted, hr, any_map,
    any_eq_true, Function.comp_apply, report_aborts_iff, StartupAborted]
  constructor
  · rintro ⟨p, hm, hp⟩
    exact ⟨p, hph ▸ mem_append_left _ hm, hp⟩
  · rintro ⟨p, hm, hp⟩
    rcases hc with ⟨hn, -⟩ | ⟨b, l, hs, hl, -⟩
    · exact absurd hp (hn p hm)
    · exact ⟨l, hs ▸ mem_append_right _ (mem_singleton_self l), hl⟩

lemma startupPhase_mem_iff (i : ℕ) : startupPhase i ∈ self.run.1 ↔
    i < (StartupCoordinator.run self.registry.startup).length := by
  rw [run_events, eventsBeforeCleanup]
  split
  · simp [runStartup]
  · cases self.stopOnSignal <;> simp [runStartup, SignalRun.events]

lemma startupPhase_notMem {i l : ℕ} {p : RegisteredStartupPhase}
    (hp : self.registry.startup[i]? = some p) (ha : p.Aborting) (hl : i < l) : startupPhase l ∉ self.run.1 := by
  obtain ⟨s, r, hph, hr, hc⟩ := startup_run_eq self.registry.startup
  rw [startupPhase_mem_iff, hr, length_map]
  rcases hc with ⟨hn, -⟩ | ⟨b, ls, hs, -, hb⟩
  · exact absurd ha (hn p (mem_of_getElem? hp))
  · have hnotBefore : b.length ≤ i := by
      by_contra hlt
      rw [hph, hs, append_assoc, getElem?_append_left (not_le.mp hlt)] at hp
      exact hb p (mem_of_getElem? hp) ha
    rw [hs, length_append, length_singleton]
    omega

/-! ## The cleanup -/

lemma count_shutdownPhase (i : ℕ) : self.run.1.count (.shutdownPhase i) =
    if i < self.registry.shutdown.length then 1 else 0 := by
  have hinjective : Function.Injective shutdownPhase := by
    intro a b h
    exact shutdownPhase.inj h
  rw [run_events, count_append, count_eq_zero.mpr (self.shutdownPhase_notMem_before i),
    count_map_of_injective _ _ hinjective, self.registry.shutdownOrder_perm.count_eq, Nat.zero_add]
  by_cases hindex : i < self.registry.shutdown.length
  · rw [if_pos hindex]
    exact count_eq_one_of_mem nodup_range (mem_range.mpr hindex)
  · rw [if_neg hindex, count_eq_zero, mem_range]
    exact hindex

lemma mem_before_shutdownPhase {b a : List RuntimeEvent} {i : ℕ}
    (h : self.run.1 = b ++ .shutdownPhase i :: a) : ∀ e ∈ self.eventsBeforeCleanup, e ∈ b := by
  rw [run_events] at h
  intro e he
  rcases append_eq_append_iff.mp h with ⟨d, hb, -⟩ | ⟨d, hc, hr⟩
  · exact hb ▸ mem_append_left _ he
  · cases d with
    | nil => rwa [hc, append_nil] at he
    | cons first d =>
      rw [cons_append, cons.injEq] at hr
      refine absurd ?_ (self.shutdownPhase_notMem_before i)
      rw [hc, hr.1]
      exact mem_append_right _ mem_cons_self

/-- By the end of the first part both tokens are cancelled, and the signal task is joined if it was
ever started. -/
lemma settled_before : .shutdownTokenCancelled ∈ self.eventsBeforeCleanup ∧
    .serviceShutdownTokenCancelled ∈ self.eventsBeforeCleanup ∧
    (signalTaskSpawned ∈ self.run.1 → .signalTaskJoined ∈ self.eventsBeforeCleanup) := by
  rw [run_events, eventsBeforeCleanup]
  split
  · simp [runStartup]
  · simp

/-! ## The report -/

lemma hasFailures_iff : self.registry.runShutdown.2.hasFailures = true ↔ self.ShutdownFailed := by
  simp only [runShutdown, ShutdownReport.hasFailures, any_map,
    any_eq_true, Function.comp_apply, report_isFailure_iff, ShutdownFailed, mem_filterMap]
  refine exists_congr fun p => and_congr_left fun _ => ?_
  constructor
  · rintro ⟨i, -, hp⟩
    exact mem_of_getElem? hp
  · intro hm
    obtain ⟨i, hi, hp⟩ := getElem_of_mem hm
    refine ⟨i, self.registry.shutdownOrder_perm.mem_iff.mpr (mem_range.mpr hi), ?_⟩
    rw [getElem?_eq_getElem hi, hp]

lemma run_result_of_aborted (h : self.StartupAborted) :
    self.run.2 = .error (.startup self.registry.runStartup.2 self.registry.runShutdown.2) := by
  rw [run, if_pos ((self.startup_aborted_iff).mpr h)]

lemma run_result_of_started (h : ¬ self.StartupAborted) :
    self.run.2 = self.outcome self.registry.runShutdown.2 := by
  rw [run, if_neg (mt (self.startup_aborted_iff).mp h)]

lemma outcome_eq (r : ShutdownReport) :
    (self.ServicePanicked → ∃ hop, self.outcome r = .error (.service r hop) ∧
      (hop = true ↔ self.BeforeShutdownPanicked)) ∧
    (¬ self.ServicePanicked → self.BeforeShutdownPanicked → self.outcome r = .error (.beforeShutdown r)) ∧
    (¬ self.ServicePanicked → ¬ self.BeforeShutdownPanicked → r.hasFailures = true →
      self.outcome r = .error (.shutdown r)) ∧
    (∀ o, self.outcome r = .ok o ↔
      self.service = .finished o ∧ ¬ self.BeforeShutdownPanicked ∧ r.hasFailures = false) := by
  rcases self with ⟨_ | _, sos, _ | _, rg⟩ <;>
    cases hfails : r.hasFailures <;>
      simp [outcome, ServicePanicked, BeforeShutdownPanicked, hfails]

end AsterRuntime

/-! ## The whole run -/

variable {α : Type*}

/-- **The run of a runtime is complete**, whatever its callbacks do.  No startup phase is started after
a required one that failed.  Every shutdown phase runs exactly once, after both tokens are cancelled and
after the signal task is joined, if there is one.  The run succeeds, with the output of the service,
exactly if no required startup phase failed, neither the service nor the hook panicked and no shutdown
phase failed or timed out.  Otherwise it reports the startup or the service first, then the hook, then
the shutdown. -/
theorem run_complete (runtime : AsterRuntime α) :
    (∀ index later phase, runtime.registry.startup[index]? = some phase → phase.Aborting →
      index < later → RuntimeEvent.startupPhase later ∉ runtime.run.1) ∧
    (∀ index < runtime.registry.shutdown.length, runtime.run.1.count (.shutdownPhase index) = 1) ∧
    (∀ before index after, runtime.run.1 = before ++ .shutdownPhase index :: after →
      .shutdownTokenCancelled ∈ before ∧ .serviceShutdownTokenCancelled ∈ before ∧
        (RuntimeEvent.signalTaskSpawned ∈ runtime.run.1 → .signalTaskJoined ∈ before)) ∧
    (∀ output, runtime.run.2 = .ok output ↔
      ¬ runtime.StartupAborted ∧ runtime.service = .finished output ∧
        ¬ runtime.BeforeShutdownPanicked ∧ ¬ runtime.ShutdownFailed) ∧
    (runtime.StartupAborted → runtime.run.2 =
      .error (.startup runtime.registry.runStartup.2 runtime.registry.runShutdown.2)) ∧
    (¬ runtime.StartupAborted → runtime.ServicePanicked → ∃ hookPanicked,
      runtime.run.2 = .error (.service runtime.registry.runShutdown.2 hookPanicked) ∧
        (hookPanicked = true ↔ runtime.BeforeShutdownPanicked)) ∧
    (¬ runtime.StartupAborted → ¬ runtime.ServicePanicked → runtime.BeforeShutdownPanicked →
      runtime.run.2 = .error (.beforeShutdown runtime.registry.runShutdown.2)) ∧
    (¬ runtime.StartupAborted → ¬ runtime.ServicePanicked → ¬ runtime.BeforeShutdownPanicked →
      runtime.ShutdownFailed → runtime.run.2 = .error (.shutdown runtime.registry.runShutdown.2)) := by
  obtain ⟨hsr, hh, hsh, hok⟩ := runtime.outcome_eq runtime.registry.runShutdown.2
  refine ⟨?_, ?_, ?_, ?_, runtime.run_result_of_aborted, ?_, ?_, ?_⟩
  · intro index later phase hph hab hl
    exact runtime.startupPhase_notMem hph hab hl
  · intro index hi
    rw [runtime.count_shutdownPhase, if_pos hi]
  · intro before index after h
    have hbef := runtime.mem_before_shutdownPhase h
    obtain ⟨hst, hs, hj⟩ := runtime.settled_before
    exact ⟨hbef _ hst, hbef _ hs, fun h => hbef _ (hj h)⟩
  · intro output
    by_cases ha : runtime.StartupAborted
    · simp [runtime.run_result_of_aborted ha, ha]
    · rw [runtime.run_result_of_started ha, hok, ← runtime.hasFailures_iff, Bool.not_eq_true]
      exact (and_iff_right ha).symm
  · intro ha hp
    rw [runtime.run_result_of_started ha]
    exact hsr hp
  · intro ha hp hhp
    rw [runtime.run_result_of_started ha]
    exact hh hp hhp
  · intro ha hp hhp hf
    rw [runtime.run_result_of_started ha]
    exact hsh hp hhp (runtime.hasFailures_iff.mpr hf)

/-- Nothing a product supplied failed: no startup phase, no output of the service, no hook and no
shutdown phase. -/
def AsterRuntime.NothingFailed (runtime : AsterRuntime (Except String Unit)) : Prop :=
  (∀ phase ∈ runtime.registry.startup, phase.phase.Succeeds) ∧
    (∃ output, runtime.service = .finished (.ok output)) ∧ ¬ runtime.BeforeShutdownPanicked ∧
    ¬ runtime.ShutdownFailed

def optionalPanic : AsterRuntime (Except String Unit) where
  service := .finished (.ok ())
  stopOnSignal := .waiting
  beforeShutdown := .finished
  registry :=
    { components := []
      startup := [⟨"warm_cache", .optional, .panicked, 0⟩]
      shutdown := [] }

/-- An optional startup phase that fails is reported and logged, and the run succeeds. -/
theorem run_ok_counterexample : ¬ ∀ runtime : AsterRuntime (Except String Unit),
    (∃ output, runtime.run.2 = .ok output) ↔ runtime.NothingFailed := by
  intro h
  have hok : ∃ output, optionalPanic.run.2 = .ok output := ⟨.ok (), rfl⟩
  have hphase := ((h optionalPanic).mp hok).1 _ mem_cons_self
  cases hphase

end AsterForge.Runtime
