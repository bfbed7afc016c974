import AsterForge.Library.DepthFirst
import Mathlib.Data.List.Flatten

/-!
# Runtime components

A product registers components, each with the components it depends on, startup phases and shutdown
phases.  Startup phases run in the order of their registration, until a required one fails.  Shutdown
phases run after those of the component's dependencies, whatever the dependency graph is like, and a
phase that fails, panics or exceeds its timeout does not keep the later ones from running.

* `RuntimeComponentRegistry.shutdownOrder` — the order in which the shutdown phases run, a depth-first
  walk over the components that have some.
* **`shutdownOrder_perm`** — every registered shutdown phase is in the order, exactly once, for every
  dependency graph.
* **`shutdownOrder_dependencies_first`** — the phases of a component stay together, and come after those of
  what it depends on, but for what depends on it in turn.
-/

namespace AsterForge.Runtime

open Library List Option

/-! ## Startup phases -/

inductive StartupPhaseFailurePolicy
  | required
  | optional
  deriving DecidableEq

inductive PhaseRun
  | returned (result : Except String Unit)
  | panicked

structure RegisteredStartupPhase where
  name : String
  failurePolicy : StartupPhaseFailurePolicy
  /-- What its callback does on this run. -/
  phase : PhaseRun
  /-- How long it takes. -/
  duration : ℕ

inductive StartupPhaseStatus
  | succeeded
  | skippedAfterFailure (error : String)
  | failed (error : String)

structure StartupPhaseReport where
  name : String
  failurePolicy : StartupPhaseFailurePolicy
  status : StartupPhaseStatus
  duration : ℕ

structure StartupReport where
  phases : List StartupPhaseReport

def StartupPhaseReport.aborts (report : StartupPhaseReport) : Bool :=
  match report.status with
  | .failed _ => report.failurePolicy == .required
  | _ => false

def StartupReport.aborted (report : StartupReport) : Bool :=
  report.phases.any StartupPhaseReport.aborts

/-- The status of a startup phase: a panic is a failure, and the policy decides what a failure is. -/
def RegisteredStartupPhase.status (phase : RegisteredStartupPhase) : StartupPhaseStatus :=
  let result :=
    match phase.phase with
    | .returned result => result
    | .panicked => .error "startup phase panicked"
  match result with
  | .ok () => .succeeded
  | .error error =>
    if phase.failurePolicy == .optional then .skippedAfterFailure error else .failed error

def RegisteredStartupPhase.report (phase : RegisteredStartupPhase) : StartupPhaseReport where
  name := phase.name
  failurePolicy := phase.failurePolicy
  status := phase.status
  duration := phase.duration

def StartupCoordinator.run : List RegisteredStartupPhase → List StartupPhaseReport
  | [] => []
  | phase :: phases =>
    match phase.status with
    | .failed _ => [phase.report]
    | _ => phase.report :: StartupCoordinator.run phases

def PhaseRun.Succeeds (run : PhaseRun) : Prop := run = .returned (.ok ())

def RegisteredStartupPhase.Aborting (phase : RegisteredStartupPhase) : Prop :=
  phase.failurePolicy = .required ∧ ¬ phase.phase.Succeeds

open RegisteredStartupPhase

variable (p : RegisteredStartupPhase)

lemma status_failed_iff : (∃ e, p.status = .failed e) ↔ p.Aborting := by
  obtain ⟨n, fp, run, d⟩ := p
  cases fp <;> rcases run with (_ | _) | _ <;>
    simp [status, RegisteredStartupPhase.Aborting, PhaseRun.Succeeds]

lemma report_aborts_iff : p.report.aborts = true ↔ p.Aborting := by
  obtain ⟨n, fp, run, d⟩ := p
  cases fp <;> rcases run with (_ | _) | _ <;>
    simp [status, RegisteredStartupPhase.Aborting, PhaseRun.Succeeds, report, StartupPhaseReport.aborts]

open StartupCoordinator

lemma startup_run_eq (ph : List RegisteredStartupPhase) :
    ∃ s r, ph = s ++ r ∧ run ph = s.map report ∧ ((∀ p ∈ ph, ¬ p.Aborting) ∧ r = [] ∨
        ∃ b p, s = b ++ [p] ∧ p.Aborting ∧ ∀ o ∈ b, ¬ o.Aborting) := by
  induction ph with
  | nil => exact ⟨[], [], rfl, rfl, .inl ⟨by simp, rfl⟩⟩
  | cons p ph ih =>
    by_cases hphase : p.Aborting
    · obtain ⟨e, he⟩ := (status_failed_iff p).mpr hphase
      refine ⟨[p], ph, rfl, ?_, .inr ⟨[], p, rfl, hphase, by simp⟩⟩
      simp [run, he]
    · obtain ⟨s, r, hp, hrn, hc⟩ := ih
      have hcont : run (p :: ph) = p.report :: run ph := by
        rw [run]
        split
        · next e he => exact absurd ((status_failed_iff p).mp ⟨e, he⟩) hphase
        · rfl
      refine ⟨p :: s, r, by rw [hp, cons_append], ?_, ?_⟩
      · rw [hcont, hrn, map_cons]
      · rcases hc with ⟨hn, hr⟩ | ⟨b, l, hs, hl, hb⟩
        · exact .inl ⟨forall_mem_cons.mpr ⟨hphase, hn⟩, hr⟩
        · refine .inr ⟨p :: b, l, ?_, hl, forall_mem_cons.mpr ⟨hphase, hb⟩⟩
          rw [hs, cons_append]

/-! ## Shutdown phases -/

/-- How one invocation of a shutdown phase ends, given its timeout: it returns, it panics, or the
timeout expires first.  Expiry drops the pending future, which may panic too. -/
inductive ShutdownRun : Option ℕ → Type
  | returned {timeout : Option ℕ} (result : Except String Unit) : ShutdownRun timeout
  | panicked {timeout : Option ℕ} : ShutdownRun timeout
  | expired {limit : ℕ} (dropPanicked : Bool) : ShutdownRun (some limit)

structure RuntimeComponentShutdownPhase where
  componentName : String
  phaseName : String
  timeout : Option ℕ
  /-- What its callback does on this run. -/
  phase : ShutdownRun timeout
  /-- How long it takes. -/
  duration : ℕ

inductive ShutdownPhaseStatus
  | succeeded
  | failed (error : String)
  | timedOut

def ShutdownPhaseStatus.isFailure : ShutdownPhaseStatus → Bool
  | .succeeded => false
  | _ => true

structure ShutdownPhaseReport where
  name : String
  status : ShutdownPhaseStatus
  duration : ℕ

structure ShutdownReport where
  phases : List ShutdownPhaseReport

def ShutdownReport.hasFailures (report : ShutdownReport) : Bool :=
  report.phases.any fun phase => phase.status.isFailure

def runShutdownPhase {timeout : Option ℕ} : ShutdownRun timeout → ShutdownPhaseStatus
  | .returned (.ok ()) => .succeeded
  | .returned (.error error) => .failed error
  | .panicked => .failed "shutdown phase panicked"
  | .expired false => .timedOut
  | .expired true => .failed "shutdown phase panicked"

def RuntimeComponentShutdownPhase.report (phase : RuntimeComponentShutdownPhase) : ShutdownPhaseReport where
  name := phase.phaseName
  status := runShutdownPhase phase.phase
  duration := phase.duration

/-- The phase returned without an error, within its timeout. -/
def RuntimeComponentShutdownPhase.Succeeds (phase : RuntimeComponentShutdownPhase) : Prop :=
  phase.phase = .returned (.ok ())

lemma report_isFailure_iff (p : RuntimeComponentShutdownPhase) :
    p.report.status.isFailure = true ↔ ¬ p.Succeeds := by
  obtain ⟨cn, pn, t, run, d⟩ := p
  simp only [RuntimeComponentShutdownPhase.report, RuntimeComponentShutdownPhase.Succeeds]
  rcases run with (_ | _) | _ | (_ | _) <;>
    simp [runShutdownPhase, ShutdownPhaseStatus.isFailure]

/-! ## The registry -/

structure RuntimeComponentDescriptor where
  name : String
  dependencies : List String

structure RuntimeComponentRegistry where
  components : List RuntimeComponentDescriptor
  startup : List RegisteredStartupPhase
  shutdown : List RuntimeComponentShutdownPhase

/-- The order that is being collected, with the marks of the walk. -/
structure ShutdownOrdering where
  visiting : List String
  visited : List String
  ordered : List ℕ

namespace RuntimeComponentRegistry

variable (self : RuntimeComponentRegistry) (name : String)

def phaseIndicesByComponent : Option (List ℕ) :=
  match (self.shutdown.zipIdx.filter fun entry => entry.1.componentName == name).map Prod.snd with
  | [] => none
  | indices => some indices

def descriptorByName : Option RuntimeComponentDescriptor :=
  self.components.reverse.find? fun component => component.name == name

def pushShutdownComponentOrder : ℕ → String → ShutdownOrdering → ShutdownOrdering
  | 0, _, ordering => ordering
  | fuel + 1, componentName, ordering =>
    if ordering.visited.contains componentName then ordering
    -- a dependency cycle, which is logged
    else if ordering.visiting.contains componentName then ordering
    else
      let ordering := { ordering with visiting := componentName :: ordering.visiting }
      let ordering :=
        match self.descriptorByName componentName with
        | none => ordering
        | some descriptor =>
          descriptor.dependencies.foldl (fun ordering dependency =>
              if (self.phaseIndicesByComponent dependency).isSome then
                pushShutdownComponentOrder fuel dependency ordering
              else ordering)
            ordering
      { visiting := ordering.visiting.erase componentName
        visited := ordering.visited ++ [componentName]
        ordered := ordering.ordered ++ (self.phaseIndicesByComponent componentName).getD [] }

def shutdownOrderWith (fuel : ℕ) : List ℕ :=
  (self.shutdown.foldl
    (fun ordering phase => self.pushShutdownComponentOrder fuel phase.componentName ordering)
    ⟨[], [], []⟩).ordered

def shutdownOrder : List ℕ := self.shutdownOrderWith (self.shutdown.length + 1)

def runShutdown : List ℕ × ShutdownReport :=
  let order := self.shutdownOrder
  (order, ⟨(order.filterMap (self.shutdown[·]?)).map RuntimeComponentShutdownPhase.report⟩)

/-! ## The order as a walk -/

/-- The dependencies of a component that have shutdown phases. -/
def orderedBefore : List String :=
  ((self.descriptorByName name).elim [] RuntimeComponentDescriptor.dependencies).filter
    fun dependency => (self.phaseIndicesByComponent dependency).isSome

/-- The indices a walk has put in order. -/
def emitted (visited : List String) : List ℕ :=
  visited.flatMap fun name => (self.phaseIndicesByComponent name).getD []

def orderingOf (walk : Walk String) : ShutdownOrdering where
  visiting := walk.visiting
  visited := walk.visited
  ordered := self.emitted walk.visited

lemma foldl_filter_orderingOf {f : ShutdownOrdering → String → ShutdownOrdering}
    {g : Walk String → String → Walk String} {p : String → Bool}
    (h : ∀ w n, f (self.orderingOf w) n = self.orderingOf (g w n)) (nm : List String) (w : Walk String) :
    nm.foldl (fun o n => if p n then f o n else o) (self.orderingOf w) =
      self.orderingOf ((nm.filter p).foldl g w) := by
  induction nm generalizing w with
  | nil => rfl
  | cons n nm ih =>
    rw [foldl_cons]
    by_cases hp : p n = true
    · rw [if_pos hp, h, ih, filter_cons_of_pos hp, foldl_cons]
    · rw [if_neg hp, ih, filter_cons_of_neg hp]

/-- Ordering the components is walking over them, and putting the phases of each in order when it is
left. -/
lemma pushShutdownComponentOrder_orderingOf (f : ℕ) (n : String) (w : Walk String) :
    self.pushShutdownComponentOrder f n (self.orderingOf w) =
      self.orderingOf (visit self.orderedBefore f n w) := by
  induction f generalizing n w with
  | zero => rfl
  | succ f ih =>
    rw [pushShutdownComponentOrder, visit]
    simp only [contains_eq_mem, orderingOf, decide_eq_true_eq]
    split
    · rfl
    · split
      · rfl
      · have hchil : (match self.descriptorByName n with
            | none => self.orderingOf (w.enter n)
            | some ds =>
              ds.dependencies.foldl (fun o d =>
                  if (self.phaseIndicesByComponent d).isSome then
                    self.pushShutdownComponentOrder f d o
                  else o)
                (self.orderingOf (w.enter n))) =
            self.orderingOf ((self.orderedBefore n).foldl
              (fun w c => visit self.orderedBefore f c w) (w.enter n)) := by
          cases hdescriptor : self.descriptorByName n with
          | none => simp [orderedBefore, hdescriptor]
          | some ds =>
            simp only [orderedBefore, hdescriptor, elim_some]
            exact self.foldl_filter_orderingOf (fun w c => ih c w) _ _
        simp only [orderingOf, Walk.enter] at hchil ⊢
        rw [hchil]
        simp [Walk.leave, emitted]

def phaseOwners : List String := self.shutdown.map RuntimeComponentShutdownPhase.componentName

lemma shutdownOrderWith_eq (fl : ℕ) : self.shutdownOrderWith fl =
    self.emitted (visitAll self.orderedBefore fl self.phaseOwners).visited := by
  have hfold := self.foldl_filter_orderingOf (f := fun o n => self.pushShutdownComponentOrder fl n o)
    (g := fun w n => visit self.orderedBefore fl n w) (p := fun _ => true)
    (fun w n => self.pushShutdownComponentOrder_orderingOf fl n w) self.phaseOwners ⟨[], []⟩
  simp only [if_true, filter_true] at hfold
  rw [shutdownOrderWith, ← foldl_map (f := RuntimeComponentShutdownPhase.componentName)
    (g := fun o n => self.pushShutdownComponentOrder fl n o)]
  exact congrArg ShutdownOrdering.ordered hfold

/-! ## Every phase once -/

variable (n : String)

lemma mem_phaseIndices (i : ℕ) : i ∈ (self.phaseIndicesByComponent n).getD [] ↔
    ∃ p, self.shutdown[i]? = some p ∧ p.componentName = n := by
  have hgetD : (self.phaseIndicesByComponent n).getD [] =
      (self.shutdown.zipIdx.filter fun e => e.1.componentName == n).map Prod.snd := by
    rw [phaseIndicesByComponent]
    split
    · next h => rw [h]; rfl
    · rfl
  rw [hgetD]
  simp [mem_zipIdx_iff_getElem?]

lemma nodup_phaseIndices : ((self.phaseIndicesByComponent n).getD []).Nodup := by
  rw [phaseIndicesByComponent]
  split
  · exact nodup_nil
  · have hnodup : (self.shutdown.zipIdx.map Prod.snd).Nodup := by
      rw [zipIdx_map_snd]
      exact nodup_range'
    exact hnodup.sublist (filter_sublist.map _)

/-- **Every registered shutdown phase is in the order exactly once**, for every dependency graph. -/
theorem shutdownOrder_perm : self.shutdownOrder.Perm (range self.shutdown.length) := by
  rw [shutdownOrder, shutdownOrderWith_eq, perm_ext_iff_of_nodup ?_ nodup_range]
  · intro i
    simp only [emitted, mem_flatMap, mem_phaseIndices, mem_range]
    constructor
    · rintro ⟨-, -, p, hp, -⟩
      exact (List.getElem?_eq_some_iff.mp hp).1
    · intro hi
      refine ⟨(self.shutdown[i]).componentName, mem_visitAll ?_, _, List.getElem?_eq_getElem hi, rfl⟩
      exact List.mem_map.mpr ⟨_, List.getElem_mem hi, rfl⟩
  · rw [emitted, nodup_flatMap]
    refine ⟨fun n _ => self.nodup_phaseIndices n, ?_⟩
    refine (visitAll_nodup _ _).imp ?_
    intro n o hne i hn ho
    rw [mem_phaseIndices] at hn ho
    obtain ⟨p, hp, rfl⟩ := hn
    obtain ⟨p', hp', rfl⟩ := ho
    rw [hp, some.injEq] at hp'
    exact hne (hp' ▸ rfl)

lemma mem_phaseOwners {n : String} (h : (self.phaseIndicesByComponent n).isSome = true) :
    n ∈ self.phaseOwners.toFinset := by
  obtain ⟨ind, hi⟩ := isSome_iff_exists.mp h
  cases hlist : ind with
  | nil =>
    rw [phaseIndicesByComponent, hlist] at hi
    split at hi
    · cases hi
    · next hne => exact absurd (some.inj hi) hne
  | cons i r =>
    have hmem : i ∈ (self.phaseIndicesByComponent n).getD [] := by
      rw [hi, hlist]
      exact mem_cons_self
    obtain ⟨p, hp, hn⟩ := (self.mem_phaseIndices n i).mp hmem
    rw [List.mem_toFinset]
    exact mem_map.mpr ⟨p, mem_of_getElem? hp, hn⟩

lemma orderedBefore_phaseOwners : ∀ n ∈ self.phaseOwners.toFinset,
    ∀ c ∈ self.orderedBefore n, c ∈ self.phaseOwners.toFinset :=
  fun _ _ _ hc => self.mem_phaseOwners (mem_filter.mp hc).2

lemma card_phaseOwners : self.phaseOwners.toFinset.card < self.shutdown.length + 1 := by
  have hcard := toFinset_card_le self.phaseOwners
  rw [phaseOwners, length_map] at hcard
  exact Nat.lt_succ_of_le hcard

/-- The walk is not cut off: with more fuel the order is the same. -/
theorem shutdownOrder_fuel {f : ℕ} (hf : self.shutdown.length + 1 ≤ f) :
    self.shutdownOrderWith f = self.shutdownOrder := by
  rw [shutdownOrder, shutdownOrderWith_eq, shutdownOrderWith_eq]
  suffices hfold : ∀ s : List String, (∀ n ∈ s, n ∈ self.phaseOwners.toFinset) →
      ∀ w, s.foldl (fun w st => visit self.orderedBefore f st w) w =
        s.foldl (fun w st => visit self.orderedBefore (self.shutdown.length + 1) st w) w by
    rw [visitAll, hfold _ (fun n hn => mem_toFinset.mpr hn)]
    rfl
  intro s hs
  induction s with
  | nil => exact fun w => rfl
  | cons st s ih =>
    intro w
    rw [foldl_cons, visit_fuel self.orderedBefore_phaseOwners (hs st mem_cons_self)
        ((Finset.card_filter_le _ _).trans_lt self.card_phaseOwners) hf]
    exact ih (fun n hn => hs n (mem_cons_of_mem _ hn)) _

/-! ## Dependencies first -/

def phasesOf : List ℕ :=
  (range self.shutdown.length).filter fun index =>
    self.shutdown[index]?.any fun phase => phase.componentName == name

/-- The first component depends directly on the second, and both have shutdown phases. -/
def DependsOn (name dependency : String) : Prop :=
  self.phasesOf name ≠ [] ∧ self.phasesOf dependency ≠ [] ∧
    ∃ descriptor, self.descriptorByName name = some descriptor ∧ dependency ∈ descriptor.dependencies

lemma phaseIndices_eq : (self.phaseIndicesByComponent n).getD [] = self.phasesOf n := by
  have hsorted : ((self.phaseIndicesByComponent n).getD []).Pairwise (· < ·) := by
    rw [phaseIndicesByComponent]
    split
    · exact .nil
    · refine List.Pairwise.sublist (filter_sublist.map _) ?_
      rw [zipIdx_map_snd]
      exact pairwise_lt_range'
  refine List.Perm.eq_of_pairwise (fun a b _ _ hab hba => absurd hab hba.asymm) hsorted
    (pairwise_lt_range.filter _) ?_
  refine (perm_ext_iff_of_nodup (self.nodup_phaseIndices n) (nodup_range.filter _)).mpr fun i => ?_
  simp only [mem_phaseIndices, mem_filter, mem_range, Option.any_eq_true, beq_iff_eq]
  refine ⟨fun ⟨p, hp, hn⟩ => ?_, fun ⟨_, h⟩ => h⟩
  exact ⟨(List.getElem?_eq_some_iff.mp hp).1, p, hp, hn⟩

lemma mem_orderedBefore {n d : String} (h : self.phasesOf n ≠ []) :
    d ∈ self.orderedBefore n ↔ self.DependsOn n d := by
  have hsome : (self.phaseIndicesByComponent d).isSome = true ↔ self.phasesOf d ≠ [] := by
    rw [← phaseIndices_eq, phaseIndicesByComponent]
    split <;> simp_all
  rw [orderedBefore, mem_filter, hsome, DependsOn, and_iff_right h, and_comm]
  cases self.descriptorByName n <;> simp

lemma leadsTo_dependsOn {n o : String} (h : self.phasesOf n ≠ []) (hp : LeadsTo self.orderedBefore n o) :
    self.phasesOf o ≠ [] ∧ Relation.ReflTransGen self.DependsOn n o := by
  induction hp with
  | refl => exact ⟨h, .refl⟩
  | tail _ hl ih =>
    have hdepends := (self.mem_orderedBefore ih.1).mp hl
    exact ⟨hdepends.2.1, ih.2.tail hdepends⟩

/-- **The order of shutdown.**  The walk ends by itself, and puts every registered phase in the order once.
The phases of a component stay together, in the order of registration, and they come after those of
every component that it depends on, unless that one depends on it in turn. -/
theorem shutdownOrder_dependencies_first :
    (∀ fuel, self.shutdown.length + 1 ≤ fuel → self.shutdownOrderWith fuel = self.shutdownOrder) ∧
    self.shutdownOrder.Perm (range self.shutdown.length) ∧
    (∀ name, self.phasesOf name <:+: self.shutdownOrder) ∧
    ∀ name dependency, self.DependsOn name dependency →
      ¬ Relation.ReflTransGen self.DependsOn dependency name →
      ∀ first ∈ self.phasesOf dependency, ∀ second ∈ self.phasesOf name,
        [first, second].Sublist self.shutdownOrder := by
  have hvis : ∀ name, self.phasesOf name ≠ [] → name ∈
      (visitAll self.orderedBefore (self.shutdown.length + 1) self.phaseOwners).visited := by
    intro name h
    obtain ⟨i, hi⟩ := exists_mem_of_ne_nil _ h
    rw [← phaseIndices_eq, mem_phaseIndices] at hi
    obtain ⟨p, hp, rfl⟩ := hi
    exact mem_visitAll (mem_map_of_mem (mem_of_getElem? hp))
  have horder : self.shutdownOrder =
      (visitAll self.orderedBefore (self.shutdown.length + 1) self.phaseOwners).visited.flatMap
        self.phasesOf := by
    rw [shutdownOrder, shutdownOrderWith_eq]
    exact flatMap_congr fun name _ => self.phaseIndices_eq name
  refine ⟨fun fuel => self.shutdownOrder_fuel, self.shutdownOrder_perm, fun name => ?_, ?_⟩
  · rw [horder]
    by_cases h : self.phasesOf name = []
    · rw [h]
      exact nil_infix
    · obtain ⟨b, a, hs⟩ := append_of_mem (hvis name h)
      rw [hs, flatMap_append]
      exact ⟨_, _, append_assoc _ _ _⟩
  · intro name dependency hd hnt first hf second hsn
    have hord := visitAll_ordered self.orderedBefore_phaseOwners self.card_phaseOwners
      (fun name hn => mem_toFinset.mpr hn) name (hvis name hd.1) dependency
      ((self.mem_orderedBefore hd.1).mpr hd) fun hpt => hnt (self.leadsTo_dependsOn hd.2.1 hpt).2
    have hphases := hord.flatMap self.phasesOf
    rw [← horder, flatMap_cons, flatMap_singleton] at hphases
    exact (List.Sublist.append (singleton_sublist.mpr hf) (singleton_sublist.mpr hsn)).trans hphases

/-! ## Validation -/

inductive RuntimeComponentGraphError
  | missingDependency (component dependency : String)
  | cycle (cycle : String)

/-- The dependencies of a component by its name; what is not registered has none. -/
def dependenciesOf : List String :=
  (self.descriptorByName name).elim [] RuntimeComponentDescriptor.dependencies

/-- Nothing is reported where the fuel runs out. -/
def validateComponentDependencies (fuel : ℕ) (componentName : String) (walk : Walk String) :
    Except (Option RuntimeComponentGraphError) (Walk String) :=
  (seekCycle self.dependenciesOf fuel componentName walk).mapError fun failure =>
    failure.map fun cycle => .cycle (" -> ".intercalate cycle)

def validateWith (fuel : ℕ) : Except (Option RuntimeComponentGraphError) Unit := do
  self.components.forM fun component => component.dependencies.forM fun dependency =>
    refuse ((self.descriptorByName dependency).isNone = true)
      (some (.missingDependency component.name dependency))
  let _ ← self.components.foldlM
    (fun walk component => self.validateComponentDependencies fuel component.name walk) ⟨[], []⟩
  return ()

def validate : Except (Option RuntimeComponentGraphError) Unit :=
  self.validateWith (self.components.length + 1)

/-- One component names another as a dependency. -/
def Requires (name dependency : String) : Prop := dependency ∈ self.dependenciesOf name

lemma descriptorByName_isNone_iff {n : String} :
    (self.descriptorByName n).isNone = true ↔ ∀ c ∈ self.components, c.name ≠ n := by
  simp [descriptorByName]

def names : List String := self.components.map RuntimeComponentDescriptor.name

lemma mem_names_of_requires {n d : String} (h : self.Requires n d) :
    ∃ c ∈ self.components, c.name = n ∧ d ∈ c.dependencies := by
  cases hfound : self.descriptorByName n with
  | none => simp [Requires, dependenciesOf, hfound] at h
  | some c =>
    rw [Requires, dependenciesOf, hfound] at h
    have hname := hfound
    have hname := find?_some hname
    exact ⟨c, mem_reverse.mp (mem_of_find?_eq_some hfound), eq_of_beq hname, h⟩

/-- Every dependency that is named is registered. -/
def Complete : Prop :=
  ∀ component ∈ self.components, ∀ dependency ∈ component.dependencies,
    ∃ other ∈ self.components, other.name = dependency

/-- **The search from every component** ends with what it was to finish, or with a cycle. -/
lemma sought_names {fuel : ℕ} (hc : self.Complete) (hf : self.components.length < fuel) :
    Walk.Sought ⟨[], []⟩ self.dependenciesOf False self.names
      (self.names.foldlM (fun walk name => seekCycle self.dependenciesOf fuel name walk) ⟨[], []⟩) := by
  refine sought_foldlM (forall_mem_nil _) fun name hn walk hw hs => ?_
  have hclos : ∀ node ∈ self.names.toFinset, ∀ child ∈ self.dependenciesOf node,
      child ∈ self.names.toFinset := by
    intro node _ child hch
    obtain ⟨component, hm, -, hd⟩ := self.mem_names_of_requires hch
    obtain ⟨other, ho, rfl⟩ := hc component hm child hd
    exact mem_toFinset.mpr (mem_map_of_mem ho)
  have hunentered : unentered self.names.toFinset walk < fuel := by
    refine lt_of_le_of_lt ((Finset.card_filter_le _ _).trans (toFinset_card_le _)) ?_
    rwa [names, length_map]
  have hpath : (name :: walk.visiting).IsChain fun child node => child ∈ self.dependenciesOf node := by
    rw [hw]
    exact isChain_singleton name
  have hfail : (fuel ≤ unentered self.names.toFinset walk) = False := eq_false (not_le.mpr hunentered)
  rw [← hfail]
  exact seekCycle_sought hclos (mem_toFinset.mpr hn) hpath hs

lemma validateWith_eq (f : ℕ) : self.validateWith f = (do
    self.components.forM fun c => c.dependencies.forM fun d =>
      refuse ((self.descriptorByName d).isNone = true) (some (.missingDependency c.name d))
    (self.names.foldlM (fun w n => seekCycle self.dependenciesOf f n w) ⟨[], []⟩).map
      (fun _ => ()) |>.mapError fun fl => fl.map fun cy => .cycle (" -> ".intercalate cy)) := by
  rw [validateWith, names, foldlM_map]
  simp only [validateComponentDependencies]
  rw [foldlM_mapError]
  congr 1
  cases self.components.foldlM (fun w c => seekCycle self.dependenciesOf f c.name w) ⟨[], []⟩ <;> rfl

/-- What validation comes to: every dependency is registered and no component requires itself, or a dependency
is missing, or there is a cycle. -/
lemma validateWith_cases {f : ℕ} (hfl : self.components.length < f) :
    (self.validateWith f = .ok () ∧ self.Complete ∧ ∀ n, ¬ Relation.TransGen self.Requires n n) ∨
    (∃ c ∈ self.components, ∃ d ∈ c.dependencies, (∀ o ∈ self.components, o.name ≠ d) ∧
        self.validateWith f = .error (some (.missingDependency c.name d))) ∨
    ∃ first m, (first :: m ++ [first]).IsChain self.Requires ∧
      self.validateWith f = .error (some (.cycle (" -> ".intercalate (first :: m ++ [first])))) := by
  rw [validateWith_eq]
  cases hm : self.components.forM fun c => c.dependencies.forM fun d =>
      refuse ((self.descriptorByName d).isNone = true)
        (some (RuntimeComponentGraphError.missingDependency c.name d)) with
  | error e =>
    obtain ⟨c, hc, hm⟩ := exists_error_of_forM hm
    obtain ⟨d, hd, hm⟩ := exists_error_of_forM hm
    obtain ⟨hn, rfl⟩ := refuse_eq_error.mp hm
    exact .inr (.inl ⟨c, hc, d, hd, self.descriptorByName_isNone_iff.mp hn, rfl⟩)
  | ok dn =>
    have hcompl : self.Complete := by
      intro c hc d hd
      have hf := except_forM_eq_ok.mp (except_forM_eq_ok.mp hm c hc) d hd
      rw [refuse_eq_ok, descriptorByName_isNone_iff] at hf
      simpa using hf
    have hsought := self.sought_names hcompl hfl
    cases hres : self.names.foldlM (fun w n => seekCycle self.dependenciesOf f n w) ⟨[], []⟩ with
    | ok l =>
      rw [hres] at hsought
      obtain ⟨-, -, hf, hs⟩ := hsought
      refine .inl ⟨rfl, hcompl, fun n hcy => ?_⟩
      obtain ⟨d, hr, -⟩ := Relation.TransGen.head'_iff.mp hcy
      obtain ⟨c, hmm, rfl, -⟩ := self.mem_names_of_requires hr
      exact (hs _ (hf _ (mem_map_of_mem hmm))).not_transGen hcy
    | error fl =>
      rw [hres] at hsought
      cases fl with
      | none => exact hsought.elim
      | some cy =>
        obtain ⟨first, m, rfl, hch⟩ := hsought
        exact .inr (.inr ⟨first, m, hch, rfl⟩)

/-- **The graph of the components**: validation ends whatever the graph is like, it succeeds exactly if every
dependency is registered and no component requires itself, and what it reports is there. -/
theorem validate_spec : (∀ fuel, self.components.length < fuel → self.validateWith fuel ≠ .error none) ∧
    (self.validate = .ok () ↔ self.Complete ∧ ∀ name, ¬ Relation.TransGen self.Requires name name) ∧
    (∀ component dependency, self.validate = .error (some (.missingDependency component dependency)) →
      (∃ found ∈ self.components, found.name = component ∧ dependency ∈ found.dependencies) ∧
        ∀ other ∈ self.components, other.name ≠ dependency) ∧
    ∀ cycle, self.validate = .error (some (.cycle cycle)) → ∃ first middle,
      cycle = " -> ".intercalate (first :: middle ++ [first]) ∧
        (first :: middle ++ [first]).IsChain self.Requires := by
  have hvalidate := self.validateWith_cases (Nat.lt_succ_self _)
  refine ⟨fun fuel hf h => ?_, ⟨fun h => ?_, ?_⟩, fun component dependency h => ?_, fun cycle h => ?_⟩
  · rcases self.validateWith_cases hf with ⟨h', -⟩ | ⟨_, -, _, -, -, h'⟩ | ⟨_, _, -, h'⟩ <;>
      cases h.symm.trans h'
  · rcases hvalidate with ⟨-, hg⟩ | ⟨_, -, _, -, -, h'⟩ | ⟨_, _, -, h'⟩
    · exact hg
    · cases h.symm.trans h'
    · cases h.symm.trans h'
  · rintro ⟨hcm, ha⟩
    rcases hvalidate with ⟨h, -⟩ | ⟨component, hm, dependency, hd, hn, -⟩ | ⟨first, _, hc, -⟩
    · exact h
    · obtain ⟨other, ho, hnm⟩ := hcm component hm dependency hd
      exact absurd hnm (hn other ho)
    · exact absurd (transGen_of_isChain hc) (ha first)
  · rcases hvalidate with ⟨h', -⟩ | ⟨found, hm, _, hd, hn, h'⟩ | ⟨_, _, -, h'⟩
    · cases h.symm.trans h'
    · cases h.symm.trans h'
      exact ⟨⟨found, hm, rfl, hd⟩, hn⟩
    · cases h.symm.trans h'
  · rcases hvalidate with ⟨h', -⟩ | ⟨_, -, _, -, -, h'⟩ | ⟨first, middle, hc, h'⟩
    · cases h.symm.trans h'
    · cases h.symm.trans h'
    · cases h.symm.trans h'
      exact ⟨first, middle, rfl, hc⟩

end RuntimeComponentRegistry

end AsterForge.Runtime
