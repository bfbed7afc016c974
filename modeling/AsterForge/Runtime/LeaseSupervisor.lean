import AsterForge.Library.Runs
import AsterForge.Runtime.Lease

/-!
# Supervisors of runtime leases

Each process runs its workload while it holds the lease, and renews the lease in time.  Clocks agree, the
store answers at once, timers are exact and a workload stops at once; what is left is the settings.

* **`runtimeLease_exclusive_iff`** — two workloads of one lease never run together exactly if the settings of
  their supervisors let the lease outlast the interval after which it is renewed.
-/

namespace AsterForge.Runtime

open Library Function Option

/-! ## Supervisors -/

/-- Where a supervisor is: not started; before an acquisition; asleep until it retries; running its workload
and asleep until it renews; returned. -/
inductive SupervisorPhase
  | notStarted
  | acquiring
  | standby (wakeAt : ℤ)
  | leading (renewAt : ℤ)
  | returned

/-- Timers are exact, so that time does not pass beyond one, and what does not wait does not take time. -/
def SupervisorPhase.Until (instant : ℤ) : SupervisorPhase → Prop
  | .notStarted | .returned => True
  | .acquiring => False
  | .standby wakeAt => instant ≤ wakeAt
  | .leading renewAt => instant ≤ renewAt

variable {ι : Type} [DecidableEq ι]

/-- Supervisors with the clock and the store that they share. -/
structure Supervised (ι : Type) where
  clock : ℤ
  register : LeaseRegister
  phase : ι → SupervisorPhase
  shutdownToken : ι → Bool

def Supervised.go (s : Supervised ι) (i : ι) (phase : SupervisorPhase) (register : LeaseRegister) :
    Supervised ι :=
  { s with phase := update s.phase i phase, register := register }

/-- Before any supervisor starts; leases may be left over from others. -/
def Supervised.Initial (s : Supervised ι) : Prop :=
  minUtc ≤ s.clock ∧ s.clock < maxUtc ∧ (∀ i, s.phase i = .notStarted) ∧ ∀ i, s.shutdownToken i = false

def Supervised.Running (s : Supervised ι) (i : ι) : Prop := ∃ renewAt, s.phase i = .leading renewAt

inductive SupervisorEvent (ι : Type)
  | passed (duration : ℕ)
  | shutdown (i : ι)
  | started (i : ι)
  | returned (i : ι)
  | acquired (i : ι)
  | standby (i : ι) (owner : Option RuntimeLeaseOwner)
  | acquisitionFailed (i : ι)
  | woke (i : ι)
  | renewed (i : ι)
  | ownershipLost (i : ι)
  | renewalFailed (i : ι)
  | stopped (i : ι)

/-- A store operation that fails has done nothing, or what it was asked for. -/
def FailedWith (register : LeaseRegister) (op : LeaseOp) (register' : LeaseRegister) : Prop :=
  register' = register ∨ register.Step op register'

variable (floats : FloatQuotients) (config : ι → RuntimeLeaseConfig)

def RuntimeLeaseConfig.claim (config : RuntimeLeaseConfig) (now : ℤ) : RuntimeLeaseClaim :=
  ⟨config.leaseId, config.ownerId, now, config.expiresAt now⟩

/-- The loop of `run_runtime_lease_supervisor` and, while the workload runs, the one of
`run_owned_runtime_lease`.  The shutdown is looked at first. -/
inductive SupervisorStep : Supervised ι → SupervisorEvent ι → Supervised ι → Prop
  | passed {s : Supervised ι} (duration : ℕ) (representable : s.clock + duration < maxUtc)
      (timers : ∀ i, (s.phase i).Until (s.clock + duration)) :
      SupervisorStep s (.passed duration) { s with clock := s.clock + duration }
  | shutdown {s : Supervised ι} (i : ι) :
      SupervisorStep s (.shutdown i) { s with shutdownToken := update s.shutdownToken i true }
  | started {s : Supervised ι} {i : ι} (fresh : s.phase i = .notStarted) :
      SupervisorStep s (.started i) (s.go i .acquiring s.register)
  | returned {s : Supervised ι} {i : ι} (loop : s.phase i = .acquiring)
      (cancelled : s.shutdownToken i = true) : SupervisorStep s (.returned i) (s.go i .returned s.register)
  | acquired {s : Supervised ι} {i : ι} {register : LeaseRegister} (loop : s.phase i = .acquiring)
      (active : s.shutdownToken i = false)
      (store : s.register.Step (.grant ((config i).claim s.clock)) register) :
      SupervisorStep s (.acquired i)
        (s.go i (.leading (s.clock + (config i).effectiveRenewInterval floats)) register)
  | standby {s : Supervised ι} {i : ι} {owner : Option RuntimeLeaseOwner} {register : LeaseRegister}
      (loop : s.phase i = .acquiring) (active : s.shutdownToken i = false)
      (store : s.register.Step (.refuse (config i).leaseId owner) register) :
      SupervisorStep s (.standby i owner)
        (s.go i (.standby (s.clock + (config i).effectiveStandbyRetryInterval)) register)
  | acquisitionFailed {s : Supervised ι} {i : ι} {register : LeaseRegister}
      (loop : s.phase i = .acquiring) (active : s.shutdownToken i = false)
      (store : FailedWith s.register (.grant ((config i).claim s.clock)) register) :
      SupervisorStep s (.acquisitionFailed i)
        (s.go i (.standby (s.clock + (config i).effectiveStandbyRetryInterval)) register)
  | woke {s : Supervised ι} {i : ι} {wakeAt : ℤ} (asleep : s.phase i = .standby wakeAt)
      (wakes : s.clock = wakeAt ∨ s.shutdownToken i = true) :
      SupervisorStep s (.woke i) (s.go i .acquiring s.register)
  | renewed {s : Supervised ι} {i : ι} {register : LeaseRegister} (leading : s.phase i = .leading s.clock)
      (active : s.shutdownToken i = false)
      (store : s.register.Step
        (.renew (config i).leaseId (config i).ownerId ((config i).expiresAt s.clock)) register) :
      SupervisorStep s (.renewed i)
        (s.go i (.leading (s.clock + (config i).effectiveRenewInterval floats)) register)
  | ownershipLost {s : Supervised ι} {i : ι} {register : LeaseRegister}
      (leading : s.phase i = .leading s.clock) (active : s.shutdownToken i = false)
      (store : s.register.Step (.refuseRenewal (config i).leaseId (config i).ownerId) register) :
      SupervisorStep s (.ownershipLost i) (s.go i .acquiring register)
  | renewalFailed {s : Supervised ι} {i : ι} {register : LeaseRegister}
      (leading : s.phase i = .leading s.clock) (active : s.shutdownToken i = false)
      (store : FailedWith s.register
        (.renew (config i).leaseId (config i).ownerId ((config i).expiresAt s.clock)) register) :
      SupervisorStep s (.renewalFailed i) (s.go i .acquiring register)
  | stopped {s : Supervised ι} {i : ι} {renewAt : ℤ} {op : LeaseOp} {register : LeaseRegister}
      (leading : s.phase i = .leading renewAt) (cancelled : s.shutdownToken i = true)
      (release : op = .release (config i).leaseId (config i).ownerId ∨
        op = .ignoreRelease (config i).leaseId (config i).ownerId)
      (store : FailedWith s.register op register) :
      SupervisorStep s (.stopped i) (s.go i .acquiring register)

/-- No two workloads of one lease run. -/
def Exclusive (s : Supervised ι) : Prop :=
  ∀ i j, i ≠ j → (config i).leaseId = (config j).leaseId → ¬ (s.Running i ∧ s.Running j)

/-! ## What a step can do -/

variable {floats config} {s t : Supervised ι} {e : SupervisorEvent ι} {i j : ι}

section

variable (p : SupervisorPhase) (r : LeaseRegister)
include p r

@[simp] lemma go_phase_self : (s.go i p r).phase i = p :=
  update_self ..

lemma go_phase_of_ne (hne : j ≠ i) : (s.go i p r).phase j = s.phase j :=
  update_of_ne hne ..

end

/-- The store as a supervisor leaves it: as it was, or after an operation on behalf of that supervisor, whose
claims are made at this instant. -/
def LeftBy (config : RuntimeLeaseConfig) (clock : ℤ) (register register' : LeaseRegister) : Prop :=
  register' = register ∨ ∃ op, register.Step op register' ∧ op.TakenAt clock ∧
    ∀ ownerId, op.ownerId = some ownerId → ownerId = config.ownerId

/-- A lease as its holder has written it at this instant, with the instant at which it will be renewed. -/
def FreshlyHeld (floats : FloatQuotients) (config : RuntimeLeaseConfig) (clock : ℤ) (register : LeaseRegister)
    (renewAt : ℤ) : Prop :=
  register config.leaseId = some ⟨config.ownerId, config.expiresAt clock⟩ ∧
    renewAt = clock + config.effectiveRenewInterval floats

/-- A step is the passing of time, a shutdown, or a supervisor that goes on: it leaves the leases of others
alone unless they are expired, and leads only with a lease just written. -/
theorem supervisorStep_cases (hs : SupervisorStep floats config s e t) :
    (∃ d : ℕ, s.clock + d < maxUtc ∧ (∀ i, (s.phase i).Until (s.clock + d)) ∧
      t = { s with clock := s.clock + d }) ∨
    (∃ tk, t = { s with shutdownToken := tk }) ∨
    ∃ i phase register, t = s.go i phase register ∧ LeftBy (config i) s.clock s.register register ∧
      ∀ ra, phase = .leading ra → FreshlyHeld floats (config i) s.clock register ra := by
  have hgrant : ∀ i register, s.register.Step (.grant ((config i).claim s.clock)) register →
      LeftBy (config i) s.clock s.register register := by
    intro i register st
    refine .inr ⟨_, st, ?_, fun oi ho => (some.inj ho).symm⟩
    rintro cl ⟨⟩
    rfl
  have hrenew : ∀ i register, s.register.Step
      (.renew (config i).leaseId (config i).ownerId ((config i).expiresAt s.clock)) register →
      LeftBy (config i) s.clock s.register register := by
    intro i register st
    exact .inr ⟨_, st, nofun, fun oi ho => (some.inj ho).symm⟩
  cases hs with
  | passed d r tm => exact .inl ⟨d, r, tm, rfl⟩
  | shutdown i => exact .inr (.inl ⟨_, rfl⟩)
  | started fresh | returned lp c => exact .inr (.inr ⟨_, _, _, rfl, .inl rfl, nofun⟩)
  | acquired lp a st =>
    refine .inr (.inr ⟨_, _, _, rfl, hgrant _ _ st, ?_⟩)
    rintro ra ⟨⟩
    refine ⟨?_, rfl⟩
    cases st with
    | grant cl f => exact update_self ..
  | standby lp a st =>
    exact .inr (.inr ⟨_, _, _, rfl, .inr ⟨_, st, nofun, nofun⟩, nofun⟩)
  | acquisitionFailed lp a st =>
    exact .inr (.inr ⟨_, _, _, rfl, st.elim .inl (hgrant _ _), nofun⟩)
  | woke al w => exact .inr (.inr ⟨_, _, _, rfl, .inl rfl, nofun⟩)
  | renewed l a st =>
    refine .inr (.inr ⟨_, _, _, rfl, hrenew _ _ st, ?_⟩)
    rintro ra ⟨⟩
    refine ⟨?_, rfl⟩
    cases st with
    | renew h ea => exact update_self ..
  | ownershipLost l a st =>
    exact .inr (.inr ⟨_, _, _, rfl, .inr ⟨_, st, nofun, fun oi ho => (some.inj ho).symm⟩, nofun⟩)
  | renewalFailed l a st =>
    exact .inr (.inr ⟨_, _, _, rfl, st.elim .inl (hrenew _ _), nofun⟩)
  | stopped l c rl st =>
    refine .inr (.inr ⟨_, _, _, rfl, st.imp_right fun st => ?_, nofun⟩)
    obtain rfl | rfl := rl
    · exact ⟨_, st, nofun, fun oi ho => (some.inj ho).symm⟩
    · exact ⟨_, st, nofun, fun oi ho => (some.inj ho).symm⟩

/-! ## The invariant -/

/-- A lease that is not taken over before it is renewed: it is written for its holder, is not yet due to be
renewed, and expires after that. -/
def Secured (config : RuntimeLeaseConfig) (clock : ℤ) (register : LeaseRegister) (renewAt : ℤ) : Prop :=
  clock ≤ renewAt ∧ ∃ expiresAt, register config.leaseId = some ⟨config.ownerId, expiresAt⟩ ∧
    ∀ instant, instant ≤ renewAt → instant < maxUtc → instant < expiresAt

/-- What is true of every reachable state. -/
structure SupervisedInv (config : ι → RuntimeLeaseConfig) (s : Supervised ι) : Prop where
  start : minUtc ≤ s.clock
  last : s.clock < maxUtc
  secured : ∀ i renewAt, (config i).Outlasts → s.phase i = .leading renewAt →
    Secured (config i) s.clock s.register renewAt

lemma FreshlyHeld.secured {cn : RuntimeLeaseConfig} {c ra : ℤ} {register : LeaseRegister}
    (h : FreshlyHeld floats cn c register ra) (hs : minUtc ≤ c) (hl : cn.Outlasts) : Secured cn c register ra := by
  obtain ⟨hh, rfl⟩ := h
  have hlt := (cn.effectiveRenewInterval_lt_iff floats).mpr hl
  refine ⟨by omega, cn.expiresAt c, hh, ?_⟩
  intro it hd hls
  exact lt_saturatingAdd hs hls (by omega)

lemma Secured.of_leftBy {cn o : RuntimeLeaseConfig} {c ra : ℤ}
    {register r' : LeaseRegister} (h : Secured cn c register ra)
    (hl : c < maxUtc) (hne : cn.ownerId ≠ o.ownerId) (hlf : LeftBy o c register r') : Secured cn c r' ra := by
  obtain rfl | ⟨op, hs, hn, ho⟩ := hlf
  · exact h
  · obtain ⟨hd, ea, hh, he⟩ := h
    refine ⟨hd, ea, ?_, he⟩
    exact hs.keeps hn hh (he c hd hl) fun h => hne (ho _ h)

/-- **One step** keeps the invariant. -/
theorem SupervisedInv.step (hd : Function.Injective fun i => (config i).ownerId)
    (hi : SupervisedInv config s) (hst : SupervisorStep floats config s e t) : SupervisedInv config t := by
  obtain ⟨d, hlt, ht, rfl⟩ | ⟨tk, rfl⟩ | ⟨i, phase, register, rfl, hlf, hf⟩ :=
    supervisorStep_cases hst
  · refine ⟨?_, hlt, ?_⟩
    · have hstart := hi.start
      dsimp only
      omega
    · intro i ra hls hl
      obtain ⟨-, hs⟩ := hi.secured i ra hls hl
      have hdue := ht i
      rw [hl] at hdue
      exact ⟨hdue, hs⟩
  · exact { hi with }
  · refine ⟨hi.start, hi.last, ?_⟩
    intro j ra hls hl
    by_cases hsame : j = i
    · subst hsame
      rw [go_phase_self] at hl
      exact (hf ra hl).secured hi.start hls
    · rw [go_phase_of_ne _ _ hsame] at hl
      exact (hi.secured j ra hls hl).of_leftBy hi.last (fun ho => hsame (hd ho)) hlf

omit [DecidableEq ι] in
lemma SupervisedInv.of_initial (h : s.Initial) : SupervisedInv config s := by
  obtain ⟨hs, hls, hf, -⟩ := h
  refine ⟨hs, hls, ?_⟩
  intro i ra _ hl
  rw [hf i] at hl
  cases hl

omit [DecidableEq ι] in
/-- Two workloads of one lease do not run together where both leases outlast their intervals: each would be
the holder. -/
lemma SupervisedInv.exclusive (hd : Function.Injective fun i => (config i).ownerId) (hi : SupervisedInv config s)
    (hls : ∀ i j, i ≠ j → (config i).leaseId = (config j).leaseId → (config i).Outlasts) : Exclusive config s := by
  rintro i j hne hl ⟨⟨ra, hld⟩, ra', hld'⟩
  obtain ⟨-, ea, hh, -⟩ := hi.secured i ra (hls i j hne hl) hld
  obtain ⟨-, ea', hh', -⟩ := hi.secured j ra' (hls j i hne.symm hl.symm) hld'
  rw [hl, hh'] at hh
  obtain ⟨ho, -⟩ := RuntimeLeaseOwner.mk.inj (some.inj hh)
  exact hne (hd ho.symm)

/-! ## Where the settings do not let the lease last -/

/-- **Two workloads run together** where the lease of the first does not outlast its interval: the second
supervisor starts when the lease expires, while the first is still asleep. -/
theorem overlap_reachable (hne : i ≠ j) (hl : (config i).leaseId = (config j).leaseId)
    (hs : ¬ (config i).Outlasts) :
    ∃ s, Reachable Supervised.Initial (SupervisorStep floats config) s ∧ s.Running i ∧ s.Running j := by
  have hinterval : (config i).effectiveTtl ≤ (config i).effectiveRenewInterval floats :=
    not_lt.mp fun hlt => hs (((config i).effectiveRenewInterval_lt_iff floats).mp hlt)
  have hsnd := (config i).effectiveTtl_le_of_not_outlasts hs
  have hend : (second : ℤ) < maxUtc := by decide
  have hzero : minUtc ≤ 0 ∧ 0 < maxUtc := by decide
  let start : Supervised ι := ⟨0, fun _ => none, fun _ => .notStarted, fun _ => false⟩
  let starting := start.go i .acquiring start.register
  let leading := starting.go i (.leading (0 + (config i).effectiveRenewInterval floats))
    (update start.register (config i).leaseId (some ⟨(config i).ownerId, (config i).expiresAt 0⟩))
  let expired : Supervised ι := { leading with clock := 0 + (config i).effectiveTtl }
  let startingToo := expired.go j .acquiring expired.register
  let leadingToo := startingToo.go j (.leading (startingToo.clock + (config j).effectiveRenewInterval floats))
    (update startingToo.register (config j).leaseId
      (some ⟨(config j).ownerId, (config j).expiresAt startingToo.clock⟩))
  have hacquired : SupervisorStep floats config starting (.acquired i) leading := by
    refine .acquired (go_phase_self _ _) rfl (.grant _ ?_)
    exact nofun
  have hpassed : SupervisorStep floats config leading (.passed (config i).effectiveTtl) expired := by
    refine .passed _ ?_ ?_
    · change (0 : ℤ) + (config i).effectiveTtl < maxUtc
      omega
    · intro k
      change (leading.phase k).Until (0 + (config i).effectiveTtl)
      by_cases hk : k = i
      · rw [hk, go_phase_self, SupervisorPhase.Until]
        omega
      · rw [go_phase_of_ne _ _ hk, go_phase_of_ne _ _ hk]
        trivial
  have hstart : SupervisorStep floats config expired (.started j) startingToo := by
    refine .started ?_
    rw [go_phase_of_ne _ _ hne.symm, go_phase_of_ne _ _ hne.symm]
  have hacquiredToo : SupervisorStep floats config startingToo (.acquired j) leadingToo := by
    refine .acquired (go_phase_self _ _) rfl (.grant _ ?_)
    intro holder hh
    refine .inr ?_
    have hexp := (config i).expiresAt_le 0
    replace hh : update start.register (config i).leaseId
      (some ⟨(config i).ownerId, (config i).expiresAt 0⟩) (config j).leaseId = some holder := hh
    rw [hl, update_self] at hh
    cases hh
    exact hexp
  have hrun : Run (SupervisorStep floats config) start _ leadingToo :=
    .cons (.started rfl) <| .cons hacquired <| .cons hpassed <| .cons hstart <| .cons hacquiredToo <| .nil _
  refine ⟨leadingToo, ⟨start, _, ⟨hzero.1, hzero.2, fun _ => rfl, fun _ => rfl⟩, hrun⟩,
    ⟨0 + (config i).effectiveRenewInterval floats, ?_⟩, _, go_phase_self _ _⟩
  rw [go_phase_of_ne _ _ hne, go_phase_of_ne _ _ hne]
  change leading.phase i = _
  exact go_phase_self _ _

/-- **Runtime lease exclusion.**  With a shared clock, an atomic store, exact timers and workloads that stop
at once, two workloads of one lease never run together, whatever their supervisors do, exactly if for every
two supervisors of a lease the lease outlasts the interval of each: its length is the default one or more
than a second, or there is an interval and it is shorter. -/
theorem runtimeLease_exclusive_iff (hdistinct : Function.Injective fun i => (config i).ownerId) :
    (∀ s, Reachable Supervised.Initial (SupervisorStep floats config) s → Exclusive config s) ↔
      ∀ i j, i ≠ j → (config i).leaseId = (config j).leaseId → (config i).Outlasts := by
  constructor
  · intro he i j hne hl
    by_contra hshort
    obtain ⟨s, hr, hb⟩ := @overlap_reachable _ _ floats _ _ _ hne hl hshort
    exact he s hr i j hne hl hb
  · intro hls s hr
    have hi : SupervisedInv config s :=
      hr.induction (fun _ => .of_initial) fun _ _ _ _ hi hs => hi.step hdistinct hs
    exact hi.exclusive hdistinct hls

/-- Two processes of one lease that say nothing but a length of two seconds. -/
theorem runtimeLease_exclusive_two_seconds :
    let config : Fin 2 → RuntimeLeaseConfig := fun i => ⟨[], [Char.ofNat i], 2 * second, 0, 0⟩
    ∀ s, Reachable Supervised.Initial (SupervisorStep .nearest config) s → Exclusive config s := by
  intro config
  have hdist : Function.Injective fun i => (config i).ownerId := by
    intro i j h
    revert i j
    decide
  have hlong : second < 2 * second := by decide
  exact (runtimeLease_exclusive_iff hdist).mpr fun i j _ _ => .inr (.inl hlong)

/-- **Two workloads that run together**: a lease of half a second, of which the interval is to be a part, is
renewed after a second. -/
theorem runtimeLease_overlap :
    let config : Fin 2 → RuntimeLeaseConfig := fun i =>
      ⟨"test.background".toList, [Char.ofNat i], 500000000, 0, 0⟩
    ¬ ∀ s, Reachable Supervised.Initial (SupervisorStep .nearest config) s → Exclusive config s := by
  intro config he
  have hshort : ¬ (config 0).Outlasts := by
    unfold RuntimeLeaseConfig.Outlasts
    decide
  obtain ⟨s, hr, hb⟩ := @overlap_reachable _ _ .nearest config 0 1 (by decide) rfl hshort
  exact he s hr 0 1 (by decide) rfl hb

end AsterForge.Runtime
