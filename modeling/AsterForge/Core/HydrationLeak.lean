import AsterForge.Core.HydrationExactness

/-!
# What the coordinator's state promises, and the one request that breaks it

`CoordinatorInvariant` is the promise of the coordinator's state in its own terms: the content index
holds exactly the works, every work has waiters and counts them, ranged works of one content are
disjoint, and the limits hold.

* **`coordinatorInvariant_of_reachable`** — it holds in every run in which no request runs out of work
  identities part-way; and there a failing request leaves both indices as they were exactly when it does
  not run out part-way itself.
* **`coordinatorInvariant_fails`** — after `2 ^ 64 - 3` works, a range request with two gaps leaves the
  first behind with a waiter count of zero.
-/

namespace AsterForge.Core

open Library Hydration CoordinatorState List

def worksOf (state : CoordinatorState) (content : HydrationContentKey) : ℕ :=
  (state.work.entries.filter fun slot => slot.2.content == content).length

structure CoordinatorInvariant (limits : HydrationLimits) (system : Hydration) : Prop where
  index_exact : ∀ content slot, slot ∈ system.coordinator.index content ↔
    ∃ id entry, system.coordinator.work.lookup id = some entry ∧ entry.content = content ∧
      slot = workIndexKey entry.start entry.stop id
  no_empty_set : ∀ content index,
    system.coordinator.byContent.lookup content = some index → index.isEmpty = false
  waiters_counted : ∀ id entry, system.coordinator.work.lookup id = some entry →
    0 < entry.waiterCount ∧ entry.waiterCount = holders system.waiters id
  ranges_disjoint : ∀ id entry id' other, system.coordinator.work.lookup id = some entry →
    system.coordinator.work.lookup id' = some other → entry.content = other.content →
    entry.whole = false → entry.start < entry.stop →
    other.whole = false → other.start < other.stop → id ≠ id' →
    entry.stop ≤ other.start ∨ other.stop ≤ entry.start
  global_le : mapSize system.coordinator.work ≤ limits.maxInFlightWork
  content_le : ∀ content, worksOf system.coordinator content ≤ limits.maxInFlightPerContent

variable {limits : HydrationLimits}

lemma Consistent.worksOf_le {s : CoordinatorState} (h : Consistent limits s)
    (c : HydrationContentKey) : worksOf s c ≤ (s.index c).size := by
  set slots := (s.work.entries.filter fun sl => sl.2.content == c).map
    fun sl => workIndexKey sl.2.start sl.2.stop sl.1 with hslots
  have hkeys : (s.work.entries.map Sigma.fst).Nodup := s.work.nodupKeys
  have hents : s.work.entries.Nodup := hkeys.of_map
  have hnodup : slots.Nodup := by
    refine (hents.filter _).map_on fun a ha b hb heq => ?_
    have hfst : a.1 = b.1 := (workIndexKey_inj.mp heq).2.2
    exact inj_on_of_nodup_map hkeys (mem_of_mem_filter ha) (mem_of_mem_filter hb) hfst
  have hlen : worksOf s c = slots.length := by simp [hslots, worksOf]
  rw [hlen]
  refine hnodup.length_le_of_subset fun sl hs => ?_
  obtain ⟨⟨id, e⟩, hm, rfl⟩ := mem_map.mp hs
  simp only [mem_filter, beq_iff_eq] at hm
  exact h.index_iff.mpr ⟨id, e, AList.mem_lookup_iff.mpr hm.1, hm.2, rfl⟩

lemma HydrationInvariant.coordinator {s : Hydration} (h : HydrationInvariant limits s)
    (hp : EveryWorkHeld s) : CoordinatorInvariant limits s where
  index_exact := fun _ _ => h.consistent.index_iff
  no_empty_set := fun _ _ hl => h.consistent.index_nonempty hl
  waiters_counted := fun id e hl => ⟨hp id e hl, h.count_eq id e hl⟩
  ranges_disjoint := fun _ _ _ _ ha hb hc haw har hbw hbr hne =>
    h.consistent.apart ha hb hc ⟨haw, har⟩ ⟨hbw, hbr⟩ hne
  global_le := h.consistent.global_le
  content_le := fun c => (h.consistent.worksOf_le c).trans (h.consistent.content_le c)

/-- The states of the runs in which no request runs out of identities part-way. -/
def ReachableWithIds (limits : HydrationLimits) (system : Hydration) : Prop :=
  Reachable (fun s => s = Hydration.initial) (Guarded (IdsSuffice limits) (Hydration.Step limits)) system

lemma ReachableWithIds.every {s : Hydration} (h : ReachableWithIds limits s) :
    HydrationInvariant limits s ∧ EveryWorkHeld s := by
  refine Reachable.induction (I := fun s => HydrationInvariant limits s ∧ EveryWorkHeld s) ?_ ?_ h
  · rintro _ rfl
    exact ⟨invariant_initial, by simp [EveryWorkHeld, initial, empty]⟩
  · rintro _ _ _ - ⟨hi, hp⟩ ⟨hid, hs⟩
    exact ⟨invariant_step hi hs, positive_step hi hp hid hs⟩

/-- **The coordinator keeps its promise** in every run in which no request runs out of work
identities part-way, and there a failing request leaves both indices exactly as they were if and
only if it does not run out part-way itself. -/
theorem coordinatorInvariant_of_reachable {system : Hydration} (h : ReachableWithIds limits system) :
    CoordinatorInvariant limits system ∧
      ∀ read error, (request limits system.coordinator read).1 = .error error →
        (((request limits system.coordinator read).2.work = system.coordinator.work ∧
            (request limits system.coordinator read).2.byContent = system.coordinator.byContent) ↔
          runsOutPartWay limits system.coordinator read = false) := by
  obtain ⟨hi, hp⟩ := h.every
  refine ⟨hi.coordinator hp, fun read error he => ⟨fun hs => ?_, fun hid => ?_⟩⟩
  · -- the identity that was next would be in use before the request
    refine Bool.eq_false_iff.mpr fun hid => ?_
    obtain ⟨-, e, hl, -⟩ := request_runsOut hi.consistent hid
    rw [hs.1, hi.consistent.lookup_fresh le_rfl] at hl
    cases hl
  · rw [request_error hi.consistent hid he]
    exact ⟨rfl, rfl⟩

/-- Four reads of a file: one needs a gap on either side of another, one is cancelled and gives its work back,
and one is complete. -/
def fourReads : List HydrationLabel :=
  overlappingReads.take 2 ++ [.request (smallFileRead .whole), .request (smallFileRead .whole)] ++
    overlappingReads.drop 2 ++ [.cancel 2, .release 2]

/-- The promise after reads with gaps, a completion and a cancellation: only the whole read is left. -/
theorem coordinatorInvariant_fourReads :
    ∃ system, Run (Hydration.Step .default) initial fourReads system ∧
      system.waiters.map Waiter.terminal = [.pending, .completed, .cancelled, .pending] ∧
      CoordinatorInvariant .default system := by
  have hrun : ((execute (restricted (fun s label => match label with
      | .request read => !runsOutPartWay .default s.coordinator read
      | _ => true) (Hydration.step .default)) initial fourReads).map fun system =>
        system.waiters.map Waiter.terminal) = some [.pending, .completed, .cancelled, .pending] := by
    decide
  obtain ⟨system, hs, hw⟩ := Option.map_eq_some_iff.mp hrun
  have hguarded := run_of_execute_restricted (g := IdsSuffice .default) (fun s label hp read hl => by
    subst hl
    simpa using hp) hs
  exact ⟨system, hguarded.mono fun _ _ _ h => h.2, hw,
    (coordinatorInvariant_of_reachable ⟨_, _, rfl, hguarded⟩).1⟩

/-! ## The request that leaks -/

def middleRead : HydrationRequest := smallFileRead (.range middleRange)

def leakContent : HydrationContentKey := .fromRequest (smallFileRead .whole)

def burnedEntry (id waiterCount : ℕ) : WorkEntry :=
  ⟨leakContent, 0, 12, true, ⟨id, (smallFileRead .whole).read⟩, waiterCount⟩

/-- The coordinator while a whole read holds the identity `n`. -/
def burning (n : ℕ) : CoordinatorState := (CoordinatorState.mk n ∅ ∅).addEntry (burnedEntry n 1)

lemma request_burning {n : ℕ} (hn : n + 1 ≤ u64Max) : request .default ⟨n, ∅, ∅⟩ (smallFileRead .whole) =
    (.ok ⟨0, 12, [⟨n, 0, 12, ⟨n, (smallFileRead .whole).read⟩⟩]⟩, burning n) := by
  have hcap : ensureCapacity ⟨n, ∅, ∅⟩ leakContent 1 .default = .ok () := by
    simp [ensureCapacity, mapSize, HydrationLimits.default, usizeMax, u64Max]
  have hins : insertWork ⟨n, ∅, ∅⟩ leakContent (smallFileRead .whole).read 0 12 true =
      (.ok ⟨n, 0, 12, ⟨n, (smallFileRead .whole).read⟩⟩, (mk n ∅ ∅).addEntry (burnedEntry n 0)) := by
    simp only [insertWork, if_pos hn]
    rfl
  have hreg : register .default ⟨n, ∅, ∅⟩ (smallFileRead .whole) 0 12 =
      (.ok [⟨n, 0, 12, ⟨n, (smallFileRead .whole).read⟩⟩], burning n) := by
    show registerSingle .default ⟨n, ∅, ∅⟩ leakContent (smallFileRead .whole).read
      (fun e => e.content == leakContent && e.whole) 0 12 true = _
    simp only [registerSingle, AList.empty_entries, find?_nil, hcap, hins, addEntry_lookup, if_true]
    simp [setWaiterCount, addEntry, burning, burnedEntry]
  rcases request_cases .default ⟨n, ∅, ∅⟩ (smallFileRead .whole) with
    ⟨_, hext, _⟩ | ⟨_, _, hext, heq⟩
  · cases hext
  · cases hext
    rw [heq]
    refine (congrArg (fun r => (Except.map (Registration.mk 0 12) r.1, r.2)) hreg).trans rfl

lemma release_burning (n : ℕ) : releaseWork (burning n) [n] = ⟨n + 1, ∅, ∅⟩ := by
  have hlook : (burning n).work.lookup n = some (burnedEntry n 1) := by
    simp [burning, addEntry_lookup]
  have hindex : (burning n).byContent.lookup (burnedEntry n 1).content
      = some (OrderedSet.empty.insert (workIndexKey 0 12 n)) :=
    AList.lookup_insert _
  have hempty : ((OrderedSet.empty.insert (workIndexKey 0 12 n)).erase
      (workIndexKey (burnedEntry n 1).start (burnedEntry n 1).stop n)).isEmpty = true := by
    rw [OrderedSet.isEmpty_iff]
    simp [burnedEntry]
  have hone : (burnedEntry n 1).waiterCount - 1 = 0 := rfl
  show releaseOne (burning n) n = _
  simp only [releaseOne, hlook, if_pos hone, removeEntry, hindex, hempty, if_true]
  simp only [burning, addEntry, erase_insert_empty]

/-- A whole read that is cancelled at once uses up one identity and leaves nothing else, so every
identity comes up next with no work in flight. -/
lemma reachable_burned : ∀ {n : ℕ}, n ≤ u64Max →
    ∃ s : Hydration, s.ReachableFrom .default ∧ s.coordinator = ⟨n, ∅, ∅⟩
  | 0, _ => ⟨initial, .of_init rfl, rfl⟩
  | n + 1, hn => by
    obtain ⟨⟨_, w, a⟩, hr, rfl⟩ := reachable_burned (Nat.le_of_succ_le hn)
    set waiter := Waiter.new (smallFileRead .whole)
      ⟨0, 12, [⟨n, 0, 12, ⟨n, (smallFileRead .whole).read⟩⟩]⟩ with hwait
    set cancelled : Waiter := { waiter with terminal := .cancelled, phase := .releasing }
    have hreq : Hydration.Step .default ⟨⟨n, ∅, ∅⟩, w, a⟩
        (.request (smallFileRead .whole)) ⟨burning n, w ++ [waiter], a⟩ := by
      simp only [Hydration.Step, step, request_burning hn]
      rfl
    have hcancel : Hydration.Step .default ⟨burning n, w ++ [waiter], a⟩
        (.cancel w.length) ⟨burning n, w ++ [cancelled], a⟩ := by
      simp [Hydration.Step, step, HydrationLabel.waiter?, Waiter.next, Waiter.settle,
        hwait, Waiter.new, cancelled]
    have hrelease : Hydration.Step .default ⟨burning n, w ++ [cancelled], a⟩ (.release w.length)
        ⟨⟨n + 1, ∅, ∅⟩, w ++ [{ cancelled with phase := .released }], a⟩ := by
      simp [Hydration.Step, step, cancelled, hwait, Waiter.new, Waiter.workIds, release_burning]
    exact ⟨_, ((hr.tail hreq).tail hcancel).tail hrelease, rfl⟩

/-- A read around it: it reuses the middle and needs a work on either side. -/
def surroundingRead : HydrationRequest := smallFileRead (.range ⟨0, 12, by decide, by decide⟩)

def nearlyExhausted : CoordinatorState := (request .default ⟨u64Max - 2, ∅, ∅⟩ middleRead).2

/-- **One request breaks the promise.**  When two identities are left and the middle of a file is
being read, a read of the whole range fails after inserting its first gap: it answers an error, it
has changed the works in flight, and one of them has a waiter count of zero. -/
theorem coordinatorInvariant_fails :
    ∃ system : Hydration, system.ReachableFrom .default ∧ system.coordinator = nearlyExhausted ∧
      (∃ error, (request .default nearlyExhausted surroundingRead).1 = .error error) ∧
      (request .default nearlyExhausted surroundingRead).2.work ≠ nearlyExhausted.work ∧
      ∃ system' : Hydration, system'.ReachableFrom .default ∧ ¬ CoordinatorInvariant .default system' := by
  obtain ⟨s, hs, hc⟩ := @reachable_burned (u64Max - 2) (Nat.sub_le _ _)
  obtain ⟨m, hmid, hnear⟩ : ∃ m : Hydration, Hydration.Step .default s (.request middleRead) m ∧
        m.coordinator = nearlyExhausted := by
    simp only [Hydration.Step, step, hc]
    rcases hres : request .default ⟨u64Max - 2, ∅, ∅⟩ middleRead with ⟨_ | r, st'⟩
    · exact ⟨_, rfl, (congrArg Prod.snd hres).symm⟩
    · exact ⟨_, rfl, (congrArg Prod.snd hres).symm⟩
  have hreach := hs.tail hmid
  have hinv := invariant_of_reachable hreach
  have hids : runsOutPartWay .default nearlyExhausted surroundingRead = true := by decide
  obtain ⟨⟨error, he⟩, e, hl, hz⟩ :=
    request_runsOut (hnear ▸ hinv.consistent) hids
  have hstep : Hydration.Step .default m (.request surroundingRead)
      { m with coordinator := (request .default nearlyExhausted surroundingRead).2 } := by
    simp only [Hydration.Step, step, hnear]
    rcases hres : request .default nearlyExhausted surroundingRead with ⟨_ | _, _⟩
    · rfl
    · simp [hres] at he
  refine ⟨m, hreach, hnear, ⟨error, he⟩, fun hsm => ?_, _, hreach.tail hstep, fun hb => ?_⟩
  · rw [hsm] at hl
    cases hl
  · have hpos := (hb.waiters_counted _ e hl).1
    omega

end AsterForge.Core
