import AsterForge.Core.Hydration

/-!
# The coordinator's two indices

`CoordinatorState` keeps every work twice: in `work`, by identity, and in `byContent`, by content key
and extent.  `Consistent` says that the two agree, that works which could be shared do not overlap, and
that the limits hold, whatever the waiters do.

* `Consistent.addEntry`, `Consistent.removeEntry` and `Consistent.setWaiterCount` — the three ways the
  state changes keep it.
* **`insertGaps_spec`** — the loop that adds gap works, completed or out of identities half-way.
* **`register_spec`** — what a request does to the state, whichever of the three registrations it takes.
* **`releaseWork_lookup`** — what the release of a waiter's works does to each of them.
-/

namespace AsterForge.Core

open Library OrderedSet WorkEntry ContentReadRequest HydrationContentKey CoordinatorState List Option Except

/-! ## Works that fit their content -/

structure FutureFits (content : HydrationContentKey) (start stop : ℕ) (future : SharedRead) : Prop where
  key : future.request.key = content.key
  revision : future.request.revision = content.revision
  expectedSize : future.request.expectedSize = content.expectedSize
  offset_eq : future.request.requestedOffset = start
  end_eq : future.request.requestedEnd = stop
  start_le : start ≤ stop

/-- A work entry whose future reads its extent of its content; a whole one reads all of it. -/
structure WorkEntry.Fits (entry : WorkEntry) : Prop where
  future : FutureFits entry.content entry.start entry.stop entry.future
  whole_extent : entry.whole = true → entry.start = 0 ∧ entry.stop = entry.content.expectedSize

def WorkEntry.Ranged (entry : WorkEntry) : Prop :=
  entry.whole = false ∧ entry.start < entry.stop

/-- Two entries that do not share a position. -/
def WorkEntry.Apart (entry other : WorkEntry) : Prop :=
  entry.stop ≤ other.start ∨ other.stop ≤ entry.start

lemma WorkEntry.Apart.symm {entry o : WorkEntry} (h : entry.Apart o) : o.Apart entry :=
  Or.symm h

@[simp] lemma workIndexKey_inj {s st id s' st' id' : ℕ} :
    workIndexKey s st id = workIndexKey s' st' id' ↔ s = s' ∧ st = st' ∧ id = id' := by
  simp [workIndexKey]

/-! ## Consistency -/

/-- The two indices agree, shareable works are disjoint, and the limits hold. -/
structure Consistent (limits : HydrationLimits) (state : CoordinatorState) : Prop where
  fits : ∀ {id entry}, state.work.lookup id = some entry → entry.Fits
  lt_nextWorkId : ∀ {id entry}, state.work.lookup id = some entry → id < state.nextWorkId
  nextWorkId_le : state.nextWorkId ≤ u64Max
  index_iff : ∀ {content slot}, slot ∈ state.index content ↔
    ∃ id entry, state.work.lookup id = some entry ∧ entry.content = content ∧
      slot = workIndexKey entry.start entry.stop id
  index_nonempty : ∀ {content index}, state.byContent.lookup content = some index → index.isEmpty = false
  apart : ∀ {id entry id' other}, state.work.lookup id = some entry →
    state.work.lookup id' = some other → entry.content = other.content →
    entry.Ranged → other.Ranged → id ≠ id' → entry.Apart other
  whole_unique : ∀ {id entry id' other}, state.work.lookup id = some entry →
    state.work.lookup id' = some other → entry.content = other.content →
    entry.whole = true → other.whole = true → id = id'
  global_le : mapSize state.work ≤ limits.maxInFlightWork
  content_le : ∀ content, (state.index content).size ≤ limits.maxInFlightPerContent

variable {l : HydrationLimits} {stt : CoordinatorState}

lemma consistent_empty : Consistent l CoordinatorState.empty where
  fits := by simp [CoordinatorState.empty]
  lt_nextWorkId := by simp [CoordinatorState.empty]
  nextWorkId_le := Nat.zero_le _
  index_iff := by simp [CoordinatorState.empty, CoordinatorState.index]
  index_nonempty := by simp [CoordinatorState.empty]
  apart := by simp [CoordinatorState.empty]
  whole_unique := by simp [CoordinatorState.empty]
  global_le := Nat.zero_le _
  content_le := fun _ => Nat.zero_le _

/-! ## The three updates -/

section

variable {en : WorkEntry}

@[simp] lemma addEntry_nextWorkId : (stt.addEntry en).nextWorkId = stt.nextWorkId + 1 := rfl

lemma addEntry_lookup (id : ℕ) : (stt.addEntry en).work.lookup id =
    if id = stt.nextWorkId then some en else stt.work.lookup id :=
  lookup_insert_eq _ _ _ _

lemma addEntry_index (content : HydrationContentKey) : (stt.addEntry en).index content =
    if content = en.content then
      (stt.index content).insert (workIndexKey en.start en.stop stt.nextWorkId)
    else stt.index content := by
  simp only [addEntry, index, lookup_insert_eq]
  split
  case isTrue h => rw [h, getD_some]
  case isFalse => rfl

/-- An identity at or above `nextWorkId` is not in use. -/
lemma Consistent.lookup_fresh (h : Consistent l stt) {id : ℕ} (hid : stt.nextWorkId ≤ id) :
    stt.work.lookup id = none := by
  cases hlook : stt.work.lookup id with
  | none => rfl
  | some en => exact absurd (h.lt_nextWorkId hlook) (Nat.not_lt.mpr hid)

lemma Consistent.mapSize_le (h : Consistent l stt) : mapSize stt.work ≤ stt.nextWorkId := by
  rw [mapSize_eq_keys, ← @length_range stt.nextWorkId]
  refine stt.work.keys_nodup.length_le_of_subset fun id hid => ?_
  obtain ⟨en, hl⟩ := isSome_iff_exists.mp (AList.lookup_isSome.mpr hid)
  exact mem_range.mpr (h.lt_nextWorkId hl)

lemma Consistent.index_size_le (h : Consistent l stt) (content : HydrationContentKey) :
    (stt.index content).size ≤ stt.nextWorkId := by
  set ids := (stt.index content).toList.map fun s => (ofLex (ofLex s).2).2 with hids
  have hlen : (stt.index content).size = ids.length := by simp [hids, size]
  have hnodup : ids.Nodup := by
    refine (stt.index content).nodup.map_on fun s hs s' hs' heq => ?_
    obtain ⟨id, en, hl, -, rfl⟩ := h.index_iff.mp hs
    obtain ⟨id', e', hl', -, rfl⟩ := h.index_iff.mp hs'
    obtain rfl : id = id' := heq
    rw [hl] at hl'
    cases hl'
    rfl
  rw [hlen, ← @length_range stt.nextWorkId]
  refine hnodup.length_le_of_subset fun id hid => ?_
  obtain ⟨s, hs, rfl⟩ := mem_map.mp hid
  obtain ⟨id, en, hl, -, rfl⟩ := h.index_iff.mp hs
  exact mem_range.mpr (h.lt_nextWorkId hl)

/-- **Adding a work** keeps the indices consistent, if it fits its content, stays apart from the
ranged works of its content, and there is room for it. -/
theorem Consistent.addEntry (h : Consistent l stt) (hf : en.Fits) (hn : stt.nextWorkId + 1 ≤ u64Max)
    (hw : en.whole = true → ∀ id o, stt.work.lookup id = some o → o.content = en.content → o.whole = false)
    (hap : en.Ranged → ∀ id o, stt.work.lookup id = some o → o.content = en.content → o.Ranged → o.Apart en)
    (hg : mapSize stt.work + 1 ≤ l.maxInFlightWork)
    (hcn : (stt.index en.content).size + 1 ≤ l.maxInFlightPerContent) : Consistent l (stt.addEntry en) where
  fits := by
    intro id o hl
    rw [addEntry_lookup] at hl
    split at hl
    · cases hl
      exact hf
    · exact h.fits hl
  lt_nextWorkId := by
    intro id o hl
    rw [addEntry_lookup] at hl
    split at hl
    case isTrue heq => rw [heq]; exact Nat.lt_succ_self _
    case isFalse => exact (h.lt_nextWorkId hl).trans (Nat.lt_succ_self _)
  nextWorkId_le := hn
  index_iff := by
    intro content s
    have hold : s ∈ stt.index content ↔ ∃ id o,
        id ≠ stt.nextWorkId ∧ stt.work.lookup id = some o ∧ o.content = content ∧
          s = workIndexKey o.start o.stop id := by
      rw [h.index_iff]
      constructor
      · rintro ⟨id, o, hl, hr⟩
        exact ⟨id, o, (h.lt_nextWorkId hl).ne, hl, hr⟩
      · rintro ⟨id, o, -, hr⟩
        exact ⟨id, o, hr⟩
    have hnew : s ∈ (stt.addEntry en).index content ↔ (content = en.content ∧
          s = workIndexKey en.start en.stop stt.nextWorkId) ∨
        s ∈ stt.index content := by
      rw [addEntry_index]
      split <;> simp [*]
    rw [hnew, hold]
    constructor
    · rintro (⟨hc, rfl⟩ | ⟨id, o, hne, hl, hr⟩)
      · exact ⟨stt.nextWorkId, en, by rw [addEntry_lookup, if_pos rfl], hc.symm, rfl⟩
      · exact ⟨id, o, by rw [addEntry_lookup, if_neg hne]; exact hl, hr⟩
    · rintro ⟨id, o, hl, hc, rfl⟩
      rw [addEntry_lookup] at hl
      split at hl
      case isTrue heq => cases hl; exact Or.inl ⟨hc.symm, by rw [heq]⟩
      case isFalse hne => exact Or.inr ⟨id, o, hne, hl, hc, rfl⟩
  index_nonempty := by
    intro content i hl
    rw [CoordinatorState.addEntry, lookup_insert_eq] at hl
    split at hl
    case isTrue =>
      cases hl
      refine Bool.eq_false_iff.mpr fun he => ?_
      exact isEmpty_iff.mp he (workIndexKey en.start en.stop stt.nextWorkId) (by simp)
    case isFalse => exact h.index_nonempty hl
  apart := by
    intro id a id' b ha hb hc har hbr hne
    rw [addEntry_lookup] at ha hb
    split at ha <;> split at hb
    case isTrue.isTrue h₁ h₂ => exact absurd (h₁.trans h₂.symm) hne
    case isTrue.isFalse => cases ha; exact (hap har _ _ hb hc.symm hbr).symm
    case isFalse.isTrue => cases hb; exact hap hbr _ _ ha hc har
    case isFalse.isFalse => exact h.apart ha hb hc har hbr hne
  whole_unique := by
    intro id a id' b ha hb hc haw hbw
    rw [addEntry_lookup] at ha hb
    split at ha <;> split at hb
    case isTrue.isTrue h₁ h₂ => exact h₁.trans h₂.symm
    case isTrue.isFalse => cases ha; simp [hw haw _ _ hb hc.symm] at hbw
    case isFalse.isTrue => cases hb; simp [hw hbw _ _ ha hc] at haw
    case isFalse.isFalse => exact h.whole_unique ha hb hc haw hbw
  global_le := by
    have hsize : mapSize (stt.addEntry en).work = mapSize stt.work + 1 :=
      mapSize_insert _ (h.lookup_fresh le_rfl)
    exact hsize.le.trans hg
  content_le := by
    intro content
    rw [addEntry_index]
    split
    case isTrue hc => rw [hc]; exact (size_insert_le _ _).trans hcn
    case isFalse => exact h.content_le content

end

section

variable {id : ℕ} {e : WorkEntry}

lemma removeEntry_lookup (k : ℕ) : (stt.removeEntry id e).work.lookup k =
    if k = id then none else stt.work.lookup k :=
  lookup_erase_eq _ _ _

variable {content : HydrationContentKey}

lemma mem_removeEntry_index {s : WorkIndexKey} :
    s ∈ (stt.removeEntry id e).index content ↔ s ∈ stt.index content ∧
      ¬ (content = e.content ∧ s = workIndexKey e.start e.stop id) := by
  simp only [removeEntry, index]
  cases hset : stt.byContent.lookup e.content with
  | none =>
    have hempty : content = e.content → s ∉ stt.index content := by
      rintro rfl
      simp [index, hset]
    tauto
  | some set =>
    simp only
    split
    case isTrue hempty =>
      rw [lookup_erase_eq]
      split
      case isTrue hc =>
        subst hc
        have hgone := isEmpty_iff.mp hempty s
        simp only [mem_erase] at hgone
        simp only [getD_none, not_mem_empty, hset, getD_some]
        tauto
      case isFalse hc => tauto
    case isFalse =>
      rw [lookup_insert_eq]
      split
      case isTrue hc =>
        subst hc
        simp only [getD_some, mem_erase, hset]
        tauto
      case isFalse hc => tauto

lemma removeEntry_index_size_le (content : HydrationContentKey) :
    ((stt.removeEntry id e).index content).size ≤ (stt.index content).size := by
  refine (nodup _).length_le_of_subset fun s hs => ?_
  exact (mem_removeEntry_index.mp hs).1

/-- **Removing a work** keeps the indices consistent. -/
theorem Consistent.removeEntry (h : Consistent l stt) (he : stt.work.lookup id = some e) :
    Consistent l (stt.removeEntry id e) := by
  have hsub : ∀ {k o}, (stt.removeEntry id e).work.lookup k = some o →
      k ≠ id ∧ stt.work.lookup k = some o := by
    intro k o hl
    rw [removeEntry_lookup] at hl
    split at hl
    case isTrue => cases hl
    case isFalse hne => exact ⟨hne, hl⟩
  constructor
  case fits => exact fun hl => h.fits (hsub hl).2
  case lt_nextWorkId => exact fun hl => h.lt_nextWorkId (hsub hl).2
  case nextWorkId_le => exact h.nextWorkId_le
  case index_iff =>
    intro content s
    rw [mem_removeEntry_index, h.index_iff]
    constructor
    · rintro ⟨⟨k, o, hl, hc, rfl⟩, hne⟩
      refine ⟨k, o, ?_, hc, rfl⟩
      rw [removeEntry_lookup, if_neg]
      · exact hl
      · rintro rfl
        rw [he] at hl
        cases hl
        exact hne ⟨hc.symm, rfl⟩
    · rintro ⟨k, o, hl, hc, rfl⟩
      obtain ⟨hk, hl⟩ := hsub hl
      exact ⟨⟨k, o, hl, hc, rfl⟩, fun ⟨_, heq⟩ => hk (workIndexKey_inj.mp heq).2.2⟩
  case index_nonempty =>
    intro content i hl
    simp only [CoordinatorState.removeEntry] at hl
    split at hl
    · exact h.index_nonempty hl
    · split at hl
      · rw [lookup_erase_eq] at hl
        split at hl
        · cases hl
        · exact h.index_nonempty hl
      · rw [lookup_insert_eq] at hl
        split at hl
        · cases hl
          exact Bool.eq_false_iff.mpr ‹¬ _›
        · exact h.index_nonempty hl
  case apart =>
    exact fun ha hb hc har hbr hne => h.apart (hsub ha).2 (hsub hb).2 hc har hbr hne
  case whole_unique => exact fun ha hb hc haw hbw => h.whole_unique (hsub ha).2 (hsub hb).2 hc haw hbw
  case global_le => exact (mapSize_erase_le _ _).trans h.global_le
  case content_le => exact fun content => (removeEntry_index_size_le content).trans (h.content_le content)

end

section

variable {id : ℕ} {et : WorkEntry} {c : ℕ}

lemma setWaiterCount_lookup (k : ℕ) : (stt.setWaiterCount id et c).work.lookup k =
    if k = id then some { et with waiterCount := c } else stt.work.lookup k :=
  lookup_insert_eq _ _ _ _

/-- **Counting waiters** keeps the indices consistent. -/
theorem Consistent.setWaiterCount (h : Consistent l stt) (he : stt.work.lookup id = some et) :
    Consistent l (stt.setWaiterCount id et c) := by
  have hback : ∀ {k o}, (stt.setWaiterCount id et c).work.lookup k = some o →
      ∃ n, stt.work.lookup k = some { o with waiterCount := n } := by
    intro k o hl
    rw [setWaiterCount_lookup] at hl
    split at hl
    case isTrue hk => cases hl; exact ⟨et.waiterCount, by rw [hk]; exact he⟩
    case isFalse => exact ⟨o.waiterCount, hl⟩
  have hforth : ∀ {k o}, stt.work.lookup k = some o → ∃ n,
      (stt.setWaiterCount id et c).work.lookup k = some { o with waiterCount := n } := by
    intro k o hl
    rw [setWaiterCount_lookup]
    split
    case isTrue hk =>
      rw [hk, he] at hl
      cases hl
      exact ⟨c, rfl⟩
    case isFalse => exact ⟨o.waiterCount, hl⟩
  constructor
  case fits =>
    intro k o hl
    obtain ⟨n, hl⟩ := hback hl
    have hfits := h.fits hl
    exact ⟨hfits.future, hfits.whole_extent⟩
  case lt_nextWorkId =>
    intro k o hl
    obtain ⟨n, hl⟩ := hback hl
    exact h.lt_nextWorkId hl
  case nextWorkId_le => exact h.nextWorkId_le
  case index_iff =>
    refine h.index_iff.trans ⟨?_, ?_⟩
    · rintro ⟨k, o, hl, hr⟩
      obtain ⟨n, hl⟩ := hforth hl
      exact ⟨k, _, hl, hr⟩
    · rintro ⟨k, o, hl, hr⟩
      obtain ⟨n, hl⟩ := hback hl
      exact ⟨k, _, hl, hr⟩
  case index_nonempty => exact h.index_nonempty
  case apart =>
    intro a x b y ha hb hc har hbr hne
    obtain ⟨n, ha⟩ := hback ha
    obtain ⟨m, hb⟩ := hback hb
    have hapart := h.apart ha hb hc har hbr hne
    exact hapart
  case whole_unique =>
    intro a x b y ha hb hc haw hbw
    obtain ⟨n, ha⟩ := hback ha
    obtain ⟨m, hb⟩ := hback hb
    exact h.whole_unique ha hb hc haw hbw
  case global_le => exact (mapSize_insert_of_lookup _ he).le.trans h.global_le
  case content_le => exact h.content_le

end

/-! ## Inserting the gaps of a range -/

def WorkDependency.Live (dependency : WorkDependency) (content : HydrationContentKey)
    (state : CoordinatorState) : Prop :=
  ∃ entry, state.work.lookup dependency.id = some entry ∧ entry.content = content ∧
    entry.start = dependency.start ∧ entry.stop = dependency.stop ∧ entry.future = dependency.future

def WorkDependency.extent (dependency : WorkDependency) : ℕ × ℕ :=
  (dependency.start, dependency.stop)

/-- The state with works added to it, none of which has a waiter yet. -/
structure Extends (state state' : CoordinatorState) : Prop where
  nextWorkId_le : state.nextWorkId ≤ state'.nextWorkId
  old : ∀ {id}, id < state.nextWorkId → state'.work.lookup id = state.work.lookup id
  new : ∀ {id entry}, state.nextWorkId ≤ id → state'.work.lookup id = some entry → entry.waiterCount = 0

lemma Extends.refl (h : Consistent l stt) : Extends stt stt where
  nextWorkId_le := le_rfl
  old := fun _ => rfl
  new := fun hid hl => by simp [h.lookup_fresh hid] at hl

def gapRequest (request : ContentReadRequest) (range : ByteRange) : ContentReadRequest :=
  { request with readRange := .range range }

lemma insertRangeWork_cases (state : CoordinatorState) (content : HydrationContentKey) (r : ContentReadRequest)
    {s st : ℕ} (hlt : s < st) (hm : st ≤ u64Max) :
    (∃ rn : ByteRange, rn.offset = s ∧ rn.endExclusive = st ∧ state.nextWorkId + 1 ≤ u64Max ∧
      insertRangeWork state content r s st =
        (.ok ⟨state.nextWorkId, s, st, ⟨state.nextWorkId, gapRequest r rn⟩⟩,
          state.addEntry ⟨content, s, st, false, ⟨state.nextWorkId, gapRequest r rn⟩, 0⟩)) ∨
    (u64Max < state.nextWorkId + 1 ∧ insertRangeWork state content r s st =
        (.error (.contract (.invalidContentResponse "hydration work identity exhausted")),
          state)) := by
  have hpos : 0 < st - s := Nat.sub_pos_of_lt hlt
  have hend : s + (st - s) ≤ u64Max := by omega
  simp only [insertRangeWork, ByteRange.new_eq_ok hpos hend, insertWork]
  by_cases hnext : state.nextWorkId + 1 ≤ u64Max
  · refine Or.inl ⟨⟨s, st - s, hpos, hend⟩, rfl, ?_, hnext, ?_⟩
    · simp only [ByteRange.endExclusive]
      omega
    · rw [if_pos hnext]
      rfl
  · exact Or.inr ⟨Nat.lt_of_not_le hnext, by rw [if_neg hnext]⟩

/-- What the insertion loop leaves behind, whether it completes or not. -/
structure GapsInserted (limits : HydrationLimits) (content : HydrationContentKey)
    (state : CoordinatorState) (gaps : List (ℕ × ℕ))
    (result : Except HydrationError (List WorkDependency) × CoordinatorState) : Prop where
  consistent : Consistent limits result.2
  extend : Extends state result.2
  progress : gaps ≠ [] → state.nextWorkId < u64Max → state.nextWorkId < result.2.nextWorkId
  present : ∀ id, state.nextWorkId ≤ id → id < result.2.nextWorkId → result.2.work.lookup id ≠ none
  ok : ∀ dependencies, result.1 = .ok dependencies → dependencies.map WorkDependency.extent = gaps ∧
    dependencies.map WorkDependency.id = range' state.nextWorkId gaps.length ∧
    result.2.nextWorkId = state.nextWorkId + gaps.length ∧
    ∀ dependency ∈ dependencies, dependency.Live content result.2
  error : ∀ error, result.1 = .error error → u64Max < state.nextWorkId + gaps.length

variable {content : HydrationContentKey}

/-- **The insertion loop.**  For gaps that stay apart from each other and from the ranged works of
the content, with room for all of them, the loop keeps the indices consistent however far it gets,
and completes unless it needs more identities than are left. -/
theorem insertGaps_spec {rq : ContentReadRequest}
    (hk : rq.key = content.key) (hrv : rq.revision = content.revision)
    (hs : rq.expectedSize = content.expectedSize) :
    ∀ {gp : List (ℕ × ℕ)} {state : CoordinatorState}, Consistent l state →
      (∀ g ∈ gp, g.1 < g.2 ∧ g.2 ≤ content.expectedSize) → gp.Pairwise (fun g h => g.2 ≤ h.1) →
      (∀ g ∈ gp, ∀ id entry, state.work.lookup id = some entry → entry.content = content →
        entry.Ranged → entry.stop ≤ g.1 ∨ g.2 ≤ entry.start) →
      min (mapSize state.work + gp.length) usizeMax ≤ l.maxInFlightWork →
      min ((state.index content).size + gp.length) usizeMax ≤ l.maxInFlightPerContent →
      GapsInserted l content state gp (insertGaps content rq state gp)
  | [], state, h, _, _, _, _, _ => by
    refine ⟨h, .refl h, fun hne => absurd rfl hne, ?_, ?_, ?_⟩
    · intro id hge hlt
      exact absurd hge (Nat.not_le.mpr hlt)
    all_goals simp [insertGaps]
  | (start, stop) :: gp, state, h, hwf, hpair, hapart, hglobal, hcont => by
    obtain ⟨hlt, hle⟩ := hwf (start, stop) mem_cons_self
    have hmax : stop ≤ u64Max := hle.trans (hs ▸ rq.expectedSize_le)
    obtain ⟨hf, hrs⟩ := pairwise_cons.mp hpair
    simp only [length_cons] at hglobal hcont
    rcases insertRangeWork_cases state content rq hlt hmax with
      ⟨range, hoff, hend, hnext, heq⟩ | ⟨hnext, heq⟩
    case inr =>
      have hres : insertGaps content rq state ((start, stop) :: gp) =
          (.error (.contract (.invalidContentResponse "hydration work identity exhausted")),
            state) := by
        simp only [insertGaps, heq]
      rw [hres]
      refine ⟨h, .refl h, fun _ hrm => ?_, ?_, by simp, fun _ _ => ?_⟩
      · exact absurd hnext (Nat.not_lt.mpr hrm)
      · intro id hge hlt
        exact absurd hge (Nat.not_le.mpr hlt)
      · simp only [length_cons]
        omega
    case inl =>
      set entry : WorkEntry := ⟨content, start, stop, false,
        ⟨state.nextWorkId, gapRequest rq range⟩, 0⟩ with hentry
      have hfuture : FutureFits content start stop ⟨state.nextWorkId, gapRequest rq range⟩ :=
        { key := hk, revision := hrv, expectedSize := hs, offset_eq := hoff
          end_eq := by
            show min range.endExclusive rq.expectedSize = stop
            rw [hend, hs]
            exact Nat.min_eq_left hle
          start_le := hlt.le }
      have hfits : entry.Fits := ⟨hfuture, by simp [hentry]⟩
      have hrm := h.mapSize_le
      have hroom' := h.index_size_le content
      simp only [usizeMax] at hglobal hcont
      have h₁ : Consistent l (state.addEntry entry) := by
        refine h.addEntry hfits hnext (by simp [hentry]) ?_ (by omega)
          (show (state.index content).size + 1 ≤ _ by omega)
        exact fun _ id o hl hc hr =>
          hapart (start, stop) mem_cons_self id o hl hc hr
      have hglobal₁ : mapSize (state.addEntry entry).work = mapSize state.work + 1 :=
        mapSize_insert _ (h.lookup_fresh le_rfl)
      have hcontent₁ : ((state.addEntry entry).index content).size ≤ (state.index content).size + 1 := by
        rw [addEntry_index, if_pos rfl]
        exact size_insert_le _ _
      have hapart₁ : ∀ g ∈ gp, ∀ id o, (state.addEntry entry).work.lookup id = some o → o.content = content →
          o.Ranged → o.stop ≤ g.1 ∨ g.2 ≤ o.start := by
        intro g hg id o hl hc hr
        rw [addEntry_lookup] at hl
        split at hl
        case isTrue => cases hl; exact Or.inl (hf g hg)
        case isFalse => exact hapart g (mem_cons_of_mem _ hg) id o hl hc hr
      have ih := insertGaps_spec hk hrv hs h₁ (fun g hg => hwf g (mem_cons_of_mem _ hg)) hrs hapart₁
        (by simp only [usizeMax]; omega) (by simp only [usizeMax]; omega)
      have hextend : Extends state (insertGaps content rq (state.addEntry entry) gp).2 :=
        { nextWorkId_le := (Nat.le_succ _).trans ih.extend.nextWorkId_le
          old := fun hid => by
            rw [ih.extend.old (Nat.lt_succ_of_lt hid), addEntry_lookup, if_neg hid.ne]
          new := fun {id o} hid hl => by
            by_cases heq : id = state.nextWorkId
            · rw [heq, ih.extend.old (Nat.lt_succ_self _), addEntry_lookup, if_pos rfl] at hl
              cases hl
              rfl
            · exact ih.extend.new (Nat.lt_of_le_of_ne hid (Ne.symm heq)) hl }
      have hlive : (insertGaps content rq (state.addEntry entry) gp).2.work.lookup
          state.nextWorkId = some entry := by
        rw [ih.extend.old (Nat.lt_succ_self _), addEntry_lookup, if_pos rfl]
      rcases hres : insertGaps content rq (state.addEntry entry) gp with ⟨r, f⟩
      rw [hres] at ih hextend hlive
      have hprog : state.nextWorkId < f.nextWorkId := ih.extend.nextWorkId_le
      have hpres : ∀ id, state.nextWorkId ≤ id → id < f.nextWorkId → f.work.lookup id ≠ none := by
        intro id hge hlt
        by_cases hid : id = state.nextWorkId
        · rw [hid, hlive]
          exact some_ne_none _
        · exact ih.present id (Nat.lt_of_le_of_ne hge (Ne.symm hid)) hlt
      cases r with
      | error e =>
        simp only [insertGaps, heq, hres]
        refine ⟨ih.consistent, hextend, fun _ _ => hprog, hpres, by simp, fun _ _ => ?_⟩
        have hover := ih.error e rfl
        simp only [addEntry_nextWorkId] at hover
        simp only [length_cons]
        omega
      | ok d =>
        simp only [insertGaps, heq, hres]
        refine ⟨ih.consistent, hextend, fun _ _ => hprog, hpres, ?_, by simp⟩
        rintro all ⟨⟩
        obtain ⟨he, hi, hfn, ha⟩ := ih.ok d rfl
        refine ⟨?_, ?_, ?_, ?_⟩
        · simp [he, WorkDependency.extent]
        · simp [hi, range'_succ]
        · simp only [addEntry_nextWorkId] at hfn
          simp only [length_cons]
          omega
        · intro dp hm
          rcases mem_cons.mp hm with rfl | hm
          · exact ⟨entry, hlive, rfl, rfl, rfl, rfl⟩
          · exact ha dp hm

/-! ## Registering a waiter -/

/-- A work with `n` more waiters. -/
def WorkEntry.gain (n : ℕ) (entry : WorkEntry) : WorkEntry :=
  { entry with waiterCount := entry.waiterCount + n }

@[simp] lemma WorkEntry.map_gain_zero (entry : Option WorkEntry) : entry.map (gain 0) = entry :=
  map_id'

lemma WorkEntry.gain_gain (entry : WorkEntry) (n m : ℕ) : (entry.gain n).gain m = entry.gain (n + m) := by
  simp [gain, Nat.add_assoc]

lemma addWaiter_lookup (id k : ℕ) : (addWaiter stt id).work.lookup k =
    (stt.work.lookup k).map (gain (if id = k then 1 else 0)) := by
  unfold addWaiter
  cases hid : stt.work.lookup id with
  | none =>
    by_cases hk : id = k
    · subst hk
      simp [hid]
    · simp [hk]
  | some entry =>
    by_cases hk : id = k
    · subst hk
      simp [hid, setWaiterCount_lookup, gain]
    · simp [hk, setWaiterCount_lookup, Ne.symm hk]

lemma addWaiter_nextWorkId (id : ℕ) : (addWaiter stt id).nextWorkId = stt.nextWorkId := by
  unfold addWaiter
  split <;> rfl

lemma Consistent.addWaiter (h : Consistent l stt) (id : ℕ) : Consistent l (addWaiter stt id) := by
  unfold Core.addWaiter
  split
  case h_1 hlook => exact h.setWaiterCount hlook
  case h_2 => exact h

lemma foldl_addWaiter (k : ℕ) : ∀ (ids : List ℕ) (state : CoordinatorState),
    (ids.foldl addWaiter state).work.lookup k = (state.work.lookup k).map (gain (ids.count k))
  | [], state => by simp
  | id :: ids, state => by
    rw [foldl_cons, foldl_addWaiter k ids, addWaiter_lookup, Option.map_map]
    refine Option.map_congr fun entry _ => ?_
    rw [Function.comp_apply, entry.gain_gain, count_cons, Nat.add_comm]
    simp

lemma foldl_addWaiter_nextWorkId (ids : List ℕ) (state : CoordinatorState) :
    (ids.foldl addWaiter state).nextWorkId = state.nextWorkId := by
  induction ids generalizing state with
  | nil => rfl
  | cons id ids ih => rw [foldl_cons, ih, addWaiter_nextWorkId]

lemma Consistent.foldl_addWaiter (ids : List ℕ) {state : CoordinatorState}
    (h : Consistent l state) : Consistent l (ids.foldl Core.addWaiter state) := by
  induction ids generalizing state with
  | nil => exact h
  | cons id ids ih => exact ih (h.addWaiter id)

/-- How registering a waiter on the works `ids` changes the works in flight: works that were there
keep everything but their count, and the count of a work goes up by one exactly when the waiter
depends on it. -/
structure Registered (limits : HydrationLimits) (ids : List ℕ) (state state' : CoordinatorState) : Prop where
  consistent : Consistent limits state'
  nextWorkId_le : state.nextWorkId ≤ state'.nextWorkId
  old : ∀ {id}, id < state.nextWorkId →
    state'.work.lookup id = (state.work.lookup id).map (WorkEntry.gain (ids.count id))
  new : ∀ {id entry}, state.nextWorkId ≤ id → state'.work.lookup id = some entry →
    entry.waiterCount = ids.count id

lemma Extends.registered {s' : CoordinatorState} (h : Extends stt s') (hc : Consistent l s') (ids : List ℕ) :
    Registered l ids stt (ids.foldl addWaiter s') where
  consistent := hc.foldl_addWaiter ids
  nextWorkId_le := by
    rw [foldl_addWaiter_nextWorkId]
    exact h.nextWorkId_le
  old := fun hid => by rw [foldl_addWaiter, h.old hid]
  new := fun hid hl => by
    rw [foldl_addWaiter, map_eq_some_iff] at hl
    obtain ⟨entry, hl, rfl⟩ := hl
    simp [gain, h.new hid hl]

variable {d : WorkDependency}

lemma WorkDependency.Live.foldl_addWaiter (h : d.Live content stt) (ids : List ℕ) :
    d.Live content (ids.foldl addWaiter stt) := by
  obtain ⟨entry, hl, hr⟩ := h
  exact ⟨entry.gain (ids.count d.id), by rw [Core.foldl_addWaiter, hl]; rfl, hr⟩

/-- What a registration does, whether it succeeds or fails. -/
structure RegisterSpec (limits : HydrationLimits) (content : HydrationContentKey) (state : CoordinatorState)
    (result : Except HydrationError (List WorkDependency) × CoordinatorState) : Prop where
  ok : ∀ dependencies, result.1 = .ok dependencies →
    Registered limits (dependencies.map WorkDependency.id) state result.2 ∧
    (dependencies.map WorkDependency.id).Nodup ∧
    (∀ id, state.nextWorkId ≤ id → id < result.2.nextWorkId → id ∈ dependencies.map WorkDependency.id) ∧
    ∀ dependency ∈ dependencies, dependency.Live content result.2
  error : ∀ error, result.1 = .error error → Registered limits [] state result.2

lemma ensureCapacity_ok {a : ℕ} (h : ensureCapacity stt content a l = .ok ()) :
    min (mapSize stt.work + a) usizeMax ≤ l.maxInFlightWork ∧
      min ((stt.index content).size + a) usizeMax ≤ l.maxInFlightPerContent := by
  unfold ensureCapacity at h
  split at h
  case isTrue => cases h
  case isFalse hglobal =>
    simp only at h
    split at h
    case isTrue => cases h
    case isFalse hcont =>
      have hsize : ((stt.byContent.lookup content).map size).getD 0 = (stt.index content).size := by
        unfold index
        cases stt.byContent.lookup content <;> rfl
      omega

lemma Consistent.registered_refl (h : Consistent l stt) : Registered l [] stt stt :=
  (Extends.refl h).registered h []

/-- **Registering on a single work**, found or new: the common part of whole and empty reads. -/
theorem registerSingle_spec (h : Consistent l stt)
    {r : ContentReadRequest} {f : WorkEntry → Bool} {s st : ℕ} {w : Bool}
    (hf : ∀ entry, f entry = true → entry.content = content) (hft : ∀ id, FutureFits content s st ⟨id, r⟩)
    (he : w = true → s = 0 ∧ st = content.expectedSize) (hrn : ¬ (w = false ∧ s < st))
    (hwh : w = true → ∀ entry : WorkEntry, entry.content = content → entry.whole = true → f entry = true) :
    RegisterSpec l content stt (registerSingle l stt content r f s st w) := by
  unfold registerSingle
  split
  case h_1 id entry hfound =>
    -- an existing work is reused: its count goes up by one
    have hl : stt.work.lookup id = some entry :=
      AList.mem_lookup_iff.mpr (mem_of_find?_eq_some hfound)
    have hmatch : f entry = true := by simpa using find?_some hfound
    have hcn : entry.content = content := hf _ hmatch
    have hcount : stt.setWaiterCount id entry (entry.waiterCount + 1) = addWaiter stt id := by
      simp only [addWaiter, hl]
    refine ⟨?_, by simp⟩
    rintro d ⟨⟩
    refine ⟨?_, by simp, fun k hge hlt => absurd hge (Nat.not_le.mpr hlt), ?_⟩
    · rw [hcount]
      exact (Extends.refl h).registered h [id]
    · simp only [mem_singleton, forall_eq]
      exact ⟨entry.gain 1, by rw [setWaiterCount_lookup, if_pos rfl]; rfl, hcn, rfl, rfl, rfl⟩
  case h_2 hnone =>
    have hnone : ∀ id entry, stt.work.lookup id = some entry → f entry ≠ true :=
      fun id entry hl => find?_eq_none.mp hnone _ (AList.mem_lookup_iff.mp hl)
    split
    case h_1 error _ => exact ⟨by simp, fun _ _ => h.registered_refl⟩
    case h_2 hcap =>
      obtain ⟨hg, hcn⟩ := ensureCapacity_ok hcap
      unfold insertWork
      by_cases hnext : stt.nextWorkId + 1 ≤ u64Max
      case neg =>
        simp only [if_neg hnext]
        exact ⟨by simp, fun _ _ => h.registered_refl⟩
      case pos =>
        have hroom := h.mapSize_le
        have hroom' := h.index_size_le content
        simp only [usizeMax] at hg hcn
        set entry : WorkEntry :=
          ⟨content, s, st, w, ⟨stt.nextWorkId, r⟩, 0⟩ with hentry
        have hadd : Consistent l (stt.addEntry entry) := by
          refine h.addEntry ⟨hft _, he⟩ hnext ?_ (fun hr => absurd hr hrn) (by omega)
            (show (stt.index content).size + 1 ≤ _ by omega)
          intro hw id o hl hc
          exact Bool.eq_false_iff.mpr fun ho => hnone id o hl (hwh hw o hc ho)
        have hl : (stt.addEntry entry).work.lookup stt.nextWorkId = some entry := by
          rw [addEntry_lookup, if_pos rfl]
        have hextend : Extends stt (stt.addEntry entry) :=
          { nextWorkId_le := Nat.le_succ _
            old := fun hid => by rw [addEntry_lookup, if_neg hid.ne]
            new := fun {id o} hid hl => by
              rw [addEntry_lookup] at hl
              split at hl
              · cases hl
                rfl
              · simp [h.lookup_fresh hid] at hl }
        have hcount : (stt.addEntry entry).setWaiterCount stt.nextWorkId entry 1
            = addWaiter (stt.addEntry entry) stt.nextWorkId := by
          simp only [addWaiter, hl]
          rfl
        simp only [if_pos hnext, ← hentry, hl]
        refine ⟨?_, by simp⟩
        rintro d ⟨⟩
        refine ⟨?_, by simp, fun k hge hlt => ?_, ?_⟩
        · rw [hcount]
          exact hextend.registered hadd [stt.nextWorkId]
        · have hle : k ≤ stt.nextWorkId := Nat.lt_succ_iff.mp hlt
          simp [Nat.le_antisymm hle hge]
        · simp only [mem_singleton, forall_eq]
          exact ⟨entry.gain 1, by rw [setWaiterCount_lookup, if_pos rfl]; rfl, rfl, rfl, rfl, rfl⟩

/-! ## Registering on the works and gaps of a range -/

lemma physicalGaps_eq (physicalEnd : ℕ) : ∀ (c : ℕ) (d : List WorkDependency),
    physicalGaps physicalEnd c d = gaps physicalEnd c (d.map WorkDependency.extent)
  | c, [] => rfl
  | c, dependency :: rest => by
    simp [physicalGaps, map_cons, gaps, WorkDependency.extent, physicalGaps_eq physicalEnd _ rest]

instance : Std.Total dependencyLe :=
  ⟨fun a b => le_total (toLex (a.start, a.stop)) (toLex (b.start, b.stop))⟩

instance : IsTrans WorkDependency dependencyLe :=
  ⟨fun _ _ _ hab hbc => le_trans (α := ℕ ×ₗ ℕ) hab hbc⟩

lemma start_le_of_dependencyLe {a b : WorkDependency} (h : dependencyLe a b) : a.start ≤ b.start := by
  have hlex := Prod.Lex.le_iff.mp h
  simp only [ofLex_toLex] at hlex
  omega

lemma start_sorted (d : List WorkDependency) :
    (d.insertionSort dependencyLe).Pairwise fun a b => a.start ≤ b.start :=
  (pairwise_insertionSort dependencyLe d).imp start_le_of_dependencyLe

section

variable {cn : HydrationContentKey} {ps pe : ℕ}

/-- The physical range `[physicalStart, physicalEnd)` can reuse the work. -/
def WorkEntry.Reusable (physicalStart physicalEnd : ℕ) (entry : WorkEntry) : Prop :=
  entry.start < physicalEnd ∧
    (entry.whole = true ∨ rangesOverlap physicalStart physicalEnd entry.start entry.stop = true)

lemma reusableDependency_eq_some {s st id : ℕ} :
    reusableDependency stt ps pe (workIndexKey s st id) = some d ↔
      ∃ entry, stt.work.lookup id = some entry ∧ (entry.whole = true ∨ rangesOverlap ps pe s st = true) ∧
        d = ⟨id, s, st, entry.future⟩ := by
  simp only [reusableDependency, workIndexKey, ofLex_toLex]
  cases stt.work.lookup id with
  | none => simp
  | some entry =>
    simp only [ite_none_right_eq_some, some.injEq, Bool.or_eq_true, exists_eq_left']
    exact and_congr_right fun _ => eq_comm

/-- **Which works a range reuses**: exactly the reusable works in flight of its content. -/
lemma mem_existingDependencies (h : Consistent l stt) : d ∈ existingDependencies stt cn ps pe ↔
    ∃ entry, stt.work.lookup d.id = some entry ∧ entry.content = cn ∧
      entry.start = d.start ∧ entry.stop = d.stop ∧ entry.future = d.future ∧ entry.Reusable ps pe := by
  have hclos : (stt.index cn).toList.Pairwise fun a b : WorkIndexKey =>
      decide ((ofLex b).1 < pe) = true → decide ((ofLex a).1 < pe) = true := by
    refine (stt.index cn).sorted.imp fun {a b} hab hb => ?_
    have hle := Prod.Lex.le_iff.mp hab.le
    simp only [decide_eq_true_eq] at hb ⊢
    omega
  simp only [existingDependencies, mem_insertionSort, mem_filterMap,
    mem_takeWhile_of_pairwise hclos, decide_eq_true_eq]
  constructor
  · rintro ⟨s, ⟨hsl, hlt⟩, hsm⟩
    obtain ⟨id, entry, hl, hc, rfl⟩ := h.index_iff.mp hsl
    obtain ⟨o, hl', hr, rfl⟩ := reusableDependency_eq_some.mp hsm
    rw [hl] at hl'
    cases hl'
    exact ⟨entry, hl, hc, rfl, rfl, rfl, hlt, hr⟩
  · rintro ⟨entry, hl, hc, hs, hst, hf, hlt, hr⟩
    refine ⟨workIndexKey entry.start entry.stop d.id, ⟨h.index_iff.mpr ⟨_, entry, hl, hc, rfl⟩, hlt⟩, ?_⟩
    refine reusableDependency_eq_some.mpr ⟨entry, hl, hr, ?_⟩
    rw [hs, hst, hf]

lemma existingDependencies_nodup (h : Consistent l stt) : ((existingDependencies stt cn ps pe).map
    WorkDependency.id).Nodup := by
  have hdeps : (existingDependencies stt cn ps pe).Nodup := by
    unfold existingDependencies
    rw [(perm_insertionSort dependencyLe _).nodup_iff]
    refine List.Nodup.filterMap ?_ ((stt.index cn).nodup.sublist (takeWhile_sublist _))
    intro a b d ha hb
    obtain ⟨_, _, _, rfl⟩ := reusableDependency_eq_some.mp ha
    obtain ⟨_, _, _, heq⟩ := reusableDependency_eq_some.mp hb
    simp only [WorkDependency.mk.injEq] at heq
    obtain ⟨h₁, h₂, h₃, -⟩ := heq
    exact congrArg (toLex : ℕ × _ → WorkIndexKey)
      (Prod.ext h₂ (congrArg (toLex : ℕ × ℕ → ℕ ×ₗ ℕ) (Prod.ext h₃ h₁)))
  refine hdeps.map_on fun a ha b hb hid => ?_
  obtain ⟨entry, hl, -, hs, hst, hf, -⟩ := (mem_existingDependencies h).mp ha
  obtain ⟨o, hl', -, hs', hst', hf', -⟩ := (mem_existingDependencies h).mp hb
  rw [← hid] at hl'
  cases a
  cases b
  simp_all

lemma gapsOf_bounds {g : ℕ × ℕ} (hg : g ∈ gapsOf stt cn ps pe) : ps ≤ g.1 ∧ g.1 < g.2 ∧ g.2 ≤ pe := by
  rw [gapsOf, physicalGaps_eq] at hg
  exact gaps_bounds hg

/-- **A gap stays apart from every ranged work of its content**, also from those the range does
not reuse. -/
lemma gapsOf_apart (h : Consistent l stt) {g : ℕ × ℕ} (hg : g ∈ gapsOf stt cn ps pe) {id : ℕ} {entry : WorkEntry}
    (hl : stt.work.lookup id = some entry) (hc : entry.content = cn)
    (hr : entry.Ranged) : entry.stop ≤ g.1 ∨ g.2 ≤ entry.start := by
  have hbounds := gapsOf_bounds hg
  rw [gapsOf, physicalGaps_eq] at hg
  by_cases hreuse : entry.Reusable ps pe
  · have hmem : (⟨id, entry.start, entry.stop, entry.future⟩ : WorkDependency) ∈
        existingDependencies stt cn ps pe :=
      (mem_existingDependencies h).mpr ⟨entry, hl, hc, rfl, rfl, rfl, hreuse⟩
    have hsorted : ((existingDependencies stt cn ps pe).map
        WorkDependency.extent).Pairwise fun i j => i.1 ≤ j.1 :=
      pairwise_map.mpr (start_sorted _)
    exact gaps_disjoint hsorted hg _ (mem_map_of_mem hmem)
  · simp only [WorkEntry.Reusable, hr.1, rangesOverlap, Bool.and_eq_true,
      decide_eq_true_eq] at hreuse
    grind

lemma gapsOf_inserted (h : Consistent l stt) {r : ContentReadRequest}
    (hk : r.key = cn.key) (hr : r.revision = cn.revision) (hsz : r.expectedSize = cn.expectedSize)
    (he : pe ≤ cn.expectedSize) (hcp : ensureCapacity stt cn (gapsOf stt cn ps pe).length l = .ok ()) :
    GapsInserted l cn stt (gapsOf stt cn ps pe) (insertGaps cn r stt (gapsOf stt cn ps pe)) := by
  obtain ⟨hgl, hcn⟩ := ensureCapacity_ok hcp
  refine insertGaps_spec hk hr hsz h (fun g hg => ?_) ?_
    (fun g hg id entry hl hc hrn => gapsOf_apart h hg hl hc hrn) hgl hcn
  · have hbounds := gapsOf_bounds hg
    omega
  · rw [gapsOf, physicalGaps_eq]
    refine gaps_pairwise _ _ fun i hi => ?_
    obtain ⟨d, hm, rfl⟩ := mem_map.mp hi
    obtain ⟨entry, hl, -, hs, hst, -⟩ := (mem_existingDependencies h).mp hm
    have hle := (h.fits hl).future.start_le
    rw [hs, hst] at hle
    exact hle

/-- **Registering a range** on the works that overlap it and on new works for its gaps. -/
theorem registerRange_spec (h : Consistent l stt) {rq : ContentReadRequest}
    (hk : rq.key = cn.key) (hr : rq.revision = cn.revision) (hsz : rq.expectedSize = cn.expectedSize)
    (he : pe ≤ cn.expectedSize) : RegisterSpec l cn stt (registerRange l stt cn rq ps pe) := by
  unfold registerRange
  simp only
  split
  case h_1 => exact ⟨by simp, fun _ _ => h.registered_refl⟩
  case h_2 hcap =>
    have hspec := gapsOf_inserted h hk hr hsz he hcap
    rcases hres : insertGaps cn rq stt (gapsOf stt cn ps pe) with ⟨r, mid⟩
    rw [hres] at hspec
    cases r with
    | error e =>
      refine ⟨by simp, fun _ _ => ?_⟩
      exact hspec.extend.registered hspec.consistent []
    | ok i =>
      obtain ⟨-, hi, hfn, hlv⟩ := hspec.ok i rfl
      refine ⟨?_, by simp⟩
      rintro dp ⟨⟩
      refine ⟨hspec.extend.registered hspec.consistent _, ?_, ?_, ?_⟩
      · rw [((perm_insertionSort dependencyLe _).map _).nodup_iff, map_append, nodup_append, hi]
        refine ⟨existingDependencies_nodup h, nodup_range', ?_⟩
        rintro _ hd _ hn rfl
        obtain ⟨d, hm, rfl⟩ := mem_map.mp hd
        obtain ⟨entry, hl, -⟩ := (mem_existingDependencies h).mp hm
        have hlt := h.lt_nextWorkId hl
        have hge := (mem_range'_1.mp hn).1
        omega
      · intro id hge hlt
        simp only [foldl_addWaiter_nextWorkId] at hlt hfn
        have hm : id ∈ i.map WorkDependency.id := by
          rw [hi, mem_range'_1]
          omega
        rw [((perm_insertionSort dependencyLe _).map _).mem_iff, map_append]
        exact mem_append_right _ hm
      · intro d hm
        refine WorkDependency.Live.foldl_addWaiter ?_ _
        rcases mem_append.mp ((mem_insertionSort dependencyLe).mp hm) with hm | hm
        · obtain ⟨entry, hl, hc, hs, hst, hf, -⟩ :=
            (mem_existingDependencies h).mp hm
          refine ⟨entry, ?_, hc, hs, hst, hf⟩
          rw [hspec.extend.old (h.lt_nextWorkId hl)]
          exact hl
        · exact hlv d hm

end

/-! ## A whole request -/

variable {r : ContentReadRequest}

lemma logicalExtent_ok {s st : ℕ} (h : logicalExtent r = .ok (s, st)) :
    s = r.requestedOffset ∧ st = r.requestedEnd ∧ s ≤ st := by
  unfold logicalExtent at h
  unfold requestedOffset requestedEnd
  cases hrange : r.readRange with
  | whole =>
    rw [hrange] at h
    cases h
    exact ⟨rfl, rfl, Nat.zero_le _⟩
  | range rn =>
    simp only [hrange] at h
    split at h
    case isTrue => cases h
    case isFalse hle =>
      cases h
      exact ⟨rfl, rfl, le_min rn.lt_endExclusive.le (Nat.le_of_not_lt hle)⟩

lemma requestedEnd_le (r : ContentReadRequest) : r.requestedEnd ≤ r.expectedSize := by
  unfold requestedEnd
  split
  · exact le_rfl
  · exact Nat.min_le_right _ _

/-- **The physical extent** contains the logical one and stays within the file. -/
lemma alignedExtent_ok {s st ts : ℕ} {a : Alignment} {physicalStart physicalEnd : ℕ} (hs : st ≤ ts)
    (h : alignedExtent s st ts a = .ok (physicalStart, physicalEnd)) :
    physicalStart ≤ s ∧ st ≤ physicalEnd ∧ physicalEnd ≤ ts := by
  have hdiv := Nat.div_mul_le_self s a.bytes
  simp only [alignedExtent] at h
  split at h
  case isTrue hall =>
    simp only [ok.injEq, Prod.mk.injEq] at h
    omega
  case isFalse =>
    split at h
    case isTrue =>
      simp only [ok.injEq, Prod.mk.injEq] at h
      omega
    case isFalse =>
      split at h
      case isTrue =>
        simp only [ok.injEq, Prod.mk.injEq] at h
        omega
      case isFalse => cases h

/-- **Registration**, whichever way it takes, keeps the indices consistent, hands its waiter live
works of its content, and counts that waiter once on each of them. -/
theorem register_spec (h : Consistent l stt) {r : HydrationRequest} {ts te : ℕ}
    (he : logicalExtent r.read = .ok (ts, te)) :
    RegisterSpec l (fromRequest r) stt (register l stt r ts te) := by
  obtain ⟨hst, hs, hle⟩ := logicalExtent_ok he
  unfold register
  simp only
  split
  case h_1 hrange =>
    refine registerSingle_spec h (by simp +contextual) ?_ (fun _ => ⟨rfl, rfl⟩) (by simp)
      (by simp +contextual)
    intro id
    constructor <;> simp [fromRequest, requestedOffset, requestedEnd, hrange]
  case h_2 range hrange =>
    split
    case isTrue heq =>
      subst heq
      refine registerSingle_spec h (by simp +contextual) ?_ (by simp) (by simp) (by simp)
      exact fun id => ⟨rfl, rfl, rfl, hst.symm, hs.symm, le_rfl⟩
    case isFalse =>
      split
      case h_1 => exact ⟨by simp, fun _ _ => h.registered_refl⟩
      case h_2 physicalStart physicalEnd halign =>
        refine registerRange_spec h rfl rfl rfl ?_
        exact (alignedExtent_ok (hs ▸ requestedEnd_le r.read) halign).2.2

lemma request_cases (limits : HydrationLimits) (state : CoordinatorState) (r : HydrationRequest) :
    (∃ er, logicalExtent r.read = .error er ∧ request limits state r = (.error er, state)) ∨
    ∃ ts te, logicalExtent r.read = .ok (ts, te) ∧ request limits state r =
        ((register limits state r ts te).1.map (⟨ts, te, ·⟩), (register limits state r ts te).2) := by
  unfold request
  cases hext : logicalExtent r.read with
  | error er => exact Or.inl ⟨er, rfl, rfl⟩
  | ok e =>
    refine Or.inr ⟨e.1, e.2, rfl, ?_⟩
    rcases hreg : register limits state r e.1 e.2 with ⟨_ | _, _⟩ <;>
      simp [hreg, Except.map]

/-! ## Requests that run out of identities -/

/-- The request passes its capacity check for several gap works, but the identities that are left
suffice for some of them only.  With none left the first insertion fails, and nothing happens. -/
def runsOutPartWay (limits : HydrationLimits) (state : CoordinatorState) (r : HydrationRequest) :
    Bool :=
  match r.read.readRange, logicalExtent r.read with
  | .range _, .ok (targetStart, targetEnd) =>
    if targetStart = targetEnd then false
    else
      match alignedExtent targetStart targetEnd r.read.expectedSize r.alignment with
      | .error _ => false
      | .ok (physicalStart, physicalEnd) =>
        let content := HydrationContentKey.fromRequest r
        let additional := (gapsOf state content physicalStart physicalEnd).length
        decide (ensureCapacity state content additional limits = .ok ()) && decide (state.nextWorkId < u64Max)
          && decide (u64Max < state.nextWorkId + additional)
  | _, _ => false

lemma runsOutPartWay_iff {r : HydrationRequest} : runsOutPartWay l stt r = true ↔
    ∃ rn ts te physicalStart physicalEnd, r.read.readRange = .range rn ∧
      logicalExtent r.read = .ok (ts, te) ∧ ts ≠ te ∧
      alignedExtent ts te r.read.expectedSize r.alignment = .ok (physicalStart, physicalEnd) ∧
      ensureCapacity stt (fromRequest r) (gapsOf stt (fromRequest r) physicalStart physicalEnd).length l
        = .ok () ∧
      stt.nextWorkId < u64Max ∧
      u64Max < stt.nextWorkId + (gapsOf stt (fromRequest r) physicalStart physicalEnd).length := by
  unfold runsOutPartWay
  cases r.read.readRange with
  | whole => simp
  | range rn =>
    cases logicalExtent r.read with
    | error => simp
    | ok e =>
      obtain ⟨ts, te⟩ := e
      by_cases hempty : ts = te
      · simp [hempty]
      · cases halign : alignedExtent ts te r.read.expectedSize r.alignment with
        | error => simp [hempty, halign]
        | ok e =>
          obtain ⟨physicalStart, physicalEnd⟩ := e
          simp [hempty, halign, and_assoc]

variable {e : HydrationError}

lemma registerSingle_error {f : WorkEntry → Bool} {s st : ℕ} {w : Bool}
    (he : (registerSingle l stt content r f s st w).1 = .error e) :
    (registerSingle l stt content r f s st w).2 = stt := by
  unfold registerSingle insertWork at he ⊢
  grind

lemma insertGaps_error (content : HydrationContentKey) (r : ContentReadRequest)
    {gp : List (ℕ × ℕ)} (hwf : ∀ g ∈ gp, g.1 < g.2 ∧ g.2 ≤ u64Max)
    (hn : u64Max ≤ stt.nextWorkId) (he : (insertGaps content r stt gp).1 = .error e) :
    (insertGaps content r stt gp).2 = stt := by
  cases gp with
  | nil => rfl
  | cons g gp =>
    obtain ⟨hlt, hm⟩ := hwf g mem_cons_self
    rcases insertRangeWork_cases stt content r hlt hm with
      ⟨_, _, _, hroom, _⟩ | ⟨_, heq⟩
    · omega
    · simp only [insertGaps, heq]

lemma registerRange_error (h : Consistent l stt)
    {rq : ContentReadRequest} (hk : rq.key = content.key) (hr : rq.revision = content.revision)
    (hs : rq.expectedSize = content.expectedSize) {physicalStart physicalEnd : ℕ}
    (hen : physicalEnd ≤ content.expectedSize)
    (hi : ensureCapacity stt content (gapsOf stt content physicalStart physicalEnd).length l = .ok () →
      u64Max ≤ stt.nextWorkId ∨
        stt.nextWorkId + (gapsOf stt content physicalStart physicalEnd).length ≤ u64Max)
    (he : (registerRange l stt content rq physicalStart physicalEnd).1 = .error e) :
    (registerRange l stt content rq physicalStart physicalEnd).2 = stt := by
  have hmax : content.expectedSize ≤ u64Max := hs ▸ rq.expectedSize_le
  unfold registerRange at he ⊢
  simp only at he ⊢
  split
  case h_1 => rfl
  case h_2 hcap =>
    have hspec := gapsOf_inserted h hk hr hs hen hcap
    rw [hcap] at he
    rcases hres : insertGaps content rq stt (gapsOf stt content physicalStart physicalEnd) with ⟨r, mid⟩
    rw [hres] at hspec
    cases r with
    | ok i => simp [hres] at he
    | error e =>
      rcases hi hcap with hf | hrm
      · have hsame := insertGaps_error content rq
          (fun g hg => ⟨(gapsOf_bounds hg).2.1, (gapsOf_bounds hg).2.2.trans (hen.trans hmax)⟩)
          hf (congrArg Prod.fst hres)
        rw [hres] at hsame
        exact hsame
      · exact absurd hrm (Nat.not_le.mpr (hspec.error e rfl))

/-- **A failing request leaves the coordinator exactly as it was**, unless it runs out of
identities part-way. -/
theorem request_error (h : Consistent l stt) {r : HydrationRequest}
    (hi : runsOutPartWay l stt r = false) (he : (request l stt r).1 = .error e) : (request l stt r).2 = stt := by
  rcases request_cases l stt r with
    ⟨_, _, heq⟩ | ⟨targetStart, targetEnd, hext, heq⟩
  · rw [heq]
  obtain ⟨-, hs, -⟩ := logicalExtent_ok hext
  have hrg : ∃ e, (register l stt r targetStart targetEnd).1 = .error e := by
    rw [heq] at he
    cases hr : (register l stt r targetStart targetEnd).1 with
    | error e => exact ⟨e, rfl⟩
    | ok => simp [hr, Except.map] at he
  obtain ⟨e, hrg⟩ := hrg
  rw [heq]
  unfold register at hrg ⊢
  unfold runsOutPartWay at hi
  cases hrange : r.read.readRange with
  | whole =>
    simp only [hrange] at hrg ⊢
    exact registerSingle_error hrg
  | range rn =>
    simp only [hrange, hext] at hrg hi ⊢
    by_cases hempty : targetStart = targetEnd
    · simp only [if_pos hempty] at hrg ⊢
      exact registerSingle_error hrg
    · simp only [if_neg hempty] at hrg hi ⊢
      cases halign : alignedExtent targetStart targetEnd (fromRequest r).expectedSize r.alignment with
      | error => rfl
      | ok ex =>
        have halign' : alignedExtent targetStart targetEnd r.read.expectedSize r.alignment
            = .ok (ex.1, ex.2) := halign
        simp only [halign] at hrg ⊢
        simp only [halign', Bool.and_eq_false_iff, decide_eq_false_iff_not] at hi
        refine registerRange_error h rfl rfl rfl
          (alignedExtent_ok (hs ▸ requestedEnd_le r.read) halign).2.2 ?_ hrg
        intro hc
        rcases hi with (hi | hi) | hi
        · exact absurd hc hi
        · exact Or.inl (Nat.le_of_not_lt hi)
        · exact Or.inr (Nat.le_of_not_lt hi)

/-- **A request that runs out part-way fails and leaves a work behind**: the identity that was
next is in use afterwards, by a work without waiters. -/
theorem request_runsOut (h : Consistent l stt) {r : HydrationRequest} (hi : runsOutPartWay l stt r = true) :
    (∃ e, (request l stt r).1 = .error e) ∧
      ∃ entry, (request l stt r).2.work.lookup stt.nextWorkId = some entry ∧ entry.waiterCount = 0 := by
  obtain ⟨range, targetStart, targetEnd, physicalStart, physicalEnd, hrange, hext, hne, halign,
    hcap, hlt, hover⟩ := runsOutPartWay_iff.mp hi
  obtain ⟨-, hs, -⟩ := logicalExtent_ok hext
  set content := fromRequest r with hcont
  have hspec : GapsInserted l content stt (gapsOf stt content physicalStart physicalEnd)
      (insertGaps content r.read stt (gapsOf stt content physicalStart physicalEnd)) :=
    gapsOf_inserted h rfl rfl rfl (alignedExtent_ok (hs ▸ requestedEnd_le r.read) halign).2.2 hcap
  rcases hres : insertGaps content r.read stt (gapsOf stt content physicalStart physicalEnd)
    with ⟨result, final⟩
  rw [hres] at hspec
  have hleft : ∃ entry, final.work.lookup stt.nextWorkId = some entry ∧ entry.waiterCount = 0 := by
    have hne : gapsOf stt content physicalStart physicalEnd ≠ [] := by
      intro hn
      simp only [hn, length_nil] at hover
      omega
    obtain ⟨entry, hl⟩ := ne_none_iff_exists'.mp (hspec.present _ le_rfl (hspec.progress hne hlt))
    exact ⟨entry, hl, hspec.extend.new le_rfl hl⟩
  cases result with
  | ok i =>
    -- the largest `u64` would be the identity of a work
    obtain ⟨-, hi, -, hlv⟩ := hspec.ok i rfl
    have hmem : u64Max ∈ i.map WorkDependency.id := by
      rw [hi, mem_range'_1]
      omega
    obtain ⟨d, hd, hid⟩ := mem_map.mp hmem
    obtain ⟨entry, hl, -⟩ := hlv d hd
    have hused := hspec.consistent.lt_nextWorkId hl
    have hmax := hspec.consistent.nextWorkId_le
    rw [hid] at hused
    exact absurd hused (Nat.not_lt.mpr hmax)
  | error e =>
    have hreg : register l stt r targetStart targetEnd = (.error e, final) := by
      have halign' : alignedExtent targetStart targetEnd content.expectedSize r.alignment
          = .ok (physicalStart, physicalEnd) := halign
      simp only [register, hrange, if_neg hne, ← hcont, halign', registerRange, hcap, hres]
    rcases request_cases l stt r with ⟨_, he', _⟩ | ⟨_, _, he', heq⟩
    · rw [hext] at he'
      cases he'
    · rw [hext] at he'
      cases he'
      rw [heq, hreg]
      exact ⟨⟨e, rfl⟩, hleft⟩

/-! ## Releasing a waiter -/

/-- A work with one waiter less; it is gone with its last one. -/
def WorkEntry.lose (entry : WorkEntry) : Option WorkEntry :=
  if entry.waiterCount - 1 = 0 then none
  else some { entry with waiterCount := entry.waiterCount - 1 }

lemma releaseOne_lookup (id k : ℕ) : (releaseOne stt id).work.lookup k =
    if k = id then (stt.work.lookup k).bind lose else stt.work.lookup k := by
  unfold releaseOne
  cases hid : stt.work.lookup id with
  | none =>
    by_cases hk : k = id
    · rw [if_pos hk, hk, hid, bind_none]
    · rw [if_neg hk]
  | some entry =>
    simp only
    by_cases hlast : entry.waiterCount - 1 = 0
    · rw [if_pos hlast, removeEntry_lookup]
      split
      case isTrue hk => rw [hk, hid, bind_some, lose, if_pos hlast]
      case isFalse => rfl
    · rw [if_neg hlast, setWaiterCount_lookup]
      split
      case isTrue hk => rw [hk, hid, bind_some, lose, if_neg hlast]
      case isFalse => rfl

lemma Consistent.releaseOne (h : Consistent l stt) (id : ℕ) : Consistent l (releaseOne stt id) := by
  unfold Core.releaseOne
  split
  case h_1 => exact h
  case h_2 hlook =>
    split
    · exact h.removeEntry hlook
    · exact h.setWaiterCount hlook

/-- **Releasing a waiter** takes it off each of its works once and leaves every other work alone. -/
theorem releaseWork_lookup (k : ℕ) : ∀ {ids : List ℕ} {state : CoordinatorState}, ids.Nodup →
    (releaseWork state ids).work.lookup k =
      if k ∈ ids then (state.work.lookup k).bind lose else state.work.lookup k
  | [], _, _ => by simp [releaseWork]
  | id :: ids, state, hnodup => by
    obtain ⟨hid, hi⟩ := nodup_cons.mp hnodup
    have ih := @releaseWork_lookup k ids (releaseOne state id) hi
    rw [releaseWork] at ih
    rw [releaseWork, foldl_cons, ih, releaseOne_lookup]
    by_cases hk : k = id
    · subst hk
      simp [hid]
    · simp [hk]

lemma Consistent.releaseWork {state : CoordinatorState} (h : Consistent l state)
    (ids : List ℕ) : Consistent l (releaseWork state ids) := by
  induction ids generalizing state with
  | nil => exact h
  | cons id ids ih => exact ih (h.releaseOne id)

end AsterForge.Core
