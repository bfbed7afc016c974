import AsterForge.Core.ContentStorage
import AsterForge.Library.Runs

/-!
# The range set as a vector

The source keeps a range set as a plain vector, finds positions in it with `partition_point`, and puts
the merged vector in place at the end of a successful insertion.

* `insertInto_eq` — on the vectors that `ContentRangeSet` allows, the insertion is that of
  `ContentRangeSet.insert`.
* **`content_ranges_exact`** — a vector of ranges is an exact set of bytes under insertion, the coverage
  test and the completeness test.
* **`inserts_order`** — a set of ranges does not depend on the order of its insertions.
-/

namespace AsterForge.Core

open Library ByteRange

/-- The index of the first element of which a predicate does not hold, or the length. -/
def partitionPoint {α : Type} (p : α → Bool) (l : List α) : ℕ :=
  l.findIdx fun x => !p x

lemma take_partitionPoint {α : Type} (p : α → Bool) (l : List α) : l.take (partitionPoint p l) = l.takeWhile p :=
  List.takeWhile_eq_take_findIdx_not.symm

lemma drop_partitionPoint {α : Type} (p : α → Bool) (l : List α) : l.drop (partitionPoint p l) = l.dropWhile p :=
  List.dropWhile_eq_drop_findIdx_not.symm

/-! ## The operations -/

variable (ranges : List ByteRange)

def coversIn (range : ByteRange) : Bool :=
  let index := partitionPoint (fun existing => decide (existing.endExclusive ≤ range.offset)) ranges
  match ranges[index]? with
  | some existing => decide (existing.offset ≤ range.offset)
      && decide (existing.endExclusive ≥ range.endExclusive)
  | none => false

def mergedInto (range : ByteRange) : List ByteRange :=
  let firstMerged :=
    partitionPoint (fun existing => decide (existing.endExclusive < range.offset)) ranges
  let nextUnmerged := firstMerged
    + partitionPoint (fun existing => decide (existing.offset ≤ range.endExclusive)) (ranges.drop firstMerged)
  let mergedRanges := (ranges.drop firstMerged).take (nextUnmerged - firstMerged)
  let combined := mergedRanges.foldl ByteRange.covering range
  ranges.take firstMerged ++ combined :: ranges.drop nextUnmerged

/-- Inserts one range and merges all overlapping or adjacent ranges: the answer, and the vector after the
call. -/
def insertInto (range : ByteRange) (totalSize : ℕ) : Except CloudFilesCoreError Bool × List ByteRange :=
  if range.endExclusive > totalSize then
    (.error (.invalidContentStorageState "cached range exceeds the content size"), ranges)
  else if coversIn ranges range then (.ok false, ranges)
  else if (mergedInto ranges range).length > maxRanges then
    (.error (.invalidContentStorageState
      "provider cache range fragmentation exceeds the supported limit"), ranges)
  else (.ok true, mergedInto ranges range)

def isCompleteIn (totalSize : ℕ) : Bool :=
  if totalSize = 0 then true
  else
    match ranges with
    | [range] => range.offset == 0 && range.endExclusive == totalSize
    | _ => false

def bytesOf : Set ℕ :=
  covered ByteRange.offset ByteRange.endExclusive ranges

/-- The normal form: ascending, with a gap between any two ranges, and within the content. -/
structure Normalized (totalSize : ℕ) (ranges : List ByteRange) : Prop where
  separated : Separated ByteRange.offset ByteRange.endExclusive ranges
  within : ∀ range ∈ ranges, range.endExclusive ≤ totalSize

/-! ## The positions that the partition points name -/

lemma coversIn_eq (r : ByteRange) : coversIn ranges r =
      match (ranges.dropWhile fun e =>
          decide (e.endExclusive ≤ r.offset)).head? with
      | some e => decide (e.offset ≤ r.offset) && decide (r.endExclusive ≤ e.endExclusive)
      | none => false := by
  simp only [coversIn]
  rw [← drop_partitionPoint, List.head?_drop]

lemma mergedInto_eq (r : ByteRange) : mergedInto ranges r =
    before endExclusive r.offset ranges ++ (touching offset endExclusive r.offset r.endExclusive
        ranges).foldl covering r
      :: after offset endExclusive r.offset r.endExclusive ranges := by
  simp only [mergedInto, before, touching, after]
  rw [Nat.add_sub_cancel_left, ← List.drop_drop, take_partitionPoint, drop_partitionPoint,
    take_partitionPoint, drop_partitionPoint]

/-- The vector and the set agree: on the ranges of a `ContentRangeSet` the insertion succeeds exactly when
that of the set does, with the same answer and the same ranges. -/
lemma insertInto_eq (set : ContentRangeSet) (r : ByteRange) (totalSize : ℕ) : insertInto set.ranges r totalSize =
      match set.insert r totalSize with
      | .ok (changed, set') => (.ok changed, set'.ranges)
      | .error e => (.error e, set.ranges) := by
  have hcovers : coversIn set.ranges r = set.covers r := coversIn_eq _ _
  have hmerged : mergedInto set.ranges r = set.merged r := mergedInto_eq _ _
  unfold insertInto ContentRangeSet.insert
  rw [hcovers, hmerged]
  split_ifs
  · rfl
  · rfl
  · rfl
  · rfl

/-! ## What the operations do to the bytes -/

variable {ts : ℕ} {rn : List ByteRange}

lemma coversIn_iff (hn : Normalized ts rn) (r : ByteRange) : coversIn rn r = true ↔ r.bytes ⊆ bytesOf rn := by
  rw [bytes, bytesOf, subset_covered_iff r.lt_endExclusive hn.separated, coversIn_eq]
  cases (rn.dropWhile fun e => decide (e.endExclusive ≤ r.offset)).head? with
  | none => simp
  | some e => simp

lemma Normalized.lt_of_mem (hn : Normalized ts rn) {x : ℕ} (hm : x ∈ bytesOf rn) : x < ts := by
  obtain ⟨r, hr, -, hlt⟩ := hm
  exact hlt.trans_le (hn.within r hr)

lemma Normalized.end_le_of_subset (hn : Normalized ts rn) {r : ByteRange} (hs : r.bytes ⊆ bytesOf rn) :
    r.endExclusive ≤ ts := by
  have hpos := r.lt_endExclusive
  have hlast : r.endExclusive - 1 ∈ r.bytes := ⟨by omega, by omega⟩
  have hlt := hn.lt_of_mem (hs hlast)
  omega

lemma bytesOf_mergedInto (hn : Normalized ts rn)
    (r : ByteRange) : bytesOf (mergedInto rn r) = bytesOf rn ∪ r.bytes := by
  rw [mergedInto_eq]
  exact covered_merge lt_endExclusive hn.separated (ContentRangeSet.foldl_covering _ r)

/-- Merging keeps the normal form.  That the merged range ends within the content follows from its bytes:
its last one is a byte of the vector or of the range. -/
lemma Normalized.mergedInto {totalSize : ℕ} {ranges : List ByteRange} (hn : Normalized totalSize ranges)
    {r : ByteRange} (hs : r.endExclusive ≤ totalSize) : Normalized totalSize (mergedInto ranges r) := by
  refine ⟨?_, fun m hm => ?_⟩
  · rw [mergedInto_eq]
    exact separated_merge lt_endExclusive hn.separated (ContentRangeSet.foldl_covering _ r)
  · have hpos := m.lt_endExclusive
    have hlast : m.endExclusive - 1 ∈ bytesOf (Core.mergedInto ranges r) :=
      ⟨m, hm, by omega, by omega⟩
    rw [bytesOf_mergedInto hn] at hlast
    rcases hlast with h | ⟨-, hnw⟩
    · have hlt := hn.lt_of_mem h
      omega
    · omega

/-- **Completeness**: in normal form two or more ranges leave a gap, so only a single range can be everything. -/
lemma isCompleteIn_iff (hn : Normalized ts rn) : isCompleteIn rn ts = true ↔ {x | x < ts} ⊆ bytesOf rn := by
  unfold isCompleteIn
  by_cases hempty : ts = 0
  · simp [hempty]
  rw [if_neg hempty]
  match rn, hn with
  | [], _ =>
    have hf : ¬ {x | x < ts} ⊆ bytesOf [] := by
      intro ha
      obtain ⟨r, hm, -⟩ := ha (show 0 ∈ {x | x < ts} from Nat.pos_of_ne_zero hempty)
      cases hm
    simp [hf]
  | [r], hn =>
    have hwithin := hn.within r List.mem_cons_self
    simp only [Bool.and_eq_true, beq_iff_eq]
    constructor
    · rintro ⟨hs, he⟩ x hx
      exact ⟨r, List.mem_cons_self, hs ▸ Nat.zero_le x, he.symm ▸ hx⟩
    · intro ha
      obtain ⟨first, hf, hs, -⟩ :=
        ha (show 0 ∈ {x | x < ts} from Nat.pos_of_ne_zero hempty)
      obtain ⟨l, hl, -, he⟩ :=
        ha (show ts - 1 ∈ {x | x < ts} from Nat.sub_one_lt hempty)
      obtain rfl := List.mem_singleton.mp hf
      obtain rfl := List.mem_singleton.mp hl
      omega
  | r :: next :: rest, hn =>
    -- the byte right after the first range is in no range
    have hgap : ¬ {x | x < ts} ⊆ bytesOf (r :: next :: rest) := by
      intro ha
      obtain ⟨hf, hr⟩ := List.pairwise_cons.mp hn.separated
      have hnext := hf next List.mem_cons_self
      have hwithin := hn.within next (List.mem_cons_of_mem _ List.mem_cons_self)
      have hpos := next.lt_endExclusive
      obtain ⟨f, hm, hlw, hh⟩ :=
        ha (show r.endExclusive ∈ {x | x < ts} from by
          show r.endExclusive < ts
          omega)
      rcases List.mem_cons.mp hm with rfl | hm
      · omega
      · have hlater := hf f hm
        omega
    simp [hgap]

/-- The extension that `covering` adds: the end it is measured from is not past the common end, and the
prolonged length never reaches the point where the addition saturates. -/
lemma covering_exact (r o : ByteRange) :
    let first := if r.offset ≤ o.offset then r else o
    let s := max r.endExclusive o.endExclusive
    first.endExclusive ≤ s ∧ (r.covering o).length = min (first.length + (s - first.endExclusive)) u64Max
      ∧ first.length + (s - first.endExclusive) ≤ u64Max := by
  intro first s
  have hend := (r.covering o).end_le
  by_cases hle : r.offset ≤ o.offset
  · have hfirst : first = r := if_pos hle
    have hlen : (r.covering o).length = r.length + (s - r.endExclusive) := by
      rw [covering, if_pos hle]
    rw [hfirst, ← hlen]
    have hfits : (r.covering o).length ≤ u64Max := by omega
    exact ⟨le_max_left _ _, (min_eq_left hfits).symm, hfits⟩
  · have hfirst : first = o := if_neg hle
    have hlen : (r.covering o).length = o.length + (s - o.endExclusive) := by
      rw [covering, if_neg hle]
    rw [hfirst, ← hlen]
    have hfits : (r.covering o).length ≤ u64Max := by omega
    exact ⟨le_max_right _ _, (min_eq_left hfits).symm, hfits⟩

/-! ## The set of bytes -/

/-- **A vector of ranges is an exact set of bytes.**  Insertion keeps the normal form and adds exactly the bytes
of the range; it answers `false` exactly for a range that was covered, and fails, with the vector as it was,
exactly for a range past the content or one whose merging leaves too many ranges. -/
theorem content_ranges_exact (totalSize : ℕ) (ranges : List ByteRange) (range : ByteRange)
    (hnormal : Normalized totalSize ranges) :
    let answer := (insertInto ranges range totalSize).1
    let ranges' := (insertInto ranges range totalSize).2
    (Normalized totalSize ranges'
      ∧ (∀ changed, answer = .ok changed → bytesOf ranges' = bytesOf ranges ∪ range.bytes)
      ∧ (answer = .ok false ↔ range.bytes ⊆ bytesOf ranges)
      ∧ ((∃ error, answer = .error error) ↔ totalSize < range.endExclusive
          ∨ (¬ range.bytes ⊆ bytesOf ranges ∧ maxRanges < (mergedInto ranges range).length))
      ∧ ∀ error, answer = .error error → ranges' = ranges)
    ∧ (coversIn ranges range = true ↔ range.bytes ⊆ bytesOf ranges)
    ∧ (isCompleteIn ranges totalSize = true ↔ {x | x < totalSize} ⊆ bytesOf ranges)
    ∧ (∀ existing ∈ range :: (ranges ++ ranges'), existing.offset + existing.length ≤ u64Max)
    ∧ ∀ left right : ByteRange,
        let first := if left.offset ≤ right.offset then left else right
        let stop := max left.endExclusive right.endExclusive
        first.endExclusive ≤ stop
          ∧ (left.covering right).length = min (first.length + (stop - first.endExclusive)) u64Max
          ∧ first.length + (stop - first.endExclusive) ≤ u64Max := by
  intro answer ranges'
  have hcovers := coversIn_iff hnormal range
  refine ⟨?_, hcovers, isCompleteIn_iff hnormal, fun existing _ => existing.end_le, covering_exact⟩
  simp only [answer, ranges', insertInto]
  rw [← hcovers]
  split_ifs with hsize hc hlen
  case pos =>
      have hoff : ¬ coversIn ranges range = true := by
        intro hc
        exact absurd (hnormal.end_le_of_subset (hcovers.mp hc)) (Nat.not_le.mpr hsize)
      simp [hnormal, hsize, hoff]
  case pos =>
      have hunion : bytesOf ranges = bytesOf ranges ∪ range.bytes :=
        (Set.union_eq_left.mpr (hcovers.mp hc)).symm
      simp [hnormal, hc, ← hunion, Nat.le_of_not_lt hsize]
  case pos => simp [hnormal, hc, hlen]
  case neg =>
      have hwithin := Nat.le_of_not_lt hsize
      have hunion := bytesOf_mergedInto hnormal range
      simp [hnormal.mergedInto hwithin, hc, hunion, hwithin, Nat.le_of_not_lt hlen]

/-- Two ranges with a gap of four bytes, and the range that fills it. -/
theorem content_ranges_exact_gap :
    bytesOf (insertInto [⟨0, 4, by decide, by decide⟩, ⟨8, 8, by decide, by decide⟩]
        ⟨4, 4, by decide, by decide⟩ 16).2 =
      bytesOf [⟨0, 4, by decide, by decide⟩, ⟨8, 8, by decide, by decide⟩]
        ∪ bytes ⟨4, 4, by decide, by decide⟩ :=
  (content_ranges_exact 16 [⟨0, 4, by decide, by decide⟩, ⟨8, 8, by decide, by decide⟩]
    ⟨4, 4, by decide, by decide⟩
    ⟨by simp [Separated, endExclusive], by simp [endExclusive]⟩).1.2.1 true (by decide)

/-! ## Sequences of insertions -/

/-- An insertion that succeeds. -/
def Inserts (totalSize : ℕ) (set : ContentRangeSet) (range : ByteRange) (set' : ContentRangeSet) : Prop :=
  ∃ changed, set.insert range totalSize = .ok (changed, set')

variable {rn' : List ByteRange} {set a b : ContentRangeSet}

lemma coverage_inserts (h : Run (Inserts ts) set rn a) : a.coverage = set.coverage ∪ bytesOf rn := by
  induction h with
  | nil s => simp [bytesOf, covered]
  | @cons s t u r rn hs _ ih =>
    obtain ⟨c, hi⟩ := hs
    rw [ih, ContentRangeSet.coverage_insert hi, Set.union_assoc]
    congr 1
    ext x
    simp [bytesOf, covered, bytes]

/-- **The order of insertions does not matter**, nor how the bytes are divided between them. -/
theorem inserts_order (h : Run (Inserts ts) set rn a) (h' : Run (Inserts ts) set rn' b)
    (hs : bytesOf rn = bytesOf rn') : a = b := by
  have hcoverage : a.coverage = b.coverage := by rw [coverage_inserts h, coverage_inserts h', hs]
  have hinj : ∀ r q : ByteRange, r.offset = q.offset → r.endExclusive = q.endExclusive → r = q := by
    intro r q ho he
    simp only [endExclusive, ho, Nat.add_left_cancel_iff] at he
    exact ByteRange.ext ho he
  have hranges := eq_of_covered_eq lt_endExclusive hinj a.separated b.separated hcoverage
  cases a
  cases b
  cases hranges
  rfl

def halves : List ByteRange := [⟨0, 2, Nat.two_pos, by decide⟩, ⟨2, 2, Nat.two_pos, by decide⟩]

/-- Two ranges in either order. -/
theorem inserts_order_halves : ∃ a b, Run (Inserts 4) .empty halves a ∧
    Run (Inserts 4) .empty halves.reverse b ∧ a = b := by
  have h : Run (Inserts 4) .empty halves _ := .cons ⟨true, rfl⟩ (.cons ⟨true, rfl⟩ (.nil _))
  have h' : Run (Inserts 4) .empty halves.reverse _ := .cons ⟨true, rfl⟩ (.cons ⟨true, rfl⟩ (.nil _))
  exact ⟨_, _, h, h', inserts_order h h' (by simp [bytesOf, covered])⟩

end AsterForge.Core
