import AsterForge.Library.IntervalComponents
import AsterForge.Webdav.Ranges

/-!
# What coalescing computes

`coalesceRanges` takes the ranges in the order of the request and merges each of them with the ranges so far
that are close, which may bring it close to others.  This file shows that the result does not depend on any
of that: it is the list of the connected components of the ranges under closeness, in the order in which the
request first mentions each.

* `CoalescedRanges` — the invariant after some of the ranges: components, of one representation, ordered.
* `absorb_spans` — the scan for close ranges: what it merges fills one interval, and where it stands.
* **`coalesceRange_components`** — one more range keeps the invariant.
* **`coalesce_ranges_components`** — the components, whatever the order of the request, with the order of
  the outputs and the bound on their lengths.
-/

namespace AsterForge.Webdav

open AsterForge.Core Library HttpByteRange

def rangesIn (ranges : List HttpByteRange) : Set HttpByteRange := {range | range ∈ ranges}

abbrev HttpByteRange.Within (range output : HttpByteRange) : Prop :=
  Inside HttpByteRange.start HttpByteRange.stop range output.start output.stop

def earliest (ranges : List HttpByteRange) (output : HttpByteRange) : ℕ :=
  ranges.findIdx fun range => decide (output.start ≤ range.start) && decide (range.stop ≤ output.stop)

variable {mg : ℕ}

lemma rangesAreClose_iff {ls l rs re : ℕ} (hl : ls ≤ l) (hr : rs ≤ re) :
    rangesAreClose ls l rs re mg = true ↔ Near mg ls l rs re := by
  rw [← Bool.not_eq_false, rangesAreClose_eq_false, Near]
  omega

lemma apart_iff {left right : HttpByteRange} :
    Apart mg left right ↔ ¬Near mg left.start left.stop right.start right.stop := by
  rw [Apart, ← rangesAreClose_iff left.ordered right.ordered, Bool.not_eq_true]

/-! ## The earliest constituent -/

variable {rn coalesced : List HttpByteRange} {output range : HttpByteRange} {ts : ℕ}
  {i : ℕ} {m : MergingRange} {mr : HttpByteRange}

lemma earliest_le (hi : i < rn.length) (hin : (rn[i]).Within output) : earliest rn output ≤ i := by
  by_contra hlt
  have hnot := List.not_of_lt_findIdx (Nat.lt_of_not_le hlt)
  simp only [Bool.and_eq_false_iff, decide_eq_false_iff_not] at hnot
  exact hnot.elim (fun h => h hin.1) fun h => h hin.2

lemma earliest_within (hm : range ∈ rn) (hin : range.Within output) :
    ∃ hlt : earliest rn output < rn.length, (rn[earliest rn output]).Within output := by
  have hlt : earliest rn output < rn.length :=
    List.findIdx_lt_length_of_exists ⟨range, hm, by simp [hin.1, hin.2]⟩
  refine ⟨hlt, ?_⟩
  have hfound := List.findIdx_getElem (w := hlt)
  simp only [Bool.and_eq_true, decide_eq_true_eq] at hfound
  exact hfound

lemma earliest_mono {o : HttpByteRange} (hm : range ∈ rn) (hin : range.Within o) (hw : o.Within output) :
    earliest rn output ≤ earliest rn o := by
  obtain ⟨hlt, hf⟩ := earliest_within hm hin
  exact earliest_le hlt (hf.trans hw.1 hw.2)

lemma earliest_append (hm : range ∈ rn) (hin : range.Within output) (m : List HttpByteRange) :
    earliest (rn ++ m) output = earliest rn output := by
  obtain ⟨hlt, -⟩ := earliest_within hm hin
  rw [earliest, List.findIdx_append]
  exact if_pos hlt

/-! ## The scan -/

/-- A range while the ranges close to it are merged into it, relative to the outputs `coalesced` before: what it
spans is filled by the ranges, every output was kept or is spanned, and its place is that of the first output
that it spans. -/
structure MergingRange.Spans (maximumGap : ℕ) (ranges : Set HttpByteRange) (coalesced : List HttpByteRange)
    (range : HttpByteRange) (merging : MergingRange) : Prop where
  filled : Filled HttpByteRange.start HttpByteRange.stop maximumGap ranges merging.start merging.stop
  holds : Inside HttpByteRange.start HttpByteRange.stop range merging.start merging.stop
  kept : ∀ output ∈ coalesced, output ∈ merging.coalesced ∨
    Inside HttpByteRange.start HttpByteRange.stop output merging.start merging.stop
  placed : ∃ before after after', coalesced = before ++ after ∧ merging.coalesced = before ++ after' ∧
    merging.insertion = before.length ∧ (after = [] ∧ after' = [] ∨
      ∃ first rest, after = first :: rest ∧ after'.Sublist rest ∧
        Inside HttpByteRange.start HttpByteRange.stop first merging.start merging.stop)

variable {ranges : Set HttpByteRange}

lemma MergingRange.Spans.sublist (h : m.Spans mg ranges coalesced range) : m.coalesced.Sublist coalesced := by
  obtain ⟨b, a, a', hcl, hl, -, hc⟩ := h.placed
  rw [hcl, hl]
  refine List.Sublist.append_left ?_ b
  rcases hc with ⟨-, rfl⟩ | ⟨first, r, rfl, hs, -⟩
  · exact List.nil_sublist _
  · exact hs.cons first

lemma MergingRange.Spans.placed_erase (h : m.Spans mg ranges coalesced range)
    (hi : i < m.coalesced.length) {s st : ℕ} (hst : s ≤ m.start) (hsp : m.stop ≤ st)
    (hcn : Inside HttpByteRange.start HttpByteRange.stop m.coalesced[i] s st) :
    ∃ b a a', coalesced = b ++ a ∧ m.coalesced.eraseIdx i = b ++ a' ∧
      min m.insertion i = b.length ∧ (a = [] ∧ a' = [] ∨ ∃ first r, a = first :: r ∧ a'.Sublist r ∧
          Inside HttpByteRange.start HttpByteRange.stop first s st) := by
  obtain ⟨b, a, a', hcl, hl, his, hc⟩ := h.placed
  have hs : a'.Sublist a := by
    rcases hc with ⟨-, rfl⟩ | ⟨first, r, rfl, hs, -⟩
    · exact List.nil_sublist _
    · exact hs.cons first
  by_cases hearl : i < b.length
  · -- an output before all those spanned so far
    have hget : m.coalesced[i] = b[i] := by
      simp only [hl, List.getElem_append_left hearl]
    refine ⟨b.take i, b.drop i ++ a, b.drop (i + 1) ++ a', ?_, ?_, ?_,
      .inr ⟨b[i], b.drop (i + 1) ++ a, ?_, ?_, hget ▸ hcn⟩⟩
    · rw [← List.append_assoc, List.take_append_drop, hcl]
    · rw [hl, List.eraseIdx_append_of_lt_length hearl, List.eraseIdx_eq_take_drop_succ, List.append_assoc]
    · rw [List.length_take]
      omega
    · rw [List.drop_eq_getElem_cons hearl, List.cons_append]
    · exact hs.append_left _
  · have hlater : b.length ≤ i := Nat.le_of_not_lt hearl
    refine ⟨b, a, a'.eraseIdx (i - b.length), hcl, ?_, ?_, .inr ?_⟩
    · rw [hl, List.eraseIdx_append_of_length_le hlater]
    · omega
    · rcases hc with ⟨-, rfl⟩ | ⟨first, r, hf, hr, hin⟩
      · rw [hl, List.append_nil] at hi
        omega
      · exact ⟨first, r, hf, (List.eraseIdx_sublist ..).trans hr, hin.trans hst hsp⟩

/-- **The scan.** -/
lemma absorb_spans {cl : List HttpByteRange} {r : HttpByteRange}
    (hf : ∀ output ∈ cl, Filled HttpByteRange.start HttpByteRange.stop mg ranges output.start output.stop) :
    ∀ (f : ℕ) (merging : MergingRange), merging.Spans mg ranges cl r →
      (absorb mg f merging).Spans mg ranges cl r
  | 0, _, h => h
  | f + 1, merging, h => by
    rw [absorb]
    cases hfind : merging.coalesced.findIdx? fun c =>
        rangesAreClose merging.start merging.stop c.start c.stop mg with
    | none => exact h
    | some i =>
      obtain ⟨hi, hc, -⟩ := List.findIdx?_eq_some_iff_getElem.mp hfind
      dsimp only
      rw [List.getElem?_eq_getElem hi]
      have hcand := hf _ (h.sublist.subset (List.getElem_mem hi))
      have hnear := (rangesAreClose_iff h.filled.ordered hcand.ordered).mp hc
      have hspanned : Inside HttpByteRange.start HttpByteRange.stop merging.coalesced[i]
          (min merging.start merging.coalesced[i].start) (max merging.stop merging.coalesced[i].stop) :=
        ⟨min_le_right _ _, le_max_right _ _⟩
      refine absorb_spans hf f _ ⟨h.filled.join HttpByteRange.ordered hcand hnear,
        h.holds.trans (min_le_left _ _) (le_max_left _ _), fun output hm => ?_,
        h.placed_erase hi (min_le_left _ _) (le_max_left _ _) hspanned⟩
      rcases h.kept output hm with hk | hin
      · obtain ⟨p, hp, rfl⟩ := List.getElem_of_mem hk
        by_cases hsame : p = i
        · subst hsame
          exact .inr hspanned
        · exact .inl (List.mem_eraseIdx_iff_getElem.mpr ⟨p, hp, hsame, rfl⟩)
      · exact .inr (hin.trans (min_le_left _ _) (le_max_left _ _))

/-! ## One more range -/

/-- **The invariant of the loop** over the ranges of the request. -/
structure CoalescedRanges (maximumGap totalSize : ℕ) (ranges coalesced : List HttpByteRange) : Prop where
  components : Components HttpByteRange.start HttpByteRange.stop maximumGap (rangesIn ranges) coalesced
  sized : ∀ output ∈ coalesced, output.totalSize = totalSize
  ordered : coalesced.Pairwise fun left right => earliest ranges left < earliest ranges right

lemma coalescedRanges_nil (maximumGap totalSize : ℕ) : CoalescedRanges maximumGap totalSize [] [] where
  components := ⟨.nil, by simp, by simp [rangesIn]⟩
  sized := by simp
  ordered := .nil

section

variable (h : CoalescedRanges mg ts rn coalesced)
include h

lemma CoalescedRanges.holds (hm : output ∈ coalesced) : ∃ range ∈ rn, range.Within output := by
  obtain ⟨range, hr, hin, -⟩ := (h.components.filled output hm).first HttpByteRange.ordered
  exact ⟨range, hr, hin⟩

lemma CoalescedRanges.spanned_of_within {left : List HttpByteRange}
    (ha : ∀ output ∈ left, ¬Near mg mr.start mr.stop output.start output.stop)
    (hm : range ∈ rn) (hin : range.Within mr) :
    ∃ output ∈ coalesced, range.Within output ∧ output ∉ left := by
  obtain ⟨output, ho, hio⟩ := h.components.total range hm
  exact ⟨output, ho, hio, fun hl =>
    ha output hl (hin.common HttpByteRange.ordered hio)⟩

lemma ordered_insert {b a a' : List HttpByteRange} (hc : coalesced = b ++ a)
    (hcs : a = [] ∧ a' = [] ∨ ∃ first r, a = first :: r ∧ a'.Sublist r ∧ first.Within mr)
    (hr : range.Within mr) (hap : ∀ output ∈ b ++ a', ¬Near mg mr.start mr.stop output.start output.stop) :
    (b ++ mr :: a').Pairwise fun left right =>
      earliest (rn ++ [range]) left < earliest (rn ++ [range]) right := by
  have hold : ∀ output ∈ coalesced, earliest (rn ++ [range]) output = earliest rn output := by
    intro output hm
    obtain ⟨i, hi, hin⟩ := h.holds hm
    exact earliest_append hi hin [range]
  have hord : (b ++ a).Pairwise fun left right =>
      earliest (rn ++ [range]) left < earliest (rn ++ [range]) right := by
    rw [← hc]
    refine h.ordered.imp_of_mem fun hl hrg hlt => ?_
    rw [hold _ hl, hold _ hrg]
    exact hlt
  obtain ⟨hb, ha, hcr⟩ := List.pairwise_append.mp hord
  have hsb : a'.Sublist a := by
    rcases hcs with ⟨-, rfl⟩ | ⟨first, r, rfl, hsb, -⟩
    · exact List.nil_sublist _
    · exact hsb.cons first
  refine List.pairwise_append.mpr ⟨hb, List.pairwise_cons.mpr ⟨fun output hm => ?_,
    ha.sublist hsb⟩, fun output hm o ho => ?_⟩
  · -- the merged range is at least as early as the first output that it spans
    rcases hcs with ⟨-, rfl⟩ | ⟨first, r, rfl, hrs, hin⟩
    · cases hm
    · have hlt := (List.pairwise_cons.mp ha).1 output (hrs.subset hm)
      have hf : first ∈ coalesced := by simp [hc]
      obtain ⟨i, hi, hif⟩ := h.holds hf
      exact (earliest_mono (List.mem_append_left _ hi) hif hin).trans_lt hlt
  · rcases List.mem_cons.mp ho with rfl | ho
    · -- its earliest constituent is the new range, or lies within an output that it spans
      by_contra hle
      have houtput : output ∈ coalesced := by simp [hc, hm]
      obtain ⟨i, hi, hin⟩ := h.holds houtput
      obtain ⟨hlt, -⟩ := earliest_within hi hin
      obtain ⟨hfl, hf⟩ := earliest_within (List.mem_append_right rn (List.mem_singleton_self range)) hr
      rw [hold output houtput, Nat.not_lt] at hle
      have hindex := hle.trans_lt hlt
      rw [List.getElem_append_left hindex] at hf
      obtain ⟨s, hs, his, hg⟩ :=
        h.spanned_of_within hap (List.getElem_mem hindex) hf
      have hmemAfter : s ∈ a := by
        rw [hc] at hs
        exact (List.mem_append.mp hs).resolve_left fun hm' =>
          hg (List.mem_append_left _ hm')
      have hlate := hcr output hm s hmemAfter
      have hearly := earliest_le hindex his
      rw [hold output houtput, hold s hs] at hlate
      omega
    · exact hcr output hm o (hsb.subset ho)

end

lemma insertIdx_append_length (r : HttpByteRange) (a : List HttpByteRange) :
    ∀ b : List HttpByteRange, (b ++ a).insertIdx b.length r = b ++ r :: a
  | [] => rfl
  | first :: b => by
    rw [List.cons_append, List.length_cons, List.insertIdx_succ_cons, insertIdx_append_length r a b,
      List.cons_append]

/-- **One more range** keeps the invariant. -/
theorem coalesceRange_components (h : CoalescedRanges mg ts rn coalesced) (hr : range.totalSize = ts) :
    ∃ next, coalesceRange mg coalesced range = .ok next ∧ CoalescedRanges mg ts (rn ++ [range]) next := by
  have hgrow : rangesIn rn ⊆ rangesIn (rn ++ [range]) := fun _ hm => List.mem_append_left _ hm
  have hnew : range ∈ rangesIn (rn ++ [range]) := List.mem_append_right _ (List.mem_singleton_self range)
  have hfilled : ∀ output ∈ coalesced, Filled start stop mg
      (rangesIn (rn ++ [range])) output.start output.stop :=
    fun output hm => (h.components.filled output hm).mono hgrow
  have hfits := absorb_fits mg h.sized coalesced.length ⟨range.start, range.stop, coalesced.length, coalesced⟩
    ⟨range.ordered, hr ▸ range.within, List.Sublist.refl _, le_rfl⟩
  have hscan := absorb_apart mg coalesced.length ⟨range.start, range.stop, coalesced.length, coalesced⟩ le_rfl
  have hspans := absorb_spans hfilled coalesced.length ⟨range.start, range.stop, coalesced.length, coalesced⟩
    ⟨.single ordered hnew, ⟨le_rfl, le_rfl⟩, fun _ hm => .inl hm,
      coalesced, [], [], by simp, by simp, rfl, .inl ⟨rfl, rfl⟩⟩
  unfold coalesceRange
  generalize absorb mg coalesced.length
    ⟨range.start, range.stop, coalesced.length, coalesced⟩ = m at hfits hscan hspans ⊢
  obtain ⟨b, a, a', hcl, hl, hi, hc⟩ := hspans.placed
  let mr : HttpByteRange :=
    ⟨m.start, m.stop, range.totalSize, hfits.ordered, hr ▸ hfits.within⟩
  have hmerged : new m.start m.stop range.totalSize = .ok mr := by
    have hpos : range.totalSize ≠ 0 := by
      have := hfits.within
      omega
    rw [new, if_neg hpos, dif_pos ⟨hfits.ordered, hr ▸ hfits.within⟩]
  have hapart : ∀ output ∈ b ++ a', ¬Near mg mr.start mr.stop output.start output.stop := by
    intro output hm
    exact apart_iff.mp (hscan output (hl ▸ hm))
  have hm : ∀ output, output ∈ b ++ mr :: a' ↔ output = mr ∨ output ∈ m.coalesced := by
    intro output
    rw [hl, List.mem_append, List.mem_append, List.mem_cons]
    tauto
  dsimp only
  rw [hmerged, hl, hi]
  refine ⟨_, rfl, ?_⟩
  rw [insertIdx_append_length]
  have hperm : (b ++ mr :: a').Perm (mr :: (b ++ a')) := List.perm_middle
  refine ⟨⟨?_, fun output ho => ?_, fun o hot => ?_⟩, fun output ho => ?_,
    ordered_insert h hcl hc hspans.holds hapart⟩
  · refine (hperm.pairwise_iff fun hnt hn => hnt hn.symm).mpr (List.pairwise_cons.mpr ⟨hapart, ?_⟩)
    exact h.components.apart.sublist (hl ▸ hspans.sublist)
  · rcases (hm output).mp ho with rfl | hk
    · exact hspans.filled
    · exact hfilled output (hspans.sublist.subset hk)
  · rcases List.mem_append.mp hot with hot | hot
    · obtain ⟨output, ho, hin⟩ := h.components.total o hot
      rcases hspans.kept output ho with hk | hs
      · exact ⟨output, (hm output).mpr (.inr hk), hin⟩
      · exact ⟨mr, (hm mr).mpr (.inl rfl), hin.trans hs.1 hs.2⟩
    · obtain rfl := List.mem_singleton.mp hot
      exact ⟨mr, (hm mr).mpr (.inl rfl), hspans.holds⟩
  · rcases (hm output).mp ho with rfl | hk
    · exact hr
    · exact h.sized output (hspans.sublist.subset hk)

/-! ## All ranges of a request -/

lemma coalescedRanges_foldlM {s : List HttpByteRange} (h : CoalescedRanges mg ts s coalesced)
    (ht : ∀ range ∈ rn, range.totalSize = ts) :
    ∃ next, rn.foldlM (coalesceRange mg) coalesced = .ok next ∧ CoalescedRanges mg ts (s ++ rn) next := by
  induction rn generalizing s coalesced with
  | nil => exact ⟨coalesced, rfl, by rwa [List.append_nil]⟩
  | cons range rn ih =>
    obtain ⟨next, hn, hc⟩ := coalesceRange_components h (ht range List.mem_cons_self)
    obtain ⟨l, hl, hr⟩ := ih hc fun o hm => ht o (List.mem_cons_of_mem _ hm)
    refine ⟨l, ?_, ?_⟩
    · rw [List.foldlM_cons, hn]
      exact hl
    · rwa [List.append_assoc] at hr

/-- **Coalescing computes the components** of the ranges, in the order of their earliest constituents. -/
theorem coalesceRanges_components (maximumGap : ℕ) (ht : ∀ range ∈ rn, range.totalSize = ts) :
    ∃ coalesced, coalesceRanges rn maximumGap = .ok coalesced ∧ CoalescedRanges maximumGap ts rn coalesced :=
  coalescedRanges_foldlM (coalescedRanges_nil maximumGap ts) ht

lemma CoalescedRanges.subset {r' c' : List HttpByteRange} (h : CoalescedRanges mg ts rn coalesced)
    (h' : CoalescedRanges mg ts r' c') (hs : ∀ range, range ∈ rn ↔ range ∈ r') (hm : output ∈ coalesced) :
    output ∈ c' := by
  have hset : rangesIn rn = rangesIn r' := Set.ext hs
  obtain ⟨o, ho, hst, hsp⟩ :=
    (hset ▸ h.components).unique HttpByteRange.ordered h'.components hm
  have hsize := (h'.sized o ho).trans (h.sized output hm).symm
  have heq : o = output := by
    cases o
    simp_all
  exact heq ▸ ho

def CloseIn (maximumGap : ℕ) (ranges : List HttpByteRange) (left right : HttpByteRange) : Prop :=
  left ∈ ranges ∧ right ∈ ranges ∧
    rangesAreClose left.start left.stop right.start right.stop maximumGap = true

lemma linked_eq (ranges : List HttpByteRange) :
    Linked start stop mg (rangesIn ranges) = CloseIn mg ranges := by
  funext left right
  rw [CloseIn, rangesAreClose_iff left.ordered right.ordered]
  rfl

/-- **Coalescing returns the connected components of closeness**, for every list of ranges of one representation
and every gap: the outputs are not close to each other; every range lies within exactly one of them, and two
ranges lie within the same one exactly if they are connected; an output has only bytes of ranges within it and
of gaps between them that are permitted.  The outputs are the same for every order of the ranges and stand in
the order of their earliest constituents, and their lengths add up, without overflow, to no more than the size
of the representation. -/
theorem coalesce_ranges_components (maximumGap totalSize : ℕ) (ranges : List HttpByteRange)
    (htotal : ∀ range ∈ ranges, range.totalSize = totalSize) :
    ∃ coalesced, coalesceRanges ranges maximumGap = .ok coalesced ∧ coalesced.Pairwise (Apart maximumGap)
      ∧ (∀ range ∈ ranges, ∃! output, output ∈ coalesced ∧ range.Within output)
      ∧ (∀ range ∈ ranges, ∀ other ∈ ranges,
          (∃ output ∈ coalesced, range.Within output ∧ other.Within output) ↔
            Relation.ReflTransGen (CloseIn maximumGap ranges) range other)
      ∧ (∀ output ∈ coalesced, ∀ x, output.start ≤ x → x ≤ output.stop →
          (∃ range ∈ ranges, range.Within output ∧ range.start ≤ x ∧ x ≤ range.stop)
            ∨ ∃ left ∈ ranges, ∃ right ∈ ranges, left.Within output ∧ right.Within output
              ∧ left.stop < x ∧ x < right.start ∧ right.start - left.stop - 1 ≤ maximumGap)
      ∧ (∀ ranges' coalesced', (∀ range, range ∈ ranges' ↔ range ∈ ranges) →
          coalesceRanges ranges' maximumGap = .ok coalesced' → ∀ output, output ∈ coalesced' ↔ output ∈ coalesced)
      ∧ coalesced.Pairwise (fun left right => earliest ranges left < earliest ranges right)
      ∧ (coalesced.map length).sum ≤ totalSize
      ∧ (totalSize ≤ u64Max → coalesced.foldlM
          (fun length (range : HttpByteRange) => addWithin u64Max length range.length) 0 =
            (.ok (coalesced.map length).sum : Outcome DavDownloadPlanError ℕ)) := by
  obtain ⟨coalesced, hc, h⟩ := coalesceRanges_components maximumGap htotal
  have hapart : coalesced.Pairwise (Apart maximumGap) := h.components.apart.imp apart_iff.mpr
  have hsum := sum_length_le h.sized hapart
  refine ⟨coalesced, hc, hapart, fun range hm => h.components.existsUnique ordered hm,
    fun range hm other ho => ?_, fun output hm => (h.components.filled output hm).position,
    fun ranges' coalesced' hs hc' output => ?_, h.ordered, hsum, fun hsz => ?_⟩
  · rw [← linked_eq]
    exact h.components.together_iff ordered hm ho
  · have htotal' : ∀ range ∈ ranges', range.totalSize = totalSize :=
      fun range hm => htotal range ((hs range).mp hm)
    obtain ⟨_, heq, h'⟩ := coalesceRanges_components maximumGap htotal'
    obtain rfl := Except.ok.inj (hc'.symm.trans heq)
    exact ⟨h'.subset h hs, h.subset h' fun range => (hs range).symm⟩
  · have hfold := foldlM_addWithin 0 (by rw [Nat.zero_add]; exact hsum.trans hsz)
    rwa [Nat.zero_add] at hfold

/-- A chain that is named out of order: the two ends are not close, and the range between them joins them. -/
theorem coalesce_ranges_components_chain :
    ∃ coalesced, coalesceRanges [⟨10, 12, 20, by decide, by decide⟩, ⟨0, 1, 20, by decide, by decide⟩,
        ⟨2, 9, 20, by decide, by decide⟩] 0 = .ok coalesced ∧ coalesced.Pairwise (Apart 0) := by
  obtain ⟨coalesced, hc, ha, -⟩ := coalesce_ranges_components 0 20
    [⟨10, 12, 20, by decide, by decide⟩, ⟨0, 1, 20, by decide, by decide⟩, ⟨2, 9, 20, by decide, by decide⟩]
    (by simp)
  exact ⟨coalesced, hc, ha⟩

end AsterForge.Webdav
