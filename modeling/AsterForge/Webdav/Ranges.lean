import AsterForge.Core.Error
import AsterForge.Library.Bytes
import AsterForge.Library.Text
import Mathlib.Order.Interval.Finset.Nat

/-!
# Byte ranges of a representation

A range header is read into ranges of the representation, and close ranges are merged before any of
them is opened.
-/

namespace AsterForge.Webdav

open AsterForge.Core Library Finset

/-! ## Ranges -/

structure HttpByteRange where
  start : ℕ
  stop : ℕ
  totalSize : ℕ
  ordered : start ≤ stop
  within : stop < totalSize
  deriving DecidableEq

def HttpByteRange.length (range : HttpByteRange) : ℕ := range.stop - range.start + 1

/-- Stable failure categories for byte-range requests. -/
inductive HttpRangeError
  | unsupportedUnit
  | multipleRangesUnsupported
  | headerTooLong
  | tooManyRanges
  | malformed
  | invalidNumber
  | emptyRepresentation
  | unsatisfiable
  deriving DecidableEq

/-- Validates bounds against the representation length. -/
def HttpByteRange.new (start stop totalSize : ℕ) : Except HttpRangeError HttpByteRange :=
  if totalSize = 0 then .error .emptyRepresentation
  else if h : start ≤ stop ∧ stop < totalSize then .ok ⟨start, stop, totalSize, h.1, h.2⟩
  else .error .unsatisfiable

structure HttpByteRangeSet where
  requestedCount : ℕ
  ranges : List HttpByteRange
  deriving DecidableEq

/-! ## The range header -/

/-- A decimal `u64`, with an optional plus sign. -/
def parseBound (value : Text) : Except HttpRangeError ℕ :=
  let digits := if value.head? = some '+' then value.tail else value
  let number := digits.foldl (fun number digit => number * 10 + (digit.toNat - '0'.toNat)) 0
  if digits ≠ [] ∧ digits.all Char.isDigit ∧ number ≤ u64Max then .ok number
  else .error .invalidNumber

def parseLastBound (value : Text) : Except HttpRangeError (Option ℕ) :=
  if value = [] then .ok none else (parseBound value).map some

def parseByteRangeSpec (spec : Text) (totalSize : ℕ) : Except HttpRangeError (Option HttpByteRange) := do
  let (startRaw, endRaw) ← okOr .malformed (splitOnce '-' spec)
  refuse (startRaw = [] ∧ endRaw = []) .malformed
  if startRaw = [] then
    let suffixLength ← parseBound endRaw
    if suffixLength = 0 ∨ totalSize = 0 then return none
    let length := min suffixLength totalSize
    let range ← HttpByteRange.new (totalSize - length) (totalSize - 1) totalSize
    return some range
  else
    let start ← parseBound startRaw
    let stop ← parseLastBound endRaw
    refuse (∃ stop' ∈ stop, stop' < start) .malformed
    if totalSize = 0 ∨ totalSize ≤ start then return none
    let range ← HttpByteRange.new start (min (stop.getD (totalSize - 1)) (totalSize - 1)) totalSize
    return some range

/-- Parses a `bytes` range-set with raw-input bounds; the text is ASCII. -/
def parseByteRanges (raw : Text) (totalSize maximumRawBytes maximumSpecs : ℕ) :
    Except HttpRangeError HttpByteRangeSet := do
  refuse (maximumRawBytes < raw.length) .headerTooLong
  let (unit, rangeSet) ← okOr .unsupportedUnit (splitOnce '=' (trimStart raw))
  refuse (eqIgnoreAsciiCase unit "bytes".toList = false) .unsupportedUnit
  let specs := ((rangeSet.splitOn ',').map trim).filter fun spec => spec ≠ []
  refuse (specs.length = 0) .malformed
  refuse (maximumSpecs < specs.length) .tooManyRanges
  let ranges ← specs.mapM fun spec => parseByteRangeSpec spec totalSize
  let ranges := ranges.filterMap id
  refuse (ranges = []) (if totalSize = 0 then HttpRangeError.emptyRepresentation else .unsatisfiable)
  return ⟨specs.length, ranges⟩

example : parseByteRanges "bytes=, 0-99, , -100,".toList 20 24 2 =
    .ok ⟨2, [⟨0, 19, 20, by decide, by decide⟩, ⟨0, 19, 20, by decide, by decide⟩]⟩ := by decide

/-! ## Coalescing -/

def rangesAreClose (leftStart leftEnd rightStart rightEnd maximumGap : ℕ) : Bool :=
  if leftEnd < rightStart then rightStart - leftEnd - 1 ≤ maximumGap
  else if rightEnd < leftStart then leftStart - rightEnd - 1 ≤ maximumGap
  else true

inductive DavDownloadPlanError
  | invalidRepresentation

/-- A range while the ranges close to it are merged into it: its bounds, where it will stand, and the
ranges that are left. -/
structure MergingRange where
  start : ℕ
  stop : ℕ
  insertion : ℕ
  coalesced : List HttpByteRange

/-- The scan of the coalesced ranges, which starts over after every merge; each merge leaves one range
less, and `fuel` is their number. -/
def absorb (maximumGap : ℕ) : ℕ → MergingRange → MergingRange
  | 0, merging => merging
  | fuel + 1, merging =>
    match merging.coalesced.findIdx? fun candidate =>
      rangesAreClose merging.start merging.stop candidate.start candidate.stop maximumGap with
    | none => merging
    | some index =>
      match merging.coalesced[index]? with
      | none => merging
      | some candidate =>
        absorb maximumGap fuel
          { start := min merging.start candidate.start
            stop := max merging.stop candidate.stop
            insertion := min merging.insertion index
            coalesced := merging.coalesced.eraseIdx index }

def coalesceRange (maximumGap : ℕ) (coalesced : List HttpByteRange) (range : HttpByteRange) :
    Except DavDownloadPlanError (List HttpByteRange) := do
  let merging := absorb maximumGap coalesced.length ⟨range.start, range.stop, coalesced.length, coalesced⟩
  let merged ← (HttpByteRange.new merging.start merging.stop range.totalSize).mapError fun _ =>
    .invalidRepresentation
  return merging.coalesced.insertIdx merging.insertion merged

/-- `coalesce_ranges`. -/
def coalesceRanges (ranges : List HttpByteRange) (maximumGap : ℕ) :
    Except DavDownloadPlanError (List HttpByteRange) :=
  ranges.foldlM (coalesceRange maximumGap) []

/-! ## Planning -/

structure DavMultiRangeLimits where
  maximumHeaderBytes : ℕ
  maximumRawRanges : ℕ
  maximumSegments : ℕ
  maximumAggregateBytes : ℕ
  maximumBackendOpens : ℕ

/-- Response policy when a multi-range request exceeds a hard bound. -/
inductive DavRangeLimitBehavior
  | ignoreRange
  | rangeNotSatisfiable

structure DavMultiRangePolicy where
  limits : DavMultiRangeLimits
  coalesceGapBytes : ℕ
  limitBehavior : DavRangeLimitBehavior

/-- What of the representation is served. -/
inductive DavRangeSelection
  | full
  | notSatisfiable
  | single (range : HttpByteRange)
  | multipart (requestedRangeCount selectedLength : ℕ) (ranges : List HttpByteRange)

def rangeLimitSelection : DavRangeLimitBehavior → DavRangeSelection
  | .ignoreRange => .full
  | .rangeNotSatisfiable => .notSatisfiable

/-- The ranges of a set of at least two, once the close ones are merged. -/
def selectRanges (policy : DavMultiRangePolicy) (requestedRangeCount : ℕ)
    (ranges : List HttpByteRange) : Outcome DavDownloadPlanError DavRangeSelection := do
  let ranges ← Outcome.ofExcept (coalesceRanges ranges policy.coalesceGapBytes)
  if policy.limits.maximumSegments < ranges.length ∨ policy.limits.maximumBackendOpens < ranges.length then
    return rangeLimitSelection policy.limitBehavior
  let selectedLength ← ranges.foldlM
    (fun length (range : HttpByteRange) => addWithin u64Max length range.length) 0
  if policy.limits.maximumAggregateBytes < selectedLength then
    return rangeLimitSelection policy.limitBehavior
  return .multipart requestedRangeCount selectedLength ranges

/-- `plan_multi_range`, for the values of the `Range` header fields. -/
def planMultiRange (values : List (List UInt8)) (contentLength : ℕ) (policy : DavMultiRangePolicy) :
    Outcome DavDownloadPlanError DavRangeSelection :=
  match values with
  | [] => .ok .full
  | _ :: _ :: _ => .ok .notSatisfiable
  | [value] =>
    if policy.limits.maximumHeaderBytes < value.length then
      .ok (rangeLimitSelection policy.limitBehavior)
    else
      match headerText value with
      | none => .ok .notSatisfiable
      | some raw =>
        match parseByteRanges raw contentLength policy.limits.maximumHeaderBytes
          policy.limits.maximumRawRanges with
        | .error .unsupportedUnit => .ok .full
        | .error .headerTooLong | .error .tooManyRanges =>
          .ok (rangeLimitSelection policy.limitBehavior)
        | .error _ => .ok .notSatisfiable
        | .ok set =>
          if set.requestedCount = 1 then
            .ok (set.ranges.head?.elim .notSatisfiable .single)
          else selectRanges policy set.requestedCount set.ranges

/-! ## Ranges that are far apart -/

def Apart (maximumGap : ℕ) (left right : HttpByteRange) : Prop :=
  rangesAreClose left.start left.stop right.start right.stop maximumGap = false

variable {mg : ℕ}

lemma rangesAreClose_eq_false {ls l rs re : ℕ} : rangesAreClose ls l rs re mg = false ↔
    l + 1 + mg < rs ∨ re + 1 + mg < ls ∧ ¬ l < rs := by
  unfold rangesAreClose
  split
  · simp only [decide_eq_false_iff_not]
    omega
  · split
    · simp only [decide_eq_false_iff_not]
      omega
    · simp only [Bool.true_eq_false, false_iff]
      omega

lemma Apart.symm {left right : HttpByteRange} (h : Apart mg left right) : Apart mg right left := by
  have hleft := left.ordered
  have hright := right.ordered
  unfold Apart at h ⊢
  rw [rangesAreClose_eq_false] at h ⊢
  omega

lemma absorb_apart (maximumGap : ℕ) : ∀ (f : ℕ) (m : MergingRange), m.coalesced.length ≤ f →
    ∀ c ∈ (absorb maximumGap f m).coalesced,
      rangesAreClose (absorb maximumGap f m).start (absorb maximumGap f m).stop
        c.start c.stop maximumGap = false
  | 0, m, hfuel, c, hmem => by
    rw [absorb, List.eq_nil_of_length_eq_zero (Nat.le_zero.mp hfuel)] at hmem
    cases hmem
  | f + 1, m, hfuel, c, hmem => by
    rw [absorb] at hmem ⊢
    cases hfind : m.coalesced.findIdx? fun c =>
        rangesAreClose m.start m.stop c.start c.stop maximumGap with
    | none =>
      rw [hfind] at hmem
      simpa using List.findIdx?_eq_none_iff.mp hfind c hmem
    | some i =>
      have hindex := (List.findIdx?_eq_some_iff_getElem.mp hfind).1
      rw [hfind] at hmem
      dsimp only at hmem ⊢
      rw [List.getElem?_eq_getElem hindex] at hmem ⊢
      refine absorb_apart maximumGap f _ ?_ c hmem
      rw [List.length_eraseIdx_of_lt hindex]
      omega

structure MergingRange.Fits (totalSize : ℕ) (coalesced : List HttpByteRange)
    (merging : MergingRange) : Prop where
  ordered : merging.start ≤ merging.stop
  within : merging.stop < totalSize
  sub : merging.coalesced.Sublist coalesced
  inserted : merging.insertion ≤ merging.coalesced.length

lemma absorb_fits (maximumGap : ℕ) {totalSize : ℕ} {c : List HttpByteRange}
    (ht : ∀ range ∈ c, range.totalSize = totalSize) :
    ∀ (f : ℕ) (m : MergingRange), m.Fits totalSize c → (absorb maximumGap f m).Fits totalSize c
  | 0, _, h => h
  | f + 1, m, h => by
    rw [absorb]
    cases hfind : m.coalesced.findIdx? fun cn =>
        rangesAreClose m.start m.stop cn.start cn.stop maximumGap with
    | none => exact h
    | some i =>
      have hindex := (List.findIdx?_eq_some_iff_getElem.mp hfind).1
      dsimp only
      rw [List.getElem?_eq_getElem hindex]
      have hmem := h.sub.subset (List.getElem_mem hindex)
      have hwithin := (m.coalesced[i]).within
      have hord := h.ordered
      have hmerging := h.within
      rw [ht _ hmem] at hwithin
      refine absorb_fits maximumGap ht f _ ⟨?_, ?_, (List.eraseIdx_sublist ..).trans h.sub, ?_⟩
      · dsimp only
        omega
      · dsimp only
        omega
      · dsimp only
        rw [List.length_eraseIdx_of_lt hindex]
        omega

variable {ts : ℕ} {range : HttpByteRange} {r : List HttpByteRange}

open HttpByteRange

/-- **One more range** keeps the coalesced ranges apart. -/
theorem coalesceRange_spec {c : List HttpByteRange}
    (ht : ∀ o ∈ c, o.totalSize = ts) (hr : range.totalSize = ts) (ha : c.Pairwise (Apart mg)) :
    ∃ next, coalesceRange mg c range = .ok next ∧
      (∀ o ∈ next, o.totalSize = ts) ∧ next.Pairwise (Apart mg) := by
  have hfits := absorb_fits mg ht c.length ⟨range.start, range.stop, c.length, c⟩
    ⟨range.ordered, hr ▸ range.within, List.Sublist.refl _, le_rfl⟩
  have hscan := absorb_apart mg c.length ⟨range.start, range.stop, c.length, c⟩ le_rfl
  unfold coalesceRange
  generalize absorb mg c.length ⟨range.start, range.stop, c.length, c⟩ = merging at hfits hscan ⊢
  have hnew : new merging.start merging.stop range.totalSize =
      .ok ⟨merging.start, merging.stop, range.totalSize, hfits.ordered, hr ▸ hfits.within⟩ := by
    have hpos : range.totalSize ≠ 0 := by
      have := hfits.within
      omega
    rw [new, if_neg hpos, dif_pos ⟨hfits.ordered, hr ▸ hfits.within⟩]
  have hperm := List.perm_insertIdx
    (⟨merging.start, merging.stop, range.totalSize, hfits.ordered, hr ▸ hfits.within⟩ :
      HttpByteRange) merging.coalesced hfits.inserted
  dsimp only
  rw [hnew]
  refine ⟨_, rfl, ?_, ?_⟩
  · intro o hm
    rcases List.mem_cons.mp (hperm.mem_iff.mp hm) with rfl | hm
    · exact hr
    · exact ht o (hfits.sub.subset hm)
  · rw [hperm.pairwise_iff fun h => h.symm, List.pairwise_cons]
    exact ⟨hscan, ha.sublist hfits.sub⟩

/-- **Coalesced ranges are apart.** -/
theorem coalesceRanges_spec (maximumGap : ℕ) (ht : ∀ range ∈ r, range.totalSize = ts) :
    ∃ c, coalesceRanges r maximumGap = .ok c ∧ (∀ range ∈ c, range.totalSize = ts) ∧
        c.Pairwise (Apart maximumGap) := by
  have hfold : ∀ (r : List HttpByteRange), (∀ range ∈ r, range.totalSize = ts) →
      ∀ c : List HttpByteRange, (∀ range ∈ c, range.totalSize = ts) → c.Pairwise (Apart maximumGap) →
      ∃ next, r.foldlM (coalesceRange maximumGap) c = .ok next ∧
        (∀ range ∈ next, range.totalSize = ts) ∧ next.Pairwise (Apart maximumGap) := by
    intro r
    induction r with
    | nil =>
      intro _ c hc ha
      exact ⟨c, rfl, hc, ha⟩
    | cons range r ih =>
      intro hr c hc ha
      obtain ⟨next, hn, hnt, hna⟩ :=
        coalesceRange_spec hc (hr range List.mem_cons_self) ha
      rw [List.foldlM_cons, hn]
      exact ih (fun o hm => hr o (List.mem_cons_of_mem _ hm)) next hnt hna
  exact hfold r ht [] (by simp) .nil

/-! ## The selected length -/

def positions (ranges : List HttpByteRange) : Finset ℕ :=
  ranges.foldr (fun range rest => Finset.Icc range.start range.stop ∪ rest) ∅

lemma mem_positions {p : ℕ} : p ∈ positions r ↔ ∃ range ∈ r, range.start ≤ p ∧ p ≤ range.stop := by
  induction r with
  | nil => simp [positions]
  | cons range r ih =>
    rw [positions, List.foldr_cons, mem_union, ← positions, ih]
    simp

lemma card_positions (ha : r.Pairwise (Apart mg)) : (positions r).card = (r.map length).sum := by
  induction ha with
  | nil => rfl
  | @cons range r hr _ ih =>
    have hdisj : Disjoint (Finset.Icc range.start range.stop) (positions r) := by
      rw [disjoint_left]
      intro p hp ho
      rw [mem_Icc] at hp
      obtain ⟨o, hm, hl, hh⟩ := mem_positions.mp ho
      have ha := rangesAreClose_eq_false.mp (hr o hm)
      omega
    have hord := range.ordered
    rw [positions, List.foldr_cons, ← positions, card_union_of_disjoint hdisj, Nat.card_Icc, List.map_cons, List.sum_cons, length]
    omega

/-- **Ranges that are apart are no longer than the representation.** -/
theorem sum_length_le (ht : ∀ range ∈ r, range.totalSize = ts) (ha : r.Pairwise (Apart mg)) :
    (r.map length).sum ≤ ts := by
  have hsub : positions r ⊆ range ts := by
    intro p hp
    obtain ⟨range, hm, -, hh⟩ := mem_positions.mp hp
    have hwithin := range.within
    rw [ht range hm] at hwithin
    rw [mem_range]
    omega
  calc (r.map length).sum = (positions r).card := (card_positions ha).symm
    _ ≤ (range ts).card := card_le_card hsub
    _ = ts := card_range ts

/-! ## What is planned -/

lemma new_totalSize {s st : ℕ} (h : new s st ts = .ok range) : range.totalSize = ts := by
  unfold new at h
  split at h
  · cases h
  · split at h
    · cases h
      rfl
    · cases h

lemma parseByteRangeSpec_totalSize {s : Text}
    (h : parseByteRangeSpec s ts = .ok (some range)) : range.totalSize = ts := by
  unfold parseByteRangeSpec at h
  simp only [bind_eq_ok] at h
  obtain ⟨⟨sr, er⟩, -, _, -, h⟩ := h
  split at h
  · obtain ⟨sl, -, h⟩ := bind_eq_ok.mp h
    split at h
    · cases h
    · obtain ⟨r', hn, h⟩ := bind_eq_ok.mp h
      cases h
      exact new_totalSize hn
  · simp only [bind_eq_ok] at h
    obtain ⟨st, -, sp, -, _, -, h⟩ := h
    split at h
    · cases h
    · obtain ⟨r', hn, h⟩ := bind_eq_ok.mp h
      cases h
      exact new_totalSize hn

lemma parseByteRanges_totalSize {raw : Text} {mrb ms : ℕ}
    {set : HttpByteRangeSet} (h : parseByteRanges raw ts mrb ms = .ok set) :
    ∀ range ∈ set.ranges, range.totalSize = ts := by
  simp only [parseByteRanges, bind_eq_ok] at h
  obtain ⟨_, -, ⟨u, rs⟩, -, _, -, _, -, _, -, r, hr, _, -, h⟩ := h
  cases h
  intro range hm
  obtain ⟨o, ho, hs⟩ := List.mem_filterMap.mp hm
  obtain ⟨s, -, hsp⟩ := ((mem_of_mapM_eq_ok hr).1 o).mp ho
  rw [id_eq] at hs
  exact parseByteRangeSpec_totalSize (hs ▸ hsp)

lemma foldlM_addWithin (start : ℕ) (h : start + (r.map length).sum ≤ u64Max) :
    r.foldlM (fun length (rn : HttpByteRange) =>
        (addWithin u64Max length rn.length : Outcome DavDownloadPlanError ℕ)) start =
      .ok (start + (r.map length).sum) := by
  induction r generalizing start with
  | nil => rfl
  | cons rn r ih =>
    rw [List.map_cons, List.sum_cons, ← Nat.add_assoc] at h ⊢
    have hlen : start + rn.length ≤ u64Max := by omega
    rw [List.foldlM_cons, addWithin, if_pos hlen]
    exact ih _ h

lemma rangeLimitSelection_ne (b : DavRangeLimitBehavior) (c sl : ℕ) (ranges : List HttpByteRange) :
    rangeLimitSelection b ≠ .multipart c sl ranges := by
  cases b with
  | ignoreRange => simp [rangeLimitSelection]
  | rangeNotSatisfiable => simp [rangeLimitSelection]

/-- The ranges of a set are merged without a failure, and their lengths are summed without overflow. -/
theorem selectRanges_spec {p : DavMultiRangePolicy} {rc : ℕ} (hs : ts ≤ u64Max)
    (ht : ∀ range ∈ r, range.totalSize = ts) :
    ∃ sc, selectRanges p rc r = .ok sc ∧ ∀ {c sl : ℕ} {s : List HttpByteRange},
        sc = .multipart c sl s → sl = (s.map length).sum := by
  obtain ⟨cl, hc, hct, ha⟩ :=
    coalesceRanges_spec p.coalesceGapBytes ht
  have hsum := (sum_length_le hct ha).trans hs
  have hfold := foldlM_addWithin 0 (by rwa [Nat.zero_add])
  unfold selectRanges
  rw [hc]
  have hlimit : ∀ {c sl : ℕ} {s : List HttpByteRange},
      rangeLimitSelection p.limitBehavior = .multipart c sl s → sl = (s.map length).sum := by
    intro c sl s hsl
    exact absurd hsl (rangeLimitSelection_ne _ _ _ _)
  dsimp only [Outcome.ofExcept, Outcome.monad_bind, Outcome.ok_bind]
  split
  · exact ⟨_, rfl, hlimit⟩
  · rw [hfold]
    dsimp only [Outcome.ok_bind]
    split
    · exact ⟨_, rfl, hlimit⟩
    · refine ⟨_, rfl, ?_⟩
      rintro c sl s ⟨⟩
      exact Nat.zero_add _

/-- **What a multipart plan selects**: ranges whose total length it holds. -/
theorem planMultiRange_spec {v : List (List UInt8)} {cl : ℕ} {p : DavMultiRangePolicy} (hs : cl ≤ u64Max) :
    ∃ s, planMultiRange v cl p = .ok s ∧ ∀ {c sl : ℕ} {ranges : List HttpByteRange},
        s = .multipart c sl ranges → sl = (ranges.map length).sum := by
  have hother : ∀ {s : DavRangeSelection}, (∀ c sl ranges, s ≠ .multipart c sl ranges) →
      ∃ s', (Outcome.ok s : Outcome DavDownloadPlanError DavRangeSelection) = .ok s' ∧
        ∀ {c sl : ℕ} {ranges : List HttpByteRange}, s' = .multipart c sl ranges →
            sl = (ranges.map length).sum := by
    intro s hn
    exact ⟨s, rfl, fun hsl => absurd hsl (hn _ _ _)⟩
  unfold planMultiRange
  split
  · exact hother (by simp)
  · exact hother (by simp)
  · split
    · exact hother (rangeLimitSelection_ne _)
    · split
      · exact hother (by simp)
      · split
        · exact hother (by simp)
        · exact hother (rangeLimitSelection_ne _)
        · exact hother (rangeLimitSelection_ne _)
        · exact hother (by simp)
        · rename_i set hset
          split
          · cases set.ranges.head? <;> simp
          · exact selectRanges_spec hs (parseByteRanges_totalSize hset)

end AsterForge.Webdav
