import AsterForge.Webdav.RangeGrammar
import Mathlib.Data.Bool.AllAny

/-!
# What a `Range` header is read as

The parser reads a header value as the ranges that its specs select.  Where no bound is signed or beyond a
`u64`, that is the reading of the protocol.  A plan for one range is made by the parser for one spec, a plan
for several by the parser for many; on a header with one spec they agree within the limits.

* **`parseByteRanges_eq_ok`**, **`parseByteRanges_unsatisfied`** — what the parser accepts, and where nothing
  can be satisfied.
* **`range_header_reading`** — the reading of the protocol, and one plan in both modes.
* **`range_header_reading_counterexample`** — a signed bound, a bound of twenty digits, and a header that is
  longer than the limit.
-/

namespace AsterForge.Webdav

open AsterForge.Core Library ByteRangeSpec Option

/-! ## Planning -/

def parseSingleByteRange (raw : Text) (totalSize : ℕ) : Except HttpRangeError HttpByteRange := do
  let set ← (parseByteRanges raw totalSize raw.length 1).mapError fun error =>
    if error = .tooManyRanges then .multipleRangesUnsupported else error
  okOr .unsatisfiable set.ranges.head?

inductive DavRangePlanningMode
  | singleOnly
  | multi (policy : DavMultiRangePolicy)

/-- The plan for the first `Range` header field, as one range. -/
def planSingleRange (values : List (List UInt8)) (contentLength : ℕ) : DavRangeSelection :=
  match values.head? with
  | none => .full
  | some value =>
    match headerText value with
    | none => .notSatisfiable
    | some raw =>
      match parseSingleByteRange raw contentLength with
      | .ok range => .single range
      | .error .unsupportedUnit | .error .multipleRangesUnsupported | .error .headerTooLong
      | .error .tooManyRanges => .full
      | .error .malformed | .error .invalidNumber | .error .emptyRepresentation
      | .error .unsatisfiable => .notSatisfiable

/-- `plan_requested_range`, for the values of the `Range` header fields. -/
def planRequestedRange (values : List (List UInt8)) (contentLength : ℕ) :
    DavRangePlanningMode → Outcome DavDownloadPlanError DavRangeSelection
  | .singleOnly => .ok (planSingleRange values contentLength)
  | .multi policy => planMultiRange values contentLength policy

/-! ## Specs -/

section

variable {t : Text} {ts : ℕ} {sr : ℕ} {f ls : Text} {er : HttpRangeError}

lemma new_eq_ok {s totalSize : ℕ} (ho : sr ≤ s) (hw : s < totalSize) :
    HttpByteRange.new sr s totalSize = .ok ⟨sr, s, totalSize, ho, hw⟩ := by
  have hpos : totalSize ≠ 0 := by omega
  rw [HttpByteRange.new, if_neg hpos, dif_pos ⟨ho, hw⟩]

lemma splitOnce_bound (hf : parsedSyntax.Spells f sr) : splitOnce '-' (f ++ '-' :: ls) = some (f, ls) := by
  refine splitOnce_eq_some.mpr ⟨rfl, fun hm => ?_⟩
  rcases parsedSyntax.chars hf '-' hm with hd | hp
  · cases hd
  · cases hp

lemma parseByteRangeSpec_interval {s : ℕ} (hf : parsedSyntax.Spells f sr) (hl : parsedSyntax.Spells ls s)
    (ho : sr ≤ s) : parseByteRangeSpec (f ++ '-' :: ls) ts = .ok ((interval sr s ho).resolve ts) := by
  have hne := parsedSyntax.nonempty hf
  have hne' := parsedSyntax.nonempty hl
  have hbounds : parseLastBound ls = .ok (some s) := by
    rw [parseLastBound, if_neg hne', parseBound_eq_ok.mpr hl]
    rfl
  have hnot : ¬ ∃ s' ∈ some s, s' < sr := by
    rintro ⟨s', hs, hlt⟩
    cases hs
    omega
  rw [parseByteRangeSpec, splitOnce_bound hf, okOr_some, ok_bind]
  dsimp only
  rw [refuse_of_not (fun h => hne h.1), ok_bind, if_neg hne, parseBound_eq_ok.mpr hf, ok_bind,
    hbounds, ok_bind, refuse_of_not hnot]
  by_cases hstart : sr < ts
  · have hsize : ¬ (ts = 0 ∨ ts ≤ sr) := by omega
    rw [if_neg hsize, getD_some, new_eq_ok (by omega) (by omega), resolve, dif_pos hstart]
    rfl
  · have hsize : ts = 0 ∨ ts ≤ sr := by omega
    rw [if_pos hsize, resolve, dif_neg hstart]
    rfl

lemma parseByteRangeSpec_onward (hf : parsedSyntax.Spells f sr) :
    parseByteRangeSpec (f ++ '-' :: []) ts = .ok ((onward sr).resolve ts) := by
  have hne := parsedSyntax.nonempty hf
  have hnot : ¬ ∃ stop' ∈ (none : Option ℕ), stop' < sr := by simp
  rw [parseByteRangeSpec, splitOnce_bound hf, okOr_some, ok_bind]
  dsimp only
  rw [refuse_of_not (fun h => hne h.1), ok_bind, if_neg hne, parseBound_eq_ok.mpr hf, ok_bind,
    parseLastBound, if_pos rfl, ok_bind, refuse_of_not hnot]
  by_cases hstart : sr < ts
  · have hsize : ¬ (ts = 0 ∨ ts ≤ sr) := by omega
    rw [if_neg hsize, getD_none, Nat.min_self, new_eq_ok (by omega) (by omega), resolve, dif_pos hstart]
    rfl
  · have hsize : ts = 0 ∨ ts ≤ sr := by omega
    rw [if_pos hsize, resolve, dif_neg hstart]
    rfl

lemma parseByteRangeSpec_suffix {l : ℕ} (hl : parsedSyntax.Spells ls l) :
    parseByteRangeSpec ([] ++ '-' :: ls) ts = .ok ((suffix l).resolve ts) := by
  have hne := parsedSyntax.nonempty hl
  have hsplit : splitOnce '-' ([] ++ '-' :: ls) = some ([], ls) :=
    splitOnce_eq_some.mpr ⟨rfl, List.not_mem_nil⟩
  rw [parseByteRangeSpec, hsplit, okOr_some, ok_bind]
  dsimp only
  rw [refuse_of_not (fun h => hne h.2), ok_bind, parseBound_eq_ok.mpr hl, ok_bind]
  by_cases hsome : 0 < l ∧ 0 < ts
  · have hpos : ¬ (l = 0 ∨ ts = 0) := by omega
    rw [if_neg hpos, new_eq_ok (by omega) (by omega), resolve, dif_pos hsome]
    rfl
  · have hzero : l = 0 ∨ ts = 0 := by omega
    rw [if_pos hzero, resolve, dif_neg hsome]
    rfl

/-- **A spec is read** as what it selects, and fails if it spells none. -/
theorem parseByteRangeSpec_spelled {s : ByteRangeSpec} (h : SpellsSpec parsedSyntax t s) :
    parseByteRangeSpec t ts = .ok (s.resolve ts) := by
  cases h with
  | interval hf hl o => exact parseByteRangeSpec_interval hf hl o
  | onward hf => exact parseByteRangeSpec_onward hf
  | suffix hl => exact parseByteRangeSpec_suffix hl

lemma exists_spec_of_ok {found : Option HttpByteRange} (h : parseByteRangeSpec t ts = .ok found) :
    ∃ s, SpellsSpec parsedSyntax t s := by
  simp only [parseByteRangeSpec, bind_eq_ok, okOr_eq_ok, refuse_eq_ok] at h
  obtain ⟨⟨f, ls⟩, hsp, _, hsm, h⟩ := h
  obtain ⟨rfl, -⟩ := splitOnce_eq_some.mp hsp
  dsimp only at hsm h
  split at h
  · rename_i hfirst
    obtain ⟨l, hl, -⟩ := bind_eq_ok.mp h
    rw [hfirst]
    exact ⟨_, .suffix (parseBound_eq_ok.mp hl)⟩
  · simp only [bind_eq_ok, refuse_eq_ok] at h
    obtain ⟨sr, hst, st, hs, _, ho, -⟩ := h
    by_cases hl : ls = []
    · rw [hl]
      exact ⟨_, .onward (parseBound_eq_ok.mp hst)⟩
    · rw [parseLastBound, if_neg hl] at hs
      cases hbound : parseBound ls with
      | error er =>
        rw [hbound] at hs
        cases hs
      | ok number =>
        rw [hbound] at hs
        cases hs
        have hle : sr ≤ number := by
          by_contra hlt
          exact ho ⟨number, rfl, by omega⟩
        exact ⟨_, .interval (parseBound_eq_ok.mp hst) (parseBound_eq_ok.mp hbound) hle⟩

lemma parseBound_eq_error (h : parseBound t = .error er) : er = .invalidNumber := by
  unfold parseBound at h
  dsimp only at h
  generalize (if t.head? = some '+' then t.tail else t) = digits at h
  split at h
  · cases h
  · cases h
    rfl

lemma parseLastBound_eq_error (h : parseLastBound t = .error er) : er = .invalidNumber := by
  unfold parseLastBound at h
  split at h
  · cases h
  · cases hbound : parseBound t with
    | error e' =>
      rw [hbound] at h
      cases h
      exact parseBound_eq_error hbound
    | ok number =>
      rw [hbound] at h
      cases h

lemma parseByteRangeSpec_eq_error
    (h : parseByteRangeSpec t ts = .error er) : er = .malformed ∨ er = .invalidNumber := by
  -- where its bounds are read, the spec is one, and it does not fail
  have hspell : ∀ {sp}, ¬ SpellsSpec parsedSyntax t sp := by
    intro sp hsp
    rw [parseByteRangeSpec_spelled hsp] at h
    cases h
  have hfits : ∀ {start s : ℕ} {e : HttpRangeError}, start ≤ s → s < ts →
      HttpByteRange.new start s ts ≠ .error e := by
    intro start s e ho hw hn
    rw [new_eq_ok ho hw] at hn
    cases hn
  simp only [parseByteRangeSpec, bind_eq_error, okOr_eq_error, okOr_eq_ok, refuse_eq_error, refuse_eq_ok] at h
  rcases h with ⟨-, rfl⟩ | ⟨⟨f, ls⟩, hs, ⟨-, rfl⟩ | ⟨_, hsm, h⟩⟩
  · exact .inl rfl
  · exact .inl rfl
  · obtain ⟨rfl, -⟩ := splitOnce_eq_some.mp hs
    split at h
    · rename_i hfirst
      subst hfirst
      simp only [bind_eq_error] at h
      rcases h with he | ⟨l, hl, -⟩
      · exact .inr (parseBound_eq_error he)
      · exact absurd (.suffix (parseBound_eq_ok.mp hl)) hspell
    · simp only [bind_eq_error, refuse_eq_error, refuse_eq_ok] at h
      rcases h with he | ⟨start, hst, he | ⟨s, hstp, ⟨-, rfl⟩ | ⟨_, ho, h⟩⟩⟩
      · exact .inr (parseBound_eq_error he)
      · exact .inr (parseLastBound_eq_error he)
      · exact .inl rfl
      · split at h
        · cases h
        · simp only [bind_eq_error, except_pure, reduceCtorEq, and_false, exists_false, or_false] at h
          refine absurd h (hfits ?_ ?_)
          · cases s with
            | none =>
              rw [getD_none]
              omega
            | some s =>
              have hle : start ≤ s := by
                by_contra hlt
                exact ho ⟨s, rfl, by omega⟩
              rw [getD_some]
              omega
          · omega

end

/-! ## Headers -/

section

variable {raw : Text} {tl mrb ms : ℕ}

/-- The specs of a header: the members of its set that are not empty. -/
def rangeSpecs (raw : Text) : List Text :=
  match splitOnce '=' (trimStart raw) with
  | none => []
  | some (_, set) => memberTexts (set.splitOn ',')

variable {tx : List Text} {sp : List ByteRangeSpec} {fn : List (Option HttpByteRange)}

lemma forall₂_resolve (h : List.Forall₂ (SpellsSpec parsedSyntax) tx sp) :
    List.Forall₂ (fun text fn => parseByteRangeSpec text tl = .ok fn) tx (sp.map (resolve tl)) := by
  induction h with
  | nil => exact .nil
  | cons hs _ ih => exact .cons (parseByteRangeSpec_spelled hs) ih

lemma exists_specs (h : List.Forall₂ (fun text fn => parseByteRangeSpec text tl = .ok fn) tx fn) :
    ∃ sp, List.Forall₂ (SpellsSpec parsedSyntax) tx sp ∧ fn = sp.map (resolve tl) := by
  induction h with
  | nil => exact ⟨[], .nil, rfl⟩
  | cons hf _ ih =>
    obtain ⟨sp, hsp, rfl⟩ := ih
    obtain ⟨s, hs⟩ := exists_spec_of_ok hf
    have hsame := (parseByteRangeSpec_spelled hs).symm.trans hf
    exact ⟨s :: sp, .cons hs hsp, by rw [List.map_cons, Except.ok.inj hsame]⟩

lemma parseByteRanges_spelled (hr : ∀ c ∈ raw, IsHeaderChar c)
    (hsl : SpellsRange parsedSyntax raw sp) (hb : raw.length ≤ mrb) (hc : sp.length ≤ ms) :
    parseByteRanges raw tl mrb ms =
      if sp.filterMap (resolve tl) = [] then
        .error (if tl = 0 then .emptyRepresentation else .unsatisfiable)
      else .ok ⟨sp.length, sp.filterMap (resolve tl)⟩ := by
  obtain ⟨u, set, hsp, hu, hs, hne⟩ := (spellsRange_iff hr).mp hsl
  have hlen := hs.length_eq
  have hpos : (memberTexts (set.splitOn ',')).length ≠ 0 := by
    rw [hlen]
    simpa using hne
  have hread : (memberTexts (set.splitOn ',')).mapM (fun text => parseByteRangeSpec text tl) =
      .ok (sp.map (resolve tl)) := mapM_eq_ok_iff.mpr (forall₂_resolve hs)
  rw [parseByteRanges, refuse_of_not (by omega), ok_bind, hsp, okOr_some, ok_bind]
  dsimp only
  rw [refuse_of_not (by rw [hu]; exact Bool.noConfusion), ok_bind, ← memberTexts,
    refuse_of_not hpos, ok_bind, refuse_of_not (by omega), ok_bind, hread, ok_bind,
    List.filterMap_map, Function.id_comp, hlen]
  by_cases hnoth : sp.filterMap (resolve tl) = []
  · rw [if_pos hnoth, refuse_of hnoth]
    rfl
  · rw [if_neg hnoth, refuse_of_not hnoth]
    rfl

lemma exists_spelled {u set : Text}
    (hrw : ∀ c ∈ raw, IsHeaderChar c) (hsp : splitOnce '=' (trimStart raw) = some (u, set))
    (hu : ¬ eqIgnoreAsciiCase u "bytes".toList = false) (hp : ¬ (memberTexts (set.splitOn ',')).length = 0)
    (hr : (memberTexts (set.splitOn ',')).mapM (fun s => parseByteRangeSpec s tl) = .ok fn) :
    ∃ sp, SpellsRange parsedSyntax raw sp ∧ sp.length = (memberTexts (set.splitOn ',')).length := by
  obtain ⟨sp, hs, -⟩ := exists_specs (mapM_eq_ok_iff.mp hr)
  have hlen := hs.length_eq
  have hne : sp ≠ [] := by
    rintro rfl
    exact hp (hlen.trans rfl)
  exact ⟨sp, (spellsRange_iff hrw).mpr ⟨u, set, hsp, by simpa using hu, hs, hne⟩, hlen.symm⟩

/-- **What the parser accepts**: within its limits the headers that spell specs with bounds of its own, of
which one can be satisfied. -/
theorem parseByteRanges_eq_ok {found : HttpByteRangeSet} (hr : ∀ c ∈ raw, IsHeaderChar c) :
    parseByteRanges raw tl mrb ms = .ok found ↔
      raw.length ≤ mrb ∧ ∃ sp, SpellsRange parsedSyntax raw sp ∧ sp.length ≤ ms ∧
        found = ⟨sp.length, sp.filterMap (resolve tl)⟩ ∧ found.ranges ≠ [] := by
  constructor
  · intro h
    have hok := h
    simp only [parseByteRanges, bind_eq_ok, okOr_eq_ok, refuse_eq_ok] at h
    obtain ⟨_, hb, ⟨u, set⟩, hsp, _, hu, _, hp, _, hc, r, hrd, -⟩ := h
    obtain ⟨sp, hs, hl⟩ := exists_spelled hr hsp hu hp hrd
    replace hc : ¬ ms < (memberTexts (set.splitOn ',')).length := hc
    have hle : raw.length ≤ mrb := by omega
    have hspecs : sp.length ≤ ms := by omega
    rw [parseByteRanges_spelled hr hs hle hspecs] at hok
    refine ⟨hle, sp, hs, hspecs, ?_⟩
    split at hok
    · cases hok
    · rename_i hsm
      cases hok
      exact ⟨rfl, hsm⟩
  · rintro ⟨hb, sp, hs, hc, rfl, hsm⟩
    rw [parseByteRanges_spelled hr hs hb hc, if_neg hsm]

/-- **Where nothing can be satisfied**, the header spells specs all the same. -/
theorem parseByteRanges_unsatisfied (hr : ∀ c ∈ raw, IsHeaderChar c) :
    parseByteRanges raw tl mrb ms = .error (if tl = 0 then .emptyRepresentation else .unsatisfiable) ↔
      raw.length ≤ mrb ∧ ∃ sp, SpellsRange parsedSyntax raw sp ∧
        sp.length ≤ ms ∧ sp.filterMap (resolve tl) = [] := by
  constructor
  · intro h
    have herror := h
    have hother : ∀ {error : HttpRangeError},
        error = (if tl = 0 then .emptyRepresentation else .unsatisfiable) →
          error = .emptyRepresentation ∨ error = .unsatisfiable := by
      rintro error rfl
      by_cases hsize : tl = 0
      · exact .inl (if_pos hsize)
      · exact .inr (if_neg hsize)
    simp only [parseByteRanges, bind_eq_error, okOr_eq_error, okOr_eq_ok, refuse_eq_error, refuse_eq_ok] at h
    rcases h with ⟨-, heq⟩ | ⟨_, hb, ⟨-, heq⟩ | ⟨⟨u, set⟩, hsp, ⟨-, heq⟩ |
      ⟨_, hunit, ⟨-, heq⟩ | ⟨_, hpos, ⟨-, heq⟩ | ⟨_, hc, hread | ⟨ranges, hread, -⟩⟩⟩⟩⟩⟩
    iterate 5 · rcases hother heq with hno | hno <;> cases hno
    · obtain ⟨text, -, ht⟩ := exists_of_mapM_eq_error hread
      rcases parseByteRangeSpec_eq_error ht with heq | heq
      · rcases hother heq.symm with hno | hno <;> cases hno
      · rcases hother heq.symm with hno | hno <;> cases hno
    · obtain ⟨sp, hs, hl⟩ := exists_spelled hr hsp hunit hpos hread
      replace hc : ¬ ms < (memberTexts (set.splitOn ',')).length := hc
      have hle : raw.length ≤ mrb := by omega
      have hspecs : sp.length ≤ ms := by omega
      rw [parseByteRanges_spelled hr hs hle hspecs] at herror
      refine ⟨hle, sp, hs, hspecs, ?_⟩
      split at herror
      · assumption
      · cases herror
  · rintro ⟨hb, sp, hs, hc, hn⟩
    rw [parseByteRanges_spelled hr hs hb hc, if_pos hn]

end

/-! ## The protocol's reading -/

/-- No bound of the header is signed, and each fits a `u64`: what the header spells with signs and with any
numbers, it spells without them. -/
def PlainBounds (raw : Text) : Prop :=
  ∀ specs, SpellsRange wideSyntax raw specs → SpellsRange u64Syntax raw specs

variable {n : ℕ} {text : Text}

lemma digits_spells_wide (h : digitsSyntax.Spells text n) : wideSyntax.Spells text n := ⟨text, .inl rfl, h⟩

lemma digits_spells_parsed (h : u64Syntax.Spells text n) :
    parsedSyntax.Spells text n := ⟨digits_spells_wide h.1, h.2⟩

variable {raw : Text}

lemma PlainBounds.spells_iff {specs : List ByteRangeSpec} (hp : PlainBounds raw) :
    SpellsRange parsedSyntax raw specs ↔ SpellsRange digitsSyntax raw specs := by
  have hparsed : ∀ {text n}, text <:+: raw → parsedSyntax.Spells text n →
      wideSyntax.Spells text n := fun _ hb => hb.1
  have hdigs : ∀ {text n}, text <:+: raw → u64Syntax.Spells text n →
      digitsSyntax.Spells text n := fun _ hb => hb.1
  exact ⟨fun h => (hp specs (h.mono hparsed)).mono hdigs,
    fun h => (hp specs (h.mono fun _ => digits_spells_wide)).mono fun _ => digits_spells_parsed⟩

lemma plainBounds_of_short (hp : '+' ∉ raw) (hl : raw.length ≤ 19) : PlainBounds raw := by
  intro specs h
  refine h.mono fun {text n} hi hb => ?_
  obtain ⟨dg, rfl | rfl, hdg, rfl⟩ := hb
  · refine ⟨⟨hdg, rfl⟩, ?_⟩
    have hd : ∀ v ∈ text.reverse.map fun d => d.toNat - '0'.toNat, v < 10 := by
      intro v hm
      obtain ⟨d, hd, rfl⟩ := List.mem_map.mp hm
      have hrange : 48 ≤ d.toNat ∧ d.toNat ≤ 57 := by
        simpa [Char.isDigit, UInt32.le_iff_toNat_le] using hdg.2 d (List.mem_reverse.mp hd)
      have hzero : '0'.toNat = 48 := rfl
      omega
    have hvalue := Nat.ofDigits_lt_base_pow_length (by decide) hd
    rw [List.length_map, List.length_reverse] at hvalue
    calc digitsValue text ≤ 10 ^ text.length := hvalue.le
      _ ≤ 10 ^ 19 := Nat.pow_le_pow_right (by decide) (hi.length_le.trans hl)
      _ ≤ u64Max := by decide
  · exact absurd (hi.subset List.mem_cons_self) hp

/-! ## One spec in both modes -/

lemma parseByteRanges_single {totalSize maximumRawBytes maximumSpecs : ℕ}
    (hb : raw.length ≤ maximumRawBytes) (hc : (rangeSpecs raw).length ≤ 1) (hs : 0 < maximumSpecs) :
    parseByteRanges raw totalSize maximumRawBytes maximumSpecs =
      parseByteRanges raw totalSize raw.length 1 := by
  unfold parseByteRanges
  rw [refuse_of_not (by omega : ¬ maximumRawBytes < raw.length), refuse_of_not (by omega : ¬ raw.length < raw.length)]
  cases hsplit : splitOnce '=' (trimStart raw) with
  | none => rfl
  | some p =>
    obtain ⟨u, set⟩ := p
    rw [rangeSpecs, hsplit] at hc
    replace hc : (((set.splitOn ',').map trim).filter fun s => s ≠ []).length ≤ 1 := hc
    dsimp only [okOr_some, ok_bind]
    rw [refuse_of_not (by omega : ¬ maximumSpecs <
        (((set.splitOn ',').map trim).filter fun s => s ≠ []).length),
      refuse_of_not (by omega : ¬ 1 < (((set.splitOn ',').map trim).filter fun s => s ≠ []).length)]

lemma parseByteRanges_one {totalSize : ℕ} {set : HttpByteRangeSet}
    (h : parseByteRanges raw totalSize raw.length 1 = .ok set) :
    set.requestedCount = 1 ∧ ∃ r rs, set.ranges = r :: rs := by
  simp only [parseByteRanges, bind_eq_ok, refuse_eq_ok, except_pure, Except.ok.injEq] at h
  obtain ⟨_, -, ⟨u, text⟩, -, _, -, _, hp, _, hc, rn, -, _, hs, rfl⟩ := h
  refine ⟨?_, List.exists_cons_of_ne_nil hs⟩
  dsimp only at hp hc ⊢
  omega

lemma parseByteRanges_limits {totalSize : ℕ} {error : HttpRangeError}
    (hc : (rangeSpecs raw).length ≤ 1) (h : parseByteRanges raw totalSize raw.length 1 = .error error) :
    error ≠ .headerTooLong ∧ error ≠ .tooManyRanges ∧ error ≠ .multipleRangesUnsupported := by
  simp only [parseByteRanges, bind_eq_error, okOr_eq_error, okOr_eq_ok, refuse_eq_error,
    refuse_eq_ok, except_pure, reduceCtorEq, and_false, exists_false, or_false] at h
  rcases h with ⟨hl, -⟩ | ⟨_, -, ⟨-, rfl⟩ | ⟨⟨u, set⟩, hs, ⟨-, rfl⟩ |
    ⟨_, -, ⟨-, rfl⟩ | ⟨_, -, ⟨hmany, -⟩ | ⟨_, -, hread | ⟨ranges, -, -, rfl⟩⟩⟩⟩⟩⟩
  · exact absurd hl (Nat.lt_irrefl _)
  · decide
  · decide
  · decide
  · rw [rangeSpecs, hs] at hc
    replace hmany : 1 < (memberTexts (set.splitOn ',')).length := hmany
    dsimp only at hc
    omega
  · obtain ⟨text, -, ht⟩ := exists_of_mapM_eq_error hread
    rcases parseByteRangeSpec_eq_error ht with rfl | rfl
    · decide
    · decide
  · by_cases hsize : totalSize = 0
    · rw [if_pos hsize]
      decide
    · rw [if_neg hsize]
      decide

/-- **One plan in both modes**: a `Range` header with at most one spec is planned for in the same way, if it
keeps the limit on its bytes and a spec is allowed. -/
theorem planRequestedRange_single {v : List UInt8} {cl : ℕ} {p : DavMultiRangePolicy}
    (hb : v.length ≤ p.limits.maximumHeaderBytes) (hs : 0 < p.limits.maximumRawRanges)
    (hc : ∀ raw, headerText v = some raw → (rangeSpecs raw).length ≤ 1) :
    planRequestedRange [v] cl (.multi p) = planRequestedRange [v] cl .singleOnly := by
  have hnot : ¬ p.limits.maximumHeaderBytes < v.length := by omega
  rw [planRequestedRange, planRequestedRange, planMultiRange, if_neg hnot, planSingleRange, List.head?_cons]
  dsimp only
  cases hraw : headerText v with
  | none => rfl
  | some raw =>
    have hlen : raw.length = v.length := by
      rw [headerText] at hraw
      split at hraw
      · cases hraw
        rw [latin1, List.length_map]
      · cases hraw
    dsimp only
    rw [parseByteRanges_single (hlen ▸ hb) (hc raw hraw) hs, parseSingleByteRange]
    cases hparse : parseByteRanges raw cl raw.length 1 with
    | error error =>
      obtain ⟨hl, hmn, hm⟩ := parseByteRanges_limits (hc raw hraw) hparse
      cases error with
      | unsupportedUnit => rfl
      | multipleRangesUnsupported => exact absurd rfl hm
      | headerTooLong => exact absurd rfl hl
      | tooManyRanges => exact absurd rfl hmn
      | malformed => rfl
      | invalidNumber => rfl
      | emptyRepresentation => rfl
      | unsatisfiable => rfl
    | ok set =>
      obtain ⟨ho, r, rs, hr⟩ := parseByteRanges_one hparse
      dsimp only
      rw [if_pos ho]
      simp [Except.mapError, hr]

/-! ## The header -/

/-- **What a `Range` header is read as.**  A header value with plain bounds is accepted exactly if it is a
byte-range set of the protocol within the limits of which a part can be satisfied, and then as what its specs
select; where nothing can be satisfied, that is what is reported.  A header with at most one spec that keeps
the limit on its bytes is planned for as a single range, where several are allowed too. -/
theorem range_header_reading (value : List UInt8) (totalSize maximumRawBytes maximumSpecs : ℕ)
    (policy : DavMultiRangePolicy) : (∀ raw, headerText value = some raw → PlainBounds raw →
      (∀ set, parseByteRanges raw totalSize maximumRawBytes maximumSpecs = .ok set ↔
        raw.length ≤ maximumRawBytes ∧ ∃ specs, SpellsRange digitsSyntax raw specs ∧
          specs.length ≤ maximumSpecs ∧
          set = ⟨specs.length, specs.filterMap (resolve totalSize)⟩ ∧ set.ranges ≠ [])
      ∧ (parseByteRanges raw totalSize maximumRawBytes maximumSpecs =
            .error (if totalSize = 0 then .emptyRepresentation else .unsatisfiable) ↔
          raw.length ≤ maximumRawBytes ∧ ∃ specs, SpellsRange digitsSyntax raw specs ∧
            specs.length ≤ maximumSpecs ∧ specs.filterMap (resolve totalSize) = []))
      ∧ (value.length ≤ policy.limits.maximumHeaderBytes → 0 < policy.limits.maximumRawRanges →
          (∀ raw, headerText value = some raw → (rangeSpecs raw).length ≤ 1) →
          planRequestedRange [value] totalSize (.multi policy) =
            planRequestedRange [value] totalSize .singleOnly) := by
  refine ⟨?_, fun hb hs hc => planRequestedRange_single hb hs hc⟩
  intro raw ht hp
  have hraw : ∀ c ∈ raw, IsHeaderChar c := by
    have hlatin : latin1 value = raw := by
      rw [headerText] at ht
      split at ht
      · exact some.inj ht
      · cases ht
    rw [← hlatin] at ht ⊢
    exact headerText_eq_some.mp ht
  refine ⟨fun set => ?_, ?_⟩
  · rw [parseByteRanges_eq_ok hraw]
    simp only [hp.spells_iff]
  · rw [parseByteRanges_unsatisfied hraw]
    simp only [hp.spells_iff]

/-! ### Bounds that are not plain, and a header that is too long -/

def shortRange : List UInt8 := utf8Bytes "bytes=0-1"

def shortRangePolicy (maximumHeaderBytes : ℕ) : DavMultiRangePolicy :=
  ⟨⟨maximumHeaderBytes, 8, 8, 1024, 8⟩, 0, .ignoreRange⟩

/-- A header that keeps the limits is read, and planned for in one way. -/
theorem range_header_reading_short :
    (∃ specs, SpellsRange digitsSyntax "bytes=0-1".toList specs ∧ specs.length = 1)
      ∧ planRequestedRange [shortRange] 20 (.multi (shortRangePolicy 9)) =
          planRequestedRange [shortRange] 20 .singleOnly := by
  obtain ⟨hr, hp⟩ := range_header_reading shortRange 20 9 8 (shortRangePolicy 9)
  refine ⟨?_, hp (by decide) (by decide) ?_⟩
  · obtain ⟨ha, -⟩ := hr "bytes=0-1".toList (by decide) (plainBounds_of_short (by decide) (by decide))
    obtain ⟨-, specs, hs, -, hst, -⟩ :=
      (ha ⟨1, [⟨0, 1, 20, by decide, by decide⟩]⟩).mp (by decide)
    exact ⟨specs, hs, (congrArg HttpByteRangeSet.requestedCount hst).symm⟩
  · intro raw hrw
    have hsome : headerText shortRange = some "bytes=0-1".toList := by decide
    obtain rfl : "bytes=0-1".toList = raw := some.inj (hsome.symm.trans hrw)
    decide

lemma SpellsSpec.notMem_plus {s : ByteRangeSpec} (h : SpellsSpec digitsSyntax text s) : '+' ∉ text := by
  have hunsigned : ∀ {p n}, digitsSyntax.Spells p n → '+' ∉ p := by
    intro p n hp hm
    cases not_isDigit_plus.symm.trans (hp.1.2 '+' hm)
  cases h with
  | interval hf hl o => simp [hunsigned hf, hunsigned hl]
  | onward hf => simp [hunsigned hf]
  | suffix hl => simp [hunsigned hl]

/-- **Three ways to differ**: a signed bound is accepted, a last position of twenty digits is refused, and a
header that is longer than the limit is planned for as if it were not there. -/
theorem range_header_reading_counterexample :
    ((∃ set, parseByteRanges "bytes=+0-1".toList 20 64 8 = .ok set)
        ∧ ¬ ∃ specs, SpellsRange digitsSyntax "bytes=+0-1".toList specs)
      ∧ ((∃ specs, SpellsRange digitsSyntax "bytes=0-18446744073709551616".toList specs ∧
            specs.filterMap (resolve 20) = [⟨0, 19, 20, by decide, by decide⟩])
          ∧ parseByteRanges "bytes=0-18446744073709551616".toList 20 64 8 = .error .invalidNumber)
      ∧ planRequestedRange [shortRange] 20 (.multi (shortRangePolicy 8)) ≠
          planRequestedRange [shortRange] 20 .singleOnly := by
  refine ⟨⟨⟨⟨1, [⟨0, 1, 20, by decide, by decide⟩]⟩, by decide⟩, ?_⟩, ⟨?_, by decide⟩, ?_⟩
  · rintro ⟨specs, hsl⟩
    obtain ⟨u, set, hsp, -, hst, -⟩ := (spellsRange_iff (List.all_iff_forall_prop.mp (by decide))).mp hsl
    have hparts : splitOnce '=' (trimStart "bytes=+0-1".toList) = some ("bytes".toList, "+0-1".toList) := by
      decide
    cases hparts.symm.trans hsp
    obtain ⟨s, r, hs, -, -⟩ := List.forall₂_cons_left_iff.mp hst
    exact hs.notMem_plus (by decide)
  · have hfirst : digitsSyntax.Spells "0".toList 0 :=
      ⟨⟨by decide, List.all_eq_true.mp (by decide)⟩, by decide⟩
    have hlast : digitsSyntax.Spells "18446744073709551616".toList 18446744073709551616 :=
      ⟨⟨by decide, List.all_eq_true.mp (by decide)⟩, by decide⟩
    have hs : SpellsSpec digitsSyntax ("0".toList ++ '-' :: "18446744073709551616".toList)
        (.interval 0 18446744073709551616 (Nat.zero_le _)) := .interval hfirst hlast (Nat.zero_le _)
    refine ⟨[.interval 0 18446744073709551616 (Nat.zero_le _)],
      (spellsRange_iff (List.all_iff_forall_prop.mp (by decide))).mpr
        ⟨"bytes".toList, "0-18446744073709551616".toList, by decide, by decide, ?_, by simp⟩, by decide⟩
    exact .cons hs .nil
  · nofun

end AsterForge.Webdav
