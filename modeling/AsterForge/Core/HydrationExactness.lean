import AsterForge.Core.HydrationSystem

/-!
# Hydration is exact

A waiter is handed pieces of several shared reads: whole reads, ranges that overlap, gaps that exist
only for alignment.  Whatever it is assembled from, it gets the bytes it asked for.

* `register_covers` — the works a waiter depends on are sorted, fit the content, and together cover its
  logical extent.
* **`assemble_exact`** — from answers that carry the slices their works stand for, `assemble` yields
  exactly the requested slice.
* **`hydration_exact`** — in every reachable state of a system whose backend answers honestly, a waiter
  that returned `Ok` returned the requested bytes, and one that returned an error was cancelled or
  reports a backend error of one of its works.
-/

namespace AsterForge.Core

open Library List

variable {limits : HydrationLimits}

/-! ## What a waiter depends on -/

structure RegistrationFits (read : HydrationRequest) (registration : Registration) : Prop where
  start_eq : registration.targetStart = read.read.requestedOffset
  end_eq : registration.targetEnd = read.read.requestedEnd
  start_le : registration.targetStart ≤ registration.targetEnd
  sorted : registration.dependencies.Pairwise fun a b => a.start ≤ b.start
  fits : ∀ dependency ∈ registration.dependencies,
    FutureFits (HydrationContentKey.fromRequest read) dependency.start dependency.stop dependency.future
  covers : ∀ x, registration.targetStart ≤ x → x < registration.targetEnd →
    ∃ dependency ∈ registration.dependencies, dependency.start ≤ x ∧ x < dependency.stop

lemma insertGaps_extents {content : HydrationContentKey} {request : ContentReadRequest} :
    ∀ {g : List (ℕ × ℕ)} {state final : CoordinatorState} {dependencies : List WorkDependency},
      insertGaps content request state g = (.ok dependencies, final) →
      dependencies.map WorkDependency.extent = g
  | [], state, _, _, h => by
    cases h
    rfl
  | (start, stop) :: g, state, final, dependencies, h => by
    simp only [insertGaps] at h
    rcases hfirst : insertRangeWork state content request start stop with ⟨_ | first, mid⟩
    · simp [hfirst] at h
    rcases hrest : insertGaps content request mid g with ⟨_ | r, l⟩
    · simp [hfirst, hrest] at h
    simp only [hfirst, hrest] at h
    cases h
    have hext : first.extent = (start, stop) := by
      unfold insertRangeWork insertWork at hfirst
      grind [WorkDependency.extent]
    rw [map_cons, hext, insertGaps_extents hrest]

variable {stt fn : CoordinatorState} {c : HydrationContentKey}
  {dp : List WorkDependency} {rq : ContentReadRequest} {ps pe : ℕ}
  {rd : HydrationRequest} {system : Hydration}

lemma registerSingle_ok {f : WorkEntry → Bool} {s st : ℕ} {w : Bool}
    (h : registerSingle limits stt c rq f s st w = (.ok dp, fn)) : ∃ d, dp = [d] ∧ ((d.start = s ∧ d.stop = st) ∨
        ∃ id e, stt.work.lookup id = some e ∧ f e = true ∧ d.start = e.start ∧ d.stop = e.stop) := by
  unfold registerSingle at h
  split at h
  case h_1 id e hfound =>
    cases h
    refine ⟨_, rfl, Or.inr ⟨id, e, ?_, by simpa using find?_some hfound, rfl, rfl⟩⟩
    exact AList.mem_lookup_iff.mpr (mem_of_find?_eq_some hfound)
  case h_2 =>
    unfold insertWork at h
    grind

lemma registerRange_ok (h : registerRange limits stt c rq ps pe = (.ok dp, fn)) :
    ∃ i, i.map WorkDependency.extent = gapsOf stt c ps pe ∧ dp = (existingDependencies stt c ps pe
        ++ i).insertionSort dependencyLe := by
  simp only [registerRange] at h
  split at h
  case h_1 => cases h
  case h_2 =>
    rcases hins : insertGaps c rq stt (gapsOf stt c ps pe) with ⟨_ | i, mid⟩
    · simp [hins] at h
    · simp only [hins] at h
      cases h
      exact ⟨i, insertGaps_extents hins, rfl⟩

lemma range_covers {i : List WorkDependency} (hi : i.map WorkDependency.extent = gapsOf stt c ps pe)
    {x : ℕ} (hl : ps ≤ x) (hh : x < pe) :
    ∃ d ∈ (existingDependencies stt c ps pe ++ i).insertionSort dependencyLe, d.start ≤ x ∧ x < d.stop := by
  obtain ⟨e, hm, hc⟩ := gaps_cover hh ((existingDependencies stt c ps pe).map WorkDependency.extent) hl
  rw [← physicalGaps_eq] at hm
  change e ∈ _ ++ gapsOf stt c ps pe at hm
  rw [← hi, ← map_append, mem_map] at hm
  obtain ⟨d, hm, rfl⟩ := hm
  exact ⟨d, (mem_insertionSort dependencyLe).mpr hm, hc⟩

/-- **A registration covers its request**: whichever works it found and added, every requested
position lies in one of them. -/
theorem register_covers (h : Consistent limits stt) {ts te : ℕ} (he : logicalExtent rd.read = .ok (ts, te))
    (hrg : register limits stt rd ts te = (.ok dp, fn)) : RegistrationFits rd ⟨ts, te, dp⟩ := by
  obtain ⟨hst, hen, hle⟩ := logicalExtent_ok he
  have hspec := register_spec h he
  rw [hrg] at hspec
  obtain ⟨hr, -, -, hlv⟩ := hspec.ok dp rfl
  have hfits : ∀ d ∈ dp, FutureFits (HydrationContentKey.fromRequest rd) d.start d.stop d.future := by
    intro d hm
    obtain ⟨e, hl, hc, hst, hsp, hft⟩ := hlv d hm
    rw [← hc, ← hst, ← hsp, ← hft]
    exact (hr.consistent.fits hl).future
  suffices hshape : dp.Pairwise (fun a b => a.start ≤ b.start) ∧ ∀ x, ts ≤ x → x < te →
        ∃ d ∈ dp, d.start ≤ x ∧ x < d.stop from
    ⟨hst, hen, hle, hshape.1, hfits, hshape.2⟩
  unfold register at hrg
  simp only at hrg
  split at hrg
  case h_1 hrange =>
    -- one whole work, found or new
    obtain ⟨d, rfl, he⟩ := registerSingle_ok hrg
    have hwhole : d.start = 0 ∧ d.stop = rd.read.expectedSize := by
      rcases he with hn | ⟨id, e, hl, hf, hs, ht⟩
      · exact hn
      · simp only [Bool.and_eq_true, beq_iff_eq] at hf
        have hfull := (h.fits hl).whole_extent hf.2
        rw [hs, ht, hfull.1, hfull.2, hf.1]
        exact ⟨rfl, rfl⟩
    refine ⟨pairwise_singleton _ _, fun x _ hx => ⟨d, by simp, by omega, ?_⟩⟩
    rw [hwhole.2]
    exact hx.trans_le (hen ▸ requestedEnd_le rd.read)
  case h_2 range hrange =>
    split at hrg
    case isTrue hempty =>
      obtain ⟨d, rfl, -⟩ := registerSingle_ok hrg
      exact ⟨pairwise_singleton _ _, fun x hlw hh => by omega⟩
    case isFalse =>
      split at hrg
      case h_1 => cases hrg
      case h_2 ps pe halign =>
        obtain ⟨hlw, hh, -⟩ :=
          alignedExtent_ok (hen ▸ requestedEnd_le rd.read) halign
        obtain ⟨i, hi, rfl⟩ := registerRange_ok hrg
        exact ⟨start_sorted _, fun x hx hx' =>
          range_covers hi (hlw.trans hx) (hx'.trans_le hh)⟩

/-! ## Assembly -/

structure ResponseFits (contentOf : CloudItemKey → ContentRevision → List UInt8)
    (request : ContentReadRequest) (response : ContentReadResponse) : Prop where
  revision : response.revision = request.revision
  totalSize : response.totalSize = request.expectedSize
  offset : response.offset = request.requestedOffset
  byteLen : response.byteLen = request.requestedEnd - request.requestedOffset
  bytes : response.bytes = slice (contentOf request.key request.revision)
    request.requestedOffset request.requestedEnd

/-- **The copy loop** stitches the pieces of sorted works that cover `[cursor, targetEnd)` into
exactly that slice. -/
theorem copySlices_exact (content : List UInt8) (te : ℕ) :
    ∀ {pr : List (WorkDependency × ContentReadResponse)} {c : ℕ}, c < te →
      pr.Pairwise (fun p q => p.1.start ≤ q.1.start) →
      (∀ p ∈ pr, p.2.offset = p.1.start ∧ p.2.bytes = slice content p.1.start p.1.stop ∧
        p.2.bytes.length = p.1.stop - p.1.start) →
      (∀ x, c ≤ x → x < te → ∃ p ∈ pr, p.1.start ≤ x ∧ x < p.1.stop) →
      ∃ s, copySlices te c pr = .ok (s, te) ∧ s.flatten = slice content c te ∧ s.flatten.length = te - c
  | [], c, hlt, _, _, hcover => by
    obtain ⟨p, hm, -⟩ := hcover c le_rfl hlt
    exact absurd hm not_mem_nil
  | (dependency, response) :: rest, c, hlt, hsorted, hfits, hcover => by
    obtain ⟨hfr, hr⟩ := pairwise_cons.mp hsorted
    obtain ⟨ho, hb, hl⟩ := hfits _ mem_cons_self
    have hfits' := fun p hp => hfits p (mem_cons_of_mem _ hp)
    by_cases hskip : dependency.stop ≤ c ∨ dependency.start ≥ te
    · have hcover' : ∀ x, c ≤ x → x < te → ∃ p ∈ rest, p.1.start ≤ x ∧ x < p.1.stop := by
        intro x hx hx'
        obtain ⟨p, hm, hp⟩ := hcover x hx hx'
        rcases mem_cons.mp hm with rfl | hm
        · have hin : dependency.start ≤ x ∧ x < dependency.stop := hp
          omega
        · exact ⟨p, hm, hp⟩
      simp only [copySlices, if_pos hskip]
      exact copySlices_exact content te hlt hr hfits' hcover'
    · -- sortedness and coverage of the cursor leave no hole before this work
      have hstart : dependency.start ≤ c := by
        obtain ⟨p, hm, hp⟩ := hcover c le_rfl hlt
        rcases mem_cons.mp hm with rfl | hm
        · exact hp.1
        · exact (hfr p hm).trans hp.1
      simp only at ho hb hl
      have hstop : c < dependency.stop := by omega
      have hend : c < min te dependency.stop := lt_min hlt hstop
      set copyEnd := min te dependency.stop with hcopyEnd
      have hpiece : slice response.bytes (c - response.offset) (copyEnd - response.offset)
          = slice content c copyEnd := by
        rw [ho, hb]
        exact slice_slice hstart hend.le (Nat.min_le_right _ _)
      have hpieceLength : (slice content c copyEnd).length = copyEnd - c := by
        rw [← hpiece, slice, length_take, length_drop]
        omega
      have hinside : ¬ (copyEnd - response.offset > response.bytes.length
          ∨ c - response.offset > copyEnd - response.offset) := by omega
      have hmax : max c dependency.start = c := Nat.max_eq_left hstart
      by_cases hlast : copyEnd = te
      · refine ⟨[slice content c copyEnd], ?_, ?_, ?_⟩
        · simp only [copySlices, if_neg hskip, ← hcopyEnd, hmax, if_neg hinside, if_pos hlast, hpiece]
          rw [hlast]
        · rw [flatten_singleton, hlast]
        · rw [flatten_singleton, hpieceLength, hlast]
      · have hlt' : copyEnd < te := by omega
        have hcover' : ∀ x, copyEnd ≤ x → x < te → ∃ p ∈ rest, p.1.start ≤ x ∧ x < p.1.stop := by
          intro x hx hx'
          obtain ⟨p, hm, hp⟩ := hcover x (hend.le.trans hx) hx'
          rcases mem_cons.mp hm with rfl | hm
          · have hin : dependency.start ≤ x ∧ x < dependency.stop := hp
            omega
          · exact ⟨p, hm, hp⟩
        obtain ⟨s, hc, hf, hln⟩ :=
          copySlices_exact content te hlt' hr hfits' hcover'
        refine ⟨slice content c copyEnd :: s, ?_, ?_, ?_⟩
        · simp [copySlices, if_neg hskip, ← hcopyEnd, hmax, if_neg hinside, if_neg hlast, hpiece, hc]
        · rw [flatten_cons, hf]
          exact slice_append hend.le hlt'.le
        · rw [flatten_cons, length_append]
          omega

lemma checkedSliceTotal_ok : ∀ {l : List ℕ} {t : ℕ}, t + l.sum ≤ usizeMax →
      checkedSliceTotal t l = .ok (t + l.sum)
  | [], t, _ => by simp [checkedSliceTotal]
  | length :: l, t, h => by
    rw [sum_cons, ← Nat.add_assoc] at h
    rw [checkedSliceTotal, if_pos (by omega), checkedSliceTotal_ok h, sum_cons, Nat.add_assoc]

lemma combineSlices_ok {s : List (List UInt8)} (h : s.flatten.length ≤ usizeMax) :
    combineSlices s = .ok s.flatten := by
  match s with
  | [] => rfl
  | [bytes] => simp [combineSlices]
  | first :: second :: rest =>
    have htotal : 0 + ((first :: second :: rest).map length).sum ≤ usizeMax := by
      rw [Nat.zero_add, ← length_flatten]
      exact h
    simp only [combineSlices, checkedSliceTotal_ok htotal]

/-- **Assembly is exact.**  When every work of a fitting registration was answered with the slice
it stands for, `assemble` yields the requested slice. -/
theorem assemble_exact {co : CloudItemKey → ContentRevision → List UInt8} {r : Registration}
    {rp : List ContentReadResponse} (h : RegistrationFits rd r) (hr : List.Forall₂ (fun d rs =>
      ResponseFits co d.future.request rs)
      r.dependencies rp) :
    ∃ rs, assemble rd r rp = .ok rs ∧ ResponseFits co rd.read rs := by
  have hend : r.targetEnd ≤ rd.read.expectedSize :=
    h.end_eq ▸ requestedEnd_le rd.read
  unfold assemble
  by_cases hempty : r.targetStart = r.targetEnd
  · have hnew := @ContentReadResponse.new_eq_ok rd.read.revision r.targetStart []
      rd.read.expectedSize (by simpa [hempty] using hend) rd.read.expectedSize_le
    simp only [if_pos hempty, hnew]
    refine ⟨_, rfl, rfl, rfl, h.start_eq, ?_, ?_⟩
    · simp [ContentReadResponse.byteLen, ← h.start_eq, ← h.end_eq, hempty]
    · show [] = _
      rw [← h.start_eq, ← h.end_eq, ← hempty, slice_self]
  · set c := co rd.read.key rd.read.revision with hcont
    set pairs := r.dependencies.zip rp with hpairs
    have hlength : r.dependencies.length = rp.length := hr.length_eq
    have hfst : pairs.map Prod.fst = r.dependencies :=
      map_fst_zip hlength.le
    have hsorted : pairs.Pairwise fun p q => p.1.start ≤ q.1.start := by
      have hmap : (pairs.map Prod.fst).Pairwise fun a b => a.start ≤ b.start := by
        rw [hfst]
        exact h.sorted
      rw [pairwise_map] at hmap
      exact hmap
    have hfits : ∀ p ∈ pairs, p.2.offset = p.1.start ∧ p.2.bytes = slice c p.1.start p.1.stop ∧
        p.2.bytes.length = p.1.stop - p.1.start := by
      rintro ⟨d, rs⟩ hm
      have hresp := forall₂_zip hr hm
      have hfuture := h.fits d (of_mem_zip hm).1
      have hbytes := hresp.bytes
      have hl := hresp.byteLen
      have hoff := hresp.offset
      rw [hfuture.offset_eq, hfuture.end_eq] at hl
      rw [hfuture.offset_eq] at hoff
      rw [hfuture.offset_eq, hfuture.end_eq, hfuture.key, hfuture.revision] at hbytes
      exact ⟨hoff, hbytes, hl⟩
    have hcover : ∀ x, r.targetStart ≤ x → x < r.targetEnd → ∃ p ∈ pairs, p.1.start ≤ x ∧ x < p.1.stop := by
      intro x hlw hh
      obtain ⟨d, hm, hx⟩ := h.covers x hlw hh
      rw [← hfst, mem_map] at hm
      obtain ⟨p, hm, rfl⟩ := hm
      exact ⟨p, hm, hx⟩
    have hlt : r.targetStart < r.targetEnd :=
      Nat.lt_of_le_of_ne h.start_le hempty
    obtain ⟨s, hc, hf, hl⟩ := copySlices_exact c _ hlt hsorted hfits hcover
    have hmax := rd.read.expectedSize_le
    have hcombine : combineSlices s = .ok s.flatten :=
      combineSlices_ok (by rw [hl]; exact (Nat.sub_le _ _).trans (hend.trans hmax))
    have hbound : r.targetStart + s.flatten.length ≤ rd.read.expectedSize := by
      omega
    have hnew := @ContentReadResponse.new_eq_ok rd.read.revision r.targetStart
      s.flatten rd.read.expectedSize hbound hmax
    have hvalid : rd.read.validateResponse ⟨rd.read.revision, r.targetStart,
        s.flatten, rd.read.expectedSize, hbound⟩ = .ok () := by
      refine ContentReadRequest.validateResponse_eq_ok.mpr ⟨rfl, rfl, h.start_eq, ?_⟩
      rw [ContentReadResponse.byteLen, hl, h.start_eq, h.end_eq]
    simp only [if_neg hempty, hlength, hc, hcombine, hnew, hvalid, ne_eq, not_true_eq_false, if_false]
    refine ⟨_, rfl, rfl, rfl, h.start_eq, ?_, ?_⟩
    · rw [ContentReadResponse.byteLen, hl, h.start_eq, h.end_eq]
    · show s.flatten = _
      rw [hf, h.start_eq, h.end_eq]

/-! ## The system with an honest backend -/

variable {contentOf : CloudItemKey → ContentRevision → List UInt8}

/-- The backend answers a read with an error, or with a valid response that carries the requested
slice of one fixed content per item and revision. -/
def HonestAnswer (contentOf : CloudItemKey → ContentRevision → List UInt8) (_ : Hydration) :
    HydrationLabel → Prop
  | .resolve future (.ok response) =>
    future.request.validateResponse response = .ok () ∧
    response.bytes = slice (contentOf future.request.key future.request.revision)
      future.request.requestedOffset future.request.requestedEnd
  | _ => True

/-- The states a coordinator reaches over an honest backend. -/
def ReachableHonestly (contentOf : CloudItemKey → ContentRevision → List UInt8)
    (limits : HydrationLimits) (system : Hydration) : Prop :=
  Reachable (fun s => s = Hydration.initial) (Guarded (HonestAnswer contentOf) (Hydration.Step limits)) system

def IsBackendError (error : HydrationError) : Prop := ∃ e, error = .backend e

/-- An outcome is exact if it carries the requested bytes, or says that the waiter was cancelled,
or passes on an error of the backend. -/
def OutcomeExact (contentOf : CloudItemKey → ContentRevision → List UInt8)
    (read : HydrationRequest) : Except HydrationError ContentReadResponse → Prop
  | .ok response => ResponseFits contentOf read.read response
  | .error error => error = .cancelled ∨ IsBackendError error

def AnswerExact (contentOf : CloudItemKey → ContentRevision → List UInt8) (future : SharedRead) :
    Except HydrationError ContentReadResponse → Prop
  | .ok response => ResponseFits contentOf future.request response
  | .error error => IsBackendError error

/-- A waiter whose works cover its request, and which has seen honest answers only. -/
structure Waiter.Exact (contentOf : CloudItemKey → ContentRevision → List UInt8)
    (waiter : Waiter) : Prop where
  registration : RegistrationFits waiter.request waiter.registration
  joined_ok : ∀ responses, waiter.joined = some (.ok responses) →
    List.Forall₂ (fun dependency response =>
      ResponseFits contentOf dependency.future.request response)
      waiter.registration.dependencies responses
  joined_error : ∀ error, waiter.joined = some (.error error) → IsBackendError error
  outcome : ∀ outcome, waiter.outcome = some outcome → OutcomeExact contentOf waiter.request outcome

structure ExactInvariant (contentOf : CloudItemKey → ContentRevision → List UInt8)
    (system : Hydration) : Prop where
  answer : ∀ future answer, system.answers.lookup future = some answer → AnswerExact contentOf future answer
  waiter : ∀ waiter ∈ system.waiters, waiter.Exact contentOf

variable {a : AList fun _ : SharedRead => Except HydrationError ContentReadResponse}

lemma joinAll_fits (h : ∀ f an, a.lookup f = some an → AnswerExact contentOf f an) :
    ∀ {dependencies : List WorkDependency} {r : List ContentReadResponse}, joinAll a dependencies = some r →
      List.Forall₂ (fun d rs =>
        ResponseFits contentOf d.future.request rs) dependencies r
  | [], _, hjoin => by
    cases hjoin
    exact .nil
  | d :: rest, _, hjoin => by
    simp only [joinAll] at hjoin
    split at hjoin
    case h_1 rs hlook =>
      obtain ⟨r, hr, rfl⟩ := Option.map_eq_some_iff.mp hjoin
      exact .cons (h _ _ hlook) (joinAll_fits h hr)
    case h_2 => cases hjoin

lemma Waiter.Exact.next (han : ∀ f an, a.lookup f = some an → AnswerExact contentOf f an)
    {w w' : Waiter} {l : HydrationLabel} (h : w.Exact contentOf)
    (hn : w.next a l = some w') : w'.Exact contentOf := by
  have hsettl : ∀ t, (w.settle t).Exact contentOf := by
    intro t
    unfold Waiter.settle
    split
    · exact { h with }
    · exact h
  cases l with
  | cancel _ =>
    cases hn
    exact hsettl .cancelled
  | join _ =>
    simp only [Waiter.next, Option.ite_none_right_eq_some, Option.map_eq_some_iff] at hn
    obtain ⟨-, r, hj, rfl⟩ := hn
    refine ⟨h.registration, ?_, by simp, h.outcome⟩
    rintro _ ⟨⟩
    exact joinAll_fits han hj
  | joinFailed _ f =>
    obtain ⟨-, hn⟩ := Option.ite_none_right_eq_some.mp hn
    split at hn
    case h_1 error hlook =>
      cases hn
      refine ⟨h.registration, by simp, ?_, h.outcome⟩
      rintro _ ⟨⟩
      exact han f _ hlook
    case h_2 => cases hn
  | complete _ =>
    obtain ⟨-, hn⟩ := Option.ite_none_right_eq_some.mp hn
    split at hn <;> cases hn
    · exact hsettl .completed
    · refine ⟨h.registration, h.joined_ok, h.joined_error, ?_⟩
      rintro _ ⟨⟩
      exact Or.inl rfl
  | observeCancelled _ =>
    obtain ⟨-, ⟨⟩⟩ := Option.ite_none_right_eq_some.mp hn
    refine ⟨h.registration, h.joined_ok, h.joined_error, ?_⟩
    rintro _ ⟨⟩
    exact Or.inl rfl
  | finish _ =>
    obtain ⟨-, hn⟩ := Option.ite_none_right_eq_some.mp hn
    split at hn
    case h_1 r hjoined =>
      cases hn
      obtain ⟨rs, ha, hf⟩ :=
        assemble_exact h.registration (h.joined_ok r hjoined)
      refine ⟨h.registration, h.joined_ok, h.joined_error, ?_⟩
      rintro _ ⟨⟩
      rw [ha]
      exact hf
    case h_2 error hjoined =>
      cases hn
      refine ⟨h.registration, h.joined_ok, h.joined_error, ?_⟩
      rintro _ ⟨⟩
      exact Or.inr (h.joined_error error hjoined)
    case h_3 => cases hn
  | request _ => cases hn
  | resolve _ _ => cases hn
  | release _ => cases hn

lemma readOutcome_exact {f : SharedRead} {a : Except CloudBackendError ContentReadResponse}
    (h : HonestAnswer contentOf system (.resolve f a)) : AnswerExact contentOf f (readOutcome f.request a) := by
  cases a with
  | error e => exact ⟨e, rfl⟩
  | ok r =>
    obtain ⟨hv, hb⟩ := h
    obtain ⟨hr, hs, ho, hl⟩ :=
      ContentReadRequest.validateResponse_eq_ok.mp hv
    simp only [readOutcome, hv]
    exact ⟨hr, hs, ho, hl, hb⟩

/-- **Every step over an honest backend keeps the system exact.** -/
theorem exact_step {s' : Hydration} {l : HydrationLabel}
    (hi : HydrationInvariant limits system) (h : ExactInvariant contentOf system)
    (hh : HonestAnswer contentOf system l)
    (hs : system.step limits l = some s') : ExactInvariant contentOf s' := by
  have hlocal : ∀ {i}, l.waiter? = some i → ExactInvariant contentOf s' := by
    intro i hlb
    obtain ⟨old, new, hg, hn, rfl⟩ := step_local hlb hs
    refine ⟨h.answer, fun w hw => ?_⟩
    rcases mem_or_eq_of_mem_set hw with hw | rfl
    · exact h.waiter w hw
    · exact (h.waiter old (mem_of_getElem? hg)).next h.answer hn
  cases l with
  | request rd =>
    simp only [Hydration.step] at hs
    rcases request_cases limits system.coordinator rd with
      ⟨_, _, heq⟩ | ⟨targetStart, targetEnd, hext, heq⟩
    · rw [heq] at hs
      cases hs
      exact ⟨h.answer, h.waiter⟩
    · rcases hreg : register limits system.coordinator rd targetStart targetEnd with
        ⟨_ | dp, fn⟩
      · rw [heq, hreg] at hs
        cases hs
        exact ⟨h.answer, h.waiter⟩
      · rw [heq, hreg] at hs
        cases hs
        refine ⟨h.answer, fun w hw => ?_⟩
        rcases mem_append.mp hw with hw | hw
        · exact h.waiter w hw
        · rw [mem_singleton.mp hw]
          exact ⟨register_covers hi.consistent hext hreg, by simp [Waiter.new],
            by simp [Waiter.new], by simp [Waiter.new]⟩
  | resolve f a =>
    obtain ⟨-, ⟨⟩⟩ := Option.ite_none_right_eq_some.mp hs
    refine ⟨fun o a' hl => ?_, h.waiter⟩
    rw [lookup_insert_eq] at hl
    split at hl
    case isTrue heq =>
      cases hl
      rw [heq]
      exact readOutcome_exact hh
    case isFalse => exact h.answer o a' hl
  | release i =>
    simp only [Hydration.step] at hs
    cases hg : system.waiters[i]? with
    | none => simp [hg] at hs
    | some old =>
      simp only [hg, Option.ite_none_right_eq_some, Option.some.injEq] at hs
      obtain ⟨-, rfl⟩ := hs
      refine ⟨h.answer, fun w hw => ?_⟩
      rcases mem_or_eq_of_mem_set hw with hw | rfl
      · exact h.waiter w hw
      · have hold := h.waiter old (mem_of_getElem? hg)
        exact { hold with }
  | cancel i => exact hlocal rfl
  | join i => exact hlocal rfl
  | joinFailed i _ => exact hlocal rfl
  | complete i => exact hlocal rfl
  | observeCancelled i => exact hlocal rfl
  | finish i => exact hlocal rfl

/-- **Hydration is exact.**  Over an honest backend, whatever the other waiters do and in whichever
order works complete, a waiter that returned `Ok` returned exactly the bytes it asked for, and a
waiter that returned an error was cancelled or passes on an error of the backend: assembly never
fails. -/
theorem hydration_exact {system : Hydration} (h : ReachableHonestly contentOf limits system)
    {waiter : Waiter} (hwaiter : waiter ∈ system.waiters) :
    (∀ response, waiter.outcome = some (.ok response) → response.revision = waiter.request.read.revision ∧
      response.offset = waiter.request.read.requestedOffset ∧
      response.totalSize = waiter.request.read.expectedSize ∧
      response.bytes = slice (contentOf waiter.request.read.key waiter.request.read.revision)
        waiter.request.read.requestedOffset waiter.request.read.requestedEnd) ∧
    (∀ error, waiter.outcome = some (.error error) → error = .cancelled ∨ IsBackendError error) ∧
    (∀ responses, waiter.joined = some (.ok responses) →
      ∃ response, assemble waiter.request waiter.registration responses = .ok response) := by
  have hi : HydrationInvariant limits system ∧ ExactInvariant contentOf system := by
    refine Reachable.induction
      (I := fun s => HydrationInvariant limits s ∧ ExactInvariant contentOf s) ?_ ?_ h
    · rintro _ rfl
      exact ⟨invariant_initial, by simp [Hydration.initial], by simp [Hydration.initial]⟩
    · rintro _ _ _ - ⟨hi, he⟩ ⟨hh, hs⟩
      exact ⟨invariant_step hi hs, exact_step hi he hh hs⟩
  have he := hi.2.waiter waiter hwaiter
  refine ⟨fun response ho => ?_, fun error ho => he.outcome _ ho, fun responses ho => ?_⟩
  · have hfits := he.outcome _ ho
    exact ⟨hfits.revision, hfits.offset, hfits.totalSize, hfits.bytes⟩
  · obtain ⟨response, ha, -⟩ := assemble_exact he.registration (he.joined_ok _ ho)
    exact ⟨response, ha⟩

def smallFile : List UInt8 := [0, 1, 2, 3, 4, 5, 6, 7, 8, 9, 10, 11]

def smallFileAnswer (offset length : ℕ) (hpos : 0 < length) (hend : offset + length ≤ 12)
    (id : ℕ) : HydrationLabel :=
  .resolve ⟨id, (smallFileRead (.range ⟨offset, length, hpos, hend.trans (by decide)⟩)).read⟩
    (.ok ⟨sampleRevision, offset, slice smallFile offset (offset + length), 12,
      (Nat.add_le_add_left ((length_slice_le _ _).trans (Nat.add_sub_cancel_left _ _).le) _).trans hend⟩)

/-- Two overlapping reads: the second waiter is assembled from the work of the first and the gaps
on either side of it. -/
def overlappingReads : List HydrationLabel :=
  [.request (smallFileRead (.range middleRange)),
    .request (smallFileRead (.range ⟨2, 8, by decide, by decide⟩)),
    smallFileAnswer 8 2 Nat.two_pos (by decide) 2, smallFileAnswer 4 4 middleRange.length_pos (by decide) 0,
    smallFileAnswer 2 2 Nat.two_pos (by decide) 1, .join 1, .complete 1, .release 1, .finish 1]

instance (system : Hydration) : (label : HydrationLabel) → Decidable (HonestAnswer contentOf system label)
  | .resolve _ (.ok _) => inferInstanceAs (Decidable (_ ∧ _))
  | .resolve _ (.error _) | .request _ | .cancel _ | .join _ | .joinFailed _ _ | .complete _
  | .release _ | .observeCancelled _ | .finish _ => inferInstanceAs (Decidable True)

/-- The overlapping reads: the second waiter gets the bytes it asked for from three works. -/
theorem hydration_exact_overlappingReads :
    ∃ system waiter response, execute (Hydration.step .default) .initial overlappingReads
        = some system ∧ system.waiters[1]? = some waiter ∧
      waiter.outcome = some (.ok response) ∧
      response.bytes = slice smallFile waiter.request.read.requestedOffset
        waiter.request.read.requestedEnd := by
  have hrun : ((execute (Hydration.step .default) .initial overlappingReads).bind fun system =>
      system.waiters[1]?.bind fun waiter => waiter.outcome.bind Except.toOption).isSome = true := by
    decide
  obtain ⟨response, hr⟩ := Option.isSome_iff_exists.mp hrun
  simp only [Option.bind_eq_some_iff] at hr
  obtain ⟨system, hs, waiter, hw, outcome, ho, hok⟩ := hr
  obtain rfl : outcome = .ok response := by
    cases outcome <;> simp_all [Except.toOption]
  have hhonest : ∀ l ∈ overlappingReads, ∀ s, HonestAnswer (fun _ _ => smallFile) s l := by
    have hinit : ∀ l ∈ overlappingReads, HonestAnswer (fun _ _ => smallFile) .initial l := by decide
    intro l hm _
    have hlabel := hinit l hm
    cases l <;> exact hlabel
  have hreach : ReachableHonestly (fun _ _ => smallFile) .default system :=
    ⟨_, _, rfl, (run_of_execute hs).guarded hhonest⟩
  have hexact := (hydration_exact hreach (mem_of_getElem? hw)).1 response ho
  exact ⟨system, waiter, response, hs, hw, ho, hexact.2.2.2⟩

end AsterForge.Core
