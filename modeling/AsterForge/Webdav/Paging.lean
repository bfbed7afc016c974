import AsterForge.Webdav.Traversal
import Mathlib.Data.List.Chain

/-!
# Reading a directory to its end

One page state accompanies the reading of one directory, over any number of calls and with a backend that
may answer anything.  This file follows the calls from the first one on, with the requests that got through
to the backend and the pages that were accepted.

* `DavPagingTrace` — the state, what the backend was asked, what the caller was answered and which pages
  were accepted; `DavPagingTrace.read` is one more call.
* `PageOutcome` — what one call can do; **`read_outcome`** — it does one of these.
* **`directory_paging`** — keys ascend across pages, no cursor comes twice, the page limit holds, a rejected
  page ends the reading, and the backend is left alone after the end.
-/

namespace AsterForge.Webdav

open AsterForge.Core Library DavDirectoryPageState List Option

variable {σ κ : Type}

/-! ## The reading of a directory -/

def DavDirectoryEnumerator.recorded (enumerator : DavDirectoryEnumerator σ κ) :
    DavDirectoryEnumerator (σ × List (DavDirectoryPageRequest κ)) κ where
  readDirectoryPage world request :=
    ((enumerator.readDirectoryPage world.1 request).1,
      (enumerator.readDirectoryPage world.1 request).2, world.2 ++ [request])

def DavCancellation.recorded (cancellation : DavCancellation σ) :
    DavCancellation (σ × List (DavDirectoryPageRequest κ)) where
  isCancelled world :=
    ((cancellation.isCancelled world.1).1, (cancellation.isCancelled world.1).2, world.2)

structure DavPageRead where
  path : DavPath
  requestedEntries : ℕ
  limits : DavDirectoryPageLimits

/-- The reading of one directory so far. -/
structure DavPagingTrace (σ κ : Type) where
  state : DavDirectoryPageState κ
  world : σ
  requests : List (DavDirectoryPageRequest κ)
  answers : List (Except DavDirectoryReadError (Option DavValidatedDirectoryPage))
  pages : List (DavDirectoryPage κ)

namespace DavPagingTrace

/-- Nothing was read. -/
def start (world : σ) : DavPagingTrace σ κ := ⟨.new, world, [], [], []⟩

end DavPagingTrace

def stableKeys (pages : List (DavDirectoryPage κ)) : List (List UInt8) :=
  (pages.flatMap DavDirectoryPage.entries).map DavDirectoryEntry.stableKey

def continuationCursors (pages : List (DavDirectoryPage κ)) : List κ :=
  pages.filterMap DavDirectoryPage.nextCursor

/-! ## What the state remembers -/

lemma validateEntryKeys_ok : ∀ {p : Option (List UInt8)} {e : List DavDirectoryEntry},
    validateEntryKeys p e = .ok () → (e.map DavDirectoryEntry.stableKey).IsChain (· < ·) ∧
        ∀ l ∈ p, ∀ key ∈ (e.map DavDirectoryEntry.stableKey).head?, l < key
  | _, [], _ => ⟨.nil, by simp⟩
  | p, en :: e, hvalid => by
    simp only [validateEntryKeys, bind_eq_ok, refuse_eq_ok] at hvalid
    obtain ⟨_, -, _, hf, _, ho, hr⟩ := hvalid
    obtain ⟨hc, hh⟩ := validateEntryKeys_ok hr
    refine ⟨List.isChain_cons.mpr ⟨hh en.stableKey rfl, hc⟩, fun l hl key hk => ?_⟩
    obtain rfl : en.stableKey = key := some.inj hk
    have hle : l ≤ en.stableKey := fun hlt => ho ⟨l, hl, hlt⟩
    rcases List.le_iff_lt_or_eq.mp hle with hlt | heq
    · exact hlt
    · exact absurd (heq ▸ hl) hf


/-- **What the state says about the reading.** -/
structure PagingInvariant (trace : DavPagingTrace σ κ) : Prop where
  ascending : (stableKeys trace.pages).IsChain (· < ·)
  last : trace.state.lastStableKey = (stableKeys trace.pages).getLast?
  distinct : (continuationCursors trace.pages).Nodup
  remembered : trace.state.finished = false → ∀ cursor ∈ continuationCursors trace.pages,
    cursor ∈ trace.state.seenCursors ∨ trace.state.currentCursor = some cursor
  counted : trace.pages.length = trace.state.pagesRead
  finished_iff : trace.state.finished = true ↔ ∃ page ∈ trace.pages, page.nextCursor = none
  poisoned_of : ∀ error, .error (.invalidPage error) ∈ trace.answers → trace.state.poisoned = some error

open DavPagingTrace

lemma pagingInvariant_start (world : σ) : PagingInvariant (start world : DavPagingTrace σ κ) where
  ascending := .nil
  last := rfl
  distinct := nodup_nil
  remembered := by
    intro _ cursor hm
    cases hm
  counted := rfl
  finished_iff := by simp [start, new]
  poisoned_of := by
    intro error hm
    cases hm

variable {trace trace' : DavPagingTrace σ κ} {call : DavPageRead}

/-- A call that accepts nothing keeps the invariant if it leaves everything but the poison alone. -/
lemma PagingInvariant.congr (h : PagingInvariant trace) (p : Option DavDirectoryPageValidationError)
    (hs : trace'.state = { trace.state with poisoned := p }) (hp : trace'.pages = trace.pages)
    (hps : ∀ e, .error (.invalidPage e) ∈ trace'.answers → p = some e) : PagingInvariant trace' := by
  obtain ⟨a, l, d, r, c, fi, -⟩ := h
  refine ⟨hp ▸ a, ?_, hp ▸ d, ?_, ?_, ?_, ?_⟩
  · rw [hs, hp]
    exact l
  · rw [hs, hp]
    exact r
  · rw [hs, hp]
    exact c
  · rw [hs, hp]
    exact fi
  · rw [hs]
    exact hps

variable {page : DavDirectoryPage κ}

lemma PagingInvariant.ascending_accept (h : PagingInvariant trace)
    (hk : validateEntryKeys trace.state.lastStableKey page.entries = .ok ()) :
    (stableKeys (trace.pages ++ [page])).IsChain (· < ·) ∧
      (page.entries.getLast?.map DavDirectoryEntry.stableKey).or trace.state.lastStableKey =
        (stableKeys (trace.pages ++ [page])).getLast? := by
  have happend : stableKeys (trace.pages ++ [page]) =
      stableKeys trace.pages ++ page.entries.map DavDirectoryEntry.stableKey := by
    simp [stableKeys]
  obtain ⟨hc, hh⟩ := validateEntryKeys_ok hk
  rw [happend]
  refine ⟨isChain_append.mpr ⟨h.ascending, hc, h.last ▸ hh⟩, ?_⟩
  rw [h.last, getLast?_append, getLast?_map]

/-! ## Calls -/

variable [DecidableEq κ]

namespace DavPagingTrace

variable (enumerator : DavDirectoryEnumerator σ κ) (cancellation : DavCancellation σ)

/-- One call.  An accepted page is what the caller gets, with the cursor that the state goes on from. -/
def read (trace : DavPagingTrace σ κ) (call : DavPageRead) : DavPagingTrace σ κ :=
  let (answer, state, world) := readNextDirectoryPage enumerator.recorded cancellation.recorded
    (trace.world, trace.requests) call.path trace.state call.requestedEntries call.limits
  { state
    world := world.1
    requests := world.2
    answers := trace.answers ++ [answer]
    pages := trace.pages ++
      match answer with
      | .ok (some page) => [⟨page.entries, state.currentCursor⟩]
      | _ => [] }

def readAll (trace : DavPagingTrace σ κ) (calls : List DavPageRead) : DavPagingTrace σ κ :=
  calls.foldl (read enumerator cancellation) trace

end DavPagingTrace

inductive PageOutcome (call : DavPageRead) (trace : DavPagingTrace σ κ) : DavPagingTrace σ κ → Prop
  /-- The state is poisoned. -/
  | poisoned {error : DavDirectoryPageValidationError} (hpoisoned : trace.state.poisoned = some error) :
      PageOutcome call trace { trace with answers := trace.answers ++ [.error (.invalidPage error)] }
  /-- The last page was read. -/
  | finished (hsound : trace.state.poisoned = none) (hfinished : trace.state.finished = true) :
      PageOutcome call trace { trace with answers := trace.answers ++ [.ok none] }
  /-- The call is given up before the backend is asked. -/
  | refused {error : DavDirectoryReadError} (world : σ) (hsound : trace.state.poisoned = none)
      (herror : ∀ invalid, error ≠ .invalidPage invalid) :
      PageOutcome call trace { trace with world := world, answers := trace.answers ++ [.error error] }
  /-- The backend fails. -/
  | failed {error : DavBackendError} (world : σ) (request : DavDirectoryPageRequest κ)
      (hsound : trace.state.poisoned = none) (hunfinished : trace.state.finished = false)
      (hlimit : trace.state.pagesRead < call.limits.maximumPages) :
      PageOutcome call trace
        { trace with
          world := world, requests := trace.requests ++ [request]
          answers := trace.answers ++ [.error (.backend error)] }
  /-- The page is rejected. -/
  | rejected {error : DavDirectoryPageValidationError} (world : σ) (request : DavDirectoryPageRequest κ)
      (hsound : trace.state.poisoned = none) (hunfinished : trace.state.finished = false)
      (hlimit : trace.state.pagesRead < call.limits.maximumPages) :
      PageOutcome call trace
        { trace with
          state := { trace.state with poisoned := some error }
          world := world, requests := trace.requests ++ [request]
          answers := trace.answers ++ [.error (.invalidPage error)] }
  /-- The page is accepted. -/
  | accepted {maximumEntries : ℕ} (world : σ) (request : DavDirectoryPageRequest κ)
      (page : DavDirectoryPage κ) (hsound : trace.state.poisoned = none)
      (hunfinished : trace.state.finished = false) (hlimit : trace.state.pagesRead < call.limits.maximumPages)
      (hvalid : validateDirectoryPage trace.state.currentCursor trace.state.seenCursors
        trace.state.lastStableKey maximumEntries page = .ok ()) :
      PageOutcome call trace
        { state := trace.state.accept page
          world := world, requests := trace.requests ++ [request]
          answers := trace.answers ++ [.ok (some ⟨page.entries, page.nextCursor.isSome⟩)]
          pages := trace.pages ++ [page] }

namespace DavPagingTrace

variable (en : DavDirectoryEnumerator σ κ) (c : DavCancellation σ)

/-- **Every call has one of the outcomes.** -/
theorem read_outcome (tr : DavPagingTrace σ κ) (cl : DavPageRead) : PageOutcome cl tr (tr.read en c cl) := by
  unfold read readNextDirectoryPage
  cases hpois : tr.state.poisoned with
  | some e =>
    simp only [append_nil]
    exact .poisoned hpois
  | none =>
    by_cases hfin : tr.state.finished = true
    · simp only [hfin, if_true, append_nil]
      exact .finished hpois hfin
    have hunfin : tr.state.finished = false := by simpa using hfin
    by_cases hlims : cl.requestedEntries = 0 ∨ cl.limits.maximumEntries = 0 ∨ cl.limits.maximumPages = 0
    · simp only [hunfin, Bool.false_eq_true, if_false, if_pos hlims, append_nil]
      exact .refused _ hpois nofun
    by_cases hcanc : (c.isCancelled tr.world).1 = true
    · simp only [if_neg hfin, if_neg hlims, DavCancellation.recorded, hcanc, if_true, append_nil]
      exact .refused _ hpois nofun
    by_cases hpages : cl.limits.maximumPages ≤ tr.state.pagesRead
    · simp only [if_neg hfin, if_neg hlims, DavCancellation.recorded, if_neg hcanc, if_pos hpages, append_nil]
      exact .refused _ hpois nofun
    have hlimit : tr.state.pagesRead < cl.limits.maximumPages := Nat.lt_of_not_le hpages
    simp only [if_neg hfin, if_neg hlims, DavCancellation.recorded,
      if_neg hcanc, if_neg hpages, DavDirectoryEnumerator.recorded]
    split
    case h_1 e hans =>
        simp only [append_nil]
        exact .failed _ _ hpois hunfin hlimit
    case h_2 page hans =>
        split
        case h_1 e hvalid =>
            simp only [append_nil]
            exact .rejected _ _ hpois hunfin hlimit
        case h_2 hvalid => exact .accepted _ _ page hpois hunfin hlimit hvalid

end DavPagingTrace

/-! ## Every call keeps it -/

lemma validateDirectoryPage_ok {cc : Option κ} {sc : Finset κ} {psk : Option (List UInt8)} {me : ℕ}
    (hv : validateDirectoryPage cc sc psk me page = .ok ()) :
    (∀ c ∈ page.nextCursor, cc ≠ some c ∧ c ∉ sc) ∧ validateEntryKeys psk page.entries = .ok () := by
  simp only [validateDirectoryPage, bind_eq_ok, refuse_eq_ok] at hv
  obtain ⟨_, -, _, -, _, -, _, hc, hk⟩ := hv
  refine ⟨fun c hm => ⟨fun hcr => hc ⟨c, hm, .inl hcr⟩, fun hs => ?_⟩, hk⟩
  exact hc ⟨c, hm, .inr hs⟩

lemma PagingInvariant.distinct_accept (h : PagingInvariant trace) (hu : trace.state.finished = false)
    (hc : ∀ c ∈ page.nextCursor, trace.state.currentCursor ≠ some c ∧ c ∉ trace.state.seenCursors) :
    (continuationCursors (trace.pages ++ [page])).Nodup ∧
      (page.nextCursor ≠ none → ∀ c ∈ continuationCursors (trace.pages ++ [page]),
        c ∈ (trace.state.accept page).seenCursors ∨ page.nextCursor = some c) := by
  have hold := h.remembered hu
  cases hnext : page.nextCursor with
  | none =>
    have hsame : continuationCursors (trace.pages ++ [page]) = continuationCursors trace.pages := by
      simp [continuationCursors, hnext]
    exact ⟨hsame ▸ h.distinct, fun hne => absurd rfl hne⟩
  | some next =>
    obtain ⟨hcr, hs⟩ := hc next hnext
    have happend : continuationCursors (trace.pages ++ [page]) =
        continuationCursors trace.pages ++ [next] := by
      simp [continuationCursors, hnext]
    have hfresh : next ∉ continuationCursors trace.pages := by
      intro hm
      rcases hold next hm with hm | heq
      · exact hs hm
      · exact hcr heq
    rw [happend]
    refine ⟨nodup_append.mpr ⟨h.distinct, nodup_singleton next, ?_⟩, fun _ c hm => ?_⟩
    · intro c hm o ho heq
      obtain rfl := mem_singleton.mp ho
      exact hfresh (heq ▸ hm)
    · rcases mem_append.mp hm with hm | hm
      · refine .inl ?_
        simp only [accept, hnext]
        rcases hold c hm with hm | heq
        · cases trace.state.currentCursor with
          | none => exact hm
          | some p => exact Finset.mem_insert_of_mem hm
        · rw [heq]
          exact Finset.mem_insert_self _ _
      · obtain rfl := mem_singleton.mp hm
        exact .inr rfl

/-- **Every call keeps the invariant.** -/
theorem PagingInvariant.outcome
    (h : PagingInvariant trace) (ho : PageOutcome call trace trace') : PagingInvariant trace' := by
  have hother : ∀ a : Except DavDirectoryReadError (Option DavValidatedDirectoryPage),
      (∀ e, a ≠ .error (.invalidPage e)) → ∀ e,
        .error (.invalidPage e) ∈ trace.answers ++ [a] → trace.state.poisoned = some e := by
    intro a han e hm
    rcases mem_append.mp hm with hm | hm
    · exact h.poisoned_of e hm
    · exact absurd (mem_singleton.mp hm).symm (han e)
  cases ho with
  | @poisoned e hp =>
    refine h.congr (some e) (by rw [← hp]) rfl fun e' hm => ?_
    rcases mem_append.mp hm with hm | hm
    · exact hp ▸ h.poisoned_of e' hm
    · cases mem_singleton.mp hm
      rfl
  | finished hs hfin | failed w r hs hu hl =>
    refine h.congr trace.state.poisoned rfl rfl (hother _ ?_)
    intro _ heq
    cases heq
  | refused w hs her =>
    refine h.congr trace.state.poisoned rfl rfl (hother _ fun i heq => ?_)
    exact her i (Except.error.inj heq)
  | @rejected e w r hs hu hl =>
    refine h.congr (some e) rfl rfl fun e' hm => ?_
    rcases mem_append.mp hm with hm | hm
    · exact absurd ((h.poisoned_of e' hm).symm.trans hs) (by simp)
    · cases mem_singleton.mp hm
      rfl
  | accepted w r page hs hu hl hv =>
    obtain ⟨hc, hk⟩ := validateDirectoryPage_ok hv
    obtain ⟨ha, hls⟩ := h.ascending_accept hk
    obtain ⟨hd, hr⟩ := h.distinct_accept hu hc
    refine ⟨ha, hls, hd, fun hmr => hr ?_, ?_, ?_, hother _ ?_⟩
    · have hsome : page.nextCursor.isSome = true := by simpa [accept] using hmr
      exact isSome_iff_ne_none.mp hsome
    · simp [accept, h.counted]
    · have hnone : ¬∃ page ∈ trace.pages, page.nextCursor = none := by
        rw [← h.finished_iff, hu]
        exact Bool.false_ne_true
      simp only [accept, mem_append, mem_singleton, isNone_iff_eq_none]
      constructor
      · intro he
        exact ⟨page, .inr rfl, he⟩
      · rintro ⟨f, hm | rfl, he⟩
        · exact absurd ⟨f, hm, he⟩ hnone
        · exact he
    · nofun

/-! ## After the end -/

/-- A call that does not get through to the backend: the state is poisoned or finished, or the page limit is
reached. -/
def DavDirectoryPageState.Settled (state : DavDirectoryPageState κ) (call : DavPageRead) : Prop :=
  state.poisoned ≠ none ∨ state.finished = true ∨ call.limits.maximumPages ≤ state.pagesRead

lemma PageOutcome.settled (h : PageOutcome call trace trace') (hst : trace.state.Settled call) :
    trace'.state = trace.state ∧ trace'.requests = trace.requests ∧ trace'.pages = trace.pages := by
  have hopen : trace.state.poisoned = none → trace.state.finished = false →
      ¬trace.state.pagesRead < call.limits.maximumPages := by
    intro hs hu hl
    rcases hst with hp | hf | hr
    · exact hp hs
    · exact Bool.false_ne_true (hu.symm.trans hf)
    · omega
  cases h with
  | poisoned => exact ⟨rfl, rfl, rfl⟩
  | finished => exact ⟨rfl, rfl, rfl⟩
  | refused => exact ⟨rfl, rfl, rfl⟩
  | failed w r hs hu hl | rejected w r hs hu hl =>
    exact absurd hl (hopen hs hu)
  | accepted w r page hs hu hl hv =>
    exact absurd hl (hopen hs hu)

lemma PageOutcome.rejected_state (h : PageOutcome call trace trace') {e : DavDirectoryPageValidationError}
    (ha : trace'.answers = trace.answers ++ [.error (.invalidPage e)]) :
    trace'.state = { trace.state with poisoned := some e } ∧ trace'.pages = trace.pages := by
  cases h with
  | poisoned hp =>
    cases append_cancel_left ha
    exact ⟨by rw [← hp], rfl⟩
  | finished | failed => cases append_cancel_left ha
  | refused w hs he =>
    have heq := append_cancel_left ha
    simp only [cons.injEq, Except.error.injEq, and_true] at heq
    exact absurd heq (he e)
  | rejected =>
    cases append_cancel_left ha
    exact ⟨rfl, rfl⟩
  | accepted => cases append_cancel_left ha

namespace DavPagingTrace

variable (em : DavDirectoryEnumerator σ κ) (cn : DavCancellation σ) {t : DavPagingTrace σ κ}

/-- **Every sequence of calls keeps the invariant.** -/
theorem invariant_readAll (h : PagingInvariant t)
    (c : List DavPageRead) : PagingInvariant (t.readAll em cn c) := by
  induction c generalizing t with
  | nil => exact h
  | cons call c ih => exact ih (h.outcome (t.read_outcome em cn call))

lemma pages_readAll (h : PagingInvariant t) {m : ℕ}
    {c : List DavPageRead} (hc : ∀ call ∈ c, call.limits.maximumPages ≤ m) (hp : t.pages.length ≤ m) :
    (t.readAll em cn c).pages.length ≤ m := by
  induction c generalizing t with
  | nil => exact hp
  | cons call c ih =>
    have hout := t.read_outcome em cn call
    refine ih (h.outcome hout) (fun o hm => hc o (mem_cons_of_mem _ hm)) ?_
    have hcount := h.counted
    have hmaximum := hc call mem_cons_self
    generalize t.read em cn call = trace' at hout
    cases hout with
    | accepted w r page hs hu hl hv =>
      simp only [length_append, length_singleton]
      omega
    | _ => exact hp

lemma readAll_settled {c : List DavPageRead} (hst : ∀ call ∈ c, t.state.Settled call) :
    (t.readAll em cn c).state = t.state ∧ (t.readAll em cn c).requests = t.requests ∧
      (t.readAll em cn c).pages = t.pages := by
  induction c generalizing t with
  | nil => exact ⟨rfl, rfl, rfl⟩
  | cons call c ih =>
    obtain ⟨hs, hr, hp⟩ :=
      (t.read_outcome em cn call).settled (hst call mem_cons_self)
    obtain ⟨hs', hr', hp'⟩ := @ih (t.read em cn call) fun o hm => hs ▸ hst o (mem_cons_of_mem _ hm)
    exact ⟨hs'.trans hs, hr'.trans hr, hp'.trans hp⟩

lemma readAll_poisoned {e : DavDirectoryPageValidationError}
    (hp : t.state.poisoned = some e) (c : List DavPageRead) :
    (t.readAll em cn c).answers = t.answers ++ replicate c.length (.error (.invalidPage e)) := by
  induction c generalizing t with
  | nil => simp [readAll]
  | cons call c ih =>
    have hread : t.read em cn call = { t with answers := t.answers ++ [.error (.invalidPage e)] } := by
      simp [read, readNextDirectoryPage, hp]
    have hrest := @ih (t.read em cn call) (hread ▸ hp)
    simpa [readAll, hread, replicate_succ] using hrest

end DavPagingTrace

/-- **Reading a directory page by page.**  In every sequence of calls on one state, over a backend that answers
anything: the keys of everything accepted strictly ascend, no continuation cursor comes twice, and no more pages
are accepted than the calls allow.  A rejected page changes only the poison, and every call after it is answered
with the same error.  After the last page, after a rejected page, and once the page limit is reached, the backend
is not asked again. -/
theorem directory_paging (enumerator : DavDirectoryEnumerator σ κ) (cancellation : DavCancellation σ)
    (world : σ) (before after : List DavPageRead) :
    let trace := (start world).readAll enumerator cancellation before
    let trace' := trace.readAll enumerator cancellation after
    (stableKeys trace.pages).Pairwise (· < ·) ∧ (continuationCursors trace.pages).Nodup
      ∧ (∀ maximum, (∀ call ∈ before, call.limits.maximumPages ≤ maximum) → trace.pages.length ≤ maximum)
      ∧ (∀ call error, (trace.read enumerator cancellation call).answers =
            trace.answers ++ [.error (.invalidPage error)] →
          (trace.read enumerator cancellation call).state = { trace.state with poisoned := some error }
            ∧ (trace.read enumerator cancellation call).pages = trace.pages)
      ∧ (∀ error, .error (.invalidPage error) ∈ trace.answers → trace'.state = trace.state
            ∧ trace'.answers = trace.answers ++ replicate after.length (.error (.invalidPage error)))
      ∧ (((∃ page ∈ trace.pages, page.nextCursor = none)
            ∨ (∃ error, .error (.invalidPage error) ∈ trace.answers)
            ∨ ∀ call ∈ after, call.limits.maximumPages ≤ trace.pages.length) →
          trace'.requests = trace.requests ∧ trace'.pages = trace.pages) := by
  intro trace trace'
  have hinv : PagingInvariant trace :=
    invariant_readAll enumerator cancellation (pagingInvariant_start world) before
  have hpois : ∀ error, .error (.invalidPage error) ∈ trace.answers →
      ∀ call : DavPageRead, trace.state.Settled call := by
    intro error hm call
    exact .inl (by rw [hinv.poisoned_of error hm]; simp)
  refine ⟨isChain_iff_pairwise.mp hinv.ascending, hinv.distinct, fun maximum hc => ?_,
    fun call error => (trace.read_outcome enumerator cancellation call).rejected_state, fun error hm => ?_,
    fun he => ?_⟩
  · exact pages_readAll enumerator cancellation (pagingInvariant_start world) hc (Nat.zero_le _)
  · refine ⟨(readAll_settled enumerator cancellation fun call _ => hpois error hm call).1,
      readAll_poisoned enumerator cancellation (hinv.poisoned_of error hm) after⟩
  · have hsettl : ∀ call ∈ after, trace.state.Settled call := by
      intro call hcl
      rcases he with hls | ⟨error, hm⟩ | hl
      · exact .inr (.inl (hinv.finished_iff.mpr hls))
      · exact hpois error hm call
      · exact .inr (.inr (hinv.counted ▸ hl call hcl))
    exact (readAll_settled enumerator cancellation hsettl).2

end AsterForge.Webdav
