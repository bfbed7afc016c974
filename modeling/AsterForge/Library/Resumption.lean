import AsterForge.Library.Checks

/-!
# Reading a listing from where one left off

A listing is read by calls, each of which hands out some of its items from a place on; the place where the next
call goes on comes with the last of them.  Nobody keeps where a reader is, so all depends on these places.

* **`ReadsAll.of_resumes`** — what a reader gets, from any place on.
-/

namespace AsterForge.Library

open List

variable {α β ε : Type*}

/-- Calls with one buffer after the other, each from the place that came with the last item received, until
nothing is received. -/
def reads (call : ℕ → β → Except ε (List α)) (next : α → ℕ) : ℕ → List β → Except ε (List (List α))
  | _, [] => .ok []
  | place, buffer :: buffers => do
    let items ← call place buffer
    match items.getLast? with
    | none => return [[]]
    | some last =>
      let replies ← reads call next (next last) buffers
      return items :: replies

/-- The place behind each item of a listing. -/
def PlacedIn (listing : List α) (next : α → ℕ) : Prop :=
  ∀ before item after, listing = before ++ item :: after → next item = before.length + 1

/-- A call hands out the first items from its place on, and none only at the end. -/
def Resumes (listing : List α) (place : ℕ) (call : Except ε (List α)) : Prop :=
  ∃ items, call = .ok items ∧ items <+: listing.drop place ∧ (items = [] → listing.drop place = [])

/-- A reader gets the listing from its place on, as far as it goes, and all of it once nothing more comes, which
is so after as many calls as there are items. -/
def ReadsAll (listing : List α) (place calls : ℕ) (replies : Except ε (List (List α))) : Prop :=
  ∃ received, replies = .ok received ∧ received.flatten <+: listing.drop place ∧
    (received.getLast? = some [] → received.flatten = listing.drop place) ∧
    (listing.length - place < calls → received.getLast? = some [])

variable {l : List α} {next : α → ℕ} {call : ℕ → β → Except ε (List α)}

lemma PlacedIn.drop_next (h : PlacedIn l next) {place : ℕ} {init rest : List α} {last : α}
    (hl : init ++ [last] ++ rest = l.drop place) : l.drop (next last) = rest := by
  have hsplit : l = (l.take place ++ init) ++ last :: rest := by
    rw [append_assoc, append_cons init, hl, take_append_drop]
  have hnext := h _ _ _ hsplit
  generalize l.take place ++ init = before at hsplit hnext
  rw [hnext, hsplit, append_cons]
  exact drop_left' (by simp)

/-- **Resuming misses nothing and repeats nothing.** -/
theorem ReadsAll.of_resumes (hl : PlacedIn l next) {buffers : List β}
    (h : ∀ b ∈ buffers, ∀ place, Resumes l place (call place b)) (place : ℕ) :
    ReadsAll l place buffers.length (reads call next place buffers) := by
  induction buffers generalizing place with
  | nil => exact ⟨[], rfl, nil_prefix, by simp, by simp⟩
  | cons b buffers ih =>
    obtain ⟨items, hcall, ⟨rest, hrest⟩, hend⟩ := h b mem_cons_self place
    rw [reads, hcall, ok_bind]
    cases hlast : items.getLast? with
    | none =>
      have hdrop := hend (getLast?_eq_none_iff.mp hlast)
      exact ⟨[[]], rfl, nil_prefix, fun _ => hdrop.symm, fun _ => rfl⟩
    | some last =>
      obtain ⟨init, rfl⟩ := getLast?_eq_some_iff.mp hlast
      have hdrop := hl.drop_next hrest
      have hlen := congrArg length hrest
      have hlen' := congrArg length hdrop
      obtain ⟨received, hreads, hprefix, hall, hends⟩ := ih (fun b hb => h b (mem_cons_of_mem _ hb)) (next last)
      rw [hdrop] at hprefix hall
      refine ⟨(init ++ [last]) :: received, by simp only [hreads]; rfl, ?_, fun he => ?_, fun hc => ?_⟩
      · rw [flatten_cons, ← hrest, prefix_append_right_inj]
        exact hprefix
      · have hlast' : received.getLast? = some [] := by
          rw [getLast?_cons] at he
          cases hr : received.getLast? with
          | none => simp [hr] at he
          | some _ => simpa [hr] using he
        rw [flatten_cons, ← hrest, hall hlast']
      · have hfewer : l.length - next last < buffers.length := by
          simp only [length_drop, length_append, length_cons, length_nil] at hlen hlen' hc
          omega
        rw [getLast?_cons, hends hfewer, Option.getD_some]

end AsterForge.Library
