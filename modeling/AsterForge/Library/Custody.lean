import Mathlib.Data.List.Nodup

/-!
# Records in custody

A keeper takes records in, holds them in order, and tries to hand over what is at the front.  An attempt
that succeeds takes its records out of custody, one that fails leaves them where they are.

* **`Balances.accept`**, **`Balances.attempt`** — what was taken in is what was handed over followed by
  what is held, and a count says which is which.
* **`Balances.handed_once`** — a record that was taken in was handed over by one attempt, or is held.
* `Balances.covered`, `Balances.front_mem`, `Balances.take_subset` — what a watermark, a count of
  records taken in, says of the records handed over, of the one at the front, and of those behind it.
-/

namespace AsterForge.Library

open List

variable {α ε : Type}

/-- A try to hand over the records at the front. -/
structure Attempt (α ε : Type) where
  entries : List α
  result : Except ε Unit

def Attempt.succeeded (attempt : Attempt α ε) : Bool :=
  match attempt.result with
  | .ok () => true
  | .error _ => false

/-- The records that an attempt takes out of custody. -/
def Attempt.handed (attempt : Attempt α ε) : List α :=
  if attempt.succeeded then attempt.entries else []

def handedOver (attempts : List (Attempt α ε)) : List α :=
  attempts.flatMap Attempt.handed

@[simp] lemma handedOver_nil : handedOver ([] : List (Attempt α ε)) = [] := rfl

@[simp] lemma handedOver_append (a m : List (Attempt α ε)) :
    handedOver (a ++ m) = handedOver a ++ handedOver m := flatMap_append

@[simp] lemma handedOver_cons (att : Attempt α ε) (a : List (Attempt α ε)) :
    handedOver (att :: a) = att.handed ++ handedOver a := flatMap_cons

@[simp] lemma handed_ok (e : List α) (d : Unit) : (⟨e, .ok d⟩ : Attempt α ε).handed = e := rfl

@[simp] lemma handed_error (e : List α) (f : ε) : (⟨e, .error f⟩ : Attempt α ε).handed = [] := rfl

/-- What a keeper has taken in, and what it has tried, in order. -/
structure CustodyLog (α ε : Type) where
  admitted : List α
  attempts : List (Attempt α ε)

namespace CustodyLog

def empty : CustodyLog α ε := ⟨[], []⟩

def acked (log : CustodyLog α ε) : List α := handedOver log.attempts

def accept (log : CustodyLog α ε) (record : α) : CustodyLog α ε :=
  { log with admitted := log.admitted ++ [record] }

def attempt (log : CustodyLog α ε) (attempt : Attempt α ε) : CustodyLog α ε :=
  { log with attempts := log.attempts ++ [attempt] }

@[simp] lemma acked_accept (log : CustodyLog α ε) (r : α) : (log.accept r).acked = log.acked := rfl

@[simp] lemma acked_attempt (log : CustodyLog α ε) (a : Attempt α ε) :
    (log.attempt a).acked = log.acked ++ a.handed := by
  simp [acked, CustodyLog.attempt]

/-- The log explains what is held: what was taken in is what was handed over and then what is held, and
every attempt was at the records that were at the front when it was made. -/
structure Balances (log : CustodyLog α ε) (held : List α) : Prop where
  admitted_eq : log.acked ++ held = log.admitted
  ordered : ∀ earlier attempt later, log.attempts = earlier ++ attempt :: later →
    attempt.entries <+: log.admitted.drop (handedOver earlier).length

variable {log : CustodyLog α ε} {hl : List α}

lemma balances_empty : (empty : CustodyLog α ε).Balances [] := by
  refine ⟨rfl, ?_⟩
  intro earlier attempt later h
  simp [empty] at h

lemma Balances.acked_isPrefix (h : log.Balances hl) : log.acked <+: log.admitted :=
  ⟨hl, h.admitted_eq⟩

lemma Balances.drop_acked (h : log.Balances hl) : log.admitted.drop log.acked.length = hl := by
  rw [← h.admitted_eq, drop_left]

lemma Balances.length (h : log.Balances hl) : log.acked.length + hl.length = log.admitted.length := by
  rw [← h.admitted_eq, length_append]

/-- **One more record** is held behind the others. -/
theorem Balances.accept (h : log.Balances hl) (r : α) : (log.accept r).Balances (hl ++ [r]) := by
  constructor
  · rw [acked_accept, ← append_assoc, h.admitted_eq, CustodyLog.accept]
  · intro e a l hs
    have hle : (handedOver e).length ≤ log.admitted.length := by
      have hatts : log.attempts = e ++ a :: l := hs
      have hlen := h.acked_isPrefix.length_le
      rw [acked, hatts, handedOver_append, length_append] at hlen
      omega
    show a.entries <+: (log.admitted ++ [r]).drop (handedOver e).length
    rw [drop_append_of_le_length hle]
    exact (h.ordered e a l hs).trans (prefix_append _ _)

def left (held : List α) (attempt : Attempt α ε) : List α := held.drop attempt.handed.length

/-- **One more attempt**, at what is at the front. -/
theorem Balances.attempt (h : log.Balances hl) {a : Attempt α ε} (hf : a.entries <+: hl) :
    (log.attempt a).Balances (left hl a) := by
  have hhanded : a.handed <+: hl := by
    rw [Attempt.handed]
    split
    · exact hf
    · exact nil_prefix
  constructor
  · obtain ⟨r, hr⟩ := hhanded
    rw [acked_attempt, left, ← hr, drop_left, append_assoc, hr, h.admitted_eq, CustodyLog.attempt]
  · intro e o l hs
    rcases eq_nil_or_concat l with rfl | ⟨b, ls, rfl⟩
    · -- the attempt that was just made
      obtain ⟨he, ho⟩ := append_inj' (show log.attempts ++ [a] = e ++ [o] from hs) rfl
      rw [singleton_inj] at ho
      subst he ho
      rw [show (log.attempt a).admitted = log.admitted from rfl,
        show handedOver log.attempts = log.acked from rfl, h.drop_acked]
      exact hf
    · rw [concat_eq_append] at hs
      have hsplit' : log.attempts ++ [a] = (e ++ o :: b) ++ [ls] := by
        rw [append_assoc]
        exact hs
      exact h.ordered e o b (append_inj' hsplit' rfl).1

/-! ## Once -/

/-- Where no record was handed over twice, the attempts that handed one over are counted by its
occurrences. -/
lemma countP_handed [DecidableEq α] (r : α) : ∀ att : List (Attempt α ε), (handedOver att).Nodup →
      att.countP (fun a => a.succeeded && decide (r ∈ a.entries)) = (handedOver att).count r
  | [], _ => rfl
  | a :: att, hnodup => by
    have hrest := countP_handed r att hnodup.of_append_right
    rw [countP_cons, hrest, handedOver_cons, Nat.add_comm]
    rw [Attempt.handed]
    have hhanded : a.handed.Nodup := hnodup.of_append_left
    rw [Attempt.handed] at hhanded
    cases hsucceeded : a.succeeded with
    | false => simp
    | true =>
      rw [hsucceeded, if_pos rfl] at hhanded
      by_cases hmem : r ∈ a.entries
      · simp [hmem, count_eq_one_of_mem hhanded hmem]
      · simp [hmem, count_eq_zero_of_not_mem hmem]

/-- **Handed over once, or held**, as often as it was taken in. -/
theorem Balances.handed_once [DecidableEq α] (h : log.Balances hl) (hn : log.admitted.Nodup) (r : α) :
    log.attempts.countP (fun a => a.succeeded && decide (r ∈ a.entries)) +
      hl.count r = log.admitted.count r := by
  have hacked : (handedOver log.attempts).Nodup := hn.sublist h.acked_isPrefix.sublist
  rw [countP_handed r _ hacked, ← count_append]
  exact congrArg _ h.admitted_eq

/-! ## Watermarks -/

/-- **Covered.**  When as many records were handed over as had been taken in at some time, those were. -/
theorem Balances.covered (h : log.Balances hl) {s : List α} (hs : s <+: log.admitted)
    (hle : s.length ≤ log.acked.length) : ∀ r ∈ s, r ∈ log.acked := by
  intro r hm
  have hprefix : s <+: log.acked := prefix_of_prefix_length_le hs h.acked_isPrefix hle
  exact hprefix.subset hm

/-- Before that, the record at the front is one of them. -/
theorem Balances.front_mem (h : log.Balances hl) {s : List α} (hs : s <+: log.admitted)
    (hlt : log.acked.length < s.length) {f : α} {b : List α} (hh : hl = f :: b) : f ∈ s := by
  have hprefix : log.acked ++ [f] <+: s := by
    refine prefix_of_prefix_length_le ?_ hs ?_
    · rw [← h.admitted_eq, hh]
      exact ⟨b, by simp⟩
    · rw [length_append, length_singleton]
      omega
  exact hprefix.subset (by simp)

/-- No more records from the front than are missing, and all of them are among those. -/
theorem Balances.take_subset (h : log.Balances hl) {s : List α} (hs : s <+: log.admitted)
    {c : ℕ} (hc : c ≤ s.length - log.acked.length) (hlt : log.acked.length < s.length) :
    ∀ r ∈ hl.take c, r ∈ s := by
  intro r hm
  have hprefix : log.acked ++ hl.take c <+: s := by
    refine prefix_of_prefix_length_le ?_ hs ?_
    · rw [← h.admitted_eq]
      exact (prefix_append_right_inj _).mpr ( take_prefix _ _)
    · rw [length_append, length_take]
      omega
  exact hprefix.subset (mem_append_right _ hm)

end CustodyLog

end AsterForge.Library
