import Mathlib.Algebra.Order.Ring.Int

/-!
# Instants and durations

A clock counts nanoseconds: an instant is the integer number of them since the epoch, a duration is a
natural number of them.  The calendar has a first and a last instant.

* `signedDuration`, `checkedSigned` — a duration as the calendar takes it, cut off or refused where it is too
  long.
* `checkedAddSigned`, `saturatingAdd` — an instant later on, refused or cut off beyond the last one;
  **`lt_saturatingAdd`** says what cutting off keeps.
-/

namespace AsterForge.Library

def second : ℕ := 1000000000

/-- The first instant of the calendar, at the beginning of the year -262143. -/
def minUtc : ℤ := -8334601228800000000000

/-- The last instant of the calendar, at the end of the year 262142. -/
def maxUtc : ℤ := 8210266876799999999999

def maxSignedDuration : ℕ := 9223372036854775807000000

def signedDuration (duration : ℕ) : ℕ := min duration maxSignedDuration

def checkedSigned (duration : ℕ) : Option ℕ :=
  if duration ≤ maxSignedDuration then some duration else none

/-- An instant later on, if the calendar has it. -/
def checkedAddSigned (now : ℤ) (duration : ℕ) : Option ℤ :=
  if now + duration ≤ maxUtc then some (now + duration) else none

/-- An instant later on, or the last one. -/
def saturatingAdd (now : ℤ) (duration : ℕ) : ℤ :=
  (checkedAddSigned now duration).getD maxUtc

lemma saturatingAdd_eq_min (now : ℤ) (d : ℕ) : saturatingAdd now d = min (now + d) maxUtc := by
  unfold saturatingAdd checkedAddSigned
  split_ifs with h
  · exact (min_eq_left h).symm
  · exact (min_eq_right (le_of_not_ge h)).symm

/-- **Cutting off** a duration and an instant brings nothing forward that lies before the last instant. -/
theorem lt_saturatingAdd {now i : ℤ} {d : ℕ} (hs : minUtc ≤ now) (hl : i < maxUtc) (h : i < now + d) :
    i < saturatingAdd now (signedDuration d) := by
  rw [saturatingAdd_eq_min]
  refine lt_min ?_ hl
  unfold signedDuration
  by_cases hfits : d ≤ maxSignedDuration
  · rw [min_eq_left hfits]
    exact h
  · have hmax : maxUtc < minUtc + maxSignedDuration := by decide
    omega

end AsterForge.Library
