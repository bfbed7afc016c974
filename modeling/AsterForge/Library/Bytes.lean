import AsterForge.Library.Checks
import Mathlib.Algebra.Order.Ring.Nat
import Mathlib.Data.List.SplitLengths

/-!
# Reading untrusted bytes

A decoder cuts a byte string at positions that the byte string itself declares.  Where the cut leaves
the bytes, a safe language stops the program, which is neither a value nor a reported error; `Outcome`
keeps the three apart.

* `sliceBetween`, `element`, `addWithin` — cutting, indexing and adding, with a panic outside of the
  bounds.
* `leBytes`, `leValue` — little-endian words, inverse to each other (**`leValue_leBytes`**,
  **`leBytes_leValue`**).
* `cutAt` — consecutive fields of declared lengths; **`cutAt_flatten`** and **`cutAt_total`** say what a
  table of lengths that adds up to what is there cuts out.
-/

namespace AsterForge.Library

open List

universe v

/-! ## Outcomes -/

/-- What running a piece of code comes to. -/
inductive Outcome (ε : Type*) (α : Type*)
  | ok (value : α)
  | error (error : ε)
  | panicked

namespace Outcome

variable {ε α β : Type*}

/-- What comes next runs only after a value. -/
def bind (x : Outcome ε α) (f : α → Outcome ε β) : Outcome ε β :=
  match x with
  | ok value => f value
  | error e => error e
  | panicked => panicked

instance outcomeMonad {ε : Type*} : Monad (Outcome ε) where
  pure := ok
  bind := bind

instance outcomeLawfulMonad {ε : Type*} : LawfulMonad (Outcome ε) :=
  LawfulMonad.mk' _ (by
      intro α x
      cases x <;> rfl)
    (fun _ _ => rfl)
    (by
      intro α β γ x f g
      cases x <;> rfl)

@[simp] lemma monad_bind {α β : Type v} (x : Outcome ε α) (f : α → Outcome ε β) : (x >>= f) = bind x f := rfl

@[simp] lemma monad_pure {α : Type v} (a : α) : (pure a : Outcome ε α) = ok a := rfl

@[simp] lemma ok_bind (v : α) (f : α → Outcome ε β) : bind (ok v) f = f v := rfl

@[simp] lemma error_bind (e : ε) (f : α → Outcome ε β) : bind (error e) f = error e := rfl

@[simp] lemma panicked_bind (f : α → Outcome ε β) : bind panicked f = panicked := rfl

lemma bind_eq_ok {x : Outcome ε α} {f : α → Outcome ε β} {b : β} :
    bind x f = ok b ↔ ∃ a, x = ok a ∧ f a = ok b := by
  cases x <;> simp

lemma bind_ne_panicked {x : Outcome ε α} {f : α → Outcome ε β} (hx : x ≠ panicked)
    (hf : ∀ a, x = ok a → f a ≠ panicked) : bind x f ≠ panicked := by
  cases x with
  | ok a => exact hf a rfl
  | error e => simp
  | panicked => exact absurd rfl hx

def ofExcept : Except ε α → Outcome ε α
  | .ok value => ok value
  | .error e => error e

def okOr (e : ε) : Option α → Outcome ε α
  | some value => ok value
  | none => error e

lemma okOr_eq_ok {e : ε} {x : Option α} {a : α} : okOr e x = ok a ↔ x = some a := by
  cases x <;> simp [okOr]

lemma okOr_ne_panicked {e : ε} {x : Option α} : okOr e x ≠ panicked := by
  cases x <;> simp [okOr]

end Outcome

/-! ## Slices -/

section

variable {ε α : Type*}

/-- The elements from `start` up to `stop`; outside of the list, a panic. -/
def sliceBetween (xs : List α) (start stop : ℕ) : Outcome ε (List α) :=
  if start ≤ stop ∧ stop ≤ xs.length then .ok ((xs.drop start).take (stop - start)) else .panicked

/-- Unchecked addition of machine integers; beyond their bound, a panic. -/
def addWithin (bound a b : ℕ) : Outcome ε ℕ :=
  if a + b ≤ bound then .ok (a + b) else .panicked

def checkedAdd (bound a b : ℕ) : Option ℕ := if a + b ≤ bound then some (a + b) else none

lemma checkedAdd_eq_some {bn a b c : ℕ} : checkedAdd bn a b = some c ↔ a + b = c ∧ a + b ≤ bn := by
  unfold checkedAdd
  split
  · simp [*]
  · simp [*]

lemma foldlM_checkedAdd {b s : ℕ} (hs : s ≤ b) (l : List ℕ) : l.foldlM (checkedAdd b) s =
    if s + l.sum ≤ b then some (s + l.sum) else none := by
  induction l generalizing s with
  | nil => simp [hs]
  | cons ln l ih =>
    rw [foldlM_cons, checkedAdd, sum_cons, ← Nat.add_assoc]
    by_cases hlen : s + ln ≤ b
    · rw [if_pos hlen]
      exact ih hlen
    · have hsum : ¬ s + ln + l.sum ≤ b := by omega
      rw [if_neg hlen, if_neg hsum]
      rfl

lemma exists_split (xs : List α) (n : ℕ) (h : n ≤ xs.length) : ∃ b a, xs = b ++ a ∧ b.length = n :=
  ⟨xs.take n, xs.drop n, (take_append_drop n xs).symm, by simp [h]⟩

def element (xs : List α) (index : ℕ) : Outcome ε α :=
  match xs[index]? with
  | some x => .ok x
  | none => .panicked

lemma sliceBetween_middle {b m a : List α} {s st : ℕ} (hs : b.length = s) (hst : s + m.length = st) :
    sliceBetween (ε := ε) (b ++ (m ++ a)) s st = .ok m := by
  subst hs hst
  simp [sliceBetween]

lemma element_middle {b a : List α} {x : α} {i : ℕ} (h : b.length = i) :
    element (ε := ε) (b ++ x :: a) i = .ok x := by
  subst h
  simp [element]

end

/-! ## Little-endian words -/

/-- The `width` lowest bytes of a number, lowest first. -/
def leBytes : ℕ → ℕ → List UInt8
  | 0, _ => []
  | width + 1, n => UInt8.ofNat n :: leBytes width (n / 256)

/-- The number a list of bytes spells, lowest byte first. -/
def leValue : List UInt8 → ℕ
  | [] => 0
  | byte :: bytes => byte.toNat + 256 * leValue bytes

@[simp] lemma length_leBytes (w n : ℕ) : (leBytes w n).length = w := by
  induction w generalizing n with
  | zero => rfl
  | succ w ih => simp [leBytes, ih]

/-- **Writing, then reading.** -/
theorem leValue_leBytes {w n : ℕ} (h : n < 256 ^ w) : leValue (leBytes w n) = n := by
  induction w generalizing n with
  | zero =>
    have hn : n = 0 := by simpa using h
    simp [leBytes, leValue, hn]
  | succ w ih =>
    have hdiv : n / 256 < 256 ^ w :=
      Nat.div_lt_of_lt_mul (by rwa [← Nat.pow_succ'])
    rw [leBytes, leValue, ih hdiv]
    exact Nat.mod_add_div n 256

/-- **Reading, then writing.** -/
theorem leBytes_leValue (b : List UInt8) : leBytes b.length (leValue b) = b := by
  induction b with
  | nil => rfl
  | cons bt b ih =>
    have hlow := bt.toNat_lt
    have hquotient : (bt.toNat + 256 * leValue b) / 256 = leValue b := by omega
    have hbyte : UInt8.ofNat (bt.toNat + 256 * leValue b) = bt := by
      refine UInt8.toNat_inj.mp ?_
      rw [UInt8.toNat_ofNat']
      omega
    rw [length_cons, leBytes, leValue, hquotient, ih, hbyte]

lemma leValue_lt (b : List UInt8) : leValue b < 256 ^ b.length := by
  induction b with
  | nil => simp [leValue]
  | cons bt b ih =>
    have hlow := bt.toNat_lt
    rw [leValue, length_cons]
    omega

/-! ## Text -/

def utf8Bytes (text : String) : List UInt8 := text.toUTF8.data.toList

/-- The text that bytes spell, if they spell one. -/
def fromUtf8 (bytes : List UInt8) : Option String := String.fromUTF8? ⟨bytes.toArray⟩

lemma fromUtf8_eq_some {b : List UInt8} {t : String} : fromUtf8 b = some t ↔ utf8Bytes t = b := by
  simp only [fromUtf8, String.fromUTF8?, utf8Bytes, String.toUTF8_eq_toByteArray]
  constructor
  · intro h
    split at h
    · cases h
      simp [String.fromUTF8]
    · cases h
  · intro h
    have hbytes : t.toByteArray = ⟨b.toArray⟩ := by
      rw [← h]
    have hvalid : ByteArray.IsValidUTF8 ⟨b.toArray⟩ := hbytes ▸ t.isValidUTF8
    rw [dif_pos hvalid, Option.some.injEq, ← String.toByteArray_inj]
    simp [String.fromUTF8, hbytes]

lemma utf8Bytes_injective : Function.Injective utf8Bytes := by
  intro s t h
  have hs := fromUtf8_eq_some.mpr h
  have ht := fromUtf8_eq_some.mpr (rfl : utf8Bytes t = utf8Bytes t)
  exact Option.some.inj (hs.symm.trans ht)

/-! ## Consecutive fields -/

section

variable {ε α : Type*}

/-- Consecutive fields of the given lengths, from a position on. -/
def cutAt (xs : List α) : ℕ → List ℕ → Outcome ε (List (List α))
  | _, [] => .ok []
  | offset, length :: lengths =>
    (sliceBetween xs offset (offset + length)).bind fun field =>
      (cutAt xs (offset + length) lengths).bind fun fields => .ok (field :: fields)

/-- Fields written one after the other are cut out by the table of their lengths. -/
theorem cutAt_flatten (b : List α) (f : List (List α)) (o : ℕ) (ho : b.length = o) :
    cutAt (ε := ε) (b ++ f.flatten) o (f.map length) = .ok f := by
  induction f generalizing b o with
  | nil => rfl
  | cons fl f ih =>
    have hrest := ih (b ++ fl) (o + fl.length) (by simp [ho])
    rw [append_assoc] at hrest
    rw [map_cons, flatten_cons, cutAt, sliceBetween_middle ho rfl, Outcome.ok_bind, hrest, Outcome.ok_bind]

/-- A table of lengths that adds up to what is there cuts it into fields of these lengths, and
what is there is these fields one after the other. -/
theorem cutAt_total (b p : List α) (l : List ℕ) {o : ℕ} (ho : b.length = o) (hs : l.sum = p.length) :
    ∃ f, p = f.flatten ∧ f.map length = l ∧ cutAt (ε := ε) (b ++ p) o l = .ok f := by
  refine ⟨l.splitLengths p, ?_, ?_, ?_⟩
  · exact (flatten_splitLengths _ _ hs.ge).symm
  · exact map_splitLengths_length _ _ hs.le
  · have hcut := cutAt_flatten (ε := ε) b (l.splitLengths p) o ho
    rwa [flatten_splitLengths _ _ hs.ge, map_splitLengths_length _ _ hs.le] at hcut

end

end AsterForge.Library
