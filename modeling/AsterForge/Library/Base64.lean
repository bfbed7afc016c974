import Mathlib.Data.Char
import Mathlib.Tactic.Common

/-!
# Text codecs, and URL-safe base64 without padding

A text codec spells bytes as text.  It is canonical if reading undoes writing and every text that
can be read is the one that would be written: then text identifies bytes and bytes identify text.

* **`urlSafeNoPad_canonical`** — it is canonical.
-/

namespace AsterForge.Library

open List Option

/-! ## Canonical codecs -/

structure TextCodec where
  encode : List UInt8 → String
  decode : String → Option (List UInt8)

/-- Reading undoes writing, and reads only what would be written. -/
structure TextCodec.Canonical (codec : TextCodec) : Prop where
  decode_encode : ∀ bytes, codec.decode (codec.encode bytes) = some bytes
  encode_decode : ∀ text bytes, codec.decode text = some bytes → codec.encode bytes = text
  encode_nil : codec.encode [] = ""

namespace TextCodec.Canonical

variable {c : TextCodec} (h : c.Canonical)
include h

lemma encode_injective : Function.Injective c.encode := by
  intro a b hab
  have hdec := h.decode_encode a
  rw [hab, h.decode_encode] at hdec
  exact (some.inj hdec).symm

lemma encode_ne_empty {b : List UInt8} (hb : b ≠ []) : c.encode b ≠ "" := by
  intro he
  exact hb (h.encode_injective (he.trans h.encode_nil.symm))

end TextCodec.Canonical

/-! ## Base64 digits -/

def base64Symbol (digit : ℕ) : Char :=
  if digit < 26 then Char.ofNat (65 + digit)
  else if digit < 52 then Char.ofNat (97 + (digit - 26))
  else if digit < 62 then Char.ofNat (48 + (digit - 52))
  else if digit = 62 then '-'
  else '_'

/-- The digit of a character of the alphabet. -/
def base64Digit (symbol : Char) : Option ℕ :=
  if 65 ≤ symbol.toNat ∧ symbol.toNat ≤ 90 then some (symbol.toNat - 65)
  else if 97 ≤ symbol.toNat ∧ symbol.toNat ≤ 122 then some (symbol.toNat - 97 + 26)
  else if 48 ≤ symbol.toNat ∧ symbol.toNat ≤ 57 then some (symbol.toNat - 48 + 52)
  else if symbol = '-' then some 62
  else if symbol = '_' then some 63
  else none

lemma base64Digit_symbol : ∀ d < 64, base64Digit (base64Symbol d) = some d := by
  decide

lemma base64Symbol_digit {s : Char} {d : ℕ} (h : base64Digit s = some d) : d < 64 ∧ base64Symbol d = s := by
  have hchar : ∀ n, n = s.toNat → Char.ofNat n = s := by
    rintro n rfl
    exact Char.ofNat_toNat s
  unfold base64Digit at h
  split at h
  · cases h
    rw [base64Symbol, if_pos (by omega)]
    exact ⟨by omega, hchar _ (by omega)⟩
  split at h
  · cases h
    rw [base64Symbol, if_neg (by omega), if_pos (by omega)]
    exact ⟨by omega, hchar _ (by omega)⟩
  split at h
  · cases h
    rw [base64Symbol, if_neg (by omega), if_neg (by omega), if_pos (by omega)]
    exact ⟨by omega, hchar _ (by omega)⟩
  split at h
  · cases h
    exact ⟨by decide, by simp_all [base64Symbol]⟩
  split at h
  · cases h
    exact ⟨by decide, by simp_all [base64Symbol]⟩
  · cases h

lemma base64Symbol_ne_dot : ∀ d < 64, base64Symbol d ≠ '.' := by
  decide

/-! ## Groups of three bytes -/

/-- Three bytes are four digits; a last group of one or two bytes is two or three digits, whose
unused bits are zero. -/
def base64Digits : List UInt8 → List ℕ
  | a :: b :: c :: rest =>
    a.toNat / 4 :: (a.toNat % 4 * 16 + b.toNat / 16) :: (b.toNat % 16 * 4 + c.toNat / 64) ::
      c.toNat % 64 :: base64Digits rest
  | [a, b] => [a.toNat / 4, a.toNat % 4 * 16 + b.toNat / 16, b.toNat % 16 * 4]
  | [a] => [a.toNat / 4, a.toNat % 4 * 16]
  | [] => []

/-- The bytes of a list of digits, refusing lengths and trailing bits that no bytes have. -/
def base64Bytes : List ℕ → Option (List UInt8)
  | p :: q :: r :: s :: rest =>
    (base64Bytes rest).map fun bytes =>
      UInt8.ofNat (p * 4 + q / 16) :: UInt8.ofNat (q % 16 * 16 + r / 4) ::
        UInt8.ofNat (r % 4 * 64 + s) :: bytes
  | [p, q, r] =>
    if r % 4 = 0 then some [UInt8.ofNat (p * 4 + q / 16), UInt8.ofNat (q % 16 * 16 + r / 4)]
    else none
  | [p, q] => if q % 16 = 0 then some [UInt8.ofNat (p * 4 + q / 16)] else none
  | [_] => none
  | [] => some []

lemma base64Digits_lt (bt : List UInt8) : ∀ d ∈ base64Digits bt, d < 64 := by
  induction bt using base64Digits.induct with
  | case1 a b c r ih =>
    have ha := a.toNat_lt
    have hb := b.toNat_lt
    have hc := c.toNat_lt
    simp only [base64Digits, forall_mem_cons]
    exact ⟨by omega, by omega, by omega, by omega, ih⟩
  | case2 a b =>
    have ha := a.toNat_lt
    have hb := b.toNat_lt
    simp only [base64Digits, forall_mem_cons]
    exact ⟨by omega, by omega, by omega, by simp⟩
  | case3 a =>
    have ha := a.toNat_lt
    simp only [base64Digits, forall_mem_cons]
    exact ⟨by omega, by omega, by simp⟩
  | case4 => simp [base64Digits]

lemma ofNat_eq_of_toNat {n : ℕ} (b : UInt8) (h : n = b.toNat) : UInt8.ofNat n = b := by
  rw [h, UInt8.ofNat_toNat]

/-- **Writing, then reading.** -/
lemma base64Bytes_digits (bt : List UInt8) : base64Bytes (base64Digits bt) = some bt := by
  induction bt using base64Digits.induct with
  | case1 a b c r ih =>
    have hb := b.toNat_lt
    have hc := c.toNat_lt
    rw [base64Digits, base64Bytes, ih, map_some, ofNat_eq_of_toNat a (by omega),
      ofNat_eq_of_toNat b (by omega), ofNat_eq_of_toNat c (by omega)]
  | case2 a b =>
    have hb := b.toNat_lt
    rw [base64Digits, base64Bytes, if_pos (by omega), ofNat_eq_of_toNat a (by omega),
      ofNat_eq_of_toNat b (by omega)]
  | case3 a =>
    rw [base64Digits, base64Bytes, if_pos (by omega), ofNat_eq_of_toNat a (by omega)]
  | case4 => rfl

/-- **Reading, then writing.** -/
lemma base64Digits_bytes {d : List ℕ} {b : List UInt8} (hlt : ∀ dg ∈ d, dg < 64)
    (h : base64Bytes d = some b) : base64Digits b = d := by
  induction d using base64Bytes.induct generalizing b with
  | case1 p q r s rs ih =>
    simp only [forall_mem_cons] at hlt
    obtain ⟨hp, hq, hr, hs, hrs⟩ := hlt
    obtain ⟨t, ht, rfl⟩ := map_eq_some_iff.mp h
    simp only [base64Digits, ih hrs ht, UInt8.toNat_ofNat', cons.injEq, and_true]
    omega
  | case2 p q r htrailing | case4 p q htrailing =>
    simp only [forall_mem_cons] at hlt
    rw [base64Bytes, if_pos htrailing] at h
    cases h
    simp only [base64Digits, UInt8.toNat_ofNat', cons.injEq, and_true]
    omega
  | case3 p q r htrailing | case5 p q htrailing =>
    rw [base64Bytes, if_neg htrailing] at h
    cases h
  | case6 p => cases h
  | case7 =>
    cases h
    rfl

/-! ## The codec -/

/-- Base64 with the URL-safe alphabet, without padding, refusing trailing bits. -/
def urlSafeNoPad : TextCodec where
  encode bytes := String.ofList ((base64Digits bytes).map base64Symbol)
  decode text := (text.toList.mapM base64Digit).bind base64Bytes

lemma mapM_base64Digit {s : List Char} {d : List ℕ} : s.mapM base64Digit = some d ↔
    (∀ dg ∈ d, dg < 64) ∧ d.map base64Symbol = s := by
  induction s generalizing d with
  | nil => cases d <;> simp
  | cons sy s ih =>
    simp only [mapM_cons, Option.pure_def, bind_eq_bind, bind_eq_some_iff, some.injEq]
    constructor
    · rintro ⟨dg, hd, r, hr, rfl⟩
      obtain ⟨hlt, hsy⟩ := base64Symbol_digit hd
      obtain ⟨hl, hs⟩ := ih.mp hr
      exact ⟨forall_mem_cons.mpr ⟨hlt, hl⟩, by rw [map_cons, hsy, hs]⟩
    · rintro ⟨hlt, hs⟩
      cases d with
      | nil => cases hs
      | cons dg r =>
        rw [map_cons, cons.injEq] at hs
        obtain ⟨rfl, hr⟩ := hs
        rw [forall_mem_cons] at hlt
        exact ⟨dg, base64Digit_symbol dg hlt.1, r, ih.mpr ⟨hlt.2, hr⟩, rfl⟩

theorem urlSafeNoPad_canonical : urlSafeNoPad.Canonical where
  decode_encode := by
    intro b
    have hd := mapM_base64Digit.mpr ⟨base64Digits_lt b, rfl⟩
    simp [urlSafeNoPad, hd, base64Bytes_digits]
  encode_decode := by
    intro t b h
    obtain ⟨d, hd, hb⟩ := bind_eq_some_iff.mp h
    obtain ⟨hlt, hs⟩ := mapM_base64Digit.mp hd
    simp [urlSafeNoPad, base64Digits_bytes hlt hb, hs]
  encode_nil := rfl

lemma urlSafeNoPad_dot (b : List UInt8) : '.' ∉ (urlSafeNoPad.encode b).toList := by
  simp only [urlSafeNoPad, String.toList_ofList, List.mem_map, not_exists, not_and]
  exact fun d hd => base64Symbol_ne_dot d (base64Digits_lt _ d hd)

end AsterForge.Library
