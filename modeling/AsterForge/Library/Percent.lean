import AsterForge.Library.Bytes
import AsterForge.Library.Text

/-!
# Percent encoding

A percent sign and two hexadecimal digits stand for the byte with that number; every other byte stands for
itself, also a percent sign that no two digits follow.

* `percentDecode`, `percentEncode` — reading and writing; **`percentDecode_percentEncode`** is the round
  trip.
-/

namespace AsterForge.Library

open List Option

/-! ## Escapes -/

def hexValue (digit : UInt8) : Option UInt8 :=
  if 0x30 ≤ digit ∧ digit ≤ 0x39 then some (digit - 0x30)
  else if 0x41 ≤ digit ∧ digit ≤ 0x46 then some (digit - 0x37)
  else if 0x61 ≤ digit ∧ digit ≤ 0x66 then some (digit - 0x57)
  else none

def hexDigit (value : UInt8) : UInt8 := if value < 10 then value + 0x30 else value + 0x37

/-- The byte that three bytes escape, if they do. -/
def escaped (sign high low : UInt8) : Option UInt8 :=
  if sign = 0x25 then do
    let high ← hexValue high
    let low ← hexValue low
    return 16 * high + low
  else none

variable {byte : UInt8} {rest bytes : List UInt8} {t : Text}

lemma escaped_eq_some {s hg low : UInt8} (h : escaped s hg low = some byte) :
    s = 0x25 ∧ hexValue hg ≠ none ∧ hexValue low ≠ none := by
  unfold escaped at h
  split at h
  · rename_i hsign
    simp only [bind_eq_bind, bind_eq_some_iff] at h
    obtain ⟨first, hh, sc, hl, -⟩ := h
    exact ⟨hsign, by simp [hh], by simp [hl]⟩
  · cases h

/-- Reads the escapes, from left to right. -/
def percentDecode : List UInt8 → List UInt8
  | first :: second :: third :: rest =>
    match escaped first second third with
    | some byte => byte :: percentDecode rest
    | none => first :: percentDecode (second :: third :: rest)
  | bytes => bytes

def percentEncode (reserved : UInt8 → Bool) (bytes : List UInt8) : List UInt8 :=
  bytes.flatMap fun byte =>
    if reserved byte then [0x25, hexDigit (byte / 16), hexDigit (byte % 16)] else [byte]

/-! ## Reading -/

attribute [local simp] percentDecode

lemma percentDecode_cons {first : UInt8} (h : ∀ s t tl, rest = s :: t :: tl → escaped first s t = none) :
    percentDecode (first :: rest) = first :: percentDecode rest := by
  rcases rest with _ | ⟨s, _ | ⟨t, tl⟩⟩
  · rfl
  · rfl
  · rw [percentDecode, h s t tl rfl]

lemma percentDecode_cons_of_ne {first : UInt8} (r : List UInt8) (h : first ≠ 0x25) :
    percentDecode (first :: r) = first :: percentDecode r :=
  percentDecode_cons fun _ _ _ _ => if_neg h

variable (b : List UInt8)

/-- **Two parts** are read on their own where the second starts with no digit. -/
theorem percentDecode_append {a : List UInt8} (h : ∀ byte ∈ a.head?, hexValue byte = none) :
    percentDecode (b ++ a) = percentDecode b ++ percentDecode a := by
  induction b using percentDecode.induct with
  | case1 first s t rest byte he ih => simp [he, ih]
  | case2 first s t rest he ih =>
    simp only [cons_append] at ih
    simp [he, ih]
  | case3 bytes hs =>
    have hnone : ∀ {sg hg low : UInt8} {tl : List UInt8},
        a = hg :: tl ∨ a = low :: tl → escaped sg hg low = none := by
      intro sg hg low tl ha
      by_contra hsome
      obtain ⟨byte, hb⟩ := ne_none_iff_exists'.mp hsome
      obtain ⟨-, hh, hl⟩ := escaped_eq_some hb
      rcases ha with ha | ha
      · exact hh (h hg (by simp [ha]))
      · exact hl (h low (by simp [ha]))
    rcases bytes with _ | ⟨first, _ | ⟨s, _ | ⟨t, rest⟩⟩⟩
    · rfl
    · exact percentDecode_cons fun s t tl ha => hnone (.inl ha)
    · have hsnd : percentDecode (s :: a) = s :: percentDecode a :=
        percentDecode_cons fun t f tl ha => hnone (.inl ha)
      have hfirst : percentDecode (first :: s :: a) =
          first :: percentDecode (s :: a) := by
        refine percentDecode_cons fun o t tl hr => ?_
        obtain ⟨rfl, ha⟩ := cons.inj hr
        exact hnone (.inr ha)
      rw [cons_append, cons_append, nil_append, hfirst, hsnd]
      rfl
    · exact absurd rfl (hs first s t rest)

lemma count_le_count_percentDecode (hsg : byte ≠ 0x25) (hd : hexValue byte = none)
    (b : List UInt8) : b.count byte ≤ (percentDecode b).count byte := by
  induction b using percentDecode.induct with
  | case1 first s t rest v he ih =>
    obtain ⟨hf, hh, hl⟩ := escaped_eq_some he
    have hne : first ≠ byte ∧ s ≠ byte ∧ t ≠ byte := by
      refine ⟨fun h => hsg (h ▸ hf), fun h => hh (h ▸ hd), fun h => hl (h ▸ hd)⟩
    rw [percentDecode, he, count_cons_of_ne hne.1, count_cons_of_ne hne.2.1, count_cons_of_ne hne.2.2]
    exact ih.trans count_le_count_cons
  | case2 first s t rest he ih =>
    have hdec : percentDecode (first :: s :: t :: rest) =
        first :: percentDecode (s :: t :: rest) := by
      simp [he]
    have hcount := fun tl : List UInt8 => @List.count_cons _ _ byte first tl
    rw [hdec, hcount, hcount]
    omega
  | case3 b hs => rw [percentDecode.eq_2 b hs]

lemma percentDecode_length : (percentDecode b).length < b.length ∨ percentDecode b = b := by
  induction b using percentDecode.induct with
  | case1 first s t rest byte he ih =>
    simp only [percentDecode, he, length_cons]
    rcases ih with ih | ih
    · omega
    · rw [ih]
      omega
  | case2 first s t rest he ih =>
    simp only [percentDecode, he, length_cons, cons.injEq, true_and] at ih ⊢
    rcases ih with ih | ih
    · exact .inl (by omega)
    · exact .inr ih
  | case3 b hs => exact .inr (percentDecode.eq_2 b hs)

lemma length_percentDecode_le : (percentDecode b).length ≤ b.length := by
  rcases percentDecode_length b with h | h
  · exact h.le
  · rw [h]

lemma eq_of_percentDecode_append (hs : byte ≠ 0x25) (hd : hexValue byte = none)
    {a : List UInt8} (h : percentDecode bytes ++ byte :: a = bytes ++ rest) : rest = byte :: a := by
  rcases append_eq_append_iff.mp h with ⟨m, hb, ha⟩ | ⟨m, hb, hr⟩
  · cases m with
    | nil => exact ha.symm
    | cons first m =>
      -- the byte would be more often in what was read
      obtain ⟨rfl, -⟩ := cons.inj ha
      have hcount := congrArg (count byte) hb
      rw [count_append, count_cons_self] at hcount
      have hle := count_le_count_percentDecode hs hd bytes
      omega
  · have hlen := congrArg length hb
    rw [length_append] at hlen
    have hle := length_percentDecode_le bytes
    have hmid : m = [] := eq_nil_of_length_eq_zero (by omega)
    rw [hr, hmid, nil_append]

lemma percentDecode_eq_nil : percentDecode bytes = [] ↔ bytes = [] := by
  constructor
  · intro h
    cases bytes using percentDecode.induct with
    | case1 first second third rest byte hesc _ | case2 first second third rest hesc _ =>
      simp [hesc] at h
    | case3 bytes hs => rwa [percentDecode.eq_2 bytes hs] at h
  · rintro rfl
    rfl

lemma percentDecode_eq_cons (h : percentDecode bytes = byte :: rest) : (∃ t, bytes = byte :: t) ∨
    ∃ hg low t, bytes = 0x25 :: hg :: low :: t ∧ escaped 0x25 hg low = some byte := by
  cases bytes using percentDecode.induct with
  | case1 first s th r' v he _ =>
    simp only [percentDecode, he] at h
    obtain ⟨rfl, -⟩ := cons.inj h
    obtain ⟨rfl, -⟩ := escaped_eq_some he
    exact .inr ⟨s, th, r', rfl, he⟩
  | case2 first s th r' he _ =>
    simp only [percentDecode, he] at h
    obtain ⟨rfl, -⟩ := cons.inj h
    exact .inl ⟨_, rfl⟩
  | case3 bytes hs =>
    rw [percentDecode.eq_2 bytes hs] at h
    exact .inl ⟨rest, h⟩

/-! ## Writing -/

lemma escaped_hexDigit (b : UInt8) : escaped 0x25 (hexDigit (b / 16)) (hexDigit (b % 16)) = some b := by
  have hall : ∀ n < 16, hexValue (hexDigit (UInt8.ofNat n)) = some (UInt8.ofNat n) := by decide
  have hdigit : ∀ v : UInt8, v.toNat < 16 → hexValue (hexDigit v) = some v := fun v hv => by
    simpa using hall v.toNat hv
  have hlt := b.toNat_lt
  rw [escaped, if_pos rfl, hdigit (b / 16) (by simp; omega), hdigit (b % 16) (by simp; omega)]
  refine congrArg some (UInt8.toNat_inj.mp ?_)
  simp
  omega

variable {r : UInt8 → Bool}

/-- **Writing, then reading.** -/
theorem percentDecode_percentEncode (hs : r 0x25 = true)
    (b : List UInt8) : percentDecode (percentEncode r b) = b := by
  induction b with
  | nil => rfl
  | cons byte b ih =>
    rw [percentEncode, flatMap_cons, ← percentEncode]
    by_cases hbyte : r byte = true
    · rw [if_pos hbyte]
      simp [escaped_hexDigit, ih]
    · have hne : byte ≠ 0x25 := fun h => hbyte (h ▸ hs)
      rw [if_neg hbyte, singleton_append, percentDecode_cons_of_ne _ hne, ih]

lemma length_percentEncode (r : UInt8 → Bool) (b : List UInt8) : b.length ≤ (percentEncode r b).length ∧
    ((percentEncode r b).length ≤ b.length → percentEncode r b = b) := by
  induction b with
  | nil => exact ⟨le_rfl, fun _ => rfl⟩
  | cons byte b ih =>
    rw [percentEncode, flatMap_cons, ← percentEncode]
    split
    · simp only [cons_append, nil_append, length_cons]
      exact ⟨by omega, fun h => by omega⟩
    · simp only [singleton_append, length_cons, cons.injEq, true_and]
      exact ⟨by omega, fun h => ih.2 (by omega)⟩

/-- A byte that is no part of an escape, and is not escaped itself, is as often in what is written. -/
lemma count_percentEncode (hr : r byte = false) (hs : byte ≠ 0x25)
    (hd : hexValue byte = none) (b : List UInt8) : (percentEncode r b).count byte = b.count byte := by
  induction b with
  | nil => rfl
  | cons first b ih =>
    rw [percentEncode, flatMap_cons, ← percentEncode]
    split
    · rename_i hfirst
      obtain ⟨-, hh, hl⟩ := escaped_eq_some (escaped_hexDigit first)
      have hne : first ≠ byte := fun h => by simp [h, hr] at hfirst
      rw [cons_append, cons_append, cons_append, nil_append,
        count_cons_of_ne (Ne.symm hs), count_cons_of_ne (fun h => hh (by rw [h, hd])),
        count_cons_of_ne (fun h => hl (by rw [h, hd])), count_cons_of_ne hne, ih]
    · rw [singleton_append, count_cons, count_cons, ih]

/-- What is written of a text starts with the text, up to a byte that is not escaped, only if nothing of the
text is escaped. -/
lemma eq_of_percentEncode_append (hrs : r byte = false)
    (hs : byte ≠ 0x25) (hd : hexValue byte = none) {a : List UInt8}
    (hr : rest = [] ∨ rest.head? = some byte) (h : percentEncode r bytes ++ a = bytes ++ rest) :
    percentEncode r bytes = bytes := by
  obtain ⟨hle, he⟩ := length_percentEncode r bytes
  rcases append_eq_append_iff.mp h with ⟨m, hb, -⟩ | ⟨m, hw, ha⟩
  · refine he ?_
    have hlen := congrArg length hb
    rw [length_append] at hlen
    omega
  · cases m with
    | nil => rw [hw, append_nil]
    | cons first m =>
      rw [ha] at hr
      obtain rfl : first = byte := by simpa using hr
      have hcount := congrArg (count first) hw
      rw [count_percentEncode hrs hs hd, count_append, count_cons_self] at hcount
      omega

/-! ## Text -/

def textBytes (text : Text) : List UInt8 := utf8Bytes (String.ofList text)

lemma textBytes_eq (text : Text) : textBytes text = text.flatMap String.utf8EncodeChar := by
  simp [textBytes, utf8Bytes, utf8Encode]

lemma textBytes_append (left right : Text) :
    textBytes (left ++ right) = textBytes left ++ textBytes right := by
  simp [textBytes_eq]

lemma textBytes_injective : Function.Injective textBytes := by
  intro left right h
  exact String.ofList_injective (utf8Bytes_injective h)

lemma eq_append_of_textBytes {b : Text} (h : textBytes t = textBytes b ++ bytes) :
    ∃ rest, t = b ++ rest ∧ textBytes rest = bytes := by
  have hdata : ∀ v : Text, v.utf8Encode.data.toList = textBytes v := by
    simp [textBytes, utf8Bytes]
  have hencode : b.utf8Encode ++ (⟨bytes.toArray⟩ : ByteArray) = t.utf8Encode := by
    refine ByteArray.ext (Array.toList_inj.mp ?_)
    rw [ByteArray.data_append, Array.toList_append, hdata, hdata, h]
  obtain ⟨rest, rfl⟩ := isPrefix_of_utf8Encode_append_eq_utf8Encode _ hencode
  rw [textBytes_append] at h
  exact ⟨rest, rfl, append_cancel_left h⟩

def percentDecodeText (text : Text) : Option Text :=
  (fromUtf8 (percentDecode (textBytes text))).map String.toList

lemma percentDecodeText_eq_some {s : Text} :
    percentDecodeText t = some s ↔ percentDecode (textBytes t) = textBytes s := by
  rw [percentDecodeText, map_eq_some_iff]
  constructor
  · rintro ⟨v, hv, rfl⟩
    rw [← fromUtf8_eq_some.mp hv, textBytes, String.ofList_toList]
  · intro h
    exact ⟨String.ofList s, fromUtf8_eq_some.mpr h.symm, String.toList_ofList⟩

lemma textBytes_latin1 (h : ∀ byte ∈ bytes, byte < 0x80) : textBytes (latin1 bytes) = bytes := by
  have hall : ∀ n < 128, String.utf8EncodeChar (Char.ofNat n) = [UInt8.ofNat n] := by decide
  induction bytes with
  | nil => rfl
  | cons byte bytes ih =>
    have hbyte := hall byte.toNat (h byte mem_cons_self)
    rw [UInt8.ofNat_toNat] at hbyte
    rw [latin1, map_cons, ← latin1, textBytes_eq, flatMap_cons, ← textBytes_eq, hbyte,
      ih fun o hm => h o (mem_cons_of_mem byte hm)]
    rfl

end AsterForge.Library
