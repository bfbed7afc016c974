import AsterForge.Library.Text

/-!
# Network addresses as text

The standard library reads an IP address, alone or with a port, from the front of a text, and a text
is one only if nothing is left of it.

* **`plain_of_parseWith`** — no separator of a list and no white space is part of what is read.
* **`parseIpAddr_eq_none`** — a text that is an address with a port is not an address.
-/

namespace AsterForge.Library

open List

inductive IpAddr
  | v4 (bits : BitVec 32)
  | v6 (bits : BitVec 128)
  deriving DecidableEq

/-- What has read the front of a text, and what is left of the text. -/
abbrev AddressReader := StateT Text Option

def readGivenChar (target : Char) : AddressReader Unit
  | [] => none
  | c :: rest => if c = target then some ((), rest) else none

def digitValue (c : Char) : ℕ :=
  if 0x30 ≤ c.toNat ∧ c.toNat ≤ 0x39 then c.toNat - 0x30
  else if 0x41 ≤ c.toNat ∧ c.toNat ≤ 0x46 then c.toNat - 0x37
  else if 0x61 ≤ c.toNat ∧ c.toNat ≤ 0x66 then c.toNat - 0x57
  else 16

/-- A number below `bound`, of at most `maxDigits` digits. -/
def readNumber (radix : ℕ) (maxDigits : Option ℕ) (allowZeroPrefix : Bool) (bound : ℕ) :
    AddressReader ℕ := fun text =>
  let digits := text.takeWhile fun c => digitValue c < radix
  let value := digits.foldl (fun value c => value * radix + digitValue c) 0
  if digits = [] ∨ maxDigits.any (· < digits.length) ∨
      (allowZeroPrefix = false ∧ digits.head? = some '0' ∧ 1 < digits.length) ∨ bound ≤ value then
    none
  else some (value, text.dropWhile fun c => digitValue c < radix)

def readIpv4Addr : AddressReader (BitVec 32) := do
  let one ← readNumber 10 (some 3) false 256
  readGivenChar '.'
  let two ← readNumber 10 (some 3) false 256
  readGivenChar '.'
  let three ← readNumber 10 (some 3) false 256
  readGivenChar '.'
  let four ← readNumber 10 (some 3) false 256
  return .ofNat 32 (((one * 256 + two) * 256 + three) * 256 + four)

def readSeparator {α : Type} (first : Bool) (inner : AddressReader α) : AddressReader α := do
  if first = false then readGivenChar ':'
  inner

/-- The groups in front of a text, `left` at most, and whether an IPv4 address stands for the last
two. -/
def readGroups (first : Bool) : ℕ → AddressReader (List ℕ × Bool)
  | 0 => pure ([], false)
  | left + 1 =>
    (do
      guard (0 < left)
      let bits ← readSeparator first readIpv4Addr
      return ([bits.toNat / 65536, bits.toNat % 65536], true)) <|>
    (do
      let group ← readSeparator first (readNumber 16 (some 4) true 65536)
      let (groups, ipv4) ← readGroups false left
      return (group :: groups, ipv4)) <|>
    pure ([], false)

def readIpv6Addr : AddressReader (BitVec 128) := do
  let (head, headIpv4) ← readGroups true 8
  if head.length = 8 then
    return .ofNat 128 (head.foldl (fun bits group => bits * 65536 + group) 0)
  guard (headIpv4 = false)
  readGivenChar ':'
  readGivenChar ':'
  let (tail, _) ← readGroups true (8 - (head.length + 1))
  let groups := head ++ replicate (8 - head.length - tail.length) 0 ++ tail
  return .ofNat 128 (groups.foldl (fun bits group => bits * 65536 + group) 0)

def readIpAddr : AddressReader IpAddr := IpAddr.v4 <$> readIpv4Addr <|> IpAddr.v6 <$> readIpv6Addr

def readPort : AddressReader ℕ := do
  readGivenChar ':'
  readNumber 10 none true 65536

def readScopeId : AddressReader ℕ := do
  readGivenChar '%'
  readNumber 10 none true (2 ^ 32)

def readSocketAddr : AddressReader (IpAddr × ℕ) :=
  (do
    let ip ← readIpv4Addr
    let port ← readPort
    return (.v4 ip, port)) <|>
  (do
    readGivenChar '['
    let ip ← readIpv6Addr
    let _ ← readScopeId <|> pure 0
    readGivenChar ']'
    let port ← readPort
    return (.v6 ip, port))

def parseWith {α : Type} (inner : AddressReader α) (text : Text) : Option α :=
  match inner text with
  | some (value, []) => some value
  | _ => none

def parseIpAddr (text : Text) : Option IpAddr := parseWith readIpAddr text

def parseSocketAddr (text : Text) : Option (IpAddr × ℕ) := parseWith readSocketAddr text

example : parseIpAddr "2001:db8::10.0.0.5".toList =
    some (.v6 0x20010db800000000000000000a000005#128) := by decide +kernel

example : parseSocketAddr "[::1%3]:443".toList = some (.v6 1, 443) := by decide +kernel

/-! ## What is read -/

abbrev Plain (c : Char) : Prop := c ≠ ',' ∧ isWhitespace c = false

/-- A reader takes plain characters off the front. -/
def ReadsPlain {α : Type} (read : AddressReader α) : Prop :=
  ∀ ⦃text : Text⦄ ⦃value : α⦄ ⦃rest : Text⦄, read text = some (value, rest) →
    ∃ used, text = used ++ rest ∧ ∀ c ∈ used, Plain c

section

variable {α β : Type} {rd o : AddressReader α} {next : α → AddressReader β}

lemma ReadsPlain.pure (v : α) : ReadsPlain (Pure.pure v) := by
  intro text _ r h
  cases h
  exact ⟨[], rfl, forall_mem_nil _⟩

lemma ReadsPlain.bind (hr : ReadsPlain rd) (hn : ∀ v, ReadsPlain (next v)) : ReadsPlain (rd >>= next) := by
  intro text v r h
  obtain ⟨⟨m, left⟩, hm, hl⟩ := Option.bind_eq_some_iff.mp h
  obtain ⟨f, rfl, hf⟩ := hr hm
  obtain ⟨b, rfl, hb⟩ := hn m hl
  refine ⟨f ++ b, (append_assoc ..).symm, fun c hc => ?_⟩
  exact (mem_append.mp hc).elim (hf c) (hb c)

lemma orElse_eq_some {text r : Text} {v : α} (h : (rd <|> o) text = some (v, r)) :
    rd text = some (v, r) ∨ rd text = none ∧ o text = some (v, r) := by
  change (rd text).orElse (fun _ => o text) = _ at h
  cases hread : rd text with
  | none => exact .inr ⟨rfl, by simpa [hread] using h⟩
  | some rs => exact .inl (by simpa [hread] using h)

lemma ReadsPlain.orElse (hr : ReadsPlain rd) (ho : ReadsPlain o) : ReadsPlain (rd <|> o) := by
  intro text v r h
  rcases orElse_eq_some h with h | ⟨-, h⟩
  · exact hr h
  · exact ho h

lemma ReadsPlain.ofGuard (p : Prop) [Decidable p] : ReadsPlain (guard p : AddressReader Unit) := by
  unfold guard
  split
  · exact .pure ()
  · nofun

lemma plain_of_digitValue {c : Char} (h : digitValue c < 16) : Plain c := by
  constructor
  · rintro rfl
    exact absurd h (by decide)
  · unfold digitValue at h
    simp only [isWhitespace, Bool.or_eq_false_iff, Bool.and_eq_false_iff, decide_eq_false_iff_not]
    split_ifs at h <;> omega

lemma readsPlain_char {t : Char} (h : Plain t) : ReadsPlain (readGivenChar t) := by
  intro text v r hr
  cases text with
  | nil => cases hr
  | cons c text =>
    obtain ⟨rfl, hrs⟩ := Option.ite_some_none_eq_some.mp hr
    cases hrs
    exact ⟨[c], rfl, by simpa using h⟩

lemma readsPlain_number {r : ℕ} (hrd : r ≤ 16) (md : Option ℕ) (azp : Bool) (b : ℕ) :
    ReadsPlain (readNumber r md azp b) := by
  intro text v rs hr
  simp only [readNumber] at hr
  split at hr
  · cases hr
  · cases hr
    refine ⟨_, takeWhile_append_dropWhile.symm, fun c hc => ?_⟩
    have hdigit := mem_takeWhile_imp hc
    exact plain_of_digitValue ((of_decide_eq_true hdigit).trans_le hrd)

lemma readsPlain_ipv4 : ReadsPlain readIpv4Addr := by
  have hoctet := @readsPlain_number 10 (by decide) (some 3) false 256
  have hdot := @readsPlain_char '.' (by decide)
  exact hoctet.bind fun _ => hdot.bind fun _ => hoctet.bind fun _ => hdot.bind fun _ =>
    hoctet.bind fun _ => hdot.bind fun _ => hoctet.bind fun _ => .pure _

lemma readsPlain_separator (first : Bool) (hr : ReadsPlain rd) : ReadsPlain (readSeparator first rd) := by
  cases first with
  | true => exact hr
  | false => exact (readsPlain_char (by decide)).bind fun _ => hr

lemma readsPlain_groups (first : Bool) (left : ℕ) : ReadsPlain (readGroups first left) := by
  induction left generalizing first with
  | zero => exact .pure _
  | succ left ih =>
    refine .orElse ?_ (.orElse ?_ (.pure _))
    · exact (ReadsPlain.ofGuard _).bind fun _ =>
        (readsPlain_separator first readsPlain_ipv4).bind fun _ => .pure _
    · exact (readsPlain_separator first (readsPlain_number le_rfl _ _ _)).bind fun _ =>
        (ih false).bind fun _ => .pure _

lemma readsPlain_ipv6 : ReadsPlain readIpv6Addr := by
  have hcolon := @readsPlain_char ':' (by decide)
  refine (readsPlain_groups _ _).bind fun ⟨head, hei⟩ => ?_
  dsimp only
  split
  · exact .pure _
  · exact (ReadsPlain.ofGuard _).bind fun _ => hcolon.bind fun _ => hcolon.bind fun _ =>
      (readsPlain_groups _ _).bind fun _ => .pure _

lemma readsPlain_ipAddr : ReadsPlain readIpAddr :=
  .orElse (readsPlain_ipv4.bind fun _ => .pure _) (readsPlain_ipv6.bind fun _ => .pure _)

lemma readsPlain_socketAddr : ReadsPlain readSocketAddr := by
  have hport : ReadsPlain readPort :=
    (readsPlain_char (by decide)).bind fun _ => readsPlain_number (by decide) _ _ _
  refine .orElse (readsPlain_ipv4.bind fun _ => hport.bind fun _ => .pure _) ?_
  have hscope : ReadsPlain (readScopeId <|> pure 0) :=
    .orElse ((readsPlain_char (by decide)).bind fun _ => readsPlain_number (by decide) _ _ _) (.pure 0)
  exact (readsPlain_char (by decide)).bind fun _ => readsPlain_ipv6.bind fun _ =>
    hscope.bind fun _ => (readsPlain_char (by decide)).bind fun _ => hport.bind fun _ => .pure _

end

variable {t : Text}

lemma parseWith_eq_some {α : Type} {i : AddressReader α} {v : α} :
    parseWith i t = some v ↔ i t = some (v, []) := by
  unfold parseWith
  split
  · rename_i heq
    simp [heq]
  · rename_i hne
    simp only [reduceCtorEq, false_iff]
    exact hne v

theorem plain_of_parseWith {α : Type} {i : AddressReader α} {v : α}
    (hi : ReadsPlain i) (h : parseWith i t = some v) : ∀ c ∈ t, Plain c := by
  obtain ⟨u, rfl, hu⟩ := hi (parseWith_eq_some.mp h)
  rwa [append_nil]

theorem parseIpAddr_eq_none {a : IpAddr × ℕ} (h : parseSocketAddr t = some a) : parseIpAddr t = none := by
  rcases orElse_eq_some (parseWith_eq_some.mp h) with h | ⟨-, h⟩
  · obtain ⟨⟨b, r⟩, hbt, h⟩ := Option.bind_eq_some_iff.mp h
    have hread : readIpAddr t = some (.v4 b, r) := by
      have hmap : (IpAddr.v4 <$> readIpv4Addr) t = some (.v4 b, r) := by
        rw [map_eq_pure_bind]
        exact Option.bind_eq_some_iff.mpr ⟨_, hbt, rfl⟩
      exact congrArg (Option.orElse · _) hmap
    rw [parseIpAddr, parseWith, hread]
    cases r with
    | nil => cases h
    | cons c r => rfl
  · obtain ⟨_, hb, -⟩ := Option.bind_eq_some_iff.mp h
    cases t with
    | nil => cases hb
    | cons c t =>
      obtain ⟨rfl, -⟩ := Option.ite_some_none_eq_some.mp hb
      rfl

end AsterForge.Library
