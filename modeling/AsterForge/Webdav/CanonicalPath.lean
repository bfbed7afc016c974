import AsterForge.Library.Percent
import AsterForge.Webdav.Descendant
import Mathlib.Data.List.Flatten

/-!
# Canonical paths

A request names a path below the mount by an encoded text.  It is decoded, and then empty segments and dot
segments are taken out of it.

* **`cleanDecodedPath_canonical`** — what is clean is left as it is.
-/

namespace AsterForge.Webdav

open Library List Option Except

/-! ## Segments -/

/-- One segment of a path, with its index, after the segments so far and whether they end as a
collection. -/
def cleanSegment (state : List Text × Bool) (piece : Text × ℕ) : Except DavPathError (List Text × Bool) :=
  let (segments, isCollection) := state
  let (segment, index) := piece
  if segment = [] then .ok (segments, isCollection || decide (0 < index))
  else if segment = ['.'] then .ok (segments, true)
  else if segment = ['.', '.'] then
    if segments = [] then .error .pathEscape else .ok (segments.dropLast, true)
  else .ok (segments ++ [segment], false)

variable (path : Text)

def cleanDecodedPath : Except DavPathError Text := do
  let (segments, isCollection) ← (path.splitOn '/').zipIdx.foldlM cleanSegment ([], false)
  if segments = [] then return ['/']
  let cleaned := '/' :: List.intercalate ['/'] segments
  return if isCollection ∧ cleaned.getLast? ≠ some '/' then cleaned ++ ['/'] else cleaned

def ensureLeadingSlash : Text :=
  if path = [] ∨ path = ['/'] then ['/']
  else if path.head? = some '/' then path else '/' :: path

def toAsciiLowercaseByte (byte : UInt8) : UInt8 :=
  if 0x41 ≤ byte ∧ byte ≤ 0x5A then byte + 0x20 else byte

/-- Some escape stands for a slash or a backslash. -/
def containsEncodedPathSeparator : Bool :=
  (textBytes path).tails.any fun window =>
    match window with
    | sign :: high :: low :: _ =>
      let digits := (toAsciiLowercaseByte high, toAsciiLowercaseByte low)
      sign = 0x25 ∧ (digits = (0x32, 0x66) ∨ digits = (0x35, 0x63))
    | _ => false

/-- Percent-decodes and canonicalizes a path without allowing root escape. -/
def DavPath.new : Except DavPathError DavPath := do
  let encoded := ensureLeadingSlash path
  refuse (containsEncodedPathSeparator encoded) .invalidEncoding
  let decoded ← okOr .invalidEncoding (percentDecodeText encoded)
  let canonical ← cleanDecodedPath decoded
  return ⟨String.ofList canonical⟩

lemma escaped_slash {hg low : UInt8} (h : escaped 0x25 hg low = some 0x2F) :
    hg = 0x32 ∧ (low = 0x46 ∨ low = 0x66) := by
  -- as a computation: a quantifier over bytes is decided by a run through all of them
  have hdigs : ∀ n < 256, ((hexValue (UInt8.ofNat n)).all fun v => v.toNat < 16 ∧
      (v.toNat = 2 → UInt8.ofNat n = 0x32) ∧
        (v.toNat = 15 → UInt8.ofNat n = 0x46 ∨ UInt8.ofNat n = 0x66)) = true := by
    decide +kernel
  have hdigit := fun n hn v hv =>
    of_decide_eq_true ((all_eq_true _ _).mp (hdigs n hn) v hv)
  simp only [escaped, if_true, bind_eq_bind, bind_eq_some_iff] at h
  obtain ⟨first, hfr, s, hs, hv⟩ := h
  have hh := hdigit hg.toNat hg.toNat_lt first (by rwa [UInt8.ofNat_toNat])
  have hl := hdigit low.toNat low.toNat_lt s (by rwa [UInt8.ofNat_toNat])
  rw [UInt8.ofNat_toNat] at hh hl
  have hsum := congrArg UInt8.toNat (some.inj hv)
  simp only [UInt8.toNat_add, UInt8.toNat_mul, UInt8.toNat_ofNat] at hsum
  obtain ⟨hh, ht, -⟩ := hh
  obtain ⟨hl, -, hf⟩ := hl
  exact ⟨ht (by omega), hf (by omega)⟩

/-- A slash in front of what a text without separators in escapes spells is in front of the text. -/
lemma head_of_decoded_slash {body : Text} {decoded : List UInt8}
    (hs : containsEncodedPathSeparator ('/' :: body) = false)
    (h : percentDecode (textBytes body) = 0x2F :: decoded) : body.head? = some '/' := by
  rcases percentDecode_eq_cons h with ⟨tail, hb⟩ | ⟨high, low, tail, hb, he⟩
  · obtain ⟨rest, rfl, -⟩ := eq_append_of_textBytes (show textBytes body = textBytes ['/'] ++ tail from hb)
    rfl
  · obtain ⟨rfl, hl⟩ := escaped_slash he
    have hwhole : textBytes ('/' :: body) = 0x2F :: 0x25 :: 0x32 :: low :: tail := by
      rw [show '/' :: body = ['/'] ++ body from rfl, textBytes_append, hb]
      rfl
    rw [containsEncodedPathSeparator, hwhole] at hs
    rcases hl with rfl | rfl <;> simp [toAsciiLowercaseByte] at hs

/-! ## Hrefs -/

def davHrefPathSet (byte : UInt8) : Bool :=
  byte < 0x20 || 0x7F ≤ byte || " \"#<>?`{}&'+%".toList.any fun c => byte.toNat = c.toNat

def encodeHref : Text := latin1 (percentEncode davHrefPathSet (textBytes path))

def hrefForRelative (mount relative : Text) : Text :=
  encodeHref (if relative = ['/'] then mount ++ ['/'] else mount ++ relative)

def hrefForDavPath (mount : Text) (path : DavPath) : Text :=
  hrefForRelative mount path.canonical.toList

example : (DavPath.new "a/%2e/b//../c%20d".toList).map (hrefForDavPath "/dav".toList) =
    .ok "/dav/a/c%20d".toList := by decide +kernel

/-! ## Clean texts -/

def IsKept (segment : Text) : Prop := IsSegment segment ∧ segment ≠ ['.'] ∧ segment ≠ ['.', '.']

lemma spelling_append (first s : List Text) (ic : Bool) :
    spelling (first ++ s) ic = spelling first false ++ spelling s ic := by
  induction first with
  | nil => simp [spelling]
  | cons sg first ih => simp [spelling, ih]

variable {sm : List Text} {p c : Text}

lemma spelling_intercalate (h : sm ≠ []) : '/' :: intercalate ['/'] sm = spelling sm false := by
  induction sm with
  | nil => exact absurd rfl h
  | cons first sm ih =>
    cases sm with
    | nil => simp [spelling]
    | cons s sm =>
      rw [spelling, ← ih (cons_ne_nil s sm)]
      simp

lemma spelling_splitOn : spelling (path.splitOn '/') false = '/' :: path := by
  rw [← spelling_intercalate (splitOn_ne_nil '/' path), intercalate_splitOn]

lemma spelling_cleaned (hk : ∀ s ∈ sm, IsKept s) (hne : sm ≠ []) (ic : Bool) :
    (if ic ∧ (spelling sm false).getLast? ≠ some '/' then spelling sm false ++ ['/']
      else spelling sm false) = spelling sm ic := by
  obtain ⟨i, l, hs⟩ := (eq_nil_or_concat sm).resolve_left hne
  rw [concat_eq_append] at hs
  subst hs
  obtain ⟨⟨hl, hsl⟩, -⟩ := hk l (by simp)
  have hopen : (spelling (i ++ [l]) false).getLast? ≠ some '/' := by
    intro hg
    have hlastText : spelling [l] false = '/' :: l := by simp [spelling]
    rw [spelling_append, hlastText, getLast?_append_of_ne_nil _ (by simp), getLast?_cons_of_ne_nil hl] at hg
    exact hsl (mem_of_getLast? hg)
  cases ic with
  | false => simp
  | true =>
    rw [if_pos ⟨rfl, hopen⟩, spelling_append, spelling_append]
    simp [spelling]

/-- One segment behind the first: what is kept stays so, and nothing is written that was not read. -/
lemma cleanSegment_spec {sg' : List Text} {ic ic' : Bool}
    {p : Text × ℕ} {b : Text} (hp : '/' ∉ p.1) (hi : 0 < p.2) (hk : ∀ s ∈ sm, IsKept s)
    (hb : (spelling sm ic).Sublist b) (h : cleanSegment (sm, ic) p = .ok (sg', ic')) :
    (∀ s ∈ sg', IsKept s) ∧ (spelling sg' ic').Sublist (b ++ '/' :: p.1) := by
  have hopen : (spelling sm false).Sublist b := by
    refine List.Sublist.trans ?_ hb
    have happend := spelling_append sm [] ic
    rw [append_nil] at happend
    exact happend ▸ sublist_append_left _ _
  have hslash : ∀ {k : List Text}, (spelling k false).Sublist b →
      (spelling k true).Sublist (b ++ '/' :: p.1) := by
    intro k hs
    have happend := spelling_append k [] true
    rw [append_nil] at happend
    rw [happend]
    exact hs.append (singleton_sublist.mpr (by simp))
  dsimp only [cleanSegment] at h
  split_ifs at h with hempty hdot hdots hnil <;> cases h
  · simp only [hi, decide_true, Bool.or_true]
    exact ⟨hk, hslash hopen⟩
  · exact ⟨hk, hslash hopen⟩
  · refine ⟨fun s hm => hk s (dropLast_subset _ hm), hslash ?_⟩
    refine List.Sublist.trans ?_ hopen
    have happend := spelling_append sm.dropLast [sm.getLast hnil] false
    rw [dropLast_append_getLast hnil] at happend
    rw [happend]
    exact sublist_append_left _ _
  · refine ⟨?_, ?_⟩
    · intro s hm
      rcases mem_append.mp hm with hm | hm
      · exact hk s hm
      · obtain rfl := mem_singleton.mp hm
        exact ⟨⟨hempty, hp⟩, hdot, hdots⟩
    · rw [spelling_append]
      exact hopen.append (by simp [spelling])

lemma cleanSegments_spec {p : List Text} (hp : ∀ pc ∈ p, '/' ∉ pc) :
    ∀ {segments s' : List Text} {ic ic' : Bool} {b : Text} {i : ℕ}, 0 < i → (∀ sg ∈ segments, IsKept sg) →
      (spelling segments ic).Sublist b → (p.zipIdx i).foldlM cleanSegment (segments, ic) = .ok (s', ic') →
      (∀ sg ∈ s', IsKept sg) ∧ (spelling s' ic').Sublist (b ++ spelling p false) := by
  induction p with
  | nil =>
    intro segments s' ic ic' b i _ hk hb h
    cases h
    exact ⟨hk, hb.trans (sublist_append_left _ _)⟩
  | cons pc p ih =>
    intro segments s' ic ic' b i hi hk hb h
    simp only [zipIdx_cons, foldlM_cons, bind_eq_ok] at h
    obtain ⟨⟨m, mc⟩, hpc, hr⟩ := h
    obtain ⟨hmd, hs⟩ :=
      cleanSegment_spec (hp pc mem_cons_self) hi hk hb hpc
    obtain ⟨hk', hs'⟩ := ih (fun o hm => hp o (mem_cons_of_mem pc hm)) (Nat.succ_pos i) hmd hs hr
    refine ⟨hk', ?_⟩
    rwa [append_assoc, cons_append] at hs'

lemma cleanDecodedPath_spec (h : cleanDecodedPath ('/' :: p) = .ok c) :
    c.Sublist ('/' :: p) ∧ ∃ sm : List Text, ∃ ic, (∀ s ∈ sm, IsKept s) ∧ (sm = [] → ic = true) ∧
        c = spelling sm ic := by
  have hsplit : ('/' :: p).splitOn '/' = [] :: p.splitOn '/' :=
    splitOn_append_cons_self_of_not_mem not_mem_nil p
  simp only [cleanDecodedPath, hsplit, zipIdx_cons, foldlM_cons, bind_eq_ok] at h
  obtain ⟨⟨sm, ic⟩, ⟨_, hf, hr⟩, h⟩ := h
  obtain rfl : ([], false) = _ := ok.inj hf
  have hstart : (spelling [] false).Sublist [] := List.Sublist.refl []
  obtain ⟨hk, hs⟩ :=
    cleanSegments_spec (fun _ => notMem_of_mem_splitOn) Nat.one_pos (by simp) hstart hr
  rw [spelling_splitOn] at hs
  by_cases hnil : sm = []
  · simp only [hnil, if_true] at h
    cases h
    exact ⟨singleton_sublist.mpr mem_cons_self, [], true, by simp, fun _ => rfl, rfl⟩
  · simp only [if_neg hnil, spelling_intercalate hnil, except_pure, ok.injEq,
      spelling_cleaned hk hnil ic] at h
    subst h
    exact ⟨hs, sm, ic, hk, fun h => absurd h hnil, rfl⟩

/-! ## Canonical paths -/

def IsClean (text : Text) : Prop := cleanDecodedPath text = .ok text
  deriving Decidable

def DavPath.IsCanonical (path : DavPath) : Prop := IsClean path.canonical.toList

lemma cleanSegments_kept (r : List Text) : ∀ {segments b : List Text} {ic : Bool} {i : ℕ},
      (∀ s ∈ segments, IsKept s) →
      ((segments ++ r).zipIdx i).foldlM cleanSegment (b, ic) =
        (r.zipIdx (i + segments.length)).foldlM cleanSegment
          (b ++ segments, if segments = [] then ic else false)
  | [], b, ic, i, _ => by simp
  | s :: segments, b, ic, i, hkept => by
    obtain ⟨⟨hne, -⟩, hdt, hd⟩ := hkept s mem_cons_self
    have hstep : cleanSegment (b, ic) (s, i) = .ok (b ++ [s], false) := by
      simp [cleanSegment, hne, hdt, hd]
    rw [cons_append, zipIdx_cons, foldlM_cons, hstep, ok_bind,
      cleanSegments_kept r fun o hm => hkept o (mem_cons_of_mem s hm)]
    simp [Nat.add_assoc, Nat.add_comm 1]

lemma splitOn_spelling (ic : Bool) :
    ∀ {segments : List Text} {first : Text}, '/' ∉ first → (∀ s ∈ segments, IsKept s) →
      (first ++ spelling segments ic).splitOn '/' =
        first :: (segments ++ if ic then [[]] else [])
  | [], first, hfirst, _ => by
    cases ic with
    | false => simpa [spelling] using splitOn_eq_singleton hfirst
    | true => simpa [spelling] using splitOn_append_cons_self_of_not_mem hfirst []
  | s :: segments, first, hfirst, hkept => by
    rw [spelling, splitOn_append_cons_self_of_not_mem hfirst, cons_append,
      splitOn_spelling ic (hkept s mem_cons_self).1.2 fun o hm => hkept o (mem_cons_of_mem s hm)]

lemma exists_cons_of_clean (h : cleanDecodedPath ('/' :: p) = .ok c) : ∃ r, c = '/' :: r := by
  obtain ⟨-, sm, ic, -, hr, rfl⟩ := cleanDecodedPath_spec h
  cases sm with
  | nil => exact ⟨[], by rw [hr rfl]; rfl⟩
  | cons s sm => exact ⟨_, rfl⟩

/-- The text of segments that are kept is clean. -/
lemma isClean_spelling {ic : Bool} (hk : ∀ s ∈ sm, IsKept s)
    (hr : sm = [] → ic = true) : IsClean (spelling sm ic) := by
  by_cases hnil : sm = []
  · rw [hnil, hr hnil]
    decide
  · have hsplit := splitOn_spelling ic not_mem_nil hk
    rw [nil_append] at hsplit
    have hfirst : cleanSegment ([], false) ([], 0) = .ok ([], false) := rfl
    have hlast : ((if ic then [[]] else []).zipIdx (0 + 1 + sm.length)).foldlM
        cleanSegment (sm, false) = .ok (sm, ic) := by
      cases ic <;> simp [cleanSegment]
    rw [IsClean, cleanDecodedPath, hsplit, zipIdx_cons, foldlM_cons, hfirst, ok_bind,
      cleanSegments_kept _ hk, nil_append, if_neg hnil, hlast, ok_bind]
    simp only [if_neg hnil, spelling_intercalate hnil, except_pure]
    rw [spelling_cleaned hk hnil]

/-- **What is clean** is left as it is. -/
theorem cleanDecodedPath_canonical (h : cleanDecodedPath ('/' :: p) = .ok c) : IsClean c := by
  obtain ⟨-, sm, ic, hk, hr, rfl⟩ := cleanDecodedPath_spec h
  exact isClean_spelling hk hr

lemma davPathNew_ok {f : DavPath} (h : DavPath.new p = .ok f) :
    ∃ b d, ensureLeadingSlash p = '/' :: b ∧ containsEncodedPathSeparator ('/' :: b) = false ∧
      percentDecode (textBytes b) = textBytes d ∧ percentDecodeText ('/' :: b) = some ('/' :: d) ∧
      cleanDecodedPath ('/' :: d) = .ok f.canonical.toList := by
  have hslash : ∃ b, ensureLeadingSlash p = '/' :: b := by
    unfold ensureLeadingSlash
    split_ifs with hroot hhead
    · exact ⟨[], rfl⟩
    · obtain ⟨b, rfl⟩ := head?_eq_some_iff.mp hhead
      exact ⟨b, rfl⟩
    · exact ⟨p, rfl⟩
  obtain ⟨b, hb⟩ := hslash
  simp only [DavPath.new, hb, bind_eq_ok, refuse_eq_ok, okOr_eq_ok, except_pure, ok.injEq] at h
  obtain ⟨-, hs, w, hw, c, hc, rfl⟩ := h
  have hbytes := percentDecodeText_eq_some.mp hw
  rw [show '/' :: b = ['/'] ++ b from rfl, textBytes_append,
    show textBytes ['/'] = [0x2F] from rfl, singleton_append,
    percentDecode_cons_of_ne _ (by decide)] at hbytes
  obtain ⟨d, rfl, hd⟩ := eq_append_of_textBytes
    (show textBytes w = textBytes ['/'] ++ percentDecode (textBytes b) from hbytes.symm)
  refine ⟨b, d, hb, by simpa using hs, hd.symm, hw, ?_⟩
  rw [String.toList_ofList]
  exact hc

lemma new_canonical {f : DavPath} (h : DavPath.new p = .ok f) : f.IsCanonical := by
  obtain ⟨b, d, -, -, -, -, hc⟩ := davPathNew_ok h
  exact cleanDecodedPath_canonical hc

lemma textBytes_encodeHref : textBytes (encodeHref path) = percentEncode davHrefPathSet (textBytes path) := by
  refine textBytes_latin1 fun b hm => ?_
  obtain ⟨r, -, hm⟩ := mem_flatMap.mp hm
  have hall : ∀ n < 256, ((if davHrefPathSet (UInt8.ofNat n) then
      [0x25, hexDigit (UInt8.ofNat n / 16), hexDigit (UInt8.ofNat n % 16)]
      else [UInt8.ofNat n]).all fun b => b < 0x80) = true := by
    decide +kernel
  have hread := hall r.toNat r.toNat_lt
  rw [UInt8.ofNat_toNat] at hread
  exact of_decide_eq_true (all_eq_true.mp hread b hm)

/-- **An href is read as the text** it was made from. -/
theorem percentDecodeText_encodeHref : percentDecodeText (encodeHref path) = some path := by
  rw [percentDecodeText_eq_some, textBytes_encodeHref]
  exact percentDecode_percentEncode (by decide) _

lemma hrefForDavPath_eq (m : Text) (path : DavPath) :
    hrefForDavPath m path = encodeHref (m ++ path.canonical.toList) := by
  rw [hrefForDavPath, hrefForRelative]
  split
  · rename_i hroot
    rw [hroot]
  · rfl

end AsterForge.Webdav
