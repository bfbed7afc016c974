import AsterForge.Webdav.Path

/-!
# Paths below a path

A name after the other, every one but the last taken as a collection, leads from a path to its descendants.
A descendant's text says which names led there: names are not empty and contain no slash.

* **`joinDescendant_inj`** — two ways to one path are the same way.
-/

namespace AsterForge.Webdav

open Library List

def DavPath.joinDescendant (path : DavPath) : List (List UInt8) → Bool → Except DavPathError DavPath
  | [], _ => .ok path
  | name :: names, isCollection => do
    let child ← path.joinChild name (if names = [] then isCollection else true)
    child.joinDescendant names isCollection

lemma joinDescendant_snoc {nm : List UInt8} {isCollection : Bool} {c : DavPath} :
    ∀ {n : List (List UInt8)} {path d : DavPath},
      path.joinDescendant n true = .ok d → d.joinChild nm isCollection = .ok c →
        path.joinDescendant (n ++ [nm]) isCollection = .ok c
  | [], path, d, hdir, hchild => by
    cases hdir
    simp [DavPath.joinDescendant, hchild]
  | first :: n, path, d, hdir, hchild => by
    simp only [DavPath.joinDescendant, ite_self, bind_eq_ok] at hdir
    obtain ⟨next, hn, hr⟩ := hdir
    simp only [cons_append, DavPath.joinDescendant, bind_eq_ok]
    exact ⟨next, by simpa using hn, joinDescendant_snoc hr hchild⟩

/-! ## The text of a descendant -/

/-- A path's text without its last slash. -/
def DavPath.stem (path : DavPath) : List Char :=
  if EndsWithSlash path.canonical then path.canonical.toList.dropLast else path.canonical.toList

/-- What a descendant's text has after the stem. -/
def spelling : List (List Char) → Bool → List Char
  | [], isCollection => if isCollection then ['/'] else []
  | name :: names, isCollection => '/' :: (name ++ spelling names isCollection)

def IsSegment (name : List Char) : Prop := name ≠ [] ∧ '/' ∉ name

lemma DavPath.toList_eq (path : DavPath) :
    path.canonical.toList = path.stem ++ spelling [] (EndsWithSlash path.canonical) := by
  unfold stem spelling
  by_cases hslash : EndsWithSlash path.canonical
  · rw [if_pos hslash, if_pos (by simpa using hslash)]
    obtain ⟨b, ht⟩ := getLast?_eq_some_iff.mp hslash
    rw [ht, dropLast_concat]
  · rw [if_neg hslash, if_neg (by simpa using hslash), append_nil]

variable {p : DavPath} {i : Bool}

lemma stem_of_toList {s n : List Char} (hn : IsSegment n) (h : p.canonical.toList = s ++ spelling [n] i) :
    p.stem = s ++ '/' :: n ∧ (EndsWithSlash p.canonical ↔ i = true) := by
  have hl : (s ++ '/' :: n).getLast? ≠ some '/' := by
    intro hl
    rw [getLast?_append, getLast?_cons] at hl
    obtain ⟨hne, hs⟩ := hn
    cases hget : n.getLast? with
    | none => exact hne (getLast?_eq_none_iff.mp hget)
    | some l =>
      rw [hget] at hl
      have heq : l = '/' := by simpa using hl
      exact hs (heq ▸ mem_of_getLast? hget)
  cases i with
  | false =>
    have htext : p.canonical.toList = s ++ '/' :: n := by simpa [spelling] using h
    have hnot : ¬ EndsWithSlash p.canonical := by
      rw [EndsWithSlash, htext]
      exact hl
    exact ⟨by rw [DavPath.stem, if_neg hnot, htext], by simp [hnot]⟩
  | true =>
    have htext : p.canonical.toList = (s ++ '/' :: n) ++ ['/'] := by simpa [spelling] using h
    have hends : EndsWithSlash p.canonical := by
      rw [EndsWithSlash, htext, getLast?_concat]
    exact ⟨by rw [DavPath.stem, if_pos hends, htext, dropLast_concat], by simp [hends]⟩

lemma joinChild_ok {c : DavPath} {n : List UInt8} (h : p.joinChild n i = .ok c) :
    ∃ t, fromUtf8 n = some t ∧ IsSegment t.toList ∧ c.canonical.toList = p.stem ++ spelling [t.toList] i := by
  simp only [DavPath.joinChild, childRelativePath, bind_eq_ok, okOr_eq_ok, refuse_eq_ok,
    except_pure, Except.ok.injEq] at h
  obtain ⟨_, ⟨t, ht, _, hv, rfl⟩, rfl⟩ := h
  simp only [not_or] at hv
  obtain ⟨hne, -, -, hs, -⟩ := hv
  have hsegment : IsSegment t.toList := ⟨by simpa using hne, hs⟩
  refine ⟨t, ht, hsegment, ?_⟩
  -- the text before the slash of a collection
  have hrelv : (if p.canonical = "/" then "/" ++ t
      else if EndsWithSlash p.canonical then p.canonical ++ t
        else p.canonical ++ "/" ++ t).toList = p.stem ++ '/' :: t.toList := by
    have hpath := p.toList_eq
    split
    · rename_i hroot
      simp [DavPath.stem, hroot, EndsWithSlash]
    · split
      · rename_i he
        simp only [spelling, he, decide_true, if_true] at hpath
        simp [hpath]
      · rename_i he
        simp only [spelling, he, decide_false, Bool.false_eq_true, if_false, append_nil] at hpath
        simp [hpath]
  generalize (if p.canonical = "/" then "/" ++ t
      else if EndsWithSlash p.canonical then p.canonical ++ t
        else p.canonical ++ "/" ++ t) = relative at hrelv
  have hspell : (⟨relative⟩ : DavPath).canonical.toList = p.stem ++ spelling [t.toList] false := by
    simpa [spelling] using hrelv
  obtain ⟨-, he⟩ := stem_of_toList hsegment hspell
  have hopen : ¬ EndsWithSlash relative := by simpa using he
  cases i <;> simp [hopen, hrelv, spelling]

lemma joinDescendant_ok : ∀ {n : List (List UInt8)} {path f : DavPath} {isCollection : Bool},
    path.joinDescendant n isCollection = .ok f →
      ∃ t : List String, ∃ s : Bool, n = t.map utf8Bytes ∧
        (∀ tx ∈ t, IsSegment tx.toList) ∧ (n ≠ [] → s = isCollection) ∧
        f.canonical.toList = path.stem ++ spelling (t.map String.toList) s
  | [], path, f, isCollection, h => by
    cases h
    exact ⟨[], _, rfl, by simp, fun hne => absurd rfl hne, path.toList_eq⟩
  | name :: n, path, f, isCollection, h => by
    obtain ⟨c, hc, hr⟩ := bind_eq_ok.mp h
    obtain ⟨tx, htx, hs, hsp⟩ := joinChild_ok hc
    obtain ⟨hst, he⟩ := stem_of_toList hs hsp
    obtain ⟨t, s, ht, hsg, hsl, hf⟩ := joinDescendant_ok hr
    refine ⟨tx :: t, s, by simp [fromUtf8_eq_some.mp htx, ht], ?_, ?_, ?_⟩
    · intro o hm
      rcases mem_cons.mp hm with rfl | hm
      · exact hs
      · exact hsg o hm
    · intro _
      by_cases hnames : n = []
      · -- the child is what was found
        subst hnames
        obtain rfl : t = [] := by simpa using ht
        cases hr
        rw [hsp, hst] at hf
        cases s <;> cases isCollection <;> simp [spelling] at hf ⊢
      · exact hsl hnames
    · rw [hf, hst]
      simp [spelling]

lemma spelling_inj : ∀ {n n' : List (List Char)} {s s' : Bool},
    (∀ nm ∈ n, IsSegment nm) → (∀ nm ∈ n', IsSegment nm) → spelling n s = spelling n' s' → n = n' ∧ s = s'
  | [], [], s, s', _, _, h => by
    cases s <;> cases s' <;> simp [spelling] at h ⊢
  | [], nm :: n', s, s', _, hsegs, h => by
    have hne := (hsegs nm mem_cons_self).1
    cases s <;> simp [spelling, hne] at h
  | nm :: n, [], s, s', hsegs, _, h => by
    have hne := (hsegs nm mem_cons_self).1
    cases s' <;> simp [spelling, hne] at h
  | nm :: n, name' :: n', s, s', hsegs, hsegs', h => by
    have hbef : ∀ (sg : List Char) (r : List (List Char)) (s : Bool), IsSegment sg →
        (sg ++ spelling r s).takeWhile (· ≠ '/') = sg := by
      intro sg r s hs
      rw [takeWhile_append_of_pos]
      · cases r <;> cases s <;> simp [spelling]
      · intro l hm
        have hne : l ≠ '/' := fun heq => hs.2 (heq ▸ hm)
        simpa using hne
    have htail : nm ++ spelling n s = name' ++ spelling n' s' := (cons.inj h).2
    have hname : nm = name' := by
      rw [← hbef nm n s (hsegs nm mem_cons_self), htail, hbef name' n' s' (hsegs' name' mem_cons_self)]
    subst hname
    obtain ⟨hn, hsl⟩ := spelling_inj (fun o hm => hsegs o (mem_cons_of_mem _ hm))
      (fun o hm => hsegs' o (mem_cons_of_mem _ hm)) (append_cancel_left htail)
    exact ⟨by rw [hn], hsl⟩

/-- **Two ways to one path** are the same way. -/
theorem joinDescendant_inj {f : DavPath} {n n' : List (List UInt8)}
    {ic' : Bool} (h : p.joinDescendant n i = .ok f) (h' : p.joinDescendant n' ic' = .ok f) :
    n = n' ∧ (n ≠ [] → i = ic') := by
  obtain ⟨t, s, ht, hs, hsl, hf⟩ := joinDescendant_ok h
  obtain ⟨t', s', ht', hs', hsl', hf'⟩ := joinDescendant_ok h'
  have hlists : ∀ {t : List String}, (∀ tx ∈ t, IsSegment tx.toList) →
      ∀ nm ∈ t.map String.toList, IsSegment nm := by
    intro t hs nm hm
    obtain ⟨tx, htx, rfl⟩ := mem_map.mp hm
    exact hs tx htx
  obtain ⟨hte, hse⟩ := spelling_inj (hlists hs) (hlists hs') (append_cancel_left (hf.symm.trans hf'))
  have hsame : t = t' := (map_inj_right fun _ _ => String.toList_inj.mp).mp hte
  have hnames : n = n' := by rw [ht, ht', hsame]
  refine ⟨hnames, fun hne => ?_⟩
  rw [← hsl hne, hse, hsl' (hnames ▸ hne)]

lemma names_of_joinDescendant_self {n : List (List UInt8)} (h : p.joinDescendant n i = .ok p) : n = [] := by
  have hself : p.joinDescendant [] i = .ok p := rfl
  exact (joinDescendant_inj h hself).1

end AsterForge.Webdav
