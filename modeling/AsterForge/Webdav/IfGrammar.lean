import AsterForge.Webdav.IfHeader

/-!
# The grammar of the `If` header

The header is a text of tags, parentheses and conditions with white space between them.  Its grammar is
stated once, for any rule on what may stand between two delimiters: the strict one of the protocol, and
the loose one that the parser implements, where anything but the closing delimiter may.

* **`parseIf_iff`** — the parser accepts exactly the loose renderings.
-/

namespace AsterForge.Webdav

open Library List

/-! ## Rules for delimited texts -/

/-- What may be white space, and what may stand between the delimiters of a tag, a token and an entity
tag, with the value that it has. -/
structure IfSyntax where
  space : Text → Prop
  tag : Text → Text → Prop
  token : Text → Text → Prop
  etag : Text → Text → Prop

variable (c : Char)

def isAlpha : Bool := ('a' ≤ c && c ≤ 'z') || ('A' ≤ c && c ≤ 'Z')

def isDigit : Bool := '0' ≤ c && c ≤ '9'

def isPathChar : Bool := isAlpha c || isDigit c || "-._~%!$&'()*+,;=:@/?".toList.contains c

def isAuthorityChar : Bool :=
  isAlpha c || isDigit c || "-._~%!$&'()*+,;=:@[]".toList.contains c

def isSchemeChar : Bool := isAlpha c || isDigit c || "+-.".toList.contains c

/-- What follows the scheme of a URI. -/
def isHierarchicalPart : Text → Bool
  | '/' :: '/' :: rest =>
    (rest.takeWhile fun c => c ≠ '/' && c ≠ '?').all isAuthorityChar &&
      (rest.dropWhile fun c => c ≠ '/' && c ≠ '?').all isPathChar
  | rest => rest.all isPathChar

def isAbsoluteUri (text : Text) : Bool :=
  match splitOnce ':' text with
  | none => false
  | some (scheme, rest) =>
    scheme.head?.any isAlpha && scheme.all isSchemeChar && isHierarchicalPart rest && percentEscaped rest

/-- A URI, or the path of one. -/
def isSimpleRef (text : Text) : Bool :=
  isAbsoluteUri text ||
    (text.head? = some '/' && text.tail.head? ≠ some '/' && text.all isPathChar && percentEscaped text)

/-- A character between the quotes of an entity tag. -/
def isEtagChar : Bool :=
  c.toNat = 0x21 || (0x23 ≤ c.toNat && c.toNat ≤ 0x7E) || (0x80 ≤ c.toNat && c.toNat ≤ 0xFF)

def EntityTag (text : Text) : Prop :=
  ∃ weak opaqueTag, (weak = [] ∨ weak = ['W', '/']) ∧ text = weak ++ '"' :: (opaqueTag ++ ['"']) ∧
    ∀ c ∈ opaqueTag, isEtagChar c = true

/-- Spaces and tabs. -/
def Blanks (text : Text) : Prop := ∀ c ∈ text, c = ' ' ∨ c = '\t'

/-- The rules of the protocol: no white space around a URI, and any around an entity tag. -/
def strictSyntax : IfSyntax where
  space := Blanks
  tag raw value := raw = value ∧ isSimpleRef value = true
  token raw value := raw = value ∧ isAbsoluteUri value = true
  etag raw value := ∃ before after, Blanks before ∧ Blanks after ∧ raw = before ++ (value ++ after) ∧
    EntityTag value

/-- The rules of the parser: anything without the closing delimiter that is not blank. -/
def looseSyntax : IfSyntax where
  space text := ∀ c ∈ text, isLinearWhitespace c = true
  tag raw value := '>' ∉ raw ∧ trim raw ≠ [] ∧ value = trim raw
  token raw value := '>' ∉ raw ∧ trim raw ≠ [] ∧ value = normalizeLockToken (trim raw)
  etag raw value := ']' ∉ raw ∧ trim raw ≠ [] ∧ value = trim raw

/-! ## Renderings -/

section

variable (S : IfSyntax)

/-- The word before a negated condition, and the white space behind it. -/
inductive RendersNot : Bool → Text → Prop
  | plain : RendersNot false []
  | negated {word space : Text} (hword : eqIgnoreAsciiCase word "not".toList = true)
      (hspace : S.space space) : RendersNot true (word ++ space)

inductive RendersCondition : IfStateCondition → Text → Prop
  | token {value raw word : Text} {negated : Bool} (hnot : RendersNot S negated word)
      (htoken : S.token raw value) : RendersCondition (.token value negated) (word ++ '<' :: (raw ++ ['>']))
  | etag {value raw word : Text} {negated : Bool} (hnot : RendersNot S negated word)
      (hetag : S.etag raw value) : RendersCondition (.etag value negated) (word ++ '[' :: (raw ++ [']']))

inductive RendersConditions : List IfStateCondition → Text → Prop
  | nil {space : Text} (hspace : S.space space) : RendersConditions [] space
  | cons {space text rest : Text} {condition : IfStateCondition} {conditions : List IfStateCondition}
      (hspace : S.space space) (hcondition : RendersCondition S condition text)
      (hrest : RendersConditions conditions rest) :
      RendersConditions (condition :: conditions) (space ++ (text ++ rest))

inductive RendersList : IfStateList → Text → Prop
  | list {text : Text} {conditions : List IfStateCondition} (hne : conditions ≠ [])
      (hconditions : RendersConditions S conditions text) : RendersList ⟨conditions⟩ ('(' :: (text ++ [')']))

inductive RendersLists : List IfStateList → Text → Prop
  | nil {space : Text} (hspace : S.space space) : RendersLists [] space
  | cons {space text rest : Text} {list : IfStateList} {lists : List IfStateList}
      (hspace : S.space space) (hlist : RendersList S list text) (hrest : RendersLists lists rest) :
      RendersLists (list :: lists) (space ++ (text ++ rest))

inductive RendersGroups : List IfResourceGroup → Text → Prop
  | nil : RendersGroups [] []
  | cons {raw value text rest : Text} {lists : List IfStateList} {groups : List IfResourceGroup}
      (htag : S.tag raw value) (hne : lists ≠ []) (hlists : RendersLists S lists text)
      (hrest : RendersGroups groups rest) :
      RendersGroups (⟨some value, lists⟩ :: groups) ('<' :: (raw ++ '>' :: (text ++ rest)))

inductive Renders : IfHeader → Text → Prop
  | untagged {text : Text} {lists : List IfStateList} (hne : lists ≠ [])
      (hlists : RendersLists S lists text) : Renders ⟨[⟨none, lists⟩]⟩ text
  | tagged {space text : Text} {groups : List IfResourceGroup} (hspace : S.space space)
      (hne : groups ≠ []) (hgroups : RendersGroups S groups text) : Renders ⟨groups⟩ (space ++ text)

end

/-! ## The parser accepts loose renderings -/

variable {s rs tx : Text} {cd : IfStateCondition} {ls : IfStateList}
    {li : List IfStateList} {hd : IfHeader} {f : ℕ}

lemma skipLinearWhitespace_space (hs : looseSyntax.space s) :
    skipLinearWhitespace (s ++ rs) = skipLinearWhitespace rs :=
  dropWhile_append_of_pos hs

lemma skipLinearWhitespace_cons {c : Char} (hc : isLinearWhitespace c = false) :
    skipLinearWhitespace (c :: rs) = c :: rs := by
  rw [skipLinearWhitespace, dropWhile_cons_of_neg (by simp [hc])]

lemma exists_space (text : Text) : ∃ s, looseSyntax.space s ∧ text = s ++ skipLinearWhitespace text := by
  refine ⟨text.takeWhile isLinearWhitespace, ?_, (takeWhile_append_dropWhile).symm⟩
  intro c hm
  exact mem_takeWhile_imp hm

lemma parseDelimited_eq_ok {o cl : Char} {v : Text} : parseDelimited o cl tx = .ok (v, rs) ↔
    ∃ raw, tx = o :: (raw ++ cl :: rs) ∧ cl ∉ raw ∧ trim raw ≠ [] ∧ v = trim raw := by
  cases tx with
  | nil => simp [parseDelimited]
  | cons c tx =>
    rw [parseDelimited]
    by_cases hc : c = o
    · subst hc
      rw [if_pos rfl]
      constructor
      · intro h
        cases hsplit : splitOnce cl tx with
        | none =>
          rw [hsplit] at h
          cases h
        | some p =>
          obtain ⟨raw, t⟩ := p
          rw [hsplit] at h
          dsimp only at h
          obtain ⟨ht, hm⟩ := splitOnce_eq_some.mp hsplit
          split at h
          · cases h
          case isFalse hne =>
            cases h
            exact ⟨raw, by rw [ht], hm, hne, rfl⟩
      · rintro ⟨raw, ht, hm, hne, rfl⟩
        have hsplit := splitOnce_eq_some.mpr ⟨(cons.inj ht).2, hm⟩
        rw [hsplit]
        exact if_neg hne
    · simp [hc]

/-- The word `not` has three letters, none of which is white space or a delimiter. -/
lemma not_cases {w : Text} (h : eqIgnoreAsciiCase w "not".toList = true) :
    ∃ n o t, w = [n, o, t] ∧ isLinearWhitespace n = false ∧ n ≠ ')' ∧ n ≠ '<' ∧ n ≠ '[' := by
  have hword : w.map Char.toLower = ['n', 'o', 't'] := by
    exact of_decide_eq_true h
  have hlen : w.length = 3 := by
    have hlen := congrArg length hword
    rwa [length_map] at hlen
  obtain ⟨n, o, t, rfl⟩ := length_eq_three.mp hlen
  have hn : n.toLower = 'n' := (cons.inj hword).1
  have hne : ∀ c : Char, c.toLower ≠ 'n' → n ≠ c := by
    rintro c hc rfl
    exact hc hn
  refine ⟨n, o, t, rfl, ?_, hne _ (by decide), hne _ (by decide), hne _ (by decide)⟩
  simp only [isLinearWhitespace, Bool.or_eq_false_iff, decide_eq_false_iff_not]
  exact ⟨⟨⟨hne _ (by decide), hne _ (by decide)⟩, hne _ (by decide)⟩, hne _ (by decide)⟩

lemma consumeNot_rendered {ng : Bool} {w rest : Text} {c : Char}
    (hn : RendersNot looseSyntax ng w) (hc : c = '<' ∨ c = '[') :
    ∃ s, consumeNot (w ++ c :: rest) = (ng, s ++ c :: rest) ∧ looseSyntax.space s := by
  cases hn with
  | plain =>
    refine ⟨[], ?_, by simp [looseSyntax]⟩
    rw [consumeNot, if_neg]
    rintro ⟨hl, hw, -⟩
    obtain ⟨n, o, t, ht, -, -, ha, hb⟩ := not_cases hw
    rcases hc with rfl | rfl
    · exact ha (cons.inj ht).1.symm
    · exact hb (cons.inj ht).1.symm
  | @negated w s hw hs =>
    refine ⟨s, ?_, hs⟩
    obtain ⟨n, o, t, rfl, -⟩ := not_cases hw
    refine if_pos ⟨rfl, hw, ?_⟩
    cases s with
    | nil => rcases hc with rfl | rfl <;> simp
    | cons d s =>
      have hd := hs d mem_cons_self
      simp only [isLinearWhitespace, Bool.or_eq_true, decide_eq_true_eq] at hd
      have hwhite : isAsciiWhitespace d = true := by
        simp only [isAsciiWhitespace, Bool.or_eq_true, decide_eq_true_eq]
        tauto
      simp [hwhite]

/-- **A condition is read** from its rendering. -/
lemma parseCondition_rendered {condition : IfStateCondition} {text rest : Text}
    (h : RendersCondition looseSyntax condition text) : parseCondition (text ++ rest) = .ok (condition, rest) := by
  cases h with
  | @token v raw w n hn ht =>
    obtain ⟨hcl, hne, rfl⟩ := ht
    obtain ⟨s, hc, hs⟩ := @consumeNot_rendered n w (raw ++ '>' :: rest) '<' hn (.inl rfl)
    have htext : w ++ '<' :: (raw ++ ['>']) ++ rest = w ++ '<' :: (raw ++ '>' :: rest) := by
      simp
    have hdelimited : parseAngleValue ('<' :: (raw ++ '>' :: rest)) = .ok (trim raw, rest) :=
      parseDelimited_eq_ok.mpr ⟨raw, rfl, hcl, hne, rfl⟩
    rw [htext, parseCondition, hc]
    dsimp only
    rw [skipLinearWhitespace_space hs, skipLinearWhitespace_cons (by decide)]
    simp [hdelimited]
  | @etag v raw w n hn he =>
    obtain ⟨hcl, hne, rfl⟩ := he
    obtain ⟨s, hc, hs⟩ := @consumeNot_rendered n w (raw ++ ']' :: rest) '[' hn (.inr rfl)
    have htext : w ++ '[' :: (raw ++ [']']) ++ rest = w ++ '[' :: (raw ++ ']' :: rest) := by
      simp
    have hdelimited : parseBracketValue ('[' :: (raw ++ ']' :: rest)) = .ok (trim raw, rest) :=
      parseDelimited_eq_ok.mpr ⟨raw, rfl, hcl, hne, rfl⟩
    rw [htext, parseCondition, hc]
    dsimp only
    rw [skipLinearWhitespace_space hs, skipLinearWhitespace_cons (by decide)]
    simp [hdelimited]

lemma condition_head {S : IfSyntax} (h : RendersCondition S cd tx) :
    ∃ c rs, tx = c :: rs ∧ isLinearWhitespace c = false ∧ c ≠ ')' := by
  have hw : ∀ {ng : Bool} {w : Text} (c : Char) (rs : Text),
      RendersNot S ng w → isLinearWhitespace c = false → c ≠ ')' →
        ∃ d r', w ++ c :: rs = d :: r' ∧ isLinearWhitespace d = false ∧ d ≠ ')' := by
    intro ng w c rs hnt hs hne
    cases hnt with
    | plain => exact ⟨c, rs, rfl, hs, hne⟩
    | @negated w s hw _ =>
      obtain ⟨n, o, t, rfl, hn, hc, -⟩ := not_cases hw
      exact ⟨n, _, rfl, hn, hc⟩
  cases h with
  | token hnt _ | etag hnt _ => exact hw _ _ hnt (by decide) (by decide)

lemma parseConditions_rendered {cn : List IfStateCondition} {text rest : Text} {fuel : ℕ}
    (h : RendersConditions looseSyntax cn text) (hf : text.length < fuel) :
    parseConditions fuel (text ++ ')' :: rest) = .ok (cn, rest) := by
  induction h generalizing fuel with
  | nil hs =>
    obtain ⟨fuel, rfl⟩ := Nat.exists_eq_add_of_lt hf
    rw [parseConditions, skipLinearWhitespace_space hs]
    rfl
  | @cons s text m cd cn hs hc _ ih =>
    obtain ⟨fuel, rfl⟩ := Nat.exists_eq_add_of_lt hf
    obtain ⟨c, t, ht, hw, hne⟩ := condition_head hc
    have hskip : skipLinearWhitespace (s ++ (text ++ m) ++ ')' :: rest) = c :: (t ++ (m ++ ')' :: rest)) := by
      rw [append_assoc, skipLinearWhitespace_space hs, ht, append_assoc]
      exact skipLinearWhitespace_cons hw
    have hread := @parseCondition_rendered cd text (m ++ ')' :: rest) hc
    rw [ht, cons_append] at hread
    have hmore := @ih ((s ++ (text ++ m)).length + fuel) (by
      simp only [ht, length_append, length_cons]
      omega)
    rw [parseConditions, hskip]
    split
    · contradiction
    case h_2 heq => exact absurd (cons.inj heq).1 hne
    · rw [hread, ok_bind]
      dsimp only
      rw [hmore]
      rfl

lemma parseStateList_rendered (h : RendersList looseSyntax ls tx) : parseStateList (tx ++ rs) = .ok (ls, rs) := by
  cases h with
  | @list tx c hne hc =>
    have htext : '(' :: (tx ++ [')']) ++ rs = '(' :: (tx ++ ')' :: rs) := by simp
    have hread := @parseConditions_rendered c tx rs ((tx ++ ')' :: rs).length + 1) hc (by
        rw [length_append]
        omega)
    rw [htext, parseStateList, hread, ok_bind]
    dsimp only
    rw [refuse_of_not hne]
    rfl

lemma lists_head (h : RendersLists looseSyntax li tx)
    (rest : Text) : (li = [] ∧ skipLinearWhitespace (tx ++ rest) = skipLinearWhitespace rest) ∨
      ∃ ls t s i m, li = ls :: t ∧ tx = s ++ (i ++ m) ∧
        RendersList looseSyntax ls i ∧ RendersLists looseSyntax t m ∧
        skipLinearWhitespace (tx ++ rest) = i ++ (m ++ rest) ∧ i.head? = some '(' := by
  cases h with
  | nil hs => exact .inl ⟨rfl, skipLinearWhitespace_space hs⟩
  | @cons s i m ls t hs hl hr =>
    refine .inr ⟨ls, t, s, i, m, rfl, rfl, hl, hr, ?_, ?_⟩
    · rw [append_assoc, append_assoc, skipLinearWhitespace_space hs]
      cases hl with
      | list _ _ => exact skipLinearWhitespace_cons (by decide)
    · cases hl with
      | list _ _ => rfl

lemma parseTaggedLists_rendered {fuel : ℕ} {lists : List IfStateList} {text rest : Text}
    (h : RendersLists looseSyntax lists text) (hr : rest = [] ∨ rest.head? = some '<')
    (hf : text.length < fuel) : parseTaggedLists fuel (text ++ rest) = .ok (lists, rest) := by
  induction fuel generalizing lists text with
  | zero => exact absurd hf (Nat.not_lt_zero _)
  | succ fuel ih =>
    have hstop : skipLinearWhitespace rest = rest ∧ rest.head? ≠ some '(' := by
      rcases hr with rfl | hh
      · exact ⟨rfl, by simp⟩
      · cases rest with
        | nil => exact ⟨rfl, by simp⟩
        | cons c rest =>
          cases hh
          exact ⟨skipLinearWhitespace_cons (by decide), by simp⟩
    rw [parseTaggedLists]
    rcases lists_head h rest with ⟨rfl, hs⟩ | ⟨ls, t, s, i, m, rfl, rfl, hl, ht, hs, hh⟩
    · rw [hs, hstop.1, if_neg hstop.2]
    · have hinner : (i ++ (m ++ rest)).head? = some '(' := by
        cases i with
        | nil => cases hh
        | cons c i => exact hh
      have hmore : m.length < fuel := by
        cases i with
        | nil => cases hh
        | cons c i =>
          simp only [length_append, length_cons] at hf
          omega
      rw [hs, if_pos hinner, parseStateList_rendered hl, ok_bind]
      dsimp only
      rw [ih ht hmore]
      rfl

variable {g : List IfResourceGroup}

lemma parseTaggedGroups_rendered {text : Text} {fuel : ℕ}
    (h : RendersGroups looseSyntax g text) (hne : g ≠ []) (hf : text.length < fuel) :
    parseTaggedGroups fuel text = .ok g := by
  induction h generalizing fuel with
  | nil => exact absurd rfl hne
  | @cons raw v text rs li g ht hl hrn hr ih =>
    obtain ⟨fuel, rfl⟩ := Nat.exists_eq_add_of_lt hf
    obtain ⟨hc, hb, rfl⟩ := ht
    have hdelimited : parseAngleValue ('<' :: (raw ++ '>' :: (text ++ rs))) =
        .ok (trim raw, text ++ rs) := parseDelimited_eq_ok.mpr ⟨raw, rfl, hc, hb, rfl⟩
    have hstop : rs = [] ∨ rs.head? = some '<' := by
      cases hr with
      | nil => exact .inl rfl
      | cons _ _ _ _ => exact .inr rfl
    have hread := @parseTaggedLists_rendered ((text ++ rs).length + 1) li text rs hrn hstop (by
        rw [length_append]
        omega)
    rw [parseTaggedGroups, hdelimited, ok_bind]
    dsimp only
    rw [hread, ok_bind]
    rw [refuse_of_not hl]
    cases hr with
    | nil => rfl
    | @cons raw' v' t' r' l' g' ht' hne' hl' hr' =>
      have hnext := @ih ((('<' :: (raw ++ '>' :: (text ++ ('<' :: (raw' ++ '>' :: (t' ++ r')))))).length) +
        fuel) (by simp) (by
          simp only [length_append, length_cons]
          omega)
      rw [hnext]
      rfl

lemma parseUntaggedLists_rendered {fuel : ℕ} {lists : List IfStateList} {text : Text}
    (h : RendersLists looseSyntax lists text) (hf : text.length < fuel) :
    parseUntaggedLists fuel (skipLinearWhitespace text) = .ok lists := by
  induction fuel generalizing lists text with
  | zero => exact absurd hf (Nat.not_lt_zero _)
  | succ fuel ih =>
    rw [parseUntaggedLists]
    have hh := lists_head h []
    rw [append_nil] at hh
    rcases hh with ⟨rfl, hs⟩ | ⟨ls, t, s, i, m, rfl, rfl, hl, ht, hs, hh⟩
    · rw [hs]
      rfl
    · rw [append_nil] at hs
      cases i with
      | nil => cases hh
      | cons c i =>
        have hmore : m.length < fuel := by
          simp only [length_append, length_cons] at hf
          omega
        have hangle : ¬ (skipLinearWhitespace m).head? = some '<' := by
          have hmoreHead := lists_head ht []
          rw [append_nil] at hmoreHead
          rcases hmoreHead with ⟨-, hb⟩ | ⟨_, _, _, i', m', -, -, -, -, hs', hh'⟩
          · rw [hb]
            simp [skipLinearWhitespace]
          · rw [hs']
            cases i' with
            | nil => cases hh'
            | cons d i' =>
              cases hh'
              simp
        rw [hs, parseStateList_rendered hl, ok_bind]
        dsimp only
        rw [refuse_of_not hangle, ih ht hmore]
        rfl

/-- **A loose rendering is parsed** to what it renders. -/
theorem parseIf_rendered (h : Renders looseSyntax hd tx) : parseIf tx = .ok hd := by
  cases h with
  | @untagged tx li hne hl =>
    have hh := lists_head hl []
    rw [append_nil] at hh
    rcases hh with ⟨rfl, -⟩ | ⟨ls, t, s, i, m, rfl, rfl, hls, ht, hs, hh⟩
    · exact absurd rfl hne
    · rw [append_nil] at hs
      cases i with
      | nil => cases hh
      | cons c i =>
        cases hh
        have hread := @parseUntaggedLists_rendered (('(' :: (i ++ m)).length + 1) (ls :: t)
          ('(' :: (i ++ m)) (@RendersLists.cons looseSyntax [] ('(' :: i) m ls t (by
              intro c hm
              cases hm) hls ht) (Nat.lt_succ_self _)
        rw [skipLinearWhitespace_cons (by decide)] at hread
        have htext : skipLinearWhitespace (s ++ ('(' :: i ++ m)) = '(' :: (i ++ m) := hs
        rw [parseIf, htext]
        change (parseUntaggedLists (('(' :: (i ++ m)).length + 1) ('(' :: (i ++ m)) >>=
          fun li => pure (⟨[⟨none, li⟩]⟩ : IfHeader)) = _
        rw [hread]
        rfl
  | @tagged s tx g hsp hne hg =>
    cases hg with
    | nil => exact absurd rfl hne
    | @cons raw v tx rs li g htg hl hr hrs =>
      have hs : skipLinearWhitespace (s ++ '<' :: (raw ++ '>' :: (tx ++ rs))) =
          '<' :: (raw ++ '>' :: (tx ++ rs)) := by
        rw [skipLinearWhitespace_space hsp]
        exact skipLinearWhitespace_cons (by decide)
      have hread := @parseTaggedGroups_rendered _ _ ((raw ++ '>' :: (tx ++ rs)).length + 2)
        (.cons htg hl hr hrs) hne (by
          rw [length_cons]
          omega)
      rw [parseIf, hs]
      change (parseTaggedGroups ((raw ++ '>' :: (tx ++ rs)).length + 2)
        ('<' :: (raw ++ '>' :: (tx ++ rs))) >>= fun g => pure (⟨g⟩ : IfHeader)) = _
      rw [hread]
      rfl

/-! ## What is accepted is a loose rendering -/

/-- What `consumeNot` takes away is the word, or nothing. -/
lemma consumeNot_sound {n : Bool} (h : consumeNot tx = (n, rs)) : (n = false ∧ rs = tx) ∨
    n = true ∧ ∃ w, eqIgnoreAsciiCase w "not".toList = true ∧ tx = w ++ rs := by
  unfold consumeNot at h
  split at h
  case isTrue hnot =>
    cases h
    exact .inr ⟨rfl, tx.take 3, hnot.2.1, (take_append_drop 3 tx).symm⟩
  case isFalse =>
    cases h
    exact .inl ⟨rfl, rfl⟩

lemma parseCondition_sound (hsk : skipLinearWhitespace tx = tx) (h : parseCondition tx = .ok (cd, rs)) :
    ∃ c, tx = c ++ rs ∧ RendersCondition looseSyntax cd c := by
  cases hconsume : consumeNot tx with
  | mk n a =>
    simp only [parseCondition, hconsume] at h
    -- the word and the white space behind it
    have hw : ∃ w, tx = w ++ skipLinearWhitespace a ∧ RendersNot looseSyntax n w := by
      rcases consumeNot_sound hconsume with ⟨rfl, rfl⟩ | ⟨rfl, w, hw, ht⟩
      · exact ⟨[], hsk.symm, .plain⟩
      · obtain ⟨s, hs, ha⟩ := exists_space a
        refine ⟨w ++ s, ?_, .negated hw hs⟩
        rw [append_assoc, ← ha, ht]
    obtain ⟨w, ht, hn⟩ := hw
    split at h
    · obtain ⟨⟨v, r'⟩, hv, h⟩ := bind_eq_ok.mp h
      obtain ⟨raw, htl, hc, hb, rfl⟩ := parseDelimited_eq_ok.mp hv
      cases h
      refine ⟨w ++ '<' :: (raw ++ ['>']), ?_, .token hn ⟨hc, hb, rfl⟩⟩
      rw [ht, htl]
      simp
    · obtain ⟨⟨v, r'⟩, hv, h⟩ := bind_eq_ok.mp h
      obtain ⟨raw, htl, hc, hb, rfl⟩ := parseDelimited_eq_ok.mp hv
      cases h
      refine ⟨w ++ '[' :: (raw ++ [']']), ?_, .etag hn ⟨hc, hb, rfl⟩⟩
      rw [ht, htl]
      simp
    · cases h

lemma skipLinearWhitespace_idem (text : Text) :
    skipLinearWhitespace (skipLinearWhitespace text) = skipLinearWhitespace text :=
  dropWhile_idempotent ..

lemma parseConditions_sound {c : List IfStateCondition} (h : parseConditions f tx = .ok (c, rs)) :
    ∃ i, tx = i ++ ')' :: rs ∧ RendersConditions looseSyntax c i := by
  induction f generalizing tx c with
  | zero => cases h
  | succ f ih =>
    obtain ⟨s, hs, ht⟩ := exists_space tx
    have hidem := skipLinearWhitespace_idem tx
    rw [parseConditions] at h
    generalize skipLinearWhitespace tx = tail at h ht hidem
    split at h
    · cases h
    · cases h
      exact ⟨s, ht, .nil hs⟩
    · simp only [bind_eq_ok] at h
      obtain ⟨⟨cd, m⟩, hcn, ⟨mr, l⟩, hmr, h⟩ := h
      cases h
      obtain ⟨cn, htl, hc⟩ := parseCondition_sound hidem hcn
      obtain ⟨i, hm, hi⟩ := ih hmr
      dsimp only at hm ⊢
      refine ⟨s ++ (cn ++ i), ?_, .cons hs hc hi⟩
      rw [ht, htl, hm]
      simp

lemma parseStateList_sound (h : parseStateList tx = .ok (ls, rs)) :
    ∃ i, tx = i ++ rs ∧ RendersList looseSyntax ls i := by
  unfold parseStateList at h
  split at h
  · simp only [bind_eq_ok, refuse_eq_ok] at h
    obtain ⟨⟨c, l⟩, hc, _, hne, h⟩ := h
    cases h
    obtain ⟨i, ht, hi⟩ := parseConditions_sound hc
    refine ⟨'(' :: (i ++ [')']), ?_, .list hne hi⟩
    rw [ht]
    simp
  · cases h

lemma parseTaggedLists_sound (h : parseTaggedLists f tx = .ok (li, rs)) :
    ∃ i, tx = i ++ rs ∧ RendersLists looseSyntax li i := by
  induction f generalizing tx li with
  | zero => cases h
  | succ f ih =>
    obtain ⟨s, hs, ht⟩ := exists_space tx
    rw [parseTaggedLists] at h
    split at h
    · simp only [bind_eq_ok] at h
      obtain ⟨⟨ls, m⟩, hl, ⟨mr, l⟩, hmr, h⟩ := h
      cases h
      obtain ⟨i, hi, hr⟩ := parseStateList_sound hl
      obtain ⟨t, hm, htl⟩ := ih hmr
      dsimp only at hm ⊢
      refine ⟨s ++ (i ++ t), ?_, .cons hs hr htl⟩
      rw [ht, hi, hm]
      simp
    · cases h
      exact ⟨s, ht, .nil hs⟩

lemma parseTaggedGroups_sound (h : parseTaggedGroups f tx = .ok g) : g ≠ [] ∧ RendersGroups looseSyntax g tx := by
  induction f generalizing tx g with
  | zero => cases h
  | succ f ih =>
    simp only [parseTaggedGroups, bind_eq_ok, refuse_eq_ok] at h
    obtain ⟨⟨tp, m⟩, ht, ⟨li, rs⟩, hl, _, hne, h⟩ := h
    obtain ⟨raw, rfl, hc, hb, rfl⟩ := parseDelimited_eq_ok.mp ht
    obtain ⟨i, rfl, hi⟩ := parseTaggedLists_sound hl
    split at h
    case h_1 hnone =>
      cases h
      have hrest : rs = [] := head?_eq_none_iff.mp hnone
      rw [hrest]
      exact ⟨by simp, .cons ⟨hc, hb, rfl⟩ hne hi .nil⟩
    case h_2 =>
      obtain ⟨mr, hm, h⟩ := bind_eq_ok.mp h
      cases h
      exact ⟨by simp, .cons ⟨hc, hb, rfl⟩ hne hi (ih hm).2⟩
    case h_3 => cases h

lemma lists_space (hs : looseSyntax.space s)
    (h : RendersLists looseSyntax li tx) : RendersLists looseSyntax li (s ++ tx) := by
  cases h with
  | nil hs' => exact .nil fun c hm => (mem_append.mp hm).elim (hs c) (hs' c)
  | cons hs' hl hr =>
    rw [← append_assoc]
    exact .cons (fun c hm => (mem_append.mp hm).elim (hs c) (hs' c)) hl hr

lemma parseUntaggedLists_sound (h : parseUntaggedLists f tx = .ok li) :
    RendersLists looseSyntax li tx ∧ (tx ≠ [] → li ≠ []) := by
  have hnone : looseSyntax.space [] := by
    intro c hmm
    cases hmm
  induction f generalizing tx li with
  | zero => cases h
  | succ f ih =>
    rw [parseUntaggedLists] at h
    split at h
    case isTrue hempty =>
      cases h
      subst hempty
      exact ⟨.nil hnone, fun h => absurd rfl h⟩
    case isFalse hempty =>
      simp only [bind_eq_ok] at h
      obtain ⟨⟨ls, m⟩, hl, _, -, mr, hm, h⟩ := h
      cases h
      obtain ⟨i, rfl, hr⟩ := parseStateList_sound hl
      obtain ⟨s, hs, hmd⟩ := exists_space m
      have hmiddleLists : RendersLists looseSyntax mr m := by
        rw [hmd]
        exact lists_space hs (ih hm).1
      have hlists := RendersLists.cons hnone hr hmiddleLists
      exact ⟨hlists, fun _ => by simp⟩

/-- **The parser accepts the loose renderings**, and no other text. -/
theorem parseIf_iff : parseIf tx = .ok hd ↔ Renders looseSyntax hd tx := by
  refine ⟨?_, parseIf_rendered⟩
  intro h
  obtain ⟨s, hs, ht⟩ := exists_space tx
  rw [parseIf] at h
  generalize skipLinearWhitespace tx = tail at h ht
  subst ht
  split at h
  · cases h
  · obtain ⟨g, hg, h⟩ := bind_eq_ok.mp h
    cases h
    obtain ⟨hne, hr⟩ := parseTaggedGroups_sound hg
    exact .tagged hs hne hr
  · obtain ⟨li, hl, h⟩ := bind_eq_ok.mp h
    cases h
    obtain ⟨hr, hne⟩ := parseUntaggedLists_sound hl
    exact .untagged (hne (by assumption)) (lists_space hs hr)

end AsterForge.Webdav
