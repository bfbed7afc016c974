import AsterForge.Xml.Embedding
import AsterForge.Xml.OutlineReading
import AsterForge.Xml.Subtree

/-!
# What one call writes

A call of the writer that succeeds writes items that may come where they are written, and the state of the
writer goes along with what they describe.

* **`call_sound`** — one call.
-/

namespace AsterForge.Xml

open Library WriterCall List Except

variable {tokenize : List UInt8 → TokenStream}

/-! ## Calls -/

def ValidatedXml.items (subtree : ValidatedXml tokenize) : List Item :=
  rootItems ((readItems (tokenize subtree.source).events).getD [])

def WriterCall.items (state : WriterState) : WriterCall tokenize → List Item
  | .startElement name attributes => [.start name attributes]
  | .emptyElement name attributes => [.empty name attributes]
  | .endElement => state.openNames.head?.toList.map fun element => .stop element.name
  | .text value => textItems value
  | .cdata value => [.cdata value]
  | .comment value => [.comment value]
  | .processingInstruction target content =>
    [.pi target (if content.getD [] = [] then [] else ' ' :: content.getD [])]
  | .validatedSubtree subtree => subtree.items

def WriterCall.describe (outline : Outline) : WriterCall tokenize → Outline
  | .startElement name attributes =>
    { outline with opened := outline.enter name attributes :: outline.opened }
  | .emptyElement name attributes => outline.complete (.element (outline.enter name attributes).head [])
  | .endElement => outline.close
  | .text value => outline.attach (.text value)
  | .cdata value => outline.attach (.cdata value)
  | .comment value => outline.attach (.comment value)
  | .processingInstruction target content =>
    outline.attach (.processingInstruction target (content.filter fun content => content ≠ []))
  | .validatedSubtree subtree => outline.attach subtree.root.node.named

/-- A call that says what it describes: text outside of the root is white space of XML, a CDATA section has
something in it, the content of an instruction does not begin with white space, and the root of a subtree is
well formed. -/
def WriterCall.Plain (state : WriterState) : WriterCall tokenize → Prop
  | .text value => state.openNames = [] → value.all isXmlSpace = true
  | .cdata value => value ≠ []
  | .processingInstruction _ content => ∀ c ∈ (content.getD []).head?, isXmlSpace c = false
  | .validatedSubtree subtree => wellFormed.Accepts Outline.new subtree.items
  | _ => True

/-! ## Names -/

variable {nm v : Text} {a : List (Text × Text)} {el : List OpenName}

lemma validateQualifiedName_of_validateName (h : validateName nm true = .ok ()) :
    ∃ parts, validateQualifiedName nm = .ok parts := by
  simp only [validateName, refuse_eq_ok, not_or, Bool.true_eq_false, false_and, not_false_eq_true, true_and,
    not_exists, not_and, Bool.not_eq_false] at h
  obtain ⟨-, hc, hp⟩ := h
  have hvalid : ¬ (isValidXmlLocalName (splitQualifiedName nm).2 = false ∨
      (∃ p ∈ (splitQualifiedName nm).1, isValidXmlLocalName p = false) ∨ 1 < nm.count ':') := by
    unfold splitQualifiedName
    cases hsplit : splitOnce ':' nm with
    | none =>
      rw [splitOn_eq_singleton (notMem_of_splitOnce hsplit)] at hp
      simpa [hp nm (mem_singleton_self _)] using hc
    | some parts =>
      obtain ⟨np, ln⟩ := parts
      obtain ⟨rfl, hpr⟩ := splitOnce_eq_some.mp hsplit
      rw [count_append, count_cons_self] at hc
      have hlocal : ':' ∉ ln := by
        intro hm
        have hpos := count_pos_iff.mpr hm
        omega
      rw [splitOn_append_cons_self_of_not_mem hpr, splitOn_eq_singleton hlocal] at hp
      have hfirst := hp np mem_cons_self
      have hsnd := hp ln (mem_cons_of_mem _ mem_cons_self)
      simp [hfirst, hsnd, count_eq_zero_of_not_mem hpr, count_eq_zero_of_not_mem hlocal]
  exact ⟨splitQualifiedName nm, by simp only [validateQualifiedName, refuse_of_not hvalid]; rfl⟩

variable {p : Option Text × Text} {o : XmlWriteOptions} {ps : ℕ × List NamespaceBinding}

lemma prefix_ne_nil {np : Text} (h : validateQualifiedName nm = .ok p) (hm : np ∈ (splitQualifiedName nm).1) :
    np ≠ [] := by
  simp only [validateQualifiedName, bind_eq_ok, refuse_eq_ok, exists_unit, not_or, not_exists,
    not_and, Bool.not_eq_false] at h
  obtain ⟨⟨-, hv, -⟩, -⟩ := h
  have hv := hv np hm
  rintro rfl
  cases hv

/-! ## Attributes -/

lemma declaredBindings_cons (e : Text × Text) (attributes : List (Text × Text)) :
    declaredBindings (e :: attributes) = declaredBindings [e] ++ declaredBindings attributes := by
  unfold declaredBindings
  rw [← filterMap_append, singleton_append]

lemma pushAttribute_spec {next : ℕ × List NamespaceBinding}
    {e : Text × Text} (h : pushAttribute o ps e = .ok next) :
    validateName e.1 true = .ok () ∧ e.2.all isXmlChar = true ∧
      (∀ np ∈ namespaceDeclarationPrefix e.1, validateNamespaceBinding np e.2 = .ok ()) ∧
      next.2 = ps.2 ++ declaredBindings [e] := by
  simp only [pushAttribute, validateXmlText, bind_eq_ok, refuse_eq_ok, exists_unit, except_pure,
    ok.injEq, Bool.not_eq_false] at h
  obtain ⟨-, hn, hv, b, hr, rfl⟩ := h
  refine ⟨hn, hv, ?_⟩
  unfold recordNamespaceBinding at hr
  cases hdecl : namespaceDeclarationPrefix e.1 with
  | none =>
    rw [hdecl] at hr
    cases hr
    simp [declaredBindings, hdecl]
  | some np =>
    rw [hdecl] at hr
    simp only [bind_eq_ok, refuse_eq_ok, exists_unit, except_mapError_eq_ok, except_pure, ok.injEq] at hr
    obtain ⟨hvl, -, rfl⟩ := hr
    refine ⟨?_, ?_⟩
    · rintro _ ⟨⟩
      exact hvl
    · simp [declaredBindings, hdecl]

/-- **The attributes that are pushed** are valid, and the bindings are those that they declare. -/
theorem pushAttributes_spec {next : ℕ × List NamespaceBinding} (h : a.foldlM (pushAttribute o) ps = .ok next) :
    (∀ e ∈ a, validateName e.1 true = .ok () ∧ e.2.all isXmlChar = true ∧
      ∀ np ∈ namespaceDeclarationPrefix e.1, validateNamespaceBinding np e.2 = .ok ()) ∧
      next.2 = ps.2 ++ declaredBindings a := by
  induction a generalizing ps with
  | nil =>
    cases h
    exact ⟨fun e hmm => (nomatch hmm), (append_nil _).symm⟩
  | cons e a ih =>
    rw [foldlM_cons, bind_eq_ok] at h
    obtain ⟨m, hm, hr⟩ := h
    obtain ⟨hn, hv, hd, hb⟩ := pushAttribute_spec hm
    obtain ⟨ho, hl⟩ := ih hr
    refine ⟨forall_mem_cons.mpr ⟨⟨hn, hv, hd⟩, ho⟩, ?_⟩
    rw [hl, hb, append_assoc, ← declaredBindings_cons]

variable {b : List NamespaceBinding}

lemma checkAttributes_spec {n : List Text} {en : List (Option Text × Text)} (h : checkAttributes b en n = .ok ()) :
    (∀ nm ∈ n, validateAttributeNamespace b nm = .ok ()) ∧ (∀ nm ∈ n, attributeIdentity b nm ∉ en) ∧
      (n.map (attributeIdentity b)).Nodup := by
  induction n generalizing en with
  | nil => exact ⟨fun nm hm => (nomatch hm), fun nm hm => (nomatch hm), nodup_nil⟩
  | cons nm n ih =>
    simp only [checkAttributes, bind_eq_ok, refuse_eq_ok, exists_unit] at h
    obtain ⟨hr, hnw, hrs⟩ := h
    obtain ⟨ho, hn, hnd⟩ := ih hrs
    refine ⟨forall_mem_cons.mpr ⟨hr, ho⟩, forall_mem_cons.mpr ⟨hnw, ?_⟩, ?_⟩
    · intro o hm hs
      exact hn o hm (mem_cons_of_mem _ hs)
    · rw [map_cons, nodup_cons, mem_map]
      refine ⟨?_, hnd⟩
      rintro ⟨o, hm, hsm⟩
      exact hn o hm (hsm ▸ mem_cons_self)

lemma nodup_prefixes (h : ((a.map Prod.fst).map (attributeIdentity b)).Nodup) :
    ((declaredBindings a).map NamespaceBinding.nsPrefix).Nodup := by
  unfold declaredBindings
  rw [map_filterMap, map_map] at *
  refine List.Pairwise.filterMap _ ?_ (pairwise_map.mp h)
  intro e o hne np hp np' hp'
  simp only [Option.map_map, Option.map_eq_some_iff] at hp hp'
  obtain ⟨d, hd, rfl⟩ := hp
  obtain ⟨d', hd', rfl⟩ := hp'
  rintro hs
  have hs : d = d' := hs
  refine hne ?_
  unfold Function.comp attributeIdentity
  simp only [hd, hd', hs]

lemma attributeIdentity_eq (hn : validateQualifiedName nm = .ok p) (hd : namespaceDeclarationPrefix nm = none) :
    attributeIdentity b nm = expandedName b nm := by
  unfold attributeIdentity expandedName attributeNamespace
  simp only [hd, Prod.mk.injEq, and_true]
  cases hsplit : (splitQualifiedName nm).1 with
  | none => rfl
  | some np =>
    have hne := prefix_ne_nil hn hsplit
    rw [Option.bind_some, if_neg hne]
    rfl

lemma nodup_expandedNames (hn : ∀ e ∈ a, ∃ p, validateQualifiedName e.1 = .ok p)
    (h : ((a.map Prod.fst).map (attributeIdentity b)).Nodup) :
    ((ownAttributes a).map fun e => expandedName b e.1).Nodup := by
  have heq : ((ownAttributes a).map fun e => expandedName b e.1) =
      (ownAttributes a).map fun e => attributeIdentity b e.1 := by
    refine map_congr_left fun e hm => ?_
    obtain ⟨he, hd⟩ := mem_filter.mp hm
    obtain ⟨p, hp⟩ := hn e he
    exact (attributeIdentity_eq hp (Option.isNone_iff_eq_none.mp hd)).symm
  rw [heq]
  rw [map_map] at h
  exact h.sublist (filter_sublist.map _)

/-- **A start tag that the writer takes** is well formed. -/
theorem planElement_spec {em : Bool} {state next : WriterState} {output : WriterOutput}
    (h : planElement nm a em state = .ok (output, next)) :
    ¬ (state.openNames = [] ∧ state.rootComplete = true) ∧ WellFormedTag state.bindings nm a ∧
      output = .event (if em then .empty nm a else .start nm a) ∧
      next = if em then { state with
          rootSeen := true
          rootComplete := state.rootComplete || state.openNames.isEmpty }
        else { state with
          rootSeen := true
          openNames := ⟨nm, state.bindings.length⟩ :: state.openNames
          bindings := state.bindings ++ declaredBindings a } := by
  simp only [planElement, bind_eq_ok, refuse_eq_ok, exists_unit] at h
  obtain ⟨hi, -, hnm, ⟨c, b⟩, hp, hc, hr, h⟩ := h
  obtain ⟨ha, hb⟩ := pushAttributes_spec hp
  obtain ⟨hn, -, hnd⟩ := checkAttributes_spec hc
  rw [hb] at hn hnd hr h
  have hnames : ∀ e ∈ a, ∃ p, validateQualifiedName e.1 = .ok p :=
    fun e hm => validateQualifiedName_of_validateName (ha e hm).1
  refine ⟨hi, ⟨validateQualifiedName_of_validateName hnm, ?_, hnames,
    fun e hm => (ha e hm).2.1, fun e hm => (ha e hm).2.2, ?_,
    nodup_prefixes hnd, nodup_expandedNames hnames hnd⟩, ?_⟩
  · rw [validateElementNamespace, refuse_eq_ok] at hr
    intro np hm hnn
    exact hr ⟨np, hm, hnn⟩
  · intro e hm np hs hnn
    obtain ⟨he, hd⟩ := mem_filter.mp hm
    have hattr := hn e.1 (mem_map_of_mem he)
    rw [validateAttributeNamespace, refuse_eq_ok] at hattr
    refine hattr ⟨Option.isNone_iff_eq_none.mp hd, np, hs, ?_, hnn⟩
    rintro rfl
    cases hnn
  · cases em with
    | true =>
      cases h
      exact ⟨rfl, rfl⟩
    | false =>
      cases h
      exact ⟨rfl, rfl⟩

/-! ## Subtrees -/

mutual

lemma heads_named : ∀ (n : XmlNode) (s : NamespaceScope) (d : ℕ),
    n.named.heads = (n.descendants s d).map fun e => e.data.head
  | .element data children, s, d => by
    rw [XmlNode.named, NamedNode.heads, nodeHeads_joinTexts, XmlNode.descendants, map_cons,
      nodeHeads_named children data.namespaceScope (d + 1)]
  | .text v, s, d => rfl
  | .cdata v, s, d => rfl
  | .comment v, s, d => rfl
  | .processingInstruction target content, s, d => rfl

lemma nodeHeads_named : ∀ (n : List XmlNode) (s : NamespaceScope) (d : ℕ),
    nodeHeads (namedNodes n) = (childDescendants s d n).map fun e => e.data.head
  | [], s, d => rfl
  | node :: n, s, d => by
    rw [namedNodes, nodeHeads, childDescendants, map_append, heads_named node s d, nodeHeads_named n s d]

end

lemma ValidatedXml.completes (subtree : ValidatedXml tokenize) :
    Completes Outline.new subtree.items subtree.root.node.named := by
  obtain ⟨i, hi, ha⟩ := parseWithOptions_outline subtree.parsed
  unfold ValidatedXml.items
  rw [hi]
  refine completes_rootItems ?_
  change (wellFormed.after Outline.new i).root = some subtree.root.node.named
  rw [ha]

variable {s : ValidatedXml tokenize}

lemma planSubtree_spec {state next : WriterState}
    {output : WriterOutput} (h : planSubtree s state = .ok (output, next)) :
    state.openNames ≠ [] ∧ next = state ∧ output = .raw s.rawXml ∧
      ∀ outline : Outline, outline.bindings = state.bindings →
        ∀ hd ∈ s.root.node.named.heads, outline.Undisturbed hd := by
  simp only [planSubtree, bind_eq_ok, refuse_eq_ok, exists_unit, except_pure, ok.injEq, Prod.mk.injEq] at h
  obtain ⟨ho, hc, rfl, rfl⟩ := h
  refine ⟨ho, rfl, rfl, ?_⟩
  intro outline hb hd hm hu hn
  rw [heads_named _ [] 1, mem_map] at hm
  obtain ⟨e, he, rfl⟩ := hm
  have hcheck := except_forM_eq_ok.mp hc e he
  simp only [checkDescendant, bind_eq_ok, refuse_eq_ok, exists_unit, not_and] at hcheck
  by_contra hdef
  rw [hb] at hdef
  refine hcheck.1 (Option.isSome_iff_ne_none.mpr hdef) ?_
  have hinherits : resolveNamespace e.data.namespaceScope [] = none := by
    rw [resolveNamespace_eq]
    have hname : elementNamespace (flatScope e.data.namespaceScope) e.data.qualifiedName =
      none := hn
    unfold elementNamespace at hname
    have hsplit : (splitQualifiedName e.data.qualifiedName).1 = none := hu
    rw [hsplit] at hname
    exact hname
  exact decide_eq_true ⟨hu, hinherits⟩

lemma Completes.decl_notMem {outline : Outline} {i : List Item} {r : NamedNode}
    (h : Completes outline i r) (ha : wellFormed.Accepts outline i) : .decl ∉ i := by
  induction h with
  | last hr hi hn =>
    intro hm
    cases mem_singleton.mp hm
    exact (hi.resolve_right Bool.false_ne_true) ha.1.1
  | step hr hi hrs ih =>
    intro hm
    rcases mem_cons.mp hm with rfl | hm
    · exact (hi.resolve_right Bool.false_ne_true) ha.1.1
    · exact ih ha.2 hm

/-! ## The state of the writer -/

inductive Levels : List OpenName → List OpenHead → List NamespaceBinding → Prop
  | nil : Levels [] [] []
  | cons {element : OpenName} {elements : List OpenName} {opened : OpenHead} {others : List OpenHead}
      (hname : opened.head.name = element.name)
      (hrest : Levels elements others (opened.bindings.take element.bindingStart)) :
      Levels (element :: elements) (opened :: others) opened.bindings

lemma levels_nil_iff : Levels el [] b ↔ el = [] ∧ b = [] := by
  constructor
  · intro h
    cases h
    exact ⟨rfl, rfl⟩
  · rintro ⟨rfl, rfl⟩
    exact .nil

lemma levels_cons_iff {o : OpenHead} {ot : List OpenHead} {b : List NamespaceBinding} : Levels el (o :: ot) b ↔
    ∃ e r, el = e :: r ∧ o.head.name = e.name ∧ o.bindings = b ∧ Levels r ot (b.take e.bindingStart) := by
  constructor
  · intro h
    cases h with
    | cons hn hr => exact ⟨_, _, rfl, hn, rfl, hr⟩
  · rintro ⟨e, r, rfl, hn, rfl, hr⟩
    exact .cons hn hr

lemma Levels.opened_iff {o : List OpenHead} {b : List NamespaceBinding} (h : Levels el o b) :
    o = [] ↔ el = [] := by
  cases h with
  | nil => simp
  | cons hn hr => simp

structure WriterState.Follows (state : WriterState) (outline : Outline) : Prop where
  levels : Levels state.openNames outline.opened state.bindings
  complete : state.rootComplete = outline.root.isSome

variable {st next : WriterState} {ot : Outline} {op : WriterOutput}

lemma WriterState.Follows.bindings (h : st.Follows ot) : ot.bindings = st.bindings := by
  have hlevels := h.levels
  unfold Outline.bindings
  cases hopen : ot.opened with
  | nil =>
    rw [hopen, levels_nil_iff] at hlevels
    exact hlevels.2.symm
  | cons op o =>
    rw [hopen, levels_cons_iff] at hlevels
    obtain ⟨_, _, -, -, hb, -⟩ := hlevels
    exact hb

lemma WriterState.Follows.opened_iff (h : st.Follows ot) : ot.opened = [] ↔ st.openNames = [] :=
  h.levels.opened_iff

lemma follows_new (options : XmlWriteOptions) : (WriterState.new options).Follows Outline.new :=
  ⟨.nil, rfl⟩

lemma WriterState.Follows.attach (h : st.Follows ot) (n : NamedNode) : st.Follows (ot.attach n) := by
  obtain ⟨hl, hc⟩ := h
  cases hopen : ot.opened with
  | nil =>
    rw [Outline.attach_of_nil hopen]
    exact ⟨hl, hc⟩
  | cons p r =>
    unfold Outline.attach
    simp only [hopen]
    refine ⟨?_, hc⟩
    rw [hopen, levels_cons_iff] at hl
    exact levels_cons_iff.mpr hl

lemma follows_complete (n : NamedNode) (hr : st.rootComplete = ot.root.isSome)
    (hl : Levels next.openNames ot.opened next.bindings)
    (hc : next.rootComplete = (st.rootComplete || next.openNames.isEmpty)) : next.Follows (ot.complete n) := by
  cases hopen : ot.opened with
  | nil =>
    have hempty := hl.opened_iff.mp hopen
    unfold Outline.complete
    simp only [hopen]
    rw [hopen] at hl
    refine ⟨hl, ?_⟩
    rw [hc, hempty]
    cases ot.root with
    | none => exact Bool.or_true _
    | some r => exact Bool.or_true _
  | cons p rs =>
    have hnonempty : next.openNames ≠ [] := by
      intro h
      rw [hl.opened_iff.mpr h] at hopen
      cases hopen
    have hattach : next.Follows ot := by
      refine ⟨hl, ?_⟩
      rw [hc, ← hr, isEmpty_eq_false_iff.mpr hnonempty, Bool.or_false]
    unfold Outline.complete
    simp only [hopen]
    exact hattach.attach n

/-! ## Single calls -/

/-- What a call that succeeds does: its items may come, they describe what the call describes, and the state
goes along. -/
structure CallSound (outline : Outline) (state next : WriterState) (call : WriterCall tokenize) : Prop where
  accepted : wellFormed.Accepts outline (call.items state)
  described : wellFormed.after outline (call.items state) = call.describe outline
  follows : next.Follows (call.describe outline)
  declaration : .decl ∉ call.items state

lemma accepts_textItems (hc : v.all isXmlChar = true) (hs : ot.opened = [] → v.all isXmlSpace = true) :
    wellFormed.Accepts ot (textItems v) := by
  induction v generalizing ot with
  | nil => exact trivial
  | cons c v ih =>
    rw [all_cons, Bool.and_eq_true] at hc
    have hopen : (ot.attach (.text [c])).opened = [] → ot.opened = [] := by
      intro he
      have hlen := ot.length_attach (.text [c])
      rw [he] at hlen
      exact length_eq_zero_iff.mp hlen.symm
    refine ⟨⟨hc.1, ?_⟩, ih hc.2 ?_⟩
    · intro h
      have hspaces := hs h
      rw [all_cons, Bool.and_eq_true] at hspaces
      exact hspaces.1
    · intro h
      have hspaces := hs (hopen h)
      rw [all_cons, Bool.and_eq_true] at hspaces
      exact hspaces.2

section

variable (hfl : st.Follows ot)
include hfl

lemma element_sound (h : planElement nm a false st = .ok (op, next)) :
    @CallSound tokenize ot st next (.startElement nm a) := by
  obtain ⟨hi, hf, -, rfl⟩ := planElement_spec h
  rw [← hfl.bindings] at hf
  refine ⟨⟨⟨?_, hf⟩, trivial⟩, rfl, ⟨?_, hfl.complete⟩, by simp [items]⟩
  · intro ho
    by_contra hroot
    refine hi ⟨hfl.opened_iff.mp ho, ?_⟩
    rw [hfl.complete]
    exact Option.isSome_iff_ne_none.mpr hroot
  · refine levels_cons_iff.mpr ⟨_, _, rfl, rfl, ?_, ?_⟩
    · unfold Outline.enter
      rw [hfl.bindings]
      rfl
    · have htake : (st.bindings ++ declaredBindings a).take st.bindings.length =
          st.bindings := take_left
      simp only [Bool.false_eq_true, if_false, htake]
      exact hfl.levels

lemma empty_sound (h : planElement nm a true st = .ok (op, next)) :
    @CallSound tokenize ot st next (.emptyElement nm a) := by
  obtain ⟨hi, hf, -, rfl⟩ := planElement_spec h
  rw [← hfl.bindings] at hf
  refine ⟨⟨⟨?_, hf⟩, trivial⟩, rfl, ?_, by simp [items]⟩
  · intro ho
    by_contra hroot
    refine hi ⟨hfl.opened_iff.mp ho, ?_⟩
    rw [hfl.complete]
    exact Option.isSome_iff_ne_none.mpr hroot
  · exact follows_complete _ hfl.complete hfl.levels rfl

lemma end_sound (h : planEnd st = .ok (op, next)) : @CallSound tokenize ot st next .endElement := by
  have hlevels := hfl.levels
  unfold planEnd at h
  cases hnames : st.openNames with
  | nil =>
    rw [hnames] at h
    cases h
  | cons element rest =>
    rw [hnames] at h
    cases h
    cases hopen : ot.opened with
    | nil =>
      rw [hopen, levels_nil_iff, hnames] at hlevels
      cases hlevels.1
    | cons opened others =>
      rw [hopen, levels_cons_iff, hnames] at hlevels
      obtain ⟨_, _, heq, hn, hb, hr⟩ := hlevels
      cases heq
      have hitems : (endElement : WriterCall tokenize).items st = [.stop element.name] := by
        unfold items
        rw [hnames]
        rfl
      have hdescribe : (endElement : WriterCall tokenize).describe ot =
          ({ ot with opened := others } : Outline).complete
            (.element opened.head opened.children) := next_stop element.name hopen
      refine ⟨?_, ?_, ?_, ?_⟩
      · rw [hitems]
        exact ⟨⟨opened, by rw [hopen]; rfl, hn⟩, trivial⟩
      · rw [hitems]
        rfl
      · rw [hdescribe]
        exact follows_complete _ hfl.complete hr rfl
      · rw [hitems]
        simp

lemma text_sound (h : planText v st = .ok (op, next)) (hp : st.openNames = [] → v.all isXmlSpace = true) :
    @CallSound tokenize ot st next (.text v) := by
  simp only [planText, validateXmlText, bind_eq_ok, refuse_eq_ok, exists_unit, except_pure,
    ok.injEq, Prod.mk.injEq, Bool.not_eq_false] at h
  obtain ⟨hc, -, -, rfl⟩ := h
  refine ⟨accepts_textItems hc fun ho => hp (hfl.opened_iff.mp ho), ot.after_textItems v, hfl.attach _, ?_⟩
  simp [items, textItems]

lemma cdata_sound (h : planCdata v st = .ok (op, next)) (hp : v ≠ []) :
    @CallSound tokenize ot st next (.cdata v) := by
  simp only [planCdata, validateXmlText, bind_eq_ok, refuse_eq_ok, exists_unit, except_pure,
    ok.injEq, Prod.mk.injEq, Bool.not_eq_false, Bool.not_eq_true] at h
  obtain ⟨hc, ho, hcl, -, rfl⟩ := h
  refine ⟨⟨⟨fun h => ho (hfl.opened_iff.mp h), hc, hcl⟩, trivial⟩, ?_, hfl.attach _, by simp [items]⟩
  exact if_neg hp

lemma comment_sound (h : planComment v st = .ok (op, next)) : @CallSound tokenize ot st next (.comment v) := by
  simp only [planComment, validateXmlText, bind_eq_ok, refuse_eq_ok, exists_unit, except_pure,
    ok.injEq, Prod.mk.injEq, Bool.not_eq_false, Bool.not_eq_true, not_or] at h
  obtain ⟨hc, ⟨hh, hl⟩, -, rfl⟩ := h
  exact ⟨⟨⟨hc, hh, hl⟩, trivial⟩, rfl, hfl.attach _, by simp [items]⟩

end

lemma isValidXmlLocalName_of_validateName (h : validateName nm false = .ok ()) :
    isValidXmlLocalName nm = true := by
  simp only [validateName, refuse_eq_ok, not_or, true_and, not_exists, not_and, Bool.not_eq_false] at h
  obtain ⟨-, hc, -, hp⟩ := h
  rw [splitOn_eq_singleton hc] at hp
  exact hp nm (mem_singleton_self _)

lemma instructionContent_space {cn : Text} (hne : cn ≠ []) (hc : cn.all isXmlChar = true)
    (hp : ∀ c ∈ cn.head?, isXmlSpace c = false) : instructionContent (' ' :: cn) = some cn := by
  cases cn with
  | nil => exact absurd rfl hne
  | cons c cn =>
    have hspace := hp c rfl
    rw [all_cons, Bool.and_eq_true] at hc
    have hfeed : c ≠ '\x0C' := by
      rintro rfl
      exact absurd hc.1 (by decide)
    simp only [isXmlSpace, Bool.or_eq_false_iff, decide_eq_false_iff_not] at hspace
    obtain ⟨⟨⟨hb, ht⟩, hn⟩, hr⟩ := hspace
    unfold instructionContent
    simp [hb, ht, hn, hr, hfeed]

lemma instruction_sound (hfollows : st.Follows ot) {target : Text} {content : Option Text}
    (h : planInstruction target content st = .ok (op, next))
    (hp : ∀ c ∈ (content.getD []).head?, isXmlSpace c = false) :
    @CallSound tokenize ot st next (.processingInstruction target content) := by
  simp only [planInstruction, validateXmlText, bind_eq_ok, refuse_eq_ok, exists_unit, except_pure,
    ok.injEq, Prod.mk.injEq, Bool.not_eq_false, Bool.not_eq_true] at h
  obtain ⟨hn, hr, hc, hcl, -, rfl⟩ := h
  have hvalid := isValidXmlLocalName_of_validateName hn
  by_cases hempty : content.getD [] = []
  · have hitems : (processingInstruction target content : WriterCall tokenize).items st =
        [.pi target []] := by
      simp [items, hempty]
    have hnone : content.filter (fun content => content ≠ []) = none := by
      cases content with
      | none => rfl
      | some v =>
        have hvalue : v = [] := hempty
        simp [hvalue]
    refine ⟨?_, ?_, hfollows.attach _, ?_⟩
    · rw [hitems]
      exact ⟨⟨hvalid, hr, rfl, rfl, fun c hm => nomatch hm⟩, trivial⟩
    · rw [hitems]
      rw [describe, hnone]
      rfl
    · simp [hitems]
  · have hitems : (processingInstruction target content : WriterCall tokenize).items st =
        [.pi target (' ' :: content.getD [])] := by
      simp only [items, if_neg hempty]
    have hsome : content.filter (fun content => content ≠ []) = some (content.getD []) := by
      cases content with
      | none => exact absurd rfl hempty
      | some v =>
        have hvalue : v ≠ [] := hempty
        simp [hvalue]
    have hspace : isXmlChar ' ' = true := by decide
    refine ⟨?_, ?_, hfollows.attach _, ?_⟩
    · rw [hitems]
      refine ⟨⟨hvalid, hr, ?_, ?_, ?_⟩, trivial⟩
      · rw [all_cons, hspace, hc, Bool.and_self]
      · have htails : (' ' :: content.getD []).tails =
            (' ' :: content.getD []) :: (content.getD []).tails := rfl
        rw [containsText] at hcl ⊢
        rw [htails, any_cons, hcl]
        rfl
      · rintro c ⟨⟩
        rfl
    · rw [hitems]
      rw [describe, hsome, ← instructionContent_space hempty hc hp]
      rfl
    · simp [hitems]

lemma subtree_sound (hfollows : st.Follows ot) (h : planSubtree s st = .ok (op, next))
    (hp : wellFormed.Accepts Outline.new s.items) : CallSound ot st next (.validatedSubtree s) := by
  obtain ⟨ho, rfl, -, hd⟩ := planSubtree_spec h
  have hcompletes := s.completes
  obtain ⟨hac, ha⟩ := hcompletes.embedded (fun h => ho (hfollows.opened_iff.mp h)) hp
    (hd ot hfollows.bindings)
  exact ⟨hac, ha, hfollows.attach _, hcompletes.decl_notMem hp⟩

/-- **One call that succeeds** writes what it describes, if it is plain. -/
theorem call_sound {c : WriterCall tokenize} (hfollows : st.Follows ot)
    (h : c.plan st = .ok (op, next)) (hp : c.Plain st) : CallSound ot st next c := by
  cases c with
  | startElement nm a => exact element_sound hfollows h
  | emptyElement nm a => exact empty_sound hfollows h
  | endElement => exact end_sound hfollows h
  | text v => exact text_sound hfollows h hp
  | cdata v => exact cdata_sound hfollows h hp
  | comment v => exact comment_sound hfollows h
  | processingInstruction t cn => exact instruction_sound hfollows h hp
  | validatedSubtree s => exact subtree_sound hfollows h hp

end AsterForge.Xml
