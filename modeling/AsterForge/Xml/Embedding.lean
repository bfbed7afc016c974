import AsterForge.Xml.Outline

/-!
# An element inside of another one

The items of an element describe the same tree wherever they stand, if the names in them are declared in
the element itself and a default namespace from outside reaches none of them.

* `rootItems` — the items of the first element of a document; `completes_rootItems` says that they describe
  its root.
* **`Completes.embedded`** — the items of an element, read inside of another one.
-/

namespace AsterForge.Xml

open Library Outline List

/-! ## The items of an element -/

def Item.isTag : Item → Bool
  | .start .. | .empty .. => true
  | _ => false

/-- Items up to the one that leaves no element open; the number is that of the elements open before. -/
def takeElement : ℕ → List Item → List Item
  | _, [] => []
  | depth, .start name attributes :: items => .start name attributes :: takeElement (depth + 1) items
  | depth, .empty name attributes :: items =>
    .empty name attributes :: if depth = 0 then [] else takeElement depth items
  | depth, .stop name :: items => .stop name :: if depth ≤ 1 then [] else takeElement (depth - 1) items
  | depth, item :: items => item :: takeElement depth items

def rootItems (items : List Item) : List Item := takeElement 0 (items.dropWhile fun item => !item.isTag)

inductive Completes : Outline → List Item → NamedNode → Prop
  | last {outline : Outline} {item : Item} {root : NamedNode} (hroot : outline.root = none)
      (hinside : outline.opened ≠ [] ∨ item.isTag = true) (hnext : outline.next item = ⟨[], some root⟩) :
      Completes outline [item] root
  | step {outline : Outline} {item : Item} {items : List Item} {root : NamedNode}
      (hroot : outline.root = none) (hinside : outline.opened ≠ [] ∨ item.isTag = true)
      (hrest : Completes (outline.next item) items root) : Completes outline (item :: items) root

namespace Outline

variable {ot : Outline} (outline : Outline)

lemma root_attach (n : NamedNode) : (outline.attach n).root = outline.root := by
  unfold attach
  cases outline.opened with
  | nil => rfl
  | cons p r => rfl

lemma length_attach (n : NamedNode) : (outline.attach n).opened.length = outline.opened.length := by
  unfold attach
  cases h : outline.opened with
  | nil => rw [h]
  | cons p r => rfl

lemma attach_of_nil (ho : ot.opened = []) (n : NamedNode) : ot.attach n = ot := by
  unfold attach
  rw [ho]

lemma next_cdata (v : Text) :
    outline.next (.cdata v) = if v = [] then outline else outline.attach (.cdata v) := rfl

variable {i : Item}

lemma next_inner (ht : i.isTag = false) (hs : ∀ name, i ≠ .stop name) : (ot.next i).root = ot.root ∧
    (ot.next i).opened.length = ot.opened.length := by
  cases i with
  | start name attributes => cases ht
  | empty name attributes => cases ht
  | stop name => exact absurd rfl (hs name)
  | char c | comment v => exact ⟨ot.root_attach _, ot.length_attach _⟩
  | cdata v =>
    rw [next_cdata]
    split
    case isTrue => exact ⟨rfl, rfl⟩
    case isFalse => exact ⟨ot.root_attach _, ot.length_attach _⟩
  | pi t cn => exact ⟨ot.root_attach _, ot.length_attach _⟩
  | decl => exact ⟨rfl, rfl⟩
  | docType => exact ⟨rfl, rfl⟩

lemma next_outside (ht : i.isTag = false) (ho : ot.opened = []) : ot.next i = ot := by
  cases i with
  | start name attributes => cases ht
  | empty name attributes => cases ht
  | stop name =>
    unfold next close
    simp only [ho]
  | char c | comment v => exact attach_of_nil ho _
  | cdata v =>
    rw [next_cdata]
    split
    case isTrue => rfl
    case isFalse => exact attach_of_nil ho _
  | pi t cn => exact attach_of_nil ho _
  | decl => rfl
  | docType => rfl

lemma root_next {root : NamedNode} (hr : ot.root = some root) (item : Item) : (ot.next item).root = some root := by
  have hcompl : ∀ (o : List OpenHead) (n : NamedNode),
      (({ ot with opened := o } : Outline).complete n).root = some root := by
    intro o n
    cases o with
    | nil =>
      unfold complete
      rw [hr]
      rfl
    | cons p r => exact (root_attach _ n).trans hr
  cases item with
  | start name attributes => exact hr
  | empty name attributes => exact hcompl ot.opened _
  | stop name =>
    unfold next close
    cases ot.opened with
    | nil => exact hr
    | cons e r => exact hcompl r _
  | char c | comment v => exact (ot.root_attach _).trans hr
  | cdata v =>
    rw [next_cdata]
    split
    case isTrue => exact hr
    case isFalse => exact (ot.root_attach _).trans hr
  | pi t cn => exact (ot.root_attach _).trans hr
  | decl => exact hr
  | docType => exact hr

lemma root_after {root : NamedNode} (hr : ot.root = some root) (items : List Item) :
    (wellFormed.after ot items).root = some root := by
  induction items generalizing ot with
  | nil => exact hr
  | cons i items ih => exact ih (root_next hr i)

end Outline

variable {outline : Outline}

lemma next_stop {e : OpenHead} {r : List OpenHead} (name : Text)
    (ho : outline.opened = e :: r) : outline.next (.stop name) =
      ({ outline with opened := r } : Outline).complete (.element e.head e.children) := by
  unfold Outline.next close
  simp only [ho]

variable {ro : NamedNode} {it : List Item} {nm : Text}

/-- **The items of an element complete it**, if it is completed at all. -/
theorem completes_takeElement (items : List Item) (hr : outline.root = none)
    (hi : outline.opened ≠ [] ∨ ∀ item ∈ items.head?, item.isTag = true)
    (ha : (wellFormed.after outline items).root = some ro) :
    Completes outline (takeElement outline.opened.length items) ro := by
  induction items generalizing outline with
  | nil =>
    rw [Monitor.after_nil, hr] at ha
    cases ha
  | cons item items ih =>
    have hhere : outline.opened ≠ [] ∨ item.isTag = true :=
      hi.imp_right fun h => h item rfl
    rw [Monitor.after_cons] at ha
    have hsame : item.isTag = false → (∀ nm, item ≠ .stop nm) →
        Completes outline (item :: takeElement outline.opened.length items) ro := by
      intro ht hs
      obtain ⟨hn, hl⟩ := Outline.next_inner ht hs
      have hopen : outline.opened ≠ [] := hhere.resolve_right (by rw [ht]; exact Bool.false_ne_true)
      have hstill : (outline.next item).opened ≠ [] := by
        rw [← length_pos_iff, hl, length_pos_iff]
        exact hopen
      have hrest := ih (hn.trans hr) (.inl hstill) ha
      exact .step hr hhere (hl ▸ hrest)
    cases item with
    | start nm attributes =>
      exact .step hr hhere (ih hr (.inl (cons_ne_nil _ _)) ha)
    | empty nm attributes =>
      cases hopen : outline.opened with
      | nil =>
        have hn : outline.next (.empty nm attributes) =
            ⟨[], some (.element (outline.enter nm attributes).head [])⟩ := by
          unfold Outline.next Outline.complete
          simp [hopen, hr]
        have hlast : (wellFormed.next outline (.empty nm attributes)).root =
            some (.element (outline.enter nm attributes).head []) := congrArg Outline.root hn
        rw [Outline.root_after hlast] at ha
        cases ha
        exact .last hr hhere hn
      | cons p r =>
        have hn : outline.next (.empty nm attributes) =
            outline.attach (.element (outline.enter nm attributes).head []) := by
          unfold Outline.next Outline.complete
          simp only [hopen]
        have hl : (outline.next (.empty nm attributes)).opened.length = (p :: r).length := by
          rw [hn, Outline.length_attach, hopen]
        have hrest := @ih (outline.next (.empty nm attributes)) (by rw [hn, Outline.root_attach, hr])
          (.inl (ne_nil_of_length_pos (by rw [hl]; exact Nat.succ_pos _))) ha
        rw [hl] at hrest
        exact .step hr hhere hrest
    | stop nm =>
      have hopen : outline.opened ≠ [] := hhere.resolve_right Bool.false_ne_true
      cases hcons : outline.opened with
      | nil => exact absurd hcons hopen
      | cons e r =>
        have hn := next_stop nm hcons
        cases r with
        | nil =>
          have hn : outline.next (.stop nm) = ⟨[], some (.element e.head e.children)⟩ := by
            rw [hn]
            unfold Outline.complete
            simp [hr]
          have hlast : (wellFormed.next outline (.stop nm)).root =
              some (.element e.head e.children) := congrArg Outline.root hn
          rw [Outline.root_after hlast] at ha
          cases ha
          exact .last hr hhere hn
        | cons p r =>
          have hl : (outline.next (.stop nm)).opened.length = (p :: r).length := by
            rw [hn]
            rfl
          have hrest := @ih (outline.next (.stop nm)) (by rw [hn]; exact hr)
            (.inl (ne_nil_of_length_pos (by rw [hl]; exact Nat.succ_pos _))) ha
          rw [hl] at hrest
          exact .step hr hhere hrest
    | char c | cdata value => exact hsame rfl fun _ h => nomatch h
    | comment value | pi target content => exact hsame rfl fun _ h => nomatch h
    | decl | docType => exact hsame rfl fun _ h => nomatch h

/-- The first element of a document is its root. -/
theorem completes_rootItems (ha : (wellFormed.after new it).root = some ro) : Completes new (rootItems it) ro := by
  induction it with
  | nil => cases ha
  | cons item it ih =>
    unfold rootItems
    rw [dropWhile_cons]
    cases htag : item.isTag with
    | true =>
      exact completes_takeElement (item :: it) rfl (.inr (by simpa using htag)) ha
    | false =>
      rw [Monitor.after_cons] at ha
      have hnext : wellFormed.next new item = new := next_outside htag rfl
      rw [hnext] at ha
      exact ih ha

/-! ## Heads -/

mutual

def NamedNode.heads : NamedNode → List NamedHead
  | .element head children => head :: nodeHeads children
  | _ => []

def nodeHeads : List NamedNode → List NamedHead
  | [] => []
  | node :: nodes => node.heads ++ nodeHeads nodes

end

lemma nodeHeads_append (n m : List NamedNode) : nodeHeads (n ++ m) = nodeHeads n ++ nodeHeads m := by
  induction n with
  | nil => rfl
  | cons nd n ih => rw [cons_append, nodeHeads, nodeHeads, ih, append_assoc]

variable (n : List NamedNode)

lemma nodeHeads_addChar (c : Char) : nodeHeads (addChar n c) = nodeHeads n := by
  fun_induction addChar n c with
  | case1 => rfl
  | case2 => rfl
  | case3 c nd n _ ih => rw [nodeHeads, nodeHeads, ih]

lemma nodeHeads_addNode (nd : NamedNode) : nodeHeads (addNode n nd) = nodeHeads n ++ nd.heads := by
  cases nd with
  | text v =>
    rw [NamedNode.heads, append_nil]
    induction v generalizing n with
    | nil => rfl
    | cons c v ih => exact (ih (addChar n c)).trans (nodeHeads_addChar n c)
    · nofun
  | element head ch | cdata v =>
    rw [addNode, nodeHeads_append, nodeHeads, nodeHeads, append_nil]
    · nofun
  | comment v | processingInstruction target content =>
    rw [addNode, nodeHeads_append, nodeHeads, nodeHeads, append_nil]
    · nofun

lemma nodeHeads_joinTexts : nodeHeads (joinTexts n) = nodeHeads n := by
  have hfold : ∀ j, nodeHeads (n.foldl addNode j) = nodeHeads j ++ nodeHeads n := by
    induction n with
    | nil =>
      intro j
      exact (append_nil _).symm
    | cons nd n ih =>
      intro j
      rw [foldl_cons, ih, nodeHeads_addNode, nodeHeads, append_assoc]
  exact hfold []

namespace Outline

/-- The heads of the elements that are open, and of those in them. -/
def heads (outline : Outline) : List NamedHead :=
  outline.opened.flatMap (fun element => element.head :: nodeHeads element.children) ++
    outline.root.elim [] NamedNode.heads

variable {o : Outline} {hd : NamedHead}

lemma heads_attach {p : OpenHead} {r : List OpenHead} (ho : o.opened = p :: r) (n : NamedNode) :
    hd ∈ (o.attach n).heads ↔ hd ∈ o.heads ∨ hd ∈ n.heads := by
  unfold attach heads
  simp only [ho, flatMap_cons, mem_append, mem_cons, nodeHeads_addNode]
  tauto

lemma heads_complete (hr : o.root = none) (n : NamedNode) {head : NamedHead} :
    head ∈ (o.complete n).heads ↔ head ∈ o.heads ∨ head ∈ n.heads := by
  cases hopen : o.opened with
  | nil =>
    unfold complete heads
    simp [hopen, hr]
  | cons p r =>
    have hcompl : o.complete n = o.attach n := by
      unfold complete
      simp only [hopen]
    rw [hcompl, heads_attach hopen]

lemma heads_next (hr : o.root = none) {item : Item}
    (hi : o.opened ≠ [] ∨ item.isTag = true) (hm : hd ∈ o.heads) : hd ∈ (o.next item).heads := by
  have hattach : ∀ n, hd ∈ (o.attach n).heads := by
    intro n
    cases hopen : o.opened with
    | nil =>
      rw [attach_of_nil hopen]
      exact hm
    | cons p r => exact (heads_attach hopen n).mpr (.inl hm)
  cases item with
  | start nm attributes =>
    unfold heads at hm ⊢
    rw [mem_append] at hm ⊢
    exact hm.imp_left fun h => mem_append_right _ h
  | empty nm attributes => exact (heads_complete hr _).mpr (.inl hm)
  | stop nm =>
    cases hopen : o.opened with
    | nil => exact absurd hopen (hi.resolve_right Bool.false_ne_true)
    | cons e r =>
      rw [next_stop nm hopen]
      refine (@heads_complete { o with opened := r } hr _ hd).mpr ?_
      unfold heads at hm ⊢
      rw [hopen, flatMap_cons, append_assoc, mem_append] at hm
      exact hm.symm
  | char c => exact hattach _
  | cdata v =>
    rw [next_cdata]
    split
    case isTrue => exact hm
    case isFalse => exact hattach _
  | comment v => exact hattach _
  | pi t cn => exact hattach _
  | decl => exact hm
  | docType => exact hm

end Outline

lemma Completes.heads
    (h : Completes outline it ro) {head : NamedHead} (hm : head ∈ outline.heads) : head ∈ ro.heads := by
  induction h with
  | @last outline item ro hr hi hn =>
    have hlast := heads_next hr hi hm
    rw [hn] at hlast
    exact hlast
  | step hr hi hrs ih => exact ih (heads_next hr hi hm)

/-! ## Scopes -/

variable {np : Text} {bindings : List NamespaceBinding} {a : List (Text × Text)}

variable {outer inner : List NamespaceBinding}

lemma namespaceIn_append (h : namespaceIn inner np ≠ none) :
    namespaceIn (outer ++ inner) np = namespaceIn inner np := by
  unfold namespaceIn at h ⊢
  split
  case isTrue => rfl
  case isFalse hxml =>
    rw [if_neg hxml] at h
    rw [reverse_append, find?_append]
    cases hfind : inner.reverse.find? fun b => decide (b.nsPrefix = np) with
    | none =>
      rw [hfind] at h
      exact absurd rfl h
    | some b => rfl

lemma namespaceIn_append_none (hi : namespaceIn inner np = none) (ho : namespaceIn outer np = none) :
    namespaceIn (outer ++ inner) np = none := by
  unfold namespaceIn at hi ho ⊢
  split
  case isTrue hxml =>
    rw [if_pos hxml] at hi
    cases hi
  case isFalse hxml =>
    rw [if_neg hxml] at hi ho
    rw [reverse_append, find?_append]
    cases hfind : inner.reverse.find? fun b => decide (b.nsPrefix = np) with
    | none => exact ho
    | some b =>
      rw [hfind] at hi
      exact hi

lemma attributeNamespace_append (h : ∀ np ∈ (splitQualifiedName nm).1, namespaceIn inner np ≠ none) :
    attributeNamespace (outer ++ inner) nm = attributeNamespace inner nm := by
  unfold attributeNamespace
  cases hsplit : (splitQualifiedName nm).1 with
  | none => rfl
  | some np => exact namespaceIn_append (h np hsplit)

/-- The namespace of an element whose prefix is declared inside, or that has none for lack of a default. -/
lemma elementNamespace_append (h : ∀ np ∈ (splitQualifiedName nm).1, namespaceIn inner np ≠ none)
    (hd : (splitQualifiedName nm).1 = none → elementNamespace inner nm = none → namespaceIn outer [] = none) :
    elementNamespace (outer ++ inner) nm = elementNamespace inner nm := by
  unfold elementNamespace at hd ⊢
  cases hsplit : (splitQualifiedName nm).1 with
  | some np => exact namespaceIn_append (h np hsplit)
  | none =>
    rw [hsplit] at hd
    simp only [Option.getD_none, true_imp_iff] at hd ⊢
    by_cases hinner : namespaceIn inner [] = none
    · rw [hinner, namespaceIn_append_none hinner (hd hinner)]
    · exact namespaceIn_append hinner

/-- **A start tag inside of another element** has the head that it has on its own. -/
theorem namedHead_append {outer : List NamespaceBinding} (h : WellFormedTag bindings nm a)
    (hd : (splitQualifiedName nm).1 = none →
      elementNamespace (bindings ++ declaredBindings a) nm = none → namespaceIn outer [] = none) :
    namedHead (outer ++ (bindings ++ declaredBindings a)) nm (ownAttributes a) =
      namedHead (bindings ++ declaredBindings a) nm (ownAttributes a) := by
  unfold namedHead
  rw [elementNamespace_append h.resolved hd]
  congr 1
  refine map_congr_left fun e hm => ?_
  rw [attributeNamespace_append (h.attributesResolved e hm)]

/-- A start tag inside of another element is as well formed as on its own. -/
theorem wellFormedTag_append (h : WellFormedTag bindings nm a)
    (outer : List NamespaceBinding) : WellFormedTag (outer ++ bindings) nm a := by
  have hbound : ∀ np, namespaceIn (bindings ++ declaredBindings a) np ≠ none →
      namespaceIn (outer ++ bindings ++ declaredBindings a) np ≠ none := by
    intro np hi
    rw [append_assoc, namespaceIn_append hi]
    exact hi
  refine ⟨h.validName, fun np hm => hbound np (h.resolved np hm), h.attributeNames,
    h.attributeValues, h.declarations, fun e hm np hs => hbound np (h.attributesResolved e hm np hs),
    h.prefixes, ?_⟩
  have hnames : ((ownAttributes a).map fun e =>
      expandedName (outer ++ bindings ++ declaredBindings a) e.1) = (ownAttributes a).map fun e =>
          expandedName (bindings ++ declaredBindings a) e.1 := by
    refine map_congr_left fun e hm => ?_
    unfold expandedName
    rw [append_assoc, attributeNamespace_append (h.attributesResolved e hm)]
  rw [hnames]
  exact h.expandedNames

/-! ## Inside of another element -/

def OpenHead.under (outer : List NamespaceBinding) (element : OpenHead) : OpenHead :=
  { element with bindings := outer ++ element.bindings }

namespace Outline

/-- An outline in the innermost open element of another one. -/
def under (outer inner : Outline) : Outline :=
  ⟨inner.opened.map (OpenHead.under outer.bindings) ++ outer.opened, outer.root⟩

variable {ou ir : Outline}

lemma bindings_under (outer inner : Outline) :
    (outer.under inner).bindings = outer.bindings ++ inner.bindings := by
  obtain ⟨o, ro⟩ := inner
  cases o with
  | nil => exact (append_nil _).symm
  | cons e r => rfl

lemma attach_under (ho : ir.opened ≠ []) (n : NamedNode) : (ou.under ir).attach n = ou.under (ir.attach n) := by
  obtain ⟨o, ro⟩ := ir
  cases o with
  | nil => exact absurd rfl ho
  | cons e r => rfl

/-- An element that is complete inside of another one is a child of it, if it has no parent inside. -/
lemma complete_under (ho : ou.opened ≠ []) (hr : ir.root = none) (n : NamedNode) :
    (ou.under ir).complete n = match (ir.complete n).root with
      | some ro => ou.attach ro
      | none => ou.under (ir.complete n) := by
  obtain ⟨o, ro⟩ := ir
  cases hr
  cases o with
  | nil =>
    obtain ⟨o', rt'⟩ := ou
    cases o' with
    | nil => exact absurd rfl ho
    | cons p r => rfl
  | cons e r => rfl

/-- A start tag has a default namespace of its own, or there is none outside. -/
def Undisturbed (outer : Outline) (head : NamedHead) : Prop :=
  (splitQualifiedName head.name).1 = none → head.nsName = none → namespaceIn outer.bindings [] = none

lemma enter_under {name : Text} {attributes : List (Text × Text)}
    (hf : WellFormedTag ir.bindings name attributes) (hd : ou.Undisturbed (ir.enter name attributes).head) :
    (ou.under ir).enter name attributes = (ir.enter name attributes).under ou.bindings := by
  have hhead := namedHead_append hf hd
  unfold enter OpenHead.under
  rw [bindings_under, append_assoc, hhead]

/-- **One item inside of another element** does what it does on its own. -/
theorem next_under {item : Item} (hot : ou.opened ≠ []) (hr : ir.root = none)
    (hi : ir.opened ≠ [] ∨ item.isTag = true) (ha : ir.Admits item)
    (hd : ∀ head ∈ (ir.next item).heads, ou.Undisturbed head) :
    (ou.under ir).Admits item ∧ (ou.under ir).next item = match (ir.next item).root with
        | some ro => ou.attach ro
        | none => ou.under (ir.next item) := by
  have hnonempty : (ou.under ir).opened ≠ [] := by
    intro h
    exact hot (append_eq_nil_iff.mp h).2
  have hattach : ir.opened ≠ [] → ∀ n, (ou.under ir).attach n =
      match (ir.attach n).root with
        | some ro => ou.attach ro
        | none => ou.under (ir.attach n) := by
    intro ho n
    rw [root_attach, hr, attach_under ho]
  have hsame : (ou.under ir) = match ir.root with
        | some ro => ou.attach ro
        | none => ou.under ir := by
    rw [hr]
  cases item with
  | start nm a =>
    obtain ⟨-, hf⟩ := ha
    refine ⟨⟨fun h => absurd h hnonempty, ?_⟩, ?_⟩
    · rw [bindings_under]
      exact wellFormedTag_append hf _
    · have henter := enter_under hf (hd _ (mem_append_left _ mem_cons_self))
      unfold next
      simp only [henter, hr]
      rfl
  | empty nm a =>
    obtain ⟨-, hf⟩ := ha
    refine ⟨⟨fun h => absurd h hnonempty, ?_⟩, ?_⟩
    · rw [bindings_under]
      exact wellFormedTag_append hf _
    · have henter := enter_under hf (hd _ ((heads_complete hr _).mpr (.inr mem_cons_self)))
      have hcompl := complete_under hot hr (.element (ir.enter nm a).head [])
      unfold next
      simp only [henter]
      exact hcompl
  | stop nm =>
    obtain ⟨e, he, hn⟩ := ha
    cases ho : ir.opened with
    | nil => exact absurd ho (hi.resolve_right Bool.false_ne_true)
    | cons first r =>
      rw [ho] at he
      cases he
      have hunder : (ou.under ir).opened =
          e.under ou.bindings :: (r.map (OpenHead.under ou.bindings) ++ ou.opened) := by
        unfold under
        rw [ho]
        rfl
      refine ⟨⟨e.under ou.bindings, by rw [hunder]; rfl, hn⟩, ?_⟩
      rw [next_stop nm hunder, next_stop nm ho]
      exact @complete_under ou { ir with opened := r } hot hr _
  | char c =>
    have ho := hi.resolve_right Bool.false_ne_true
    exact ⟨⟨ha.1, fun h => absurd h hnonempty⟩, hattach ho _⟩
  | cdata v =>
    have ho := hi.resolve_right Bool.false_ne_true
    refine ⟨⟨hnonempty, ha.2⟩, ?_⟩
    rw [next_cdata, next_cdata]
    split
    case isTrue => exact hsame
    case isFalse => exact hattach ho _
  | comment v | pi target content =>
    exact ⟨ha, hattach (hi.resolve_right Bool.false_ne_true) _⟩
  | decl => exact absurd ha.1 (hi.resolve_right Bool.false_ne_true)
  | docType => cases ha

end Outline

/-- **The items of an element**, read inside of another one, put the element below it. -/
theorem Completes.embedded {outer inner : Outline} (h : Completes inner it ro) (ho : outer.opened ≠ [])
    (hac : wellFormed.Accepts inner it) (hd : ∀ head ∈ ro.heads, outer.Undisturbed head) :
    wellFormed.Accepts (outer.under inner) it ∧
      wellFormed.after (outer.under inner) it = outer.attach ro := by
  induction h with
  | @last inner item ro hr hi hn =>
    have hdone : (inner.next item).heads = ro.heads := by
      rw [hn]
      rfl
    obtain ⟨had, ha⟩ :=
      next_under ho hr hi hac.1 (by rw [hdone]; exact hd)
    rw [hn] at ha
    exact ⟨⟨had, trivial⟩, ha⟩
  | @step inner item it ro hr hi hrs ih =>
    obtain ⟨had, ha⟩ := next_under ho hr hi hac.1 fun head hm => hd head (hrs.heads hm)
    have hstill : (inner.next item).root = none := by
      cases hrs with
      | last hr _ _ => exact hr
      | step hr _ _ => exact hr
    rw [hstill] at ha
    obtain ⟨hot, hl⟩ := ih hac.2 hd
    refine ⟨⟨had, ?_⟩, ?_⟩
    · change wellFormed.Accepts ((outer.under inner).next item) it
      rw [ha]
      exact hot
    · change wellFormed.after ((outer.under inner).next item) it = _
      rw [ha]
      exact hl

end AsterForge.Xml
