import AsterForge.Xml.Document

/-!
# Well-formed content

Events of a well-formed document nest: an element is its start, its content and its end.  Here that
nesting is a tree of its own, with a node for every run of character data, and what the document tree
keeps of it is a function of it.

* **`readEvents_content`** — where the events of some content are read without an error, its tree is what was
  put below the innermost open element.
-/

namespace AsterForge.Xml

open Library DocumentBuilder List

/-! ## Content -/

inductive CharacterData
  | text (unescaped : Option CowText)
  | reference (reference : BytesRef)

def CharacterData.event : CharacterData → Event
  | .text unescaped => .text unescaped
  | .reference ref => .generalRef ref

def CharacterData.decoded : CharacterData → Text
  | .text unescaped => unescaped.elim [] CowText.value
  | .reference ref => (decodeReference ref).toOption.elim [] CowText.value

/-- Content, with the positions in the source that its events end at. -/
inductive SourceNode
  | element (tag : BytesStart) (opened : ℕ) (content : List SourceNode) (name : Text) (closed : ℕ)
  | empty (tag : BytesStart) (position : ℕ)
  /-- A run of character data. -/
  | run (data : List (CharacterData × ℕ))
  | cdata (value : Text) (position : ℕ)
  | comment (value : Text) (position : ℕ)
  | pi (target content : Text) (position : ℕ)

mutual

def SourceNode.events : SourceNode → List ReadEvent
  | .element tag opened content name closed =>
    ⟨.start tag, opened⟩ :: (contentEvents content ++ [⟨.stop name, closed⟩])
  | .empty tag position => [⟨.empty tag, position⟩]
  | .run data => data.map fun piece => ⟨piece.1.event, piece.2⟩
  | .cdata value position => [⟨.cdata value, position⟩]
  | .comment value position => [⟨.comment value, position⟩]
  | .pi target content position => [⟨.pi target content, position⟩]

def contentEvents : List SourceNode → List ReadEvent
  | [] => []
  | node :: nodes => node.events ++ contentEvents nodes

end

def endPosition (start : ℕ) (events : List ReadEvent) : ℕ :=
  (events.getLast?.map ReadEvent.position).getD start

mutual

def SourceNode.runs : SourceNode → List (List CharacterData)
  | .element _ _ content _ _ => contentRuns content
  | .run data => [data.map Prod.fst]
  | _ => []

def contentRuns : List SourceNode → List (List CharacterData)
  | [] => []
  | node :: nodes => node.runs ++ contentRuns nodes

end

def SourceNode.IsElement : SourceNode → Prop
  | .element .. | .empty .. => True
  | _ => False

/-- An event outside of the root: no start and no end of an element. -/
def Event.IsMisc : Event → Prop
  | .start _ | .empty _ | .stop _ => False
  | _ => True

/-! ## What is kept -/

def tagBindings (tag : BytesStart) : List NamespaceBinding :=
  tag.attributes.filterMap fun entry => entry.bind fun entry =>
    (namespaceDeclarationPrefix entry.key).map fun nsPrefix =>
      let uri := entry.normalized.elim [] CowText.value
      ⟨nsPrefix, if uri = [] then none else some uri⟩

def tagAttributes (tag : BytesStart) : List (Text × Text) :=
  tag.attributes.filterMap fun entry => entry.bind fun entry =>
    if (namespaceDeclarationPrefix entry.key).isSome then none
    else some (entry.key, entry.normalized.elim [] CowText.value)

def tagScope (scope : NamespaceScope) (tag : BytesStart) : NamespaceScope :=
  if tagBindings tag = [] then scope else tagBindings tag :: scope

def tagData (scope : NamespaceScope) (tag : BytesStart) (sourceStart sourceEnd : ℕ) : ElementData :=
  ⟨tag.name, tagAttributes tag, tagScope scope tag, sourceStart, sourceEnd⟩

section

variable (options : ParseOptions)

def keptText (value : Text) : Text := if options.trimWhitespace then trim value else value

def keptRun (data : List CharacterData) : List Text :=
  (data.map fun piece => keptText options piece.decoded).filter fun value => value ≠ []

mutual

def SourceNode.tree (scope : NamespaceScope) (start : ℕ) : SourceNode → List XmlNode
  | .element tag opened content _ closed =>
    [.element (tagData scope tag start closed) (contentTree (tagScope scope tag) opened content)]
  | .empty tag position => [.element (tagData scope tag start position) []]
  | .run data => (keptRun options (data.map Prod.fst)).map .text
  | .cdata value _ => if keptText options value = [] then [] else [.cdata (keptText options value)]
  | .comment value _ => [.comment value]
  | .pi target content _ => [.processingInstruction target (instructionContent content)]

def contentTree (scope : NamespaceScope) (start : ℕ) : List SourceNode → List XmlNode
  | [] => []
  | node :: nodes => node.tree scope start ++ contentTree scope (endPosition start node.events) nodes

end

end

/-! ## Start tags -/

variable {p : XmlSafetyPolicy} {dc : DeclaredNamespaces} {e : Option XmlAttribute}
    {en : List (Option XmlAttribute)} {s : NamespaceScope}

lemma declareNamespace_spec {next : DeclaredNamespaces} (h : declareNamespace p dc e = .ok next) :
    next.bindings = dc.bindings ++ tagBindings ⟨[], [e]⟩ := by
  simp only [declareNamespace, bind_eq_ok, okOr_eq_ok] at h
  obtain ⟨_, -, e, rfl, _, -, h⟩ := h
  cases hdecl : namespaceDeclarationPrefix e.key with
  | none =>
    rw [hdecl] at h
    cases h
    simp [tagBindings, hdecl]
  | some np =>
    rw [hdecl] at h
    simp only [bind_eq_ok, okOr_eq_ok] at h
    obtain ⟨uri, hu, _, -, _, -, ov, -, h⟩ := h
    cases h
    simp [tagBindings, hdecl, hu]

lemma declareNamespaces_spec {next : DeclaredNamespaces} (h : en.foldlM (declareNamespace p) dc = .ok next) :
    next.bindings = dc.bindings ++ tagBindings ⟨[], en⟩ := by
  induction en generalizing dc with
  | nil =>
    cases h
    simp [tagBindings]
  | cons e en ih =>
    rw [foldlM_cons, bind_eq_ok] at h
    obtain ⟨m, hm, hr⟩ := h
    rw [ih hr, declareNamespace_spec hm, append_assoc]
    rw [tagBindings, tagBindings, tagBindings, ← filterMap_append, singleton_append]

lemma readAttribute_spec {read next : ReadAttributes} (h : readAttribute s read e = .ok next) :
    next.attributes = read.attributes ++ tagAttributes ⟨[], [e]⟩ := by
  simp only [readAttribute, bind_eq_ok, okOr_eq_ok] at h
  obtain ⟨e, rfl, h⟩ := h
  cases hdecl : namespaceDeclarationPrefix e.key with
  | some np =>
    rw [hdecl] at h
    cases h
    simp [tagAttributes, hdecl]
  | none =>
    rw [hdecl] at h
    simp only [bind_eq_ok, okOr_eq_ok] at h
    obtain ⟨_, -, value, hv, _, -, ov, -, h⟩ := h
    cases h
    simp [tagAttributes, hdecl, hv]

lemma readAttributes_spec {read next : ReadAttributes} (h : en.foldlM (readAttribute s) read = .ok next) :
    next.attributes = read.attributes ++ tagAttributes ⟨[], en⟩ := by
  induction en generalizing read with
  | nil =>
    cases h
    simp [tagAttributes]
  | cons e en ih =>
    rw [foldlM_cons, bind_eq_ok] at h
    obtain ⟨m, hm, hr⟩ := h
    rw [ih hr, readAttribute_spec hm, append_assoc]
    rw [tagAttributes, tagAttributes, tagAttributes, ← filterMap_append, singleton_append]

/-! ## Reading -/

namespace DocumentBuilder

variable {op : ParseOptions} {bl next : DocumentBuilder}

structure SameTree (builder next : DocumentBuilder) : Prop where
  opened : next.opened = builder.opened
  root : next.root = builder.root
  rootComplete : next.rootComplete = builder.rootComplete

lemma sameTree_refl (builder : DocumentBuilder) : builder.SameTree builder := ⟨rfl, rfl, rfl⟩

variable {l : DocumentBuilder} {pr : OpenElement} {r : List OpenElement} {st : ℕ}
    {rd : ReadEvent} {rs : List ReadEvent}

lemma SameTree.trans (h : bl.SameTree next) (h' : next.SameTree l) : bl.SameTree l :=
  ⟨h'.opened.trans h.opened, h'.root.trans h.root, h'.rootComplete.trans h.rootComplete⟩

structure Grown (builder next : DocumentBuilder) (parent : OpenElement) (rest : List OpenElement)
    (nodes : List XmlNode) : Prop where
  opened : next.opened = { parent with children := parent.children ++ nodes } :: rest
  root : next.root = builder.root
  rootComplete : next.rootComplete = builder.rootComplete

lemma SameTree.grown (h : bl.SameTree next) (ho : bl.opened = pr :: r) : bl.Grown next pr r [] := by
  refine ⟨?_, h.root, h.rootComplete⟩
  rw [h.opened, ho, append_nil]

variable {nd : List XmlNode} {tag : BytesStart} {ss se : ℕ} {v : CowText} {cd : Bool}

lemma SameTree.trans_grown (h : bl.SameTree next) (h' : next.Grown l pr r nd) : bl.Grown l pr r nd :=
  ⟨h'.opened, h'.root.trans h.root, h'.rootComplete.trans h.rootComplete⟩

lemma Grown.trans {m : List XmlNode} (h : bl.Grown next pr r nd)
    (h' : next.Grown l { pr with children := pr.children ++ nd } r m) : bl.Grown l pr r (nd ++ m) := by
  refine ⟨?_, h'.root.trans h.root, h'.rootComplete.trans h.rootComplete⟩
  rw [h'.opened, append_assoc]

lemma countEvent_spec (h : bl.countEvent op = .ok next) : bl.SameTree next := by
  obtain ⟨_, -, h⟩ := bind_eq_ok.mp h
  cases h
  exact ⟨rfl, rfl, rfl⟩

lemma checkElement_spec (h : bl.checkElement op = .ok next) : bl.SameTree next := by
  simp only [checkElement, bind_eq_ok] at h
  obtain ⟨_, -, _, -, h⟩ := h
  cases h
  exact ⟨rfl, rfl, rfl⟩

/-- **An element that is built** has the data of its tag. -/
theorem buildElement_spec {d : ElementData} (h : bl.buildElement op tag ss se = .ok (d, next)) :
    d = tagData bl.parentScope tag ss se ∧ bl.SameTree next := by
  simp only [buildElement, bind_eq_ok] at h
  obtain ⟨_, -, _, -, _, -, dc, hdecl, _, -, _, -, _, -, _, -, _, -, rd, hread, _, -, _, -,
    pushed, hp, h⟩ := h
  have hbinds := declareNamespaces_spec hdecl
  have hattrs := readAttributes_spec hread
  obtain ⟨_, -, hp⟩ := bind_eq_ok.mp hp
  cases hp
  cases h
  refine ⟨?_, rfl, rfl, rfl⟩
  rw [tagData, hbinds, hattrs]
  rfl

lemma startElement_spec (h : bl.startElement op tag ss se = .ok next) :
    next.opened = ⟨tagData bl.parentScope tag ss se, []⟩ :: bl.opened ∧
      next.root = bl.root ∧ next.rootComplete = bl.rootComplete := by
  simp only [startElement, bind_eq_ok] at h
  obtain ⟨c, hc, ⟨d, b⟩, hb, h⟩ := h
  have hsame := checkElement_spec hc
  obtain ⟨hd, hb⟩ := buildElement_spec hb
  have hscope : c.parentScope = bl.parentScope := by
    rw [parentScope, parentScope, hsame.opened]
  cases h
  refine ⟨?_, hb.root.trans hsame.root, hb.rootComplete.trans hsame.rootComplete⟩
  rw [hb.opened, hsame.opened, hd, hscope]

lemma attach_grown (ho : bl.opened = pr :: r) (n : XmlNode) : bl.Grown (bl.attach n) pr r [n] := by
  rw [attach, ho]
  exact ⟨rfl, rfl, rfl⟩

lemma pushContent_grown {n : XmlNode} (ho : bl.opened = pr :: r) (h : bl.pushContent n = .ok next) :
    bl.Grown next pr r [n] := by
  have hne : bl.opened ≠ [] := by simp [ho]
  simp only [pushContent, if_neg hne, pushNode, bind_eq_ok] at h
  obtain ⟨p, ⟨_, -, hp⟩, h⟩ := h
  cases hp
  cases h
  have hgrown := @attach_grown { bl with nodes := bl.nodes + 1 } pr r ho n
  exact { hgrown with }

lemma kept_value (o : ParseOptions) (value : CowText) :
    (if o.trimWhitespace then ({ value with value := trim value.value } : CowText)
      else value).value = keptText o value.value := by
  unfold keptText
  split <;> rfl

/-- **A text in an element** is kept below it, unless nothing is left of it. -/
theorem textNode_grown (ho : bl.opened = pr :: r) (h : bl.textNode op v cd = .ok next) :
    bl.Grown next pr r (if keptText op v.value = [] then []
        else [if cd then .cdata (keptText op v.value)
          else .text (keptText op v.value)]) := by
  simp only [textNode, bind_eq_ok] at h
  obtain ⟨_, -, h⟩ := h
  rw [kept_value] at h
  split at h
  case isTrue hempty =>
    rw [if_pos hempty]
    cases h
    have hsame : bl.SameTree { bl with textBytes := bl.textBytes + utf8Length v.value } := ⟨rfl, rfl, rfl⟩
    exact hsame.grown ho
  case isFalse hempty =>
    rw [if_neg hempty]
    have hne : bl.opened ≠ [] := by simp [ho]
    simp only [if_neg hne, bind_eq_ok] at h
    obtain ⟨ov, -, h⟩ := h
    have hgrown := @pushContent_grown { bl with
      textBytes := bl.textBytes + utf8Length v.value
      ownedValues := ov } next pr r _ ho h
    exact { hgrown with }

lemma readEvents_cons : readEvents op st (rd :: rs) bl = .ok next ↔
    ∃ c a, bl.countEvent op = .ok c ∧ c.apply op st rd = .ok a ∧
        readEvents op rd.position rs a = .ok next := by
  rw [readEvents]
  simp only [bind_eq_ok]
  constructor
  · rintro ⟨c, hc, a, ha, h⟩
    exact ⟨c, a, hc, ha, h⟩
  · rintro ⟨c, a, hc, ha, h⟩
    exact ⟨c, hc, a, ha, h⟩

lemma endPosition_cons (start : ℕ) (read : ReadEvent) (reads : List ReadEvent) :
    endPosition start (read :: reads) = endPosition read.position reads := by
  cases reads with
  | nil => rfl
  | cons next reads => simp [endPosition, getLast?_cons]

lemma readEvents_append {mr : List ReadEvent} : readEvents op st (rs ++ mr) bl = .ok next ↔
    ∃ m, readEvents op st rs bl = .ok m ∧ readEvents op (endPosition st rs) mr m = .ok next := by
  induction rs generalizing st bl with
  | nil =>
    constructor
    · intro h
      exact ⟨bl, rfl, h⟩
    · rintro ⟨m, hm, h⟩
      cases hm
      exact h
  | cons rd rs ih =>
    rw [cons_append, readEvents_cons, endPosition_cons]
    constructor
    · rintro ⟨c, a, hc, ha, h⟩
      obtain ⟨m, hm, h⟩ := ih.mp h
      exact ⟨m, readEvents_cons.mpr ⟨c, a, hc, ha, hm⟩, h⟩
    · rintro ⟨m, hm, h⟩
      obtain ⟨c, a, hc, ha, hm⟩ := readEvents_cons.mp hm
      exact ⟨c, a, hc, ha, ih.mpr ⟨m, hm, h⟩⟩

lemma readEvents_run {d : List (CharacterData × ℕ)} (ho : bl.opened = pr :: r)
    (h : readEvents op st (d.map fun p => ⟨p.1.event, p.2⟩) bl = .ok next) :
    bl.Grown next pr r ((keptRun op (d.map Prod.fst)).map .text) := by
  induction d generalizing bl st pr with
  | nil =>
    cases h
    exact (sameTree_refl _).grown ho
  | cons p d ih =>
    rw [map_cons, readEvents_cons] at h
    obtain ⟨c, a, hc, ha, h⟩ := h
    have hsame := countEvent_spec hc
    have hgrown : c.Grown a pr r (if keptText op p.1.decoded = [] then []
          else [.text (keptText op p.1.decoded)]) := by
      obtain ⟨p, ps⟩ := p
      cases p with
      | text u =>
        simp only [apply, CharacterData.event, bind_eq_ok, okOr_eq_ok] at ha
        obtain ⟨v, rfl, ha⟩ := ha
        exact textNode_grown (hsame.opened.trans ho) ha
      | reference ref =>
        simp only [apply, CharacterData.event, bind_eq_ok] at ha
        obtain ⟨v, hv, ha⟩ := ha
        have hgrown := textNode_grown (hsame.opened.trans ho) ha
        simp only [CharacterData.decoded, hv]
        exact hgrown
    have hrest := hgrown.trans (ih hgrown.opened h)
    have hnodes : (keptRun op ((p :: d).map Prod.fst)).map XmlNode.text =
        (if keptText op p.1.decoded = [] then []
          else [.text (keptText op p.1.decoded)]) ++
          (keptRun op (d.map Prod.fst)).map XmlNode.text := by
      rw [keptRun, keptRun, map_cons, map_cons]
      by_cases hempty : keptText op p.1.decoded = []
      · simp [hempty]
      · simp [hempty]
    rw [hnodes]
    exact hsame.trans_grown hrest

lemma readEvents_single (h : readEvents op st [rd] bl = .ok next) :
    ∃ c, bl.SameTree c ∧ c.apply op st rd = .ok next := by
  obtain ⟨c, a, hc, ha, h⟩ := readEvents_cons.mp h
  cases h
  exact ⟨c, countEvent_spec hc, ha⟩

lemma parentScope_cons (ho : bl.opened = pr :: r) : bl.parentScope = pr.data.namespaceScope := by
  rw [parentScope, ho]
  rfl

lemma complete_grown (ho : bl.opened = pr :: r) (e : XmlElement) : bl.Grown (bl.complete e) pr r [e.node] := by
  have hattach := attach_grown ho e.node
  rw [complete, ho]
  exact hattach

mutual

open SourceNode

/-- **The events of a node** put its tree below the innermost open element. -/
theorem readEvents_node : ∀ (n : SourceNode) {builder next : DocumentBuilder} {start : ℕ}
    {parent : OpenElement} {rest : List OpenElement}, builder.opened = parent :: rest →
    readEvents op start n.events builder = .ok next →
      builder.Grown next parent rest (n.tree op parent.data.namespaceScope start)
  | .element tag opened content name closed, builder, next, start, parent, rest, hopen, h => by
    rw [events, readEvents_cons] at h
    obtain ⟨c, s, hcn, hst, h⟩ := h
    obtain ⟨f, hf, h⟩ := readEvents_append.mp h
    obtain ⟨cl, hc, hcl⟩ := readEvents_single h
    have hs := countEvent_spec hcn
    obtain ⟨hsr, hr, hcm⟩ := startElement_spec hst
    have hscope := parentScope_cons (hs.opened.trans hopen)
    have hcont := readEvents_content content hsr hf
    have hinner := hc.opened.trans hcont.opened
    simp only [apply, endElement, hinner, Except.ok.injEq] at hcl
    have hgrown := @complete_grown { cl with opened := c.opened } parent rest
      (hs.opened.trans hopen) ⟨{ tagData c.parentScope tag start opened with
        sourceEnd := closed }, contentTree op (tagScope c.parentScope tag) opened content⟩
    rw [← hcl, tree, ← hscope]
    refine ⟨hgrown.opened, hgrown.root.trans ?_, hgrown.rootComplete.trans ?_⟩
    · exact hc.root.trans (hcont.root.trans (hr.trans hs.root))
    · exact hc.rootComplete.trans (hcont.rootComplete.trans (hcm.trans hs.rootComplete))
  | .empty tag position, builder, next, start, parent, rest, hopen, h => by
    obtain ⟨c, hs, ha⟩ := readEvents_single h
    simp only [apply, emptyElement, bind_eq_ok] at ha
    obtain ⟨ch, hch, ⟨d, b⟩, hb, ha⟩ := ha
    obtain ⟨hd, hb⟩ := buildElement_spec hb
    have hbef := (hs.trans (checkElement_spec hch)).trans hb
    have hscope := parentScope_cons ((hs.trans (checkElement_spec hch)).opened.trans hopen)
    cases ha
    rw [tree, ← hscope, ← hd]
    exact hbef.trans_grown (complete_grown (hbef.opened.trans hopen) _)
  | .run d, builder, next, start, parent, rest, hopen, h => by
    rw [tree]
    exact readEvents_run hopen h
  | .cdata v position, builder, next, start, parent, rest, hopen, h => by
    obtain ⟨c, hs, ha⟩ := readEvents_single h
    rw [tree]
    exact hs.trans_grown (textNode_grown (hs.opened.trans hopen) ha)
  | .comment v position, builder, next, start, parent, rest, hopen, h => by
    obtain ⟨c, hs, ha⟩ := readEvents_single h
    obtain ⟨_, -, ha⟩ := bind_eq_ok.mp ha
    rw [tree]
    exact hs.trans_grown (pushContent_grown (hs.opened.trans hopen) ha)
  | .pi target content position, builder, next, start, parent, rest, hopen, h => by
    obtain ⟨c, hs, ha⟩ := readEvents_single h
    simp only [apply, bind_eq_ok] at ha
    obtain ⟨_, -, _, -, ha⟩ := ha
    rw [tree]
    exact hs.trans_grown (pushContent_grown (hs.opened.trans hopen) ha)

/-- The events of a list of nodes put their trees below the innermost open element. -/
theorem readEvents_content : ∀ (nodes : List SourceNode) {builder next : DocumentBuilder} {start : ℕ}
    {parent : OpenElement} {rest : List OpenElement}, builder.opened = parent :: rest →
    readEvents op start (contentEvents nodes) builder = .ok next →
      builder.Grown next parent rest (contentTree op parent.data.namespaceScope start nodes)
  | [], builder, next, start, parent, rest, hopen, h => by
    cases h
    rw [contentTree]
    exact (sameTree_refl _).grown hopen
  | node :: nodes, builder, next, start, parent, rest, hopen, h => by
    rw [contentEvents, readEvents_append] at h
    obtain ⟨m, hm, h⟩ := h
    have hnode := readEvents_node node hopen hm
    rw [contentTree]
    exact hnode.trans (readEvents_content nodes hnode.opened h)

end

/-! ## Documents -/

lemma textNode_outside (ho : bl.opened = []) (h : bl.textNode op v cd = .ok next) : bl.SameTree next := by
  simp only [textNode, bind_eq_ok] at h
  obtain ⟨_, -, h⟩ := h
  rw [kept_value] at h
  split at h
  · cases h
    exact ⟨rfl, rfl, rfl⟩
  · obtain ⟨_, -, h⟩ := bind_eq_ok.mp h
    cases h
    exact ⟨rfl, rfl, rfl⟩

lemma pushContent_outside {n : XmlNode} (ho : bl.opened = [])
    (h : bl.pushContent n = .ok next) : bl.SameTree next := by
  rw [pushContent, if_pos ho] at h
  cases h
  exact sameTree_refl _

lemma apply_misc (hm : rd.event.IsMisc) (ho : bl.opened = [])
    (h : bl.apply op st rd = .ok next) : bl.SameTree next := by
  obtain ⟨e, p⟩ := rd
  cases e with
  | start tag => cases hm
  | empty tag => cases hm
  | stop n => cases hm
  | text unescaped | generalRef ref =>
    obtain ⟨v, -, h⟩ := bind_eq_ok.mp h
    exact textNode_outside ho h
  | cdata v => exact textNode_outside ho h
  | comment v =>
    obtain ⟨_, -, h⟩ := bind_eq_ok.mp h
    exact pushContent_outside ho h
  | pi t c =>
    simp only [apply, bind_eq_ok] at h
    obtain ⟨_, -, _, -, h⟩ := h
    exact pushContent_outside ho h
  | decl =>
    obtain ⟨_, -, h⟩ := bind_eq_ok.mp h
    cases h
    exact sameTree_refl _
  | docType =>
    simp only [apply, bind_eq_ok] at h
    obtain ⟨_, -, _, -, h⟩ := h
    cases h
    exact sameTree_refl _

lemma readEvents_misc (hm : ∀ rd ∈ rs, rd.event.IsMisc)
    (ho : bl.opened = []) (h : readEvents op st rs bl = .ok next) : bl.SameTree next := by
  induction rs generalizing st bl with
  | nil =>
    cases h
    exact sameTree_refl _
  | cons rd rs ih =>
    obtain ⟨c, a, hc, ha, h⟩ := readEvents_cons.mp h
    have hsame := countEvent_spec hc
    have hstep := apply_misc (hm rd mem_cons_self) (hsame.opened.trans ho) ha
    have hbef := hsame.trans hstep
    exact hbef.trans (ih (fun o hmm => hm o (mem_cons_of_mem _ hmm)) (hbef.opened.trans ho) h)

/-- The events of the root complete it. -/
theorem readEvents_root {r : SourceNode} (hr : r.IsElement) (ho : bl.opened = []) (hn : bl.root = none)
    (h : readEvents op st r.events bl = .ok next) :
    next.opened = [] ∧ next.root.toList.map XmlElement.node = r.tree op [] st := by
  cases r with
  | element tag o cn n cs =>
    rw [SourceNode.events, readEvents_cons] at h
    obtain ⟨c, s, hc, hsr, h⟩ := h
    obtain ⟨f, hf, h⟩ := readEvents_append.mp h
    obtain ⟨cl, hcl, hcs⟩ := readEvents_single h
    have hs := countEvent_spec hc
    obtain ⟨hst, hr, -⟩ := startElement_spec hsr
    have hc := hs.opened.trans ho
    rw [hc] at hst
    have hscope : c.parentScope = [] := by
      rw [parentScope, hc]
      rfl
    have hcont := readEvents_content cn hst hf
    have hinner := hcl.opened.trans hcont.opened
    simp only [apply, endElement, hinner, Except.ok.injEq] at hcs
    have hn : cl.root = none :=
      hcl.root.trans (hcont.root.trans (hr.trans (hs.root.trans hn)))
    rw [← hcs, ← hscope]
    refine ⟨rfl, ?_⟩
    rw [hn]
    rfl
  | empty tag p =>
    obtain ⟨c, hs, ha⟩ := readEvents_single h
    simp only [apply, emptyElement, bind_eq_ok] at ha
    obtain ⟨ch, hch, ⟨d, b⟩, hb, ha⟩ := ha
    obtain ⟨hd, hb⟩ := buildElement_spec hb
    have hbef := (hs.trans (checkElement_spec hch)).trans hb
    have hempty := hbef.opened.trans ho
    have hscope : ch.parentScope = [] := by
      rw [parentScope, (hs.trans (checkElement_spec hch)).opened, ho]
      rfl
    cases ha
    rw [SourceNode.tree, ← hscope, ← hd, complete, hempty]
    rw [hbef.root, hn]
    exact ⟨rfl, rfl⟩
  | run d => cases hr
  | cdata v p => cases hr
  | comment v p => cases hr
  | pi t cn p => cases hr

end DocumentBuilder

/-- **The root of a document** is the tree of its root element. -/
theorem parse_tree {o : ParseOptions} {s : TokenStream} {builder : DocumentBuilder}
    {p e : List ReadEvent} {r : SourceNode} (hrt : r.IsElement)
    (hp : ∀ read ∈ p, read.event.IsMisc) (he : ∀ read ∈ e, read.event.IsMisc)
    (hev : s.events = p ++ (r.events ++ e)) (h : parse o s = .ok builder) :
    builder.root.toList.map XmlElement.node = r.tree o [] (endPosition 0 p) := by
  obtain ⟨read, hr, h⟩ := bind_eq_ok.mp h
  have hbuilder : builder = read := by
    cases hfin : s.finish with
    | failed er =>
      rw [hfin] at h
      cases h
    | eof =>
      rw [hfin] at h
      obtain ⟨_, -, h⟩ := bind_eq_ok.mp h
      cases h
      rfl
  rw [hbuilder]
  rw [hev] at hr
  obtain ⟨b, hb, hr⟩ := readEvents_append.mp hr
  obtain ⟨c, hc, hr⟩ := readEvents_append.mp hr
  have hp := readEvents_misc hp rfl hb
  obtain ⟨ho, ht⟩ := readEvents_root hrt hp.opened hp.root hc
  have he := readEvents_misc he ho hr
  rw [he.root, ht]

end AsterForge.Xml
