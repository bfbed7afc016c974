import AsterForge.Xml.DocumentChecks
import AsterForge.Xml.Outline

/-!
# Reading what a document says

The tree builder keeps the tree that the items of a document describe, and reads every well-formed document
that is within its limits.

* **`parseWithOptions_outline`** — the tree of a document that is read.
* **`parseWithOptions_of_wellFormed`** — a well-formed document within the limits is read.
-/

namespace AsterForge.Xml

open Library DocumentBuilder List

/-! ## Attributes -/

variable {attributes : List (Option XmlAttribute)} {en : List (Text × Text)}

lemma readEntries_cons {f : Option XmlAttribute} (h : readEntries (f :: attributes) = some en) :
    ∃ a' v r, f = some a' ∧ a'.normalized = some v ∧
      readEntries attributes = some r ∧ en = (a'.key, v.value) :: r := by
  simp only [readEntries, Option.bind_eq_bind, Option.bind_eq_some_iff, XmlAttribute.entry,
    Option.map_eq_some_iff] at h
  obtain ⟨e, ⟨a', rfl, v, hv, rfl⟩, r, hr, h⟩ := h
  cases h
  exact ⟨a', v, r, rfl, hv, hr, rfl⟩

lemma tagBindings_of_readEntries (h : readEntries attributes = some en) (n : Text) :
    tagBindings ⟨n, attributes⟩ = declaredBindings en := by
  induction attributes generalizing en with
  | nil =>
    cases h
    rfl
  | cons f attributes ih =>
    obtain ⟨a', v, r, rfl, hv, hr, rfl⟩ := readEntries_cons h
    have ih := ih hr
    unfold tagBindings declaredBindings at ih ⊢
    rw [filterMap_cons, filterMap_cons, ih]
    simp [hv]

lemma tagAttributes_of_readEntries (h : readEntries attributes = some en) (n : Text) :
    tagAttributes ⟨n, attributes⟩ = ownAttributes en := by
  induction attributes generalizing en with
  | nil =>
    cases h
    rfl
  | cons f attributes ih =>
    obtain ⟨a', v, r, rfl, hv, hr, rfl⟩ := readEntries_cons h
    have ih := ih hr
    unfold tagAttributes ownAttributes at ih ⊢
    rw [filterMap_cons, ih]
    cases hdecl : namespaceDeclarationPrefix a'.key with
    | none => simp [hdecl, hv]
    | some np => simp [hdecl]

lemma mem_of_readEntries (h : readEntries attributes = some en) :
    none ∉ attributes ∧ ∀ f, some f ∈ attributes → ∃ v, f.normalized = some v ∧ (f.key, v.value) ∈ en := by
  induction attributes generalizing en with
  | nil => simp
  | cons f attributes ih =>
    obtain ⟨a', v, r, rfl, hv, hr, rfl⟩ := readEntries_cons h
    obtain ⟨hn, hm⟩ := ih hr
    refine ⟨none_notMem_cons.mpr hn, forall_some_cons.mpr ⟨⟨v, hv, mem_cons_self⟩, ?_⟩⟩
    intro f hf
    obtain ⟨v', hv', he⟩ := hm f hf
    exact ⟨v', hv', mem_cons_of_mem _ he⟩

lemma readEntries_of_wellValued (hn : none ∉ attributes)
    (hvl : ∀ f, some f ∈ attributes → f.normalized ≠ none) : ∃ en, readEntries attributes = some en := by
  induction attributes with
  | nil => exact ⟨[], rfl⟩
  | cons f attributes ih =>
    cases f with
    | none => exact absurd mem_cons_self hn
    | some f =>
      obtain ⟨hf, ho⟩ := forall_some_cons.mp hvl
      obtain ⟨v, hv⟩ := Option.ne_none_iff_exists'.mp hf
      obtain ⟨en, he⟩ := ih (none_notMem_cons.mp hn) ho
      exact ⟨(f.key, v.value) :: en, by simp [readEntries, XmlAttribute.entry, hv, he]⟩

/-! ## Limits -/

structure Limited (policy : XmlSafetyPolicy) (progress : Progress) (scopes : Scopes) (event : Event) :
    Prop where
  events : progress.events + 1 ≤ policy.maxEvents
  text : progress.textBytes + event.textBytes ≤ policy.maxTextBytes
  depth : ∀ tag ∈ event.tag, progress.depth + 1 ≤ policy.maxDepth
  elements : ∀ tag ∈ event.tag, progress.elements + 1 ≤ policy.maxElements
  attributes : ∀ tag ∈ event.tag, tag.attributes.length ≤ policy.maxAttributesPerElement
  namespaces : ∀ tag ∈ event.tag, (scopes.current ++ tagBindings tag).length ≤ policy.maxNamespaceBindings

def limits (policy : XmlSafetyPolicy) : Monitor (Progress × Scopes × Unit × Arenas) ReadEvent where
  allows := fun state read =>
    Limited policy state.1 state.2.1 read.event ∧ arenas.allows state.2.2.2 read
  next := (DocumentBuilder.checks policy).next

def WithinLimits (policy : XmlSafetyPolicy) (source : List UInt8) (stream : TokenStream) : Prop :=
  Accountable policy source ∧ (limits policy).Accepts (Progress.new, Scopes.new, (), Arenas.new) stream.events

/-! ## Nodes -/

lemma joinTexts_concat (n : List NamedNode) (nd : NamedNode) :
    joinTexts (n ++ [nd]) = addNode (joinTexts n) nd := by
  rw [joinTexts, foldl_append]
  rfl

lemma namedNodes_append (n m : List XmlNode) : namedNodes (n ++ m) = namedNodes n ++ namedNodes m := by
  induction n with
  | nil => rfl
  | cons nd n ih => rw [cons_append, namedNodes, namedNodes, ih, cons_append]

namespace Outline

variable (ot : Outline)

@[simp] lemma attach_nil : ot.attach (.text []) = ot := by
  obtain ⟨o, r⟩ := ot
  cases o with
  | nil => rfl
  | cons p rs => rfl

lemma attach_cons (c : Char) (v : Text) :
    (ot.attach (.text [c])).attach (.text v) = ot.attach (.text (c :: v)) := by
  obtain ⟨o, r⟩ := ot
  cases o with
  | nil => rfl
  | cons p rs => rfl

lemma after_textItems (v : Text) : wellFormed.after ot (textItems v) = ot.attach (.text v) := by
  induction v generalizing ot with
  | nil => exact (attach_nil ot).symm
  | cons c v ih =>
    exact (ih _).trans (attach_cons ot c v)

end Outline

/-! ## The builder -/

def OpenElement.outlined (element : OpenElement) : OpenHead :=
  ⟨element.data.head, flatScope element.data.namespaceScope, joinTexts (namedNodes element.children)⟩

namespace DocumentBuilder

variable (builder : DocumentBuilder)

/-- What the builder keeps, with its names resolved. -/
def outlined : Outline :=
  ⟨builder.opened.map OpenElement.outlined, builder.root.map fun root => root.node.named⟩

lemma outlined_new : new.outlined = Outline.new := rfl

lemma bindings_outlined : builder.outlined.bindings = (scopesOf builder.opened).current := by
  unfold Outline.bindings outlined
  cases builder.opened with
  | nil => rfl
  | cons e r => rfl

lemma outlined_attach (n : XmlNode) : (builder.attach n).outlined = builder.outlined.attach n.named := by
  unfold attach Outline.attach outlined
  cases hopen : builder.opened with
  | nil => simp [hopen]
  | cons p r =>
    simp only [map_cons, OpenElement.outlined, namedNodes_append]
    rw [namedNodes, namedNodes, joinTexts_concat]

lemma outlined_complete (e : XmlElement) :
    (builder.complete e).outlined = builder.outlined.complete e.node.named := by
  have hattach := builder.outlined_attach e.node
  unfold complete Outline.complete
  cases hopen : builder.opened with
  | nil =>
    unfold outlined
    simp only [hopen, map_nil]
    cases builder.root with
    | none => rfl
    | some r => rfl
  | cons p rs =>
    rw [hattach]
    unfold outlined
    simp [hopen]

lemma outlined_withNode (n : XmlNode) : (builder.withNode n).outlined = builder.outlined.attach n.named := by
  unfold withNode
  split
  case isTrue hopen =>
    unfold Outline.attach outlined
    simp [hopen]
  case isFalse hopen => exact outlined_attach { builder with nodes := builder.nodes + 1 } n

lemma outlined_withText (v : CowText) (c : Bool) :
    (builder.withText v c).outlined = if v.value = [] then builder.outlined
      else builder.outlined.attach (if c then .cdata v.value else .text v.value) := by
  unfold withText
  by_cases hempty : v.value = []
  · rw [if_pos (.inr hempty), if_pos hempty]
    rfl
  · rw [if_neg hempty]
    by_cases hopen : builder.opened = []
    · rw [if_pos (.inl hopen)]
      unfold Outline.attach outlined
      simp [hopen]
    · have hneither : ¬ (builder.opened = [] ∨ v.value = []) := by
        rintro (h | h)
        · exact hopen h
        · exact hempty h
      rw [if_neg hneither]
      cases c with
      | true => exact outlined_attach { builder with
          textBytes := builder.textBytes + utf8Length v.value
          ownedValues := builder.ownedValues + (if v.owned then 1 else 0)
          nodes := builder.nodes + 1 } (.cdata v.value)
      | false => exact outlined_attach { builder with
          textBytes := builder.textBytes + utf8Length v.value
          ownedValues := builder.ownedValues + (if v.owned then 1 else 0)
          nodes := builder.nodes + 1 } (.text v.value)

variable {tag : BytesStart} {p : ℕ} {s : ℕ × DocumentBuilder} {entries : List (Text × Text)}

lemma head_tagData (h : readEntries tag.attributes = some entries) (ss se : ℕ) :
    (⟨tagData builder.parentScope tag ss se, []⟩ : OpenElement).outlined =
      builder.outlined.enter tag.name entries := by
  have hbinds := tagBindings_of_readEntries h tag.name
  have hattrs := tagAttributes_of_readEntries h tag.name
  unfold OpenElement.outlined Outline.enter ElementData.head tagData
  simp only [flatScope_tagScope, flatScope_parentScope, bindings_outlined, hbinds, hattrs]
  rfl

variable {rd : ReadEvent} {i : List Item} {pl : XmlSafetyPolicy} {rs : List ReadEvent}
    {mn : Progress × Scopes × Unit × Arenas}

/-- **What the builder keeps of an event** is what the items of the event describe. -/
theorem outlined_advanced {ss : ℕ} (h : rd.event.items = some i) :
    (builder.advanced ss rd).outlined = wellFormed.after builder.outlined i := by
  obtain ⟨ev, p⟩ := rd
  cases ev with
  | start tag =>
    obtain ⟨en, he, rfl⟩ := Option.map_eq_some_iff.mp h
    have hhead := builder.head_tagData he ss p
    rw [Monitor.after_cons]
    unfold wellFormed Outline.next
    dsimp only
    rw [← hhead]
    rfl
  | empty tag =>
    obtain ⟨en, he, rfl⟩ := Option.map_eq_some_iff.mp h
    have hhead := builder.head_tagData he ss p
    rw [Monitor.after_cons]
    unfold wellFormed Outline.next
    dsimp only
    rw [← hhead]
    exact outlined_complete { builder.counted.built tag with elementCount := builder.elementCount + 1 }
      ⟨tagData builder.parentScope tag ss p, []⟩
  | stop n =>
    cases h
    unfold wellFormed Outline.next Outline.close advanced
    cases hopen : builder.opened with
    | nil =>
      unfold outlined
      simp only [hopen, map_nil]
      exact congrArg (Outline.mk · _) (congrArg (map _) hopen)
    | cons e rs =>
      have hcompl := outlined_complete { builder.counted with opened := rs }
        ⟨{ e.data with sourceEnd := p }, e.children⟩
      rw [hcompl]
      unfold outlined
      simp only [hopen, map_cons]
      rfl
  | text u =>
    obtain ⟨v, rfl, rfl⟩ := Option.map_eq_some_iff.mp h
    rw [Outline.after_textItems]
    have htext := builder.counted.outlined_withText v false
    refine htext.trans ?_
    split
    case isTrue hempty =>
      rw [hempty, Outline.attach_nil]
      rfl
    case isFalse hempty => rfl
  | generalRef r =>
    obtain ⟨v, hv, rfl⟩ := Option.map_eq_some_iff.mp h
    rw [Outline.after_textItems]
    have htext := builder.counted.outlined_withText v false
    have hadvanced : builder.advanced ss ⟨.generalRef r, p⟩ = builder.counted.withText v false := by
      simp [advanced, hv]
    rw [hadvanced]
    refine htext.trans ?_
    split
    case isTrue hempty =>
      rw [hempty, Outline.attach_nil]
      rfl
    case isFalse hempty => rfl
  | cdata v =>
    cases h
    exact builder.counted.outlined_withText ⟨v, false⟩ true
  | comment v =>
    cases h
    exact builder.counted.outlined_withNode (.comment v)
  | pi t c =>
    cases h
    exact builder.counted.outlined_withNode (.processingInstruction t (instructionContent c))
  | decl =>
    cases h
    rfl
  | docType =>
    cases h
    rfl

/-! ## What is read -/

variable {b : DocumentBuilder} {o : ParseOptions}

structure RootKnown (builder : DocumentBuilder) : Prop where
  complete : builder.rootComplete = builder.root.isSome
  seen : builder.rootSeen = true → builder.opened ≠ [] ∨ builder.root ≠ none

lemma RootKnown.of_eq {next : DocumentBuilder} (h : b.RootKnown)
    (hc : next.rootComplete = b.rootComplete) (hr : next.root = b.root)
    (hs : next.rootSeen = true → next.opened ≠ [] ∨ next.root ≠ none) : next.RootKnown :=
  ⟨by rw [hc, hr, h.complete], hs⟩

lemma rootKnown_attach (h : b.RootKnown) (n : XmlNode) : (b.attach n).RootKnown := by
  unfold attach
  cases hopen : b.opened with
  | nil => exact h
  | cons p r => exact h.of_eq rfl rfl fun _ => .inl (cons_ne_nil _ _)

lemma rootKnown_complete (hc : b.rootComplete = b.root.isSome) (e : XmlElement) : (b.complete e).RootKnown := by
  unfold complete
  cases hopen : b.opened with
  | nil =>
    refine ⟨?_, fun _ => .inr ?_⟩
    · cases b.root with
      | none => rfl
      | some r => rfl
    · cases b.root with
      | none => exact Option.some_ne_none _
      | some r => exact Option.some_ne_none _
  | cons p rs =>
    unfold attach
    simp only [hopen]
    exact ⟨hc, fun _ => .inl (cons_ne_nil _ _)⟩

lemma rootKnown_withText (h : b.RootKnown) (v : CowText) (c : Bool) : (b.withText v c).RootKnown := by
  unfold withText
  split
  case isTrue => exact ⟨h.complete, h.seen⟩
  case isFalse =>
    refine rootKnown_attach ?_ _
    exact ⟨h.complete, h.seen⟩

lemma rootKnown_withNode (h : b.RootKnown) (n : XmlNode) : (b.withNode n).RootKnown := by
  unfold withNode
  split
  case isTrue => exact h
  case isFalse =>
    refine rootKnown_attach ?_ _
    exact ⟨h.complete, h.seen⟩

lemma rootKnown_advanced (h : b.RootKnown) (ss : ℕ) (read : ReadEvent) : (b.advanced ss read).RootKnown := by
  have hcount : b.counted.RootKnown := ⟨h.complete, h.seen⟩
  obtain ⟨e, p⟩ := read
  cases e with
  | start tag => exact ⟨h.complete, fun _ => .inl (cons_ne_nil _ _)⟩
  | empty tag =>
    refine rootKnown_complete ?_ _
    exact h.complete
  | stop n =>
    unfold advanced
    cases b.opened with
    | nil => exact hcount
    | cons el rs =>
      refine rootKnown_complete ?_ _
      exact h.complete
  | text u =>
    cases u with
    | none => exact hcount
    | some v => exact rootKnown_withText hcount v false
  | cdata v => exact rootKnown_withText hcount _ true
  | generalRef r =>
    simp only [advanced]
    cases (Event.generalRef r).decoded with
    | none => exact hcount
    | some v => exact rootKnown_withText hcount v false
  | comment v | pi target content => exact rootKnown_withNode hcount _
  | decl => exact hcount
  | docType => exact hcount

lemma exists_items_of_allows (h : b.Allows pl rd) : ∃ i, rd.event.items = some i := by
  obtain ⟨e, p⟩ := rd
  obtain ⟨ha, -, hvl, -⟩ := h
  cases e with
  | start tag | empty tag =>
    obtain ⟨en, he⟩ := readEntries_of_wellValued ha.readable (hvl tag rfl)
    exact ⟨_, by rw [Event.items, he]; rfl⟩
  | text u =>
    obtain ⟨v, rfl, -⟩ := ha
    exact ⟨_, rfl⟩
  | generalRef r =>
    obtain ⟨v, hv, -⟩ := ha
    exact ⟨_, by rw [Event.items, hv]; rfl⟩
  | stop n => exact ⟨_, rfl⟩
  | cdata v => exact ⟨_, rfl⟩
  | comment v => exact ⟨_, rfl⟩
  | pi t c => exact ⟨_, rfl⟩
  | decl => exact ⟨_, rfl⟩
  | docType => exact ⟨_, rfl⟩

lemma readItems_cons (h : readItems (rd :: rs) = some i) :
    ∃ first r, rd.event.items = some first ∧ readItems rs = some r ∧ i = first ++ r := by
  simp only [readItems, Option.bind_eq_bind, Option.bind_eq_some_iff] at h
  obtain ⟨first, hf, r, hr, h⟩ := h
  cases h
  exact ⟨first, r, hf, hr, rfl⟩

lemma readStep_ok (ht : o.trimWhitespace = false) (h : b.Tracks mn) (hs : readStep o (p, b) rd = .ok s) :
    b.Allows o.safety rd ∧ s = (rd.position, b.advanced p rd) := by
  simp only [readStep, countEvent, bind_eq_ok, refuse_eq_ok, exists_unit, except_pure, Except.ok.injEq] at hs
  obtain ⟨_, ⟨-, rfl⟩, next, hap, rfl⟩ := hs
  obtain ⟨ha, rfl⟩ := (apply_ok_iff ht h.fit).mp hap
  exact ⟨ha, rfl⟩

/-- **What is kept of some events** is what their items describe, and all of them have items. -/
theorem outlined_of_readSteps (ht : o.trimWhitespace = false) {bl : DocumentBuilder}
    (h : bl.Tracks mn) (hk : bl.RootKnown) (hr : rs.foldlM (readStep o) (p, bl) = .ok s) :
    ∃ i, readItems rs = some i ∧ s.2.outlined = wellFormed.after bl.outlined i ∧ s.2.RootKnown := by
  induction rs generalizing mn p bl with
  | nil =>
    cases hr
    exact ⟨[], rfl, rfl, hk⟩
  | cons rd rs ih =>
    rw [foldlM_cons, bind_eq_ok] at hr
    obtain ⟨m, hs, hr⟩ := hr
    obtain ⟨ha, rfl⟩ := readStep_ok ht h hs
    obtain ⟨first, hf⟩ := exists_items_of_allows ha
    obtain ⟨r, hrs, ho, hl⟩ :=
      ih (tracks_advanced h ha) (rootKnown_advanced hk _ _) hr
    refine ⟨first ++ r, ?_, ?_, hl⟩
    · simp [readItems, hf, hrs]
    · rw [ho, bl.outlined_advanced hf, Monitor.after_append]

/-! ## What may be read -/

variable (bl : DocumentBuilder)

lemma opened_outlined : bl.outlined.opened = [] ↔ bl.opened = [] :=
  map_eq_nil_iff

lemma root_outlined : bl.outlined.root = none ↔ bl.root = none :=
  Option.map_eq_none_iff

/-- A start tag that is well formed and within the limits is admitted. -/
theorem allows_of_wellFormedTag (hk : b.RootKnown) (ht : rd.event = .start tag ∨ rd.event = .empty tag)
    (hen : readEntries tag.attributes = some entries) (hi : b.outlined.opened = [] → b.outlined.root = none)
    (hfr : WellFormedTag b.outlined.bindings tag.name entries)
    (hl : Limited pl b.progress (scopesOf b.opened) rd.event)
    (ha : arenas.allows b.sizes rd) : b.Allows pl rd := by
  obtain ⟨hn, hm⟩ := mem_of_readEntries hen
  have hbinds := tagBindings_of_readEntries hen tag.name
  have hevent : rd.event.tag = some tag := by
    rcases ht with ht | ht
    · rw [ht, Event.tag]
    · rw [ht, Event.tag]
  have hmemtag : tag ∈ rd.event.tag := by rw [hevent, Option.mem_def]
  have hadmits : b.progress.AdmitsTag pl tag := by
    refine ⟨?_, hl.depth tag hmemtag, hl.elements tag hmemtag, hl.attributes tag hmemtag, hn⟩
    rintro ⟨hdp, hc⟩
    have hroot := (root_outlined b).mp (hi ((opened_outlined b).mpr (length_eq_zero_iff.mp hdp)))
    have hc : b.rootComplete = true := hc
    rw [hk.complete, hroot] at hc
    cases hc
  have hnamed : tag.WellNamed pl (scopesOf b.opened).current := by
    rw [bindings_outlined] at hfr
    refine ⟨hfr.validName, ?_, hl.namespaces tag hmemtag, ?_, ?_⟩
    · intro f hf
      obtain ⟨v, hv, he⟩ := hm f hf
      exact ⟨hfr.attributeNames _ he, fun np hd => ⟨v, hv, hfr.declarations _ he np hd⟩⟩
    · rw [hbinds]
      exact hfr.resolved
    · rw [hbinds]
      intro f hf hd np hs _
      obtain ⟨v, hv, he⟩ := hm f hf
      refine hfr.attributesResolved _ (mem_filter.mpr ⟨he, ?_⟩) np hs
      rw [hd]
      rfl
  refine ⟨?_, ?_, ?_, ha⟩
  · rcases ht with ht | ht
    · rw [ht]
      exact hadmits
    · rw [ht]
      exact hadmits
  · rw [hevent]
    rintro _ ⟨⟩
    exact hnamed
  · rw [hevent]
    rintro _ ⟨⟩ f hf
    obtain ⟨v, hv, -⟩ := hm f hf
    rw [hv]
    exact Option.some_ne_none _

lemma admits_of_accepts_textItems {outline : Outline} {v : Text}
    (h : wellFormed.Accepts outline (textItems v)) : outline.opened = [] → v.all isXmlSpace = true := by
  intro ho
  induction v generalizing outline with
  | nil => rfl
  | cons c v ih =>
    obtain ⟨⟨-, hs⟩, hr⟩ := h
    have hnext : (wellFormed.next outline (.char c)).opened = [] := by
      unfold wellFormed Outline.next Outline.attach
      simp only [ho]
    rw [all_cons, hs ho, ih hr hnext, Bool.and_self]

lemma isWhitespace_of_isXmlSpace {c : Char} (h : isXmlSpace c = true) : isWhitespace c = true := by
  simp only [isXmlSpace, Bool.or_eq_true, decide_eq_true_eq] at h
  rcases h with ((rfl | rfl) | rfl) | rfl
  · decide
  · decide
  · decide
  · decide

lemma admitsText_of_accepts {v : CowText} (h : wellFormed.Accepts b.outlined (textItems v.value))
    (hl : b.progress.textBytes + utf8Length v.value ≤ pl.maxTextBytes) : b.progress.AdmitsText pl (some v) := by
  refine ⟨v, rfl, hl, ?_⟩
  intro hd
  have hspaces := admits_of_accepts_textItems h ((opened_outlined b).mpr (length_eq_zero_iff.mp hd))
  rw [all_eq_true] at hspaces ⊢
  intro c hc
  exact isWhitespace_of_isXmlSpace (hspaces c hc)

lemma allows_of_untagged (ht : rd.event.tag = none)
    (ha : b.progress.Admits pl rd.event) (har : arenas.allows b.sizes rd) : b.Allows pl rd := by
  refine ⟨ha, ?_, ?_, har⟩
  · rw [ht]
    intro tag hm
    cases hm
  · rw [ht]
    intro tag hm
    cases hm

/-- **An event that is well formed and within the limits** is allowed. -/
theorem allows_of_accepts (hk : b.RootKnown) (hi : rd.event.items = some i)
    (hac : wellFormed.Accepts b.outlined i) (hl : Limited pl b.progress (scopesOf b.opened) rd.event)
    (ha : arenas.allows b.sizes rd) : b.Allows pl rd := by
  obtain ⟨e, p⟩ := rd
  cases e with
  | start tag =>
    obtain ⟨en, he, rfl⟩ := Option.map_eq_some_iff.mp hi
    obtain ⟨⟨hin, hf⟩, -⟩ := hac
    exact allows_of_wellFormedTag hk (.inl rfl) he hin hf hl ha
  | empty tag =>
    obtain ⟨en, he, rfl⟩ := Option.map_eq_some_iff.mp hi
    obtain ⟨⟨hin, hf⟩, -⟩ := hac
    exact allows_of_wellFormedTag hk (.inr rfl) he hin hf hl ha
  | stop n =>
    cases hi
    obtain ⟨⟨el, hel, -⟩, -⟩ := hac
    refine allows_of_untagged rfl ?_ ha
    intro hd
    rw [(opened_outlined b).mpr (length_eq_zero_iff.mp hd)] at hel
    cases hel
  | text u =>
    obtain ⟨v, rfl, rfl⟩ := Option.map_eq_some_iff.mp hi
    exact allows_of_untagged rfl (admitsText_of_accepts hac hl.text) ha
  | generalRef r =>
    obtain ⟨v, hv, rfl⟩ := Option.map_eq_some_iff.mp hi
    have hlimit := hl.text
    unfold Event.textBytes at hlimit
    rw [hv] at hlimit
    refine allows_of_untagged rfl ?_ ha
    change b.progress.AdmitsText pl (Event.generalRef r).decoded
    rw [hv]
    exact admitsText_of_accepts hac hlimit
  | cdata v =>
    cases hi
    obtain ⟨⟨ho, -⟩, -⟩ := hac
    refine allows_of_untagged rfl ⟨⟨v, false⟩, rfl, hl.text, ?_⟩ ha
    intro hd
    exact absurd ((opened_outlined b).mpr (length_eq_zero_iff.mp hd)) ho
  | comment v | pi target content => exact allows_of_untagged rfl trivial ha
  | decl =>
    cases hi
    obtain ⟨⟨ho, hr⟩, -⟩ := hac
    rw [opened_outlined] at ho
    rw [root_outlined] at hr
    refine allows_of_untagged rfl ⟨?_, length_eq_zero_iff.mpr ho, ?_⟩ ha
    · refine Bool.eq_false_iff.mpr fun hs => ?_
      rcases hk.seen hs with h | h
      · exact h ho
      · exact h hr
    · change b.rootComplete = false
      rw [hk.complete, hr]
      rfl
  | docType =>
    cases hi
    obtain ⟨h, -⟩ := hac
    cases h

/-- **Events that are well formed and within the limits** are accepted by the checks of the builder. -/
theorem accepts_checks (position : ℕ) {bl : DocumentBuilder}
    (h : bl.Tracks mn) (hk : bl.RootKnown) (hi : readItems rs = some i)
    (hac : wellFormed.Accepts bl.outlined i) (hl : (limits pl).Accepts mn rs) : (checks pl).Accepts mn rs := by
  induction rs generalizing mn position bl i with
  | nil => exact trivial
  | cons rd rs ih =>
    obtain ⟨first, r, hf, hr, rfl⟩ := readItems_cons hi
    obtain ⟨hh, ht⟩ := wellFormed.accepts_append.mp hac
    obtain ⟨⟨hlm, ha⟩, hl⟩ := hl
    have hprog := h.progress
    have hscopes := h.scopes
    have hsizes := h.arenas
    rw [hprog, hscopes] at hlm
    rw [hsizes] at ha
    have hallows := allows_of_accepts hk hf hh hlm ha
    rw [← bl.outlined_advanced hf] at ht
    refine ⟨?_, ih position (tracks_advanced h hallows) (rootKnown_advanced hk position rd) hr ht hl⟩
    obtain ⟨had, hn, hv, -⟩ := hallows
    obtain ⟨p', s', _, sz'⟩ := mn
    cases hprog
    cases hscopes
    exact ⟨⟨hlm.events, had⟩, hn, hv, by rw [← hsizes] at ha; exact ha⟩

end DocumentBuilder

variable {t : List UInt8 → TokenStream} {sr : List UInt8} {policy : XmlSafetyPolicy}

/-- **The tree of a document that is read** is the one that its items describe. -/
theorem parseWithOptions_outline {r : XmlElement} (h : parseWithOptions t sr ⟨policy, false⟩ = .ok r) :
    ∃ items, readItems (t sr).events = some items ∧
      wellFormed.after Outline.new items = ⟨[], some r.node.named⟩ := by
  simp only [parseWithOptions, parse, bind_eq_ok, refuse_eq_ok, exists_unit,
    okOr_eq_ok, readEvents_eq_foldlM] at h
  obtain ⟨-, -, b, ⟨builder, ⟨l, hrn⟩, hf⟩, hr⟩ := h
  obtain ⟨items, hi, ho, -⟩ := outlined_of_readSteps rfl
    tracks_new ⟨rfl, fun hs => absurd hs Bool.false_ne_true⟩ hrn
  refine ⟨items, hi, ho.symm.trans ?_⟩
  cases hread : (t sr).finish with
  | failed e =>
    rw [hread] at hf
    cases hf
  | eof =>
    rw [hread] at hf
    simp only [bind_eq_ok, refuse_eq_ok, exists_unit, not_or, not_not, Bool.not_eq_false,
      except_pure, Except.ok.injEq] at hf
    obtain ⟨⟨hop, -⟩, rfl⟩ := hf
    unfold outlined
    rw [hop, hr]
    rfl

/-- **A well-formed document** within the limits is read, and its tree is the one that its items describe. -/
theorem parseWithOptions_of_wellFormed {items : List Item} (hi : readItems (t sr).events = some items)
    (hfn : (t sr).finish = .eof) (hf : WellFormed items) (hl : WithinLimits policy sr (t sr)) :
    ∃ r, parseWithOptions t sr ⟨policy, false⟩ = .ok r ∧
      wellFormed.after Outline.new items = ⟨[], some r.node.named⟩ := by
  obtain ⟨⟨hp, hsz⟩, hl⟩ := hl
  have hnew : new.RootKnown := ⟨rfl, fun hs => absurd hs Bool.false_ne_true⟩
  have hacc := accepts_checks 0 tracks_new hnew hi hf.accepted hl
  obtain ⟨⟨l, builder⟩, hr⟩ := (@DocumentBuilder.realizes_checks ⟨policy, false⟩ rfl).to_ok
    (show (fun (state : ℕ × DocumentBuilder) monitored => state.2.Tracks monitored)
      (0, new) (Progress.new, Scopes.new, (), Arenas.new) from tracks_new)
    hacc
  obtain ⟨i', hi', ho, hk⟩ :=
    outlined_of_readSteps rfl tracks_new hnew hr
  rw [hi] at hi'
  cases hi'
  have hclos := hf.closed
  have hroot := hf.root
  rw [← outlined_new, ← ho] at hclos hroot
  obtain ⟨r, hb⟩ := Option.ne_none_iff_exists'.mp (fun hn => hroot ((root_outlined builder).mpr hn))
  have hparse : parseWithOptions t sr ⟨policy, false⟩ = .ok r := by
    simp only [parseWithOptions, parse, bind_eq_ok, refuse_eq_ok, exists_unit,
      okOr_eq_ok, readEvents_eq_foldlM, hfn]
    refine ⟨hp, not_lt.mpr hsz, builder, ⟨builder, ⟨l, hr⟩, ?_⟩, hb⟩
    simp only [except_pure, not_or, not_not, Bool.not_eq_false, and_true]
    refine ⟨(opened_outlined builder).mp hclos, ?_⟩
    rw [hk.complete, hb]
    rfl
  obtain ⟨i', hi', ha⟩ := parseWithOptions_outline hparse
  rw [hi] at hi'
  cases hi'
  exact ⟨r, hparse, ha⟩

end AsterForge.Xml
