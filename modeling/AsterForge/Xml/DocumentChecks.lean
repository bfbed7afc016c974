import AsterForge.Xml.ScannerChecks

/-!
# What the tree builder checks

The tree builder checks the shape of a document and its names, as the scanner does, and the values of its
attributes and the sizes of its arenas besides.

* **`parseWithOptions_accepts_iff`** — what the tree builder accepts where no text is trimmed.
-/

namespace AsterForge.Xml

open Library XmlAttribute DocumentBuilder Progress Option Except List

/-! ## Strings -/

lemma sourceValue_ok_iff {v : Text} : sourceValue v = .ok () ↔ utf8Length v ≤ u32Max := by
  rw [sourceValue, refuse_eq_ok, not_lt]

variable {ownedValues : ℕ} {np : Text} {policy : XmlSafetyPolicy}

/-- **A string that is kept** fits, and so does its index if it has to be built. -/
theorem cowValue_ok_iff {next : ℕ} {v : CowText} (ho : ownedValues ≤ u32Max + 1) :
    cowValue ownedValues v = .ok next ↔
      (utf8Length v.value ≤ u32Max ∧ ownedValues + (if v.owned then 1 else 0) ≤ u32Max + 1) ∧
        next = ownedValues + if v.owned then 1 else 0 := by
  unfold cowValue
  by_cases h : v.owned = true
  · simp only [h, if_true, arenaLen, sourceValue, bind_eq_ok, refuse_eq_ok, exists_unit, not_lt,
      except_pure, ok.injEq]
    omega
  · simp only [h, if_false, Bool.false_eq_true, sourceValue, bind_eq_ok, refuse_eq_ok, exists_unit,
      not_lt, except_pure, ok.injEq]
    omega

variable {uri : CowText} {en : XmlAttribute}

lemma uriValue_ok_iff {next : ℕ} (ho : ownedValues ≤ u32Max + 1) :
    uriValue ownedValues uri = .ok next ↔ (utf8Length uri.value ≤ u32Max ∧
        ownedValues + (if uri.owned = true ∧ uri.value ≠ [] then 1 else 0) ≤ u32Max + 1) ∧
        next = ownedValues + if uri.owned = true ∧ uri.value ≠ [] then 1 else 0 := by
  unfold uriValue
  by_cases hempty : uri.value = []
  · have hlen : utf8Length uri.value ≤ u32Max := by
      rw [hempty]
      exact Nat.zero_le _
    simp only [hempty, if_true, ok.injEq, ne_eq, not_true_eq_false, and_false, if_false,
      Nat.add_zero, ho, and_true]
    rw [hempty] at hlen
    constructor
    · intro h
      exact ⟨hlen, h.symm⟩
    · intro h
      exact h.2.symm
  · rw [if_neg hempty, cowValue_ok_iff ho]
    simp [hempty]

/-! ## Attributes -/

lemma builtFor_cons (d : Bool) (entry : Option XmlAttribute) (e : List (Option XmlAttribute)) :
    builtFor d (entry :: e) = builtFor d [entry] + builtFor d e := by
  simp [builtFor]

lemma strings_of_some (h : namespaceDeclarationPrefix en.key = some np) (hu : en.normalized = some uri) :
    en.strings = [np, uri.value] := by
  simp [strings, h, hu]

lemma builtFor_of_some (h : namespaceDeclarationPrefix en.key = some np) (hu : en.normalized = some uri) :
    builtFor true [some en] = if uri.owned = true ∧ uri.value ≠ [] then 1 else 0 := by
  obtain ⟨v, o⟩ := uri
  cases o <;> by_cases hempty : v = [] <;> simp [builtFor, built, h, hu, hempty]

lemma builtFor_of_none (h : namespaceDeclarationPrefix en.key = none) : builtFor true [some en] = 0 := by
  simp [builtFor, h]

def XmlAttribute.Kept (declaring : Bool) (entry : XmlAttribute) : Prop :=
  (namespaceDeclarationPrefix entry.key).isSome = declaring →
    ∀ value ∈ entry.strings, utf8Length value ≤ u32Max

/-- **One attribute**, in the pass that reads the declarations. -/
theorem declareNamespace_ok_iff {d next : DeclaredNamespaces}
    {entry : Option XmlAttribute} (ho : d.ownedValues ≤ u32Max + 1) : declareNamespace policy d entry = .ok next ↔
      ∃ f, entry = some f ∧ (f.WellDeclared ∧ f.Kept true) ∧ (d.count + 1 ≤ policy.maxAttributesPerElement ∧
        d.ownedValues + builtFor true [entry] ≤ u32Max + 1) ∧
        next = ⟨d.count + 1, d.bindings ++ tagBindings ⟨[], [entry]⟩,
          d.ownedValues + builtFor true [entry]⟩ := by
  simp only [declareNamespace, bind_eq_ok, refuse_eq_ok, okOr_eq_ok, not_lt, exists_unit]
  constructor
  · rintro ⟨hc, f, rfl, p, hp, h⟩
    refine ⟨f, rfl, ?_⟩
    cases hdecl : namespaceDeclarationPrefix f.key with
    | none =>
      rw [hdecl] at h
      cases h
      rw [tagBindings_single_of_none hdecl, builtFor_of_none hdecl, append_nil]
      refine ⟨⟨wellDeclared_of_none hdecl hp, ?_⟩, ⟨hc, ho⟩, rfl⟩
      intro hd
      rw [hdecl] at hd
      cases hd
    | some np =>
      rw [hdecl] at h
      simp only [bind_eq_ok, okOr_eq_ok, exists_unit, sourceValue_ok_iff, uriValue_ok_iff ho] at h
      obtain ⟨uri, hu, hv, hl, ownedValues, ⟨⟨hur, hr⟩, rfl⟩, h⟩ := h
      cases h
      rw [tagBindings_single_of_some hdecl hu, builtFor_of_some hdecl hu]
      refine ⟨⟨wellDeclared_of_some hdecl hp hu hv, ?_⟩, ⟨hc, hr⟩, rfl⟩
      intro _ v hm
      rw [strings_of_some hdecl hu, mem_cons, mem_singleton] at hm
      rcases hm with rfl | rfl
      · exact hl
      · exact hur
  · rintro ⟨f, rfl, ⟨⟨⟨p, hp⟩, hv⟩, hk⟩, ⟨hc, hr⟩, rfl⟩
    refine ⟨hc, f, rfl, p, hp, ?_⟩
    cases hdecl : namespaceDeclarationPrefix f.key with
    | none =>
      rw [tagBindings_single_of_none hdecl, builtFor_of_none hdecl, append_nil]
      rfl
    | some np =>
      obtain ⟨uri, hu, hb⟩ := hv np hdecl
      have hk := hk (by rw [hdecl]; rfl)
      rw [strings_of_some hdecl hu] at hk
      rw [builtFor_of_some hdecl hu] at hr
      rw [tagBindings_single_of_some hdecl hu, builtFor_of_some hdecl hu]
      simp only [bind_eq_ok, okOr_eq_ok, exists_unit, sourceValue_ok_iff, uriValue_ok_iff ho]
      exact ⟨uri, hu, hb, hk np mem_cons_self, _,
        ⟨⟨hk uri.value (mem_cons_of_mem _ mem_cons_self), hr⟩, rfl⟩, rfl⟩

/-- **The pass that reads the declarations.** -/
theorem declareNamespaces_ok_iff {p : XmlSafetyPolicy} {d next : DeclaredNamespaces}
    {e : List (Option XmlAttribute)} (hfits : d.count ≤ p.maxAttributesPerElement ∧ d.ownedValues ≤ u32Max + 1) :
    e.foldlM (declareNamespace p) d = .ok next ↔
      (none ∉ e ∧ (∀ en, some en ∈ e → en.WellDeclared ∧ en.Kept true) ∧
        d.count + e.length ≤ p.maxAttributesPerElement ∧ d.ownedValues + builtFor true e ≤ u32Max + 1) ∧
      next = ⟨d.count + e.length, d.bindings ++ tagBindings ⟨[], e⟩, d.ownedValues + builtFor true e⟩ := by
  refine pass_ok_iff (fun d : DeclaredNamespaces => d.count ≤ p.maxAttributesPerElement ∧
    d.ownedValues ≤ u32Max + 1) (fun d e => ⟨d.count + e.length, d.bindings ++ tagBindings ⟨[], e⟩,
      d.ownedValues + builtFor true e⟩) ?_ ?_ ?_ ?_ hfits
  · intro d
    simp [tagBindings, builtFor]
  · intro d entry e
    simp [tagBindings_cons entry e, builtFor_cons true entry e, Nat.add_comm, Nat.add_left_comm]
  · rintro d e ⟨hc, ho⟩
    dsimp only at hc ho
    exact ⟨by omega, by omega⟩
  · exact fun d next entry h => declareNamespace_ok_iff h.2

lemma tagAttributes_cons (entry : Option XmlAttribute) (e : List (Option XmlAttribute)) :
    tagAttributes ⟨[], entry :: e⟩ = tagAttributes ⟨[], [entry]⟩ ++ tagAttributes ⟨[], e⟩ := by
  rw [tagAttributes, tagAttributes, tagAttributes, ← filterMap_append, singleton_append]

def XmlAttribute.Valued (entry : XmlAttribute) : Prop :=
  namespaceDeclarationPrefix entry.key = none → entry.normalized ≠ none

/-- **One attribute**, in the pass that reads the values. -/
theorem readAttribute_ok_iff {s : NamespaceScope} {read next : ReadAttributes}
    {entry : Option XmlAttribute} (ho : read.ownedValues ≤ u32Max + 1) : readAttribute s read entry = .ok next ↔
      ∃ f, entry = some f ∧ (f.Resolved (flatScope s) ∧ f.Valued ∧ f.Kept false) ∧
        read.ownedValues + builtFor false [entry] ≤ u32Max + 1 ∧
        next = ⟨read.attributes ++ tagAttributes ⟨[], [entry]⟩,
          read.ownedValues + builtFor false [entry]⟩ := by
  simp only [readAttribute, bind_eq_ok, okOr_eq_ok, XmlAttribute.Resolved, XmlAttribute.Valued,
    XmlAttribute.Kept]
  refine exists_congr fun f => and_congr_right fun hf => ?_
  subst hf
  rw [and_assoc, and_assoc]
  cases hdecl : namespaceDeclarationPrefix f.key with
  | some np =>
    simp only [except_pure, ok.injEq, reduceCtorEq, false_imp_iff, true_and, isSome_some,
      Bool.true_eq_false, tagAttributes, builtFor, filterMap_cons, filterMap_nil,
      bind_some, hdecl, if_true, append_nil, map_cons, map_nil, elim_some,
      if_false, sum_cons, sum_nil, Nat.add_zero, ho]
    exact eq_comm
  | none =>
    have hstrings : ∀ v, f.normalized = some v → f.strings = [f.key, v.value] := by
      intro v hv
      simp [strings, hdecl, hv]
    have hbuilt : ∀ v, f.normalized = some v → builtFor false [some f] = if v.owned then 1 else 0 := by
      intro v hv
      obtain ⟨t, o⟩ := v
      cases o <;> simp [builtFor, built, hdecl, hv]
    have hresol : (¬ ∃ np ∈ (splitQualifiedName f.key).1, np ≠ "xml".toList ∧
        resolveNamespace s np = none) ↔ ∀ np ∈ (splitQualifiedName f.key).1,
          np ≠ "xml".toList → namespaceIn (flatScope s) np ≠ none := by
      simp [not_exists, resolveNamespace_eq]
    simp only [bind_eq_ok, refuse_eq_ok, okOr_eq_ok, exists_unit, sourceValue_ok_iff,
      cowValue_ok_iff ho, hresol, true_imp_iff, isSome_none]
    refine and_congr_right fun _ => ?_
    constructor
    · rintro ⟨v, hv, hky, ownedValues, ⟨⟨hl, hr⟩, rfl⟩, h⟩
      cases h
      rw [hstrings v hv, hbuilt v hv]
      refine ⟨by rw [hv]; exact some_ne_none _, ?_, hr, ?_⟩
      · intro t hm
        rw [mem_cons, mem_singleton] at hm
        rcases hm with rfl | rfl
        · exact hky
        · exact hl
      · simp [tagAttributes, hdecl, hv]
    · rintro ⟨hvl, hk, hr, rfl⟩
      obtain ⟨v, hv⟩ := ne_none_iff_exists'.mp hvl
      rw [hstrings v hv] at hk
      rw [hbuilt v hv] at hr
      refine ⟨v, hv, hk f.key mem_cons_self, _, ⟨⟨hk v.value (mem_cons_of_mem _ mem_cons_self), hr⟩, rfl⟩, ?_⟩
      rw [hbuilt v hv]
      simp [tagAttributes, hdecl, hv]

/-- **The pass that reads the values.** -/
theorem readAttributes_ok_iff {s : NamespaceScope} {read next : ReadAttributes}
    {e : List (Option XmlAttribute)} (how : read.ownedValues ≤ u32Max + 1) :
    e.foldlM (readAttribute s) read = .ok next ↔
      (none ∉ e ∧ (∀ en, some en ∈ e → en.Resolved (flatScope s) ∧ en.Valued ∧ en.Kept false) ∧
        read.ownedValues + builtFor false e ≤ u32Max + 1) ∧
      next = ⟨read.attributes ++ tagAttributes ⟨[], e⟩, read.ownedValues + builtFor false e⟩ := by
  refine pass_ok_iff (fun read : ReadAttributes => read.ownedValues ≤ u32Max + 1)
    (fun read e => ⟨read.attributes ++ tagAttributes ⟨[], e⟩, read.ownedValues + builtFor false e⟩)
    ?_ ?_ ?_ ?_ how
  · intro read
    simp [tagAttributes, builtFor]
  · intro read entry e
    simp [tagAttributes_cons entry e, builtFor_cons false entry e, Nat.add_assoc]
  · exact fun read e h => le_trans (Nat.le_add_right _ _) h
  · exact fun read next entry h => readAttribute_ok_iff h

lemma kept_iff {e : List (Option XmlAttribute)} :
    (∀ v ∈ e.reduceOption.flatMap strings, utf8Length v ≤ u32Max) ↔
      (∀ en, some en ∈ e → en.Kept true) ∧ ∀ en, some en ∈ e → en.Kept false := by
  simp only [mem_flatMap, reduceOption_mem_iff]
  constructor
  · intro h
    exact ⟨fun en hm _ v hv => h v ⟨en, hm, hv⟩, fun en hm _ v hv => h v ⟨en, hm, hv⟩⟩
  · rintro ⟨hd, ho⟩ v ⟨en, hm, hv⟩
    cases hdecl : (namespaceDeclarationPrefix en.key).isSome with
    | true => exact hd en hm hdecl v hv
    | false => exact ho en hm hdecl v hv

lemma wellValued_iff {tag : BytesStart} (h : ∀ en, some en ∈ tag.attributes → en.WellDeclared) :
    (∀ en, some en ∈ tag.attributes → en.Valued) ↔ tag.WellValued := by
  refine forall_congr' fun en => forall_congr' fun hm => ?_
  rw [XmlAttribute.Valued]
  cases hdecl : namespaceDeclarationPrefix en.key with
  | none => simp
  | some np =>
    obtain ⟨uri, hu, -⟩ := (h en hm).2 np hdecl
    simp [hu]

namespace DocumentBuilder

variable {o : ParseOptions} {builder next : DocumentBuilder}

/-! ## Elements -/

def sizes (builder : DocumentBuilder) : Arenas :=
  ⟨builder.opened.length, builder.nodes, builder.attributes, builder.namespaceScopes,
    builder.namespaceBindings, builder.ownedValues⟩

/-- The arenas with one more element. -/
def built (builder : DocumentBuilder) (tag : BytesStart) : DocumentBuilder :=
  { builder with
    nodes := builder.nodes + 1
    attributes := builder.attributes + (tagAttributes tag).length
    namespaceScopes := builder.namespaceScopes + (if tagBindings tag = [] then 0 else 1)
    namespaceBindings := builder.namespaceBindings + (tagBindings tag).length
    ownedValues := builder.ownedValues + builtFor true tag.attributes + builtFor false tag.attributes
    rootSeen := true }

/-- **An element is built** where its tag is well named and has values, and the arenas fit. -/
theorem buildElement_ok_iff {tag : BytesStart} {sourceStart se : ℕ} {dt : ElementData} (hf : builder.sizes.Fit) :
    builder.buildElement o tag sourceStart se = .ok (dt, next) ↔
      (¬ (builder.opened = [] ∧ builder.rootComplete = true) ∧
        tag.attributes.length ≤ o.safety.maxAttributesPerElement ∧ none ∉ tag.attributes ∧
        tag.WellNamed o.safety (flatScope builder.parentScope) ∧ tag.WellValued ∧
        (builder.sizes.addElement tag).Fit ∧
        ∀ v ∈ tag.name :: tag.attributes.reduceOption.flatMap strings, utf8Length v ≤ u32Max) ∧
      dt = tagData builder.parentScope tag sourceStart se ∧ next = builder.built tag := by
  obtain ⟨hnd, hat, hs, hb, how⟩ := hf
  have hdeclare : ∀ d, tag.attributes.foldlM (declareNamespace o.safety)
      ⟨0, [], builder.ownedValues⟩ = .ok d ↔ _ := fun d =>
    @declareNamespaces_ok_iff o.safety ⟨0, [], builder.ownedValues⟩ d tag.attributes ⟨Nat.zero_le _, how⟩
  simp only [buildElement, bind_eq_ok, refuse_eq_ok, exists_unit, arenaLen, sourceValue_ok_iff,
    pushNode, not_lt, hdeclare, Nat.zero_add, nil_append, imp_and, forall_and]
  rw [forall_mem_cons, kept_iff]
  have hscoped : (if tagBindings ⟨[], tag.attributes⟩ = [] then builder.parentScope
      else tagBindings ⟨[], tag.attributes⟩ :: builder.parentScope) = tagScope builder.parentScope tag := rfl
  have hflat := flatScope_tagScope builder.parentScope tag
  constructor
  · rintro ⟨hi, p, hp, -, d, ⟨⟨hr, ⟨hd, hk⟩, hc, hrm⟩, rfl⟩,
      hbinds', hscope', hl, hrs, -, read, hread, hattrs', hname, pushed, ⟨hnodes', hpushed⟩, h⟩
    cases validateQualifiedName_parts hp
    rw [hscoped, ← length_flatScope, hflat] at hl
    rw [hscoped] at hread hrs
    obtain ⟨⟨-, ha, hls⟩, rfl⟩ := (readAttributes_ok_iff hrm).mp hread
    simp only [imp_and, forall_and] at ha
    obtain ⟨ha, hv, ho⟩ := ha
    rw [hflat] at ha
    cases hpushed
    cases h
    refine ⟨⟨hi, hc, hr, ⟨⟨_, hp⟩, hd, hl, ?_, ha⟩,
      (wellValued_iff hd).mp hv, ⟨hnodes', hattrs', ?_, hbinds', hls⟩, hname, hk, ho⟩, ?_, ?_⟩
    · intro np hm hn
      rw [← hflat, ← resolveNamespace_eq] at hn
      exact hrs ⟨np, hm, hn⟩
    · change builder.namespaceScopes + (if tagBindings ⟨[], tag.attributes⟩ = [] then 0 else 1) ≤ u32Max
      by_cases hempty : tagBindings ⟨[], tag.attributes⟩ = []
      · rw [if_pos hempty]
        exact hs
      · rw [if_neg hempty]
        exact not_lt.mp fun h => hscope' ⟨hempty, h⟩
    · rfl
    · rfl
  · rintro ⟨⟨hi, hc, hr, ⟨⟨p, hp⟩, hd, hl, hrs, ha⟩, hv,
      ⟨hnodes', hattrs', hscope', hbinds', hrm⟩, hname, hk, ho⟩, rfl, rfl⟩
    cases validateQualifiedName_parts hp
    have hroom' : builder.ownedValues + builtFor true tag.attributes ≤ u32Max + 1 := by
      simp only [Arenas.addElement, sizes] at hrm
      omega
    refine ⟨hi, _, hp, hb, _, ⟨⟨hr, ⟨hd, hk⟩, hc, hroom'⟩, rfl⟩, hbinds', ?_, ?_, ?_, hat, ?_⟩
    · rintro ⟨hdc, h⟩
      have hscope' : builder.namespaceScopes +
          (if tagBindings ⟨[], tag.attributes⟩ = [] then 0 else 1) ≤ u32Max := hscope'
      rw [if_neg hdc] at hscope'
      exact absurd hscope' (not_le.mpr h)
    · rw [hscoped, ← length_flatScope, hflat]
      exact hl
    · rw [hscoped]
      rintro ⟨np, hm, hn⟩
      rw [resolveNamespace_eq, hflat] at hn
      exact hrs np hm hn
    · rw [← hflat] at ha
      have hv := (wellValued_iff hd).mpr hv
      exact ⟨_, (readAttributes_ok_iff hroom').mpr ⟨⟨hr, fun en hm => ⟨ha en hm, hv en hm, ho en hm⟩,
        hrm⟩, rfl⟩, hattrs', hname, _, ⟨hnodes', rfl⟩, rfl⟩

/-! ## Events -/

def scopesOf : List OpenElement → Scopes
  | [] => Scopes.new
  | element :: rest =>
    ⟨flatScope element.data.namespaceScope, (scopesOf rest).current :: (scopesOf rest).outer⟩

lemma flatScope_parentScope (b : DocumentBuilder) : flatScope b.parentScope = (scopesOf b.opened).current := by
  unfold parentScope
  cases b.opened with
  | nil => rfl
  | cons e r => rfl

def progress (builder : DocumentBuilder) : Progress :=
  ⟨builder.opened.length, builder.elementCount, builder.textBytes, builder.eventCount, builder.rootSeen,
    builder.rootComplete⟩

structure Tracks (builder : DocumentBuilder) (monitored : Progress × Scopes × Unit × Arenas) : Prop where
  progress : monitored.1 = builder.progress
  scopes : monitored.2.1 = scopesOf builder.opened
  arenas : monitored.2.2.2 = builder.sizes
  fit : builder.sizes.Fit
  root : builder.rootComplete = true → builder.root ≠ none

def checks (policy : XmlSafetyPolicy) : Monitor (Progress × Scopes × Unit × Arenas) ReadEvent :=
  (shape policy).both ((names policy).both (values.both arenas))

lemma tracks_new : new.Tracks (Progress.new, Scopes.new, (), Arenas.new) := by
  refine ⟨rfl, rfl, rfl, ?_, ?_⟩
  · exact ⟨Nat.zero_le _, Nat.zero_le _, Nat.zero_le _, Nat.zero_le _, Nat.zero_le _⟩
  · nofun

def counted (builder : DocumentBuilder) : DocumentBuilder :=
  { builder with eventCount := builder.eventCount + 1 }

/-- The builder behind character data that it keeps. -/
def withText (builder : DocumentBuilder) (value : CowText) (cdata : Bool) : DocumentBuilder :=
  if builder.opened = [] ∨ value.value = [] then
    { builder with textBytes := builder.textBytes + utf8Length value.value }
  else
    { builder with
      textBytes := builder.textBytes + utf8Length value.value
      ownedValues := builder.ownedValues + (if value.owned then 1 else 0)
      nodes := builder.nodes + 1 }.attach (if cdata then .cdata value.value else .text value.value)

def withNode (builder : DocumentBuilder) (node : XmlNode) : DocumentBuilder :=
  if builder.opened = [] then builder else { builder with nodes := builder.nodes + 1 }.attach node

def advanced (builder : DocumentBuilder) (sourceStart : ℕ) (read : ReadEvent) : DocumentBuilder :=
  match read.event with
  | .start tag =>
    { builder.counted.built tag with
      elementCount := builder.elementCount + 1
      opened := ⟨tagData builder.parentScope tag sourceStart read.position, []⟩ :: builder.opened }
  | .empty tag =>
    { builder.counted.built tag with elementCount := builder.elementCount + 1 }.complete
      ⟨tagData builder.parentScope tag sourceStart read.position, []⟩
  | .stop _ =>
    match builder.opened with
    | [] => builder.counted
    | element :: rest => { builder.counted with opened := rest }.complete
      ⟨{ element.data with sourceEnd := read.position }, element.children⟩
  | .text unescaped => unescaped.elim builder.counted fun value => builder.counted.withText value false
  | .cdata value => builder.counted.withText ⟨value, false⟩ true
  | .generalRef reference => (Event.generalRef reference).decoded.elim builder.counted fun value =>
    builder.counted.withText value false
  | .comment value => builder.counted.withNode (.comment value)
  | .pi target content =>
    builder.counted.withNode (.processingInstruction target (instructionContent content))
  | .decl | .docType => builder.counted

lemma depth_iff : builder.sizes.depth = 0 ↔ builder.opened = [] := length_eq_zero_iff

/-- **Character data** is read where it is admitted, and the arenas fit if it is kept. -/
theorem textNode_ok_iff {v : CowText} {c : Bool} (ht : o.trimWhitespace = false) (hf : builder.sizes.Fit) :
    builder.textNode o v c = .ok next ↔
      ((builder.textBytes + utf8Length v.value ≤ o.safety.maxTextBytes ∧
          (builder.opened.length = 0 → v.value.all isWhitespace = true)) ∧
        (builder.sizes.addText v).Fit ∧
        (builder.opened.length ≠ 0 → utf8Length v.value ≤ u32Max)) ∧
      next = builder.withText v c := by
  obtain ⟨hnd, ha, hs, hb, ho⟩ := id hf
  simp only [textNode, bind_eq_ok, refuse_eq_ok, exists_unit, not_lt, ht, if_false,
    Bool.false_eq_true, length_eq_zero_iff, withText, ne_eq, and_assoc]
  refine and_congr_right fun _ => ?_
  by_cases hempty : v.value = []
  · have hadd : builder.sizes.addText v = builder.sizes := if_pos (.inr hempty)
    rw [if_pos hempty, if_pos (.inr hempty), hadd, hempty]
    simp only [except_pure, ok.injEq, hf, all_nil, implies_true, true_and, utf8Length,
      map_nil, sum_nil, Nat.zero_le, Nat.add_zero]
    exact eq_comm
  · by_cases hopen : builder.opened = []
    · have hadd : builder.sizes.addText v = builder.sizes := if_pos (.inl (depth_iff.mpr hopen))
      rw [if_neg hempty, if_pos hopen, hadd]
      simp only [bind_eq_ok, refuse_eq_ok, exists_unit, except_pure, ok.injEq, hf, hopen,
        true_imp_iff, not_true_eq_false, false_imp_iff, true_and, Bool.not_eq_false]
      exact and_congr_right fun _ => eq_comm
    · have hadd : builder.sizes.addText v = { builder.sizes with
          nodes := builder.sizes.nodes + 1
          ownedValues := builder.sizes.ownedValues + if v.owned then 1 else 0 } := by
        refine if_neg ?_
        rintro (h | h)
        · exact hopen (depth_iff.mp h)
        · exact hempty h
      have hneither : ¬ (builder.opened = [] ∨ v.value = []) := by
        rintro (h | h)
        · exact hopen h
        · exact hempty h
      rw [if_neg hempty, if_neg hneither, hadd]
      simp only [bind_eq_ok, pushContent, hopen, if_false, pushNode, refuse_eq_ok, exists_unit,
        not_lt, except_pure, ok.injEq, false_imp_iff, true_and, not_false_eq_true, true_imp_iff]
      constructor
      · rintro ⟨_, hk, p, ⟨hn, rfl⟩, rfl⟩
        obtain ⟨⟨hl, hr⟩, rfl⟩ := (cowValue_ok_iff ho).mp hk
        exact ⟨⟨hn, ha, hs, hb, hr⟩, hl, rfl⟩
      · rintro ⟨⟨hn, -, -, -, hr⟩, hl, rfl⟩
        exact ⟨_, (cowValue_ok_iff ho).mpr ⟨⟨hl, hr⟩, rfl⟩, _, ⟨hn, rfl⟩, rfl⟩

lemma pushContent_ok_iff {n : XmlNode} (hf : builder.sizes.Fit) :
    builder.pushContent n = .ok next ↔ builder.sizes.addNode.Fit ∧ next = builder.withNode n := by
  obtain ⟨hnd, ha, hs, hb, ho⟩ := id hf
  by_cases hopen : builder.opened = []
  · rw [pushContent, if_pos hopen, withNode, if_pos hopen, Arenas.addNode, if_pos (depth_iff.mpr hopen)]
    simp only [except_pure, ok.injEq, hf, true_and]
    exact eq_comm
  · rw [pushContent, if_neg hopen, withNode, if_neg hopen, Arenas.addNode,
      if_neg (fun h => hopen (depth_iff.mp h))]
    simp only [bind_eq_ok, pushNode, refuse_eq_ok, exists_unit, not_lt, except_pure, ok.injEq]
    constructor
    · rintro ⟨p, ⟨hn, rfl⟩, rfl⟩
      exact ⟨⟨hn, ha, hs, hb, ho⟩, rfl⟩
    · rintro ⟨⟨hn, -, -, -, -⟩, rfl⟩
      exact ⟨_, ⟨hn, rfl⟩, rfl⟩

/-- **A tag that is counted and built.** -/
theorem checkElement_buildElement_iff {tag : BytesStart} {sourceStart se : ℕ} {d : ElementData}
    (hf : builder.sizes.Fit) :
    (∃ c, builder.counted.checkElement o = .ok c ∧ c.buildElement o tag sourceStart se = .ok (d, next)) ↔
      (builder.progress.AdmitsTag o.safety tag ∧
        tag.WellNamed o.safety (scopesOf builder.opened).current ∧ tag.WellValued ∧
        (builder.sizes.addElement tag).Fit ∧
        ∀ v ∈ tag.name :: tag.attributes.reduceOption.flatMap strings, utf8Length v ≤ u32Max) ∧
      d = tagData builder.parentScope tag sourceStart se ∧
      next = { builder.counted.built tag with elementCount := builder.elementCount + 1 } := by
  have hbuild := @buildElement_ok_iff o
    { builder.counted with elementCount := builder.elementCount + 1 } next tag sourceStart se d hf
  rw [← flatScope_parentScope]
  simp only [checkElement, bind_eq_ok, refuse_eq_ok, exists_unit, not_lt, except_pure, ok.injEq]
  constructor
  · rintro ⟨c, ⟨hd, he, rfl⟩, hb⟩
    obtain ⟨⟨hi, hc, hrd, hr⟩, hdt, hn⟩ := hbuild.mp hb
    rw [← length_eq_zero_iff] at hi
    exact ⟨⟨⟨hi, hd, he, hc, hrd⟩, hr⟩, hdt, hn⟩
  · rintro ⟨⟨⟨hi, hd, he, hc, hrd⟩, hr⟩, hdt, hn⟩
    have hi : ¬ (builder.opened.length = 0 ∧ builder.rootComplete = true) := hi
    rw [length_eq_zero_iff] at hi
    exact ⟨_, ⟨hd, he, rfl⟩, hbuild.mpr ⟨⟨hi, hc, hrd, hr⟩, hdt, hn⟩⟩

def Allows (builder : DocumentBuilder) (policy : XmlSafetyPolicy) (read : ReadEvent) : Prop :=
  builder.progress.Admits policy read.event ∧
    (∀ tag ∈ read.event.tag, tag.WellNamed policy (scopesOf builder.opened).current) ∧
    (∀ tag ∈ read.event.tag, tag.WellValued) ∧ arenas.allows builder.sizes read

variable {rd : ReadEvent} {mn : Progress × Scopes × Unit × Arenas} {pl : XmlSafetyPolicy}
  {tag : BytesStart} {ss : ℕ}

lemma allows_tag_iff (ht : rd.event = .start tag ∨ rd.event = .empty tag) :
    builder.Allows pl rd ↔ (builder.progress.AdmitsTag pl tag ∧
        tag.WellNamed pl (scopesOf builder.opened).current ∧ tag.WellValued ∧
        (builder.sizes.addElement tag).Fit ∧
        ∀ v ∈ tag.name :: tag.attributes.reduceOption.flatMap strings, utf8Length v ≤ u32Max) := by
  have hstart : ∀ (s : Arenas) (d : ℕ), ({ s with depth := d } : Arenas).Fit ↔ s.Fit := by
    intro s d
    constructor
    · rintro ⟨hn, ha, hs, hb, ho⟩
      exact ⟨hn, ha, hs, hb, ho⟩
    · rintro ⟨hn, ha, hs, hb, ho⟩
      exact ⟨hn, ha, hs, hb, ho⟩
  obtain ⟨e, p⟩ := rd
  rcases ht with ht | ht
  · cases ht
    simp [Allows, Progress.Admits, Event.tag, arenas, Arenas.next, Arenas.strings, hstart]
  · cases ht
    simp [Allows, Progress.Admits, Event.tag, arenas, Arenas.next, Arenas.strings]

lemma allows_text_iff {pc : XmlSafetyPolicy} {read : ReadEvent} {v : CowText}
    (ht : read.event.tag = none) (ha : ∀ p : Progress, p.Admits pc read.event ↔ p.AdmitsText pc (some v))
    (hn : ∀ s : Arenas, s.next read.event = s.addText v)
    (hs : ∀ s : Arenas, s.strings read.event = if s.depth = 0 then [] else [v.value]) :
    builder.Allows pc read ↔ ((builder.textBytes + utf8Length v.value ≤ pc.maxTextBytes ∧
          (builder.opened.length = 0 → v.value.all isWhitespace = true)) ∧
        (builder.sizes.addText v).Fit ∧
        (builder.opened.length ≠ 0 → utf8Length v.value ≤ u32Max)) := by
  have hadmits' : builder.progress.AdmitsText pc (some v) ↔
      builder.textBytes + utf8Length v.value ≤ pc.maxTextBytes ∧
        (builder.opened.length = 0 → v.value.all isWhitespace = true) := by
    constructor
    · rintro ⟨o, hsm, h⟩
      cases hsm
      exact h
    · intro h
      exact ⟨v, rfl, h⟩
  have hlen : (∀ t ∈ (if builder.sizes.depth = 0 then [] else [v.value]),
      utf8Length t ≤ u32Max) ↔ (builder.opened.length ≠ 0 → utf8Length v.value ≤ u32Max) := by
    change (∀ t ∈ (if builder.opened.length = 0 then [] else [v.value]), utf8Length t ≤ u32Max) ↔ _
    by_cases h : builder.opened.length = 0
    · simp [h]
    · simp [h]
  simp only [Allows, ht, mem_def, reduceCtorEq, false_imp_iff, implies_true, true_and, arenas, hn,
    hs, ha, hadmits', hlen]

lemma beforeRoot_iff : ¬ (builder.rootSeen = true ∨ builder.opened ≠ [] ∨ builder.rootComplete = true) ↔
    builder.progress.BeforeRoot := by
  simp [Progress.BeforeRoot, progress, length_eq_zero_iff]

/-- **One event** is read where the monitors allow it. -/
theorem apply_ok_iff (ht : o.trimWhitespace = false) (hf : builder.sizes.Fit) :
    builder.counted.apply o ss rd = .ok next ↔
      builder.Allows o.safety rd ∧ next = builder.advanced ss rd := by
  obtain ⟨ev, p⟩ := rd
  cases ev with
  | start tag =>
    rw [allows_tag_iff (.inl rfl)]
    simp only [apply, startElement, bind_eq_ok]
    constructor
    · rintro ⟨c, hc, ⟨d, b⟩, hb, h⟩
      obtain ⟨ha, rfl, rfl⟩ :=
        (@checkElement_buildElement_iff o builder _ tag ss p _ hf).mp ⟨c, hc, hb⟩
      cases h
      exact ⟨ha, rfl⟩
    · rintro ⟨ha, rfl⟩
      obtain ⟨c, hc, hb⟩ :=
        (@checkElement_buildElement_iff o builder _ tag ss p _ hf).mpr ⟨ha, rfl, rfl⟩
      exact ⟨c, hc, _, hb, rfl⟩
  | empty tag =>
    rw [allows_tag_iff (.inr rfl)]
    simp only [apply, emptyElement, bind_eq_ok]
    constructor
    · rintro ⟨c, hc, ⟨d, b⟩, hb, h⟩
      obtain ⟨ha, rfl, rfl⟩ :=
        (@checkElement_buildElement_iff o builder _ tag ss p _ hf).mp ⟨c, hc, hb⟩
      cases h
      exact ⟨ha, rfl⟩
    · rintro ⟨ha, rfl⟩
      obtain ⟨c, hc, hb⟩ :=
        (@checkElement_buildElement_iff o builder _ tag ss p _ hf).mpr ⟨ha, rfl, rfl⟩
      exact ⟨c, hc, _, hb, rfl⟩
  | stop n =>
    obtain ⟨hn, hat, hs, hbn, how⟩ := hf
    have ha : builder.Allows o.safety ⟨.stop n, p⟩ ↔ builder.opened ≠ [] := by
      simp only [Allows, Progress.Admits, Event.tag, mem_def, reduceCtorEq, false_imp_iff,
        implies_true, true_and, arenas, Arenas.strings, not_mem_nil, and_true]
      constructor
      · rintro ⟨hd, -⟩ ho
        exact hd (congrArg length ho)
      · intro ho
        exact ⟨fun h => ho (length_eq_zero_iff.mp h), hn, hat, hs, hbn, how⟩
    rw [ha]
    simp only [apply, endElement, counted, advanced]
    cases builder.opened with
    | nil => simp
    | cons el r =>
      simp only [ok.injEq, ne_eq, reduceCtorEq, not_false_eq_true, true_and]
      exact eq_comm
  | text u =>
    cases u with
    | none =>
      simp [apply, Allows, Progress.Admits, Progress.AdmitsText]
    | some v =>
      rw [@allows_text_iff builder o.safety ⟨.text (some v), p⟩ v rfl
        (fun _ => Iff.rfl) (fun _ => rfl) (fun _ => rfl)]
      exact @textNode_ok_iff o builder.counted next v false ht hf
  | cdata v =>
    rw [@allows_text_iff builder o.safety ⟨.cdata v, p⟩ ⟨v, false⟩ rfl
      (fun _ => Iff.rfl) (fun _ => rfl) (fun _ => rfl)]
    exact @textNode_ok_iff o builder.counted next ⟨v, false⟩ true ht hf
  | generalRef ref =>
    simp only [apply, bind_eq_ok]
    cases hvalue : decodeReference ref with
    | error e =>
      simp [Allows, Progress.Admits, Progress.AdmitsText, Event.decoded, hvalue, Except.toOption]
    | ok v =>
      have hdec : (Event.generalRef ref).decoded = some { v with owned := true } := by
        simp [Event.decoded, hvalue, Except.toOption]
      rw [@allows_text_iff builder o.safety ⟨.generalRef ref, p⟩ { v with owned := true }
        rfl (fun _ => by rw [Progress.Admits, hdec])
        (fun _ => by rw [Arenas.next, hdec]; rfl)
        (fun _ => by rw [Arenas.strings, hdec]; rfl)]
      have htext := @textNode_ok_iff o builder.counted next { v with owned := true } false ht hf
      have hadvanced : builder.advanced ss ⟨.generalRef ref, p⟩ =
          builder.counted.withText { v with owned := true } false := by
        simp [advanced, hdec]
      rw [hadvanced]
      simp only [ok.injEq, exists_eq_left']
      exact htext
  | decl =>
    simp only [apply, bind_eq_ok, refuse_eq_ok, exists_unit, except_pure, ok.injEq]
    refine and_congr ?_ eq_comm
    rw [beforeRoot_iff]
    simp only [Allows, Progress.Admits, Event.tag, mem_def, reduceCtorEq, false_imp_iff,
      implies_true, arenas, Arenas.strings, Arenas.next, not_mem_nil, and_true, hf]
    exact Iff.rfl
  | docType =>
    simp only [apply, bind_eq_ok, refuse_eq_ok, exists_unit, except_pure, ok.injEq]
    rw [← and_assoc]
    refine and_congr ?_ eq_comm
    rw [beforeRoot_iff, Bool.not_eq_true]
    simp only [Allows, Progress.Admits, Event.tag, mem_def, reduceCtorEq, false_imp_iff,
      implies_true, arenas, Arenas.strings, Arenas.next, not_mem_nil, and_true, hf]
    exact Iff.rfl
  | comment v =>
    simp only [apply, bind_eq_ok, exists_unit, sourceValue_ok_iff]
    rw [@pushContent_ok_iff builder.counted next _ hf]
    simp only [Allows, Progress.Admits, Event.tag, mem_def, reduceCtorEq, false_imp_iff,
      implies_true, true_and, arenas, Arenas.strings, Arenas.next, mem_singleton, forall_eq]
    rw [← and_assoc]
    exact and_congr_left fun _ => and_comm
  | pi t cn =>
    simp only [apply, bind_eq_ok, exists_unit, sourceValue_ok_iff]
    rw [@pushContent_ok_iff builder.counted next _ hf]
    simp only [Allows, Progress.Admits, Event.tag, mem_def, reduceCtorEq, false_imp_iff,
      implies_true, true_and, arenas, Arenas.strings, Arenas.next, forall_mem_cons, not_mem_nil, and_true]
    rw [← and_assoc, ← and_assoc]
    exact and_congr_left fun _ => and_comm

/-! ## Runs -/

lemma scopesOf_attach (n : XmlNode) : scopesOf (builder.attach n).opened = scopesOf builder.opened := by
  unfold attach
  cases h : builder.opened with
  | nil => rw [h]
  | cons e r => rfl

variable {monitored : Progress × Scopes × Unit × Arenas}

lemma tracks_attach {n : XmlNode} (h : builder.Tracks monitored) : (builder.attach n).Tracks monitored := by
  obtain ⟨hp, hsc, ha, hf, hr⟩ := h
  have hattach : (builder.attach n).progress = builder.progress ∧
      (builder.attach n).sizes = builder.sizes ∧ (builder.attach n).root = builder.root ∧
      (builder.attach n).rootComplete = builder.rootComplete := by
    unfold attach
    cases hopen : builder.opened with
    | nil => exact ⟨rfl, rfl, rfl, rfl⟩
    | cons e r => simp [progress, sizes, hopen]
  obtain ⟨hp', hs, hr', hc⟩ := hattach
  refine ⟨?_, ?_, ?_, ?_, ?_⟩
  · rw [hp', hp]
  · rw [scopesOf_attach, hsc]
  · rw [hs, ha]
  · rw [hs]
    exact hf
  · rw [hc, hr']
    exact hr

lemma tracks_complete {p' : Progress} {e : XmlElement} (h : builder.Tracks monitored)
    (hp : p' = { builder.progress with
      rootComplete := builder.rootComplete || builder.opened.isEmpty }) :
    (builder.complete e).Tracks (p', monitored.2) := by
  unfold complete
  cases hopen : builder.opened with
  | nil =>
    obtain ⟨-, hs, ha, hf, -⟩ := h
    refine ⟨?_, ?_, ?_, ?_, ?_⟩
    · rw [hp]
      simp [progress, hopen]
    · exact hs.trans (by rw [hopen])
    · rw [sizes, hopen] at ha
      exact ha
    · rw [sizes, hopen] at hf
      exact hf
    · cases builder.root <;> simp
  | cons pr r =>
    have hattached := @tracks_attach builder _ e.node h
    refine ⟨?_, hattached.scopes, hattached.arenas, hattached.fit, hattached.root⟩
    have hprog' := hattached.progress
    rw [h.progress] at hprog'
    rw [hp, ← hprog']
    simp [progress, hopen]

lemma Tracks.of_eq {m' : Progress × Scopes × Unit × Arenas} (h : builder.Tracks mn)
    (hp : m'.1 = next.progress) (hsc : m'.2.1 = scopesOf next.opened)
    (hs : m'.2.2.2 = next.sizes) (hf : m'.2.2.2.Fit)
    (hc : next.rootComplete = builder.rootComplete) (hr : next.root = builder.root) : next.Tracks m' := by
  refine ⟨hp, hsc, hs, ?_, ?_⟩
  · rw [← hs]
    exact hf
  · rw [hc, hr]
    exact h.root

lemma tracks_built (h : builder.Tracks mn) (hf : (builder.sizes.addElement tag).Fit) :
    ({ builder.counted.built tag with elementCount := builder.elementCount + 1 } : DocumentBuilder).Tracks
      ({ builder.progress with
          events := builder.eventCount + 1
          elements := builder.elementCount + 1
          rootSeen := true },
        scopesOf builder.opened, (), builder.sizes.addElement tag) :=
  h.of_eq rfl rfl rfl hf rfl rfl

lemma tracks_withText {v : CowText} {c : Bool}
    (h : builder.Tracks monitored) (hf : (builder.sizes.addText v).Fit) : (builder.counted.withText v c).Tracks
      ({ builder.progress with
          events := builder.eventCount + 1
          textBytes := builder.textBytes + utf8Length v.value },
        scopesOf builder.opened, (), builder.sizes.addText v) := by
  have hopen : builder.counted.opened = builder.opened := rfl
  unfold withText
  by_cases hdrop : builder.opened = [] ∨ v.value = []
  · have hadd : builder.sizes.addText v = builder.sizes := by
      refine if_pos ?_
      rw [depth_iff]
      exact hdrop
    rw [hopen, if_pos hdrop, hadd]
    exact h.of_eq rfl rfl rfl h.fit rfl rfl
  · have hadd : builder.sizes.addText v = { builder.sizes with
        nodes := builder.sizes.nodes + 1
        ownedValues := builder.sizes.ownedValues + if v.owned then 1 else 0 } := by
      refine if_neg ?_
      rw [depth_iff]
      exact hdrop
    rw [hadd] at hf
    rw [hopen, if_neg hdrop, hadd]
    exact tracks_attach (h.of_eq rfl rfl rfl hf rfl rfl)

lemma tracks_withNode {n : XmlNode} (h : builder.Tracks monitored) (hf : builder.sizes.addNode.Fit) :
    (builder.counted.withNode n).Tracks
      ({ builder.progress with events := builder.eventCount + 1 }, scopesOf builder.opened, (),
        builder.sizes.addNode) := by
  have hopen : builder.counted.opened = builder.opened := rfl
  unfold withNode
  by_cases hdrop : builder.opened = []
  · have hadd : builder.sizes.addNode = builder.sizes := if_pos (depth_iff.mpr hdrop)
    rw [hopen, if_pos hdrop, hadd]
    exact h.of_eq rfl rfl rfl h.fit rfl rfl
  · have hadd : builder.sizes.addNode = { builder.sizes with nodes := builder.sizes.nodes + 1 } :=
      if_neg fun hd => hdrop (depth_iff.mp hd)
    rw [hadd] at hf
    rw [hopen, if_neg hdrop, hadd]
    exact tracks_attach (h.of_eq rfl rfl rfl hf rfl rfl)

attribute [local simp] Progress.next Event.tag Event.textBytes Event.decoded

/-- **The monitors go along** with every event that is read. -/
theorem tracks_advanced (h : builder.Tracks mn) (ha : builder.Allows pl rd) :
    (builder.advanced ss rd).Tracks ((checks pl).next mn rd) := by
  have hnext : (checks pl).next mn rd = (builder.progress.next rd.event,
      (scopesOf builder.opened).next rd.event, (), builder.sizes.next rd.event) := by
    obtain ⟨progress, scopes, _, sizes⟩ := mn
    have hprog : progress = builder.progress := h.progress
    have hscopes : scopes = scopesOf builder.opened := h.scopes
    have harenas : sizes = builder.sizes := h.arenas
    rw [hprog, hscopes, harenas]
    rfl
  rw [hnext]
  obtain ⟨event, position⟩ := rd
  cases event with
  | start tag =>
    obtain ⟨-, -, -, hf, -⟩ := (allows_tag_iff (.inl rfl)).mp ha
    have hbuilt := tracks_built h hf
    refine hbuilt.of_eq ?_ ?_ rfl ?_ rfl rfl
    · simp [advanced, progress, built, counted]
    · simp [advanced, scopesOf, Scopes.next, Scopes.enter, tagData, flatScope_tagScope, flatScope_parentScope]
    · exact { hf with }
  | empty tag =>
    obtain ⟨-, -, -, hf, -⟩ := (allows_tag_iff (.inr rfl)).mp ha
    have hempty : decide (builder.opened = []) = builder.opened.isEmpty := by
      cases builder.opened <;> rfl
    refine tracks_complete (tracks_built h hf) ?_
    simp [progress, built, counted, hempty]
  | stop name =>
    obtain ⟨hd, -⟩ := ha
    cases hopen : builder.opened with
    | nil =>
      rw [progress, hopen] at hd
      exact absurd rfl hd
    | cons element rest =>
      have hempty : decide (rest = []) = rest.isEmpty := by cases rest <;> rfl
      have hrest : ({ builder.counted with opened := rest } : DocumentBuilder).Tracks
          ({ builder.progress with events := builder.eventCount + 1, depth := rest.length },
            scopesOf rest, (), { builder.sizes with depth := rest.length }) :=
        h.of_eq rfl rfl rfl ⟨h.fit.nodes, h.fit.attributes, h.fit.namespaceScopes,
          h.fit.namespaceBindings, h.fit.ownedValues⟩ rfl rfl
      have hclos := @tracks_complete _ _
        (builder.progress.next (.stop name)) ⟨{ element.data with sourceEnd := position },
          element.children⟩ hrest (by
        simp [progress, counted, hopen, hempty])
      simp only [advanced, hopen]
      simpa [Scopes.next, Scopes.leave, scopesOf, Arenas.next, sizes, hopen] using hclos
  | text unescaped =>
    obtain ⟨⟨value, rfl, -⟩, -, -, hf, -⟩ := ha
    have htext := @tracks_withText builder _ value false h hf
    simpa [advanced, progress, Scopes.next, Arenas.next] using htext
  | cdata value =>
    obtain ⟨-, -, -, hf, -⟩ := ha
    have htext := @tracks_withText builder _ ⟨value, false⟩ true h hf
    simpa [advanced, progress, Scopes.next, Arenas.next] using htext
  | generalRef ref =>
    obtain ⟨⟨value, hv, -⟩, -, -, hf, -⟩ := ha
    simp only [Arenas.next, hv, elim_some] at hf
    have htext := @tracks_withText builder _ value false h hf
    simpa [-Event.decoded, advanced, progress, hv, Arenas.next, Scopes.next] using htext
  | decl | docType =>
    refine h.of_eq ?_ rfl rfl h.fit rfl rfl
    simp [progress, advanced, counted]
  | comment value =>
    obtain ⟨-, -, -, hf, -⟩ := ha
    have hnode := @tracks_withNode builder _ (.comment value) h hf
    simpa [advanced, progress, Scopes.next, Arenas.next] using hnode
  | pi target content =>
    obtain ⟨-, -, -, hf, -⟩ := ha
    have hnode := @tracks_withNode builder _ (.processingInstruction target (instructionContent content)) h hf
    simpa [advanced, progress, Scopes.next, Arenas.next] using hnode

def readStep (options : ParseOptions) (state : ℕ × DocumentBuilder) (read : ReadEvent) :
    Except XmlError (ℕ × DocumentBuilder) := do
  let builder ← state.2.countEvent options
  let builder ← builder.apply options state.1 read
  return (read.position, builder)

lemma readEvents_eq_foldlM {p : ℕ} {r : List ReadEvent} : readEvents o p r builder = .ok next ↔
    ∃ l, r.foldlM (readStep o) (p, builder) = .ok (l, next) := by
  induction r generalizing p builder with
  | nil =>
    constructor
    · intro h
      cases h
      exact ⟨p, rfl⟩
    · rintro ⟨l, h⟩
      cases h
      rfl
  | cons rd r ih =>
    simp only [readEvents, foldlM_cons, readStep, bind_eq_ok, ih, except_pure, ok.injEq]
    constructor
    · rintro ⟨c, hc, a, ha, l, h⟩
      exact ⟨l, _, ⟨c, hc, a, ha, rfl⟩, h⟩
    · rintro ⟨l, _, ⟨c, hc, a, ha, rfl⟩, h⟩
      exact ⟨c, hc, a, ha, l, h⟩

/-- The tree builder realizes its monitors. -/
theorem realizes_checks (ht : o.trimWhitespace = false) :
    Monitor.Realizes (readStep o) (checks o.safety) (fun s mn => s.2.Tracks mn) := by
  refine Monitor.realizes_of_iff (fun s rd => (rd.position, s.2.advanced s.1 rd)) ?_ ?_
  · rintro ⟨ps, builder⟩ mn rd ⟨ps', next⟩ h
    obtain ⟨p, sc, _, sz⟩ := mn
    have hprog : p = builder.progress := h.progress
    have hscopes : sc = scopesOf builder.opened := h.scopes
    have harenas : sz = builder.sizes := h.arenas
    simp only [readStep, countEvent, bind_eq_ok, refuse_eq_ok, exists_unit, not_lt, except_pure,
      ok.injEq, Prod.mk.injEq, checks, Monitor.both, shape, names, values, hprog, hscopes, harenas]
    constructor
    · rintro ⟨_, ⟨hc, rfl⟩, a, hap, hp, rfl⟩
      obtain ⟨⟨ha, hn, hv, hf⟩, hnx⟩ := (apply_ok_iff ht h.fit).mp hap
      exact ⟨⟨⟨hc, ha⟩, hn, hv, hf⟩, hp.symm, hnx⟩
    · rintro ⟨⟨⟨hc, ha⟩, hn, hv, hf⟩, hp, hnx⟩
      exact ⟨_, ⟨hc, rfl⟩, next, (apply_ok_iff ht h.fit).mpr ⟨⟨ha, hn, hv, hf⟩, hnx⟩, hp.symm, rfl⟩
  · rintro ⟨ps, builder⟩ mn rd h hal
    obtain ⟨p, sc, _, sz⟩ := mn
    obtain ⟨⟨-, ha⟩, hn, hv, hf⟩ := hal
    have hprog : p = builder.progress := h.progress
    have hscopes : sc = scopesOf builder.opened := h.scopes
    have harenas : sz = builder.sizes := h.arenas
    rw [hprog] at ha
    rw [hscopes] at hn
    rw [harenas] at hf
    exact tracks_advanced h ⟨ha, hn, hv, hf⟩

end DocumentBuilder

/-! ## Documents -/

/-- **The tree builder accepts** a document of the right shape whose names and values are right, where the
arenas hold it. -/
theorem parseWithOptions_accepts_iff {t : List UInt8 → TokenStream} {b : List UInt8} :
    (∃ r, parseWithOptions t b ⟨policy, false⟩ = .ok r) ↔
      Accountable policy b ∧ WellShaped policy (t b) ∧ (names policy).Accepts Scopes.new (t b).events ∧
        values.Accepts () (t b).events ∧ arenas.Accepts Arenas.new (t b).events := by
  have hreal := @DocumentBuilder.realizes_checks ⟨policy, false⟩ rfl
  have hnew : (fun (s : ℕ × DocumentBuilder) monitored => s.2.Tracks monitored)
      (0, new) (new, Scopes.new, (), Arenas.new) := tracks_new
  have hparts := fun e => (@Monitor.both_accepts _ _ _ (shape policy)
    ((names policy).both (values.both arenas)) new (Scopes.new, (), Arenas.new) e).trans
      (and_congr_right fun _ => ((names policy).both_accepts (values.both arenas)).trans
        (and_congr_right fun _ => values.both_accepts arenas))
  simp only [parseWithOptions, parse, bind_eq_ok, refuse_eq_ok, exists_unit, not_lt,
    okOr_eq_ok, readEvents_eq_foldlM]
  constructor
  · rintro ⟨r, hp, hsz, bl, ⟨builder, ⟨l, hrn⟩, hf⟩, hrt⟩
    obtain ⟨hac, ht⟩ := hreal.of_ok hnew hrn
    obtain ⟨hs, hn, hv, ha⟩ := (hparts _).mp hac
    cases hr : (t b).finish with
    | failed er =>
      rw [hr] at hf
      cases hf
    | eof =>
      rw [hr] at hf
      simp only [bind_eq_ok, refuse_eq_ok, exists_unit, not_or, not_not, Bool.not_eq_false] at hf
      obtain ⟨⟨ho, hc⟩, -⟩ := hf
      have hprog := ht.progress
      simp only [checks, Monitor.both_after] at hprog
      refine ⟨⟨hp, hsz⟩, ⟨hs, hr, ?_⟩, hn, hv, ha⟩
      rw [hprog]
      exact ⟨length_eq_zero_iff.mpr ho, hc⟩
  · rintro ⟨⟨hp, hsz⟩, ⟨hs, hr, hc⟩, hn, hv, ha⟩
    have hac := (hparts _).mpr ⟨hs, hn, hv, ha⟩
    obtain ⟨⟨l, builder⟩, hrn⟩ := hreal.to_ok hnew hac
    have ht := (hreal.of_ok hnew hrn).2
    have hprog := ht.progress
    simp only [checks, Monitor.both_after] at hprog
    rw [hprog] at hc
    obtain ⟨r, hrt⟩ := ne_none_iff_exists'.mp (ht.root hc.2)
    refine ⟨r, hp, hsz, builder, ⟨builder, ⟨l, hrn⟩, ?_⟩, hrt⟩
    rw [hr]
    simp only [bind_eq_ok, refuse_eq_ok, exists_unit, not_or, not_not, Bool.not_eq_false]
    exact ⟨⟨length_eq_zero_iff.mp hc.1, hc.2⟩, rfl⟩

end AsterForge.Xml
