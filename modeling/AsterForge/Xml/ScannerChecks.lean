import AsterForge.Xml.Monitors

/-!
# What the scanner checks

The scanner checks the shape of a document, its names, and the names of its end tags; it never asks for the
value of an attribute that declares nothing.

* **`validateXmlInput_accepts_iff`** — what the scanner accepts.
-/

namespace AsterForge.Xml

open Library Progress Except List

/-! ## Attributes -/

variable {en : Option XmlAttribute} {bindings : List NamespaceBinding}
    {t : List UInt8 → TokenStream} {b : List UInt8}

variable {policy : XmlSafetyPolicy}

/-- **One attribute**, in the pass that collects declarations. -/
theorem scanDeclaration_ok_iff {s next : ScannedAttributes}
    (hlimit : s.bindings.length ≤ policy.maxNamespaceBindings) : scanDeclaration policy s en = .ok next ↔
      ∃ f, en = some f ∧ f.WellDeclared ∧ (s.count + 1 ≤ policy.maxAttributesPerElement ∧
        (s.bindings ++ tagBindings ⟨[], [en]⟩).length ≤ policy.maxNamespaceBindings) ∧
        next = ⟨s.count + 1, s.bindings ++ tagBindings ⟨[], [en]⟩⟩ := by
  simp only [scanDeclaration, bind_eq_ok, refuse_eq_ok, okOr_eq_ok, not_lt, exists_unit]
  constructor
  · rintro ⟨hc, f, rfl, p, hp, h⟩
    refine ⟨f, rfl, ?_⟩
    cases hdecl : namespaceDeclarationPrefix f.key with
    | none =>
      rw [hdecl] at h
      cases h
      rw [tagBindings_single_of_none hdecl, append_nil]
      exact ⟨wellDeclared_of_none hdecl hp, ⟨hc, hlimit⟩, rfl⟩
    | some np =>
      rw [hdecl] at h
      simp only [bind_eq_ok, okOr_eq_ok, refuse_eq_ok, not_le, exists_unit] at h
      obtain ⟨uri, hu, hv, hr, h⟩ := h
      cases h
      rw [tagBindings_single_of_some hdecl hu, length_append]
      exact ⟨wellDeclared_of_some hdecl hp hu hv, ⟨hc, hr⟩, rfl⟩
  · rintro ⟨f, rfl, ⟨⟨p, hp⟩, hv⟩, ⟨hc, hr⟩, rfl⟩
    refine ⟨hc, f, rfl, p, hp, ?_⟩
    cases hdecl : namespaceDeclarationPrefix f.key with
    | none =>
      rw [tagBindings_single_of_none hdecl, append_nil]
      rfl
    | some np =>
      obtain ⟨uri, hu, hb⟩ := hv np hdecl
      rw [tagBindings_single_of_some hdecl hu, length_append] at hr
      rw [tagBindings_single_of_some hdecl hu]
      simp only [bind_eq_ok, okOr_eq_ok, refuse_eq_ok, not_le, exists_unit]
      exact ⟨uri, hu, hb, hr, rfl⟩

/-- **The pass that collects declarations.** -/
theorem scanDeclarations_ok_iff {s next : ScannedAttributes} {e : List (Option XmlAttribute)}
    (hfits : s.count ≤ policy.maxAttributesPerElement ∧ s.bindings.length ≤ policy.maxNamespaceBindings) :
    e.foldlM (scanDeclaration policy) s = .ok next ↔
      (none ∉ e ∧ (∀ en, some en ∈ e → en.WellDeclared) ∧
        s.count + e.length ≤ policy.maxAttributesPerElement ∧
        (s.bindings ++ tagBindings ⟨[], e⟩).length ≤ policy.maxNamespaceBindings) ∧
      next = ⟨s.count + e.length, s.bindings ++ tagBindings ⟨[], e⟩⟩ := by
  refine pass_ok_iff (fun s : ScannedAttributes => s.count ≤ policy.maxAttributesPerElement ∧
    s.bindings.length ≤ policy.maxNamespaceBindings)
    (fun s e => ⟨s.count + e.length, s.bindings ++ tagBindings ⟨[], e⟩⟩) ?_ ?_ ?_ ?_ hfits
  · intro s
    simp [tagBindings]
  · intro s entry e
    simp [tagBindings_cons entry e, Nat.add_comm, Nat.add_left_comm]
  · rintro s e ⟨hc, hb⟩
    rw [length_append] at hb
    dsimp only at hc
    exact ⟨by omega, by omega⟩
  · exact fun s next entry h => scanDeclaration_ok_iff h.2

lemma scanAttribute_ok_iff : scanAttribute bindings en = .ok () ↔ ∃ f, en = some f ∧ f.Resolved bindings := by
  simp only [scanAttribute, bind_eq_ok, okOr_eq_ok, XmlAttribute.Resolved]
  refine exists_congr fun f => and_congr_right fun _ => ?_
  cases namespaceDeclarationPrefix f.key with
  | some np => simp
  | none =>
    simp [refuse_eq_ok, not_exists]

lemma scanAttributes_ok_iff {e : List (Option XmlAttribute)} :
    e.forM (scanAttribute bindings) = .ok () ↔ none ∉ e ∧ ∀ en, some en ∈ e → en.Resolved bindings := by
  induction e with
  | nil => simp
  | cons en e ih =>
    simp only [forM_eq_forM] at ih ⊢
    rw [forM_cons, bind_eq_ok, exists_unit, scanAttribute_ok_iff, ih]
    constructor
    · rintro ⟨⟨f, rfl, hr⟩, hrd, ho⟩
      exact ⟨none_notMem_cons.mpr hrd, forall_some_cons.mpr ⟨hr, ho⟩⟩
    · rintro ⟨hrd, hr⟩
      cases en with
      | none => exact absurd mem_cons_self hrd
      | some f =>
        obtain ⟨hr, ho⟩ := forall_some_cons.mp hr
        exact ⟨⟨f, rfl, hr⟩, none_notMem_cons.mp hrd, ho⟩

/-! ## Elements -/

namespace ScanState

variable {pl : XmlSafetyPolicy} {st next : ScanState} (state : ScanState)

def declared (tag : BytesStart) : ScanState :=
  { state with
    bindings := state.bindings ++ tagBindings tag
    rootName := state.rootName.or (some (splitQualifiedName tag.name).2) }

/-- **A start tag** is well named, and not one too many. -/
theorem scanElement_ok_iff {tag : BytesStart} {f : Frame} (hlimit : st.bindings.length ≤ pl.maxNamespaceBindings) :
    st.scanElement pl tag = .ok (f, next) ↔ (¬ (st.frames = [] ∧ st.rootComplete = true) ∧
        tag.attributes.length ≤ pl.maxAttributesPerElement ∧ none ∉ tag.attributes ∧
        tag.WellNamed pl st.bindings) ∧
      f = ⟨tag.name, st.bindings.length⟩ ∧ next = st.declared tag := by
  have hscan : ∀ s, tag.attributes.foldlM (scanDeclaration pl) ⟨0, st.bindings⟩ = .ok s ↔
      _ := fun s =>
    @scanDeclarations_ok_iff pl ⟨0, st.bindings⟩ s tag.attributes ⟨Nat.zero_le _, hlimit⟩
  simp only [scanElement, bind_eq_ok, refuse_eq_ok, exists_unit, hscan, Nat.zero_add, scanAttributes_ok_iff]
  constructor
  · rintro ⟨hi, p, hp, s, ⟨⟨hr, hd, hc, hrm⟩, rfl⟩, hrs, ⟨-, ha⟩, h⟩
    cases validateQualifiedName_parts hp
    cases h
    refine ⟨⟨hi, hc, hr, ⟨_, hp⟩, hd, hrm, ?_, ha⟩, rfl, rfl⟩
    intro np hm hn
    exact hrs ⟨np, hm, hn⟩
  · rintro ⟨⟨hi, hc, hr, ⟨p, hp⟩, hd, hrm, hrs, ha⟩, rfl,
      rfl⟩
    cases validateQualifiedName_parts hp
    refine ⟨hi, _, hp, _, ⟨⟨hr, hd, hc, hrm⟩, rfl⟩, ?_, ⟨hr, ha⟩, rfl⟩
    rintro ⟨np, hm, hn⟩
    exact hrs np hm hn

/-! ## Events -/

def FramesIn : List Frame → List NamespaceBinding → List (List NamespaceBinding) → Prop
  | [], _, outer => outer = []
  | frame :: frames, bindings, outer => ∃ before rest own, outer = before :: rest ∧
      bindings = before ++ own ∧ frame.bindingStart = before.length ∧ FramesIn frames before rest

structure Tracks (policy : XmlSafetyPolicy) (state : ScanState)
    (monitored : Progress × Scopes × List Text) : Prop where
  progress : monitored.1 = ⟨state.frames.length, state.elements, state.textBytes, state.events,
    state.rootName.isSome, state.rootComplete⟩
  current : monitored.2.1.current = state.bindings
  outer : FramesIn state.frames state.bindings monitored.2.1.outer
  names : monitored.2.2 = state.frames.map Frame.qualifiedName
  limit : state.bindings.length ≤ policy.maxNamespaceBindings

def checks (policy : XmlSafetyPolicy) : Monitor (Progress × Scopes × List Text) ReadEvent :=
  (shape policy).both ((names policy).both ends)

lemma tracks_new (policy : XmlSafetyPolicy) : ScanState.new.Tracks policy (Progress.new, Scopes.new, []) :=
  ⟨rfl, rfl, rfl, rfl, Nat.zero_le _⟩

variable {tag : BytesStart} {frame : Frame} {r : ReadEvent} {m : Progress × Scopes × List Text}

abbrev Fits (policy : XmlSafetyPolicy) (tag : BytesStart) : Prop :=
  state.frames.length + 1 ≤ policy.maxDepth ∧ state.elements + 1 ≤ policy.maxElements ∧
    ¬ (state.frames = [] ∧ state.rootComplete = true) ∧
    tag.attributes.length ≤ policy.maxAttributesPerElement ∧ none ∉ tag.attributes

section

variable (hl : st.bindings.length ≤ pl.maxNamespaceBindings)
include hl

/-- **A start tag that is counted and scanned.** -/
theorem countElement_scanElement_iff : (∃ c, st.countElement pl = .ok c ∧
    c.scanElement pl tag = .ok (frame, next)) ↔ (st.Fits pl tag ∧ tag.WellNamed pl st.bindings) ∧
    frame = ⟨tag.name, st.bindings.length⟩ ∧
    next = { st.declared tag with elements := st.elements + 1 } := by
  have hscan := @scanElement_ok_iff pl { st with elements := st.elements + 1 } next tag frame hl
  simp only [countElement, bind_eq_ok, refuse_eq_ok, exists_unit, not_lt, except_pure, ok.injEq]
  constructor
  · rintro ⟨c, ⟨hd, he, rfl⟩, hs⟩
    obtain ⟨⟨hi, hc, hr, hn⟩, hf, hnx⟩ := hscan.mp hs
    exact ⟨⟨⟨hd, he, hi, hc, hr⟩, hn⟩, hf, hnx⟩
  · rintro ⟨⟨⟨hd, he, hi, hc, hr⟩, hn⟩, hf, hnx⟩
    exact ⟨_, ⟨hd, he, rfl⟩, hscan.mpr ⟨⟨hi, hc, hr, hn⟩, hf, hnx⟩⟩

lemma startElement_ok_iff : st.startElement pl tag = .ok next ↔
      (st.Fits pl tag ∧ tag.WellNamed pl st.bindings) ∧
      next = { st.declared tag with
        elements := st.elements + 1
        frames := ⟨tag.name, st.bindings.length⟩ :: st.frames } := by
  simp only [startElement, bind_eq_ok]
  constructor
  · rintro ⟨c, hc, ⟨frame, s⟩, hs, h⟩
    obtain ⟨hp, rfl, rfl⟩ :=
      (countElement_scanElement_iff hl).mp ⟨c, hc, hs⟩
    cases h
    exact ⟨hp, rfl⟩
  · rintro ⟨hp, rfl⟩
    obtain ⟨c, hc, hs⟩ :=
      (countElement_scanElement_iff hl).mpr ⟨hp, rfl, rfl⟩
    exact ⟨c, hc, _, hs, rfl⟩

lemma emptyElement_ok_iff : st.emptyElement pl tag = .ok next ↔
      (st.Fits pl tag ∧ tag.WellNamed pl st.bindings) ∧
      next = { st.declared tag with
        elements := st.elements + 1
        bindings := st.bindings
        rootComplete := st.rootComplete || st.frames.isEmpty } := by
  have hleave : ({ st.declared tag with elements := st.elements + 1 } : ScanState).leave
      ⟨tag.name, st.bindings.length⟩ = { st.declared tag with
        elements := st.elements + 1
        bindings := st.bindings
        rootComplete := st.rootComplete || st.frames.isEmpty } := by
    simp [leave, declared]
  simp only [emptyElement, bind_eq_ok]
  constructor
  · rintro ⟨c, hc, ⟨frame, s⟩, hs, h⟩
    obtain ⟨hp, rfl, rfl⟩ :=
      (countElement_scanElement_iff hl).mp ⟨c, hc, hs⟩
    rw [except_pure, ok.injEq, hleave] at h
    exact ⟨hp, h.symm⟩
  · rintro ⟨hp, rfl⟩
    obtain ⟨c, hc, hs⟩ :=
      (countElement_scanElement_iff hl).mpr ⟨hp, rfl, rfl⟩
    exact ⟨c, hc, _, hs, congrArg ok hleave⟩

end

lemma countText_ok_iff {v : Text} : st.countText pl v = .ok next ↔
    (st.textBytes + utf8Length v ≤ pl.maxTextBytes ∧ (st.frames.length = 0 → v.all isWhitespace = true)) ∧
    next = { st with textBytes := st.textBytes + utf8Length v } := by
  simp only [countText, bind_eq_ok, refuse_eq_ok, exists_unit, not_lt, not_and, Bool.not_eq_false,
    except_pure, ok.injEq, length_eq_zero_iff, and_assoc]
  refine and_congr_right fun _ => and_congr_right fun _ => ?_
  exact eq_comm

variable {p' : Progress} {s : Scopes} {o : List Text} {p : Progress}

lemma Tracks.of_same (h : st.Tracks pl (p, s, o)) (hf : next.frames = st.frames) (hb : next.bindings = st.bindings)
    (hp : p' = ⟨next.frames.length, next.elements, next.textBytes, next.events,
      next.rootName.isSome, next.rootComplete⟩) :
    next.Tracks pl (p', s, o) := by
  refine ⟨hp, ?_, ?_, ?_, ?_⟩
  · rw [hb]
    exact h.current
  · rw [hf, hb]
    exact h.outer
  · rw [hf]
    exact h.names
  · rw [hb]
    exact h.limit

lemma Tracks.push (h : st.Tracks pl (p, s, o)) (hn : tag.WellNamed pl st.bindings)
    (hf : next.frames = ⟨tag.name, st.bindings.length⟩ :: st.frames)
    (hb : next.bindings = st.bindings ++ tagBindings tag)
    (hp : p' = ⟨next.frames.length, next.elements, next.textBytes, next.events,
      next.rootName.isSome, next.rootComplete⟩) :
    next.Tracks pl (p', s.enter tag, tag.name :: o) := by
  have hcurr : s.current = st.bindings := h.current
  have hnames : o = st.frames.map Frame.qualifiedName := h.names
  refine ⟨hp, ?_, ?_, ?_, ?_⟩
  · rw [hb, ← hcurr]
    rfl
  · rw [hf, hb]
    exact ⟨s.current, s.outer, tagBindings tag, rfl, by rw [hcurr], by rw [hcurr],
      by rw [hcurr]; exact h.outer⟩
  · rw [hf, hnames]
    rfl
  · rw [hb]
    exact hn.limit

lemma Tracks.pop {f : List Frame} (h : st.Tracks pl (p, s, o))
    (hop : st.frames = frame :: f) (hf : next.frames = f)
    (hb : next.bindings = st.bindings.take frame.bindingStart)
    (hp : p' = ⟨next.frames.length, next.elements, next.textBytes, next.events,
      next.rootName.isSome, next.rootComplete⟩) :
    next.Tracks pl (p', s.leave, o.tail) := by
  have ho : FramesIn st.frames st.bindings s.outer := h.outer
  have hnames : o = st.frames.map Frame.qualifiedName := h.names
  have hlimit := h.limit
  rw [hop] at ho hnames
  obtain ⟨b, r, own, hr, how, hs, ho⟩ := ho
  have htake : next.bindings = b := by rw [hb, how, hs, take_left]
  refine ⟨hp, ?_, ?_, ?_, ?_⟩
  · rw [htake, Scopes.leave, hr]
  · rw [hf, htake, Scopes.leave, hr]
    exact ho
  · rw [hf, hnames]
    rfl
  · rw [how, length_append] at hlimit
    rw [htake]
    omega

def counted : ScanState := { state with events := state.events + 1 }

lemma Tracks.countText {scopes : Scopes} {opened : List Text} {v : CowText}
    (h : st.Tracks pl (p, scopes, opened)) :
    st.counted.countText pl v.value = .ok next ↔ p.AdmitsText pl (some v) ∧
        next = { st.counted with textBytes := st.textBytes + utf8Length v.value } := by
  have hprog : p = _ := h.progress
  rw [countText_ok_iff, hprog]
  refine and_congr_left fun _ => ?_
  constructor
  · intro hv
    exact ⟨v, rfl, hv⟩
  · rintro ⟨o, hs, hv⟩
    cases hs
    exact hv

def advanced : Event → ScanState
  | .start tag =>
    { state.counted.declared tag with
      elements := state.elements + 1
      frames := ⟨tag.name, state.bindings.length⟩ :: state.frames }
  | .empty tag =>
    { state.counted.declared tag with
      elements := state.elements + 1
      bindings := state.bindings
      rootComplete := state.rootComplete || state.frames.isEmpty }
  | .stop _ =>
    match state.frames with
    | [] => state.counted
    | frame :: frames => { state.counted with frames := frames }.leave frame
  | event => { state.counted with textBytes := state.textBytes + event.textBytes }

lemma Tracks.admitsTag_iff {scopes : Scopes} {opened : List Text}
    {tag : BytesStart} (h : st.Tracks pl (p, scopes, opened)) : st.Fits pl tag ↔ p.AdmitsTag pl tag := by
  have hprog : p = _ := h.progress
  rw [hprog]
  constructor
  · rintro ⟨hd, he, hi, ha, hr⟩
    refine ⟨?_, hd, he, ha, hr⟩
    rw [length_eq_zero_iff]
    exact hi
  · rintro ⟨hi, hd, he, ha, hr⟩
    rw [length_eq_zero_iff] at hi
    exact ⟨hd, he, hi, ha, hr⟩

lemma Tracks.beforeRoot_iff (h : st.Tracks pl (p, s, o)) :
    ¬ (st.rootName ≠ none ∨ st.frames ≠ [] ∨ st.rootComplete = true) ↔ p.BeforeRoot := by
  have hprog : p = _ := h.progress
  rw [hprog, Progress.BeforeRoot]
  simp [length_eq_zero_iff]

/-- **One event** is passed where the monitors allow it. -/
theorem scanEvent_ok_iff {e : Event} {ps : ℕ} {p : Progress} {scopes : Scopes}
    {opened : List Text} (h : st.Tracks pl (p, scopes, opened)) : st.counted.scanEvent pl e = .ok next ↔
      (p.Admits pl e ∧ (∀ tag ∈ e.tag, tag.WellNamed pl scopes.current) ∧
        ends.allows opened ⟨e, ps⟩) ∧ next = st.advanced e := by
  have hcurr : scopes.current = st.bindings := h.current
  have hopen : opened = st.frames.map Frame.qualifiedName := h.names
  have hprog : p = _ := h.progress
  cases e with
  | start tag =>
    have hstart := @startElement_ok_iff pl st.counted next tag h.limit
    have ha := @Tracks.admitsTag_iff pl st p scopes opened tag h
    simp only [scanEvent, Progress.Admits, Event.tag, ends, Option.mem_def, Option.some.injEq,
      forall_eq', reduceCtorEq, false_imp_iff, implies_true, and_true, hcurr]
    exact hstart.trans (and_congr_left fun _ => and_congr_left fun _ => ha)
  | empty tag =>
    have hempty := @emptyElement_ok_iff pl st.counted next tag h.limit
    have ha := @Tracks.admitsTag_iff pl st p scopes opened tag h
    simp only [scanEvent, Progress.Admits, Event.tag, ends, Option.mem_def, Option.some.injEq,
      forall_eq', reduceCtorEq, false_imp_iff, implies_true, and_true, hcurr]
    exact hempty.trans (and_congr_left fun _ => and_congr_left fun _ => ha)
  | stop n =>
    have hdepth : p.depth = st.frames.length := by rw [hprog]
    simp only [scanEvent, Progress.Admits, Event.tag, ends, Option.mem_def, reduceCtorEq, false_imp_iff,
      implies_true, true_and, Event.stop.injEq, forall_eq', hdepth, hopen, advanced, endElement, counted]
    cases st.frames with
    | nil => simp
    | cons frame f =>
      simp only [bind_eq_ok, refuse_eq_ok, exists_unit, except_pure, ok.injEq,
        map_cons, head?_cons, Option.some.injEq, forall_eq', not_not, length_cons]
      refine and_congr ?_ eq_comm
      simp
  | text u =>
    simp only [scanEvent, bind_eq_ok, okOr_eq_ok, Progress.Admits, Event.tag, ends, Option.mem_def,
      reduceCtorEq, false_imp_iff, implies_true, and_true]
    constructor
    · rintro ⟨v, rfl, hr⟩
      obtain ⟨ha, rfl⟩ := h.countText.mp hr
      exact ⟨ha, rfl⟩
    · rintro ⟨ha, rfl⟩
      obtain ⟨v, rfl, hv⟩ := id ha
      exact ⟨v, rfl, h.countText.mpr ⟨ha, rfl⟩⟩
  | cdata v =>
    have htext := @Tracks.countText pl st next p scopes opened ⟨v, false⟩ h
    simp only [scanEvent, Progress.Admits, Event.tag, ends, Option.mem_def, reduceCtorEq, false_imp_iff,
      implies_true, and_true]
    exact htext
  | generalRef ref =>
    simp only [scanEvent, bind_eq_ok, Progress.Admits, Event.tag, ends, Option.mem_def,
      reduceCtorEq, false_imp_iff, implies_true, and_true]
    cases hv : decodeReference ref with
    | error er =>
      simp [Progress.AdmitsText, Event.decoded, hv, Except.toOption]
    | ok v =>
      have htext := @Tracks.countText pl st next p scopes opened { v with owned := true } h
      simpa [Event.decoded, hv, Except.toOption, advanced, Event.textBytes] using htext
  | decl =>
    simp only [scanEvent, bind_eq_ok, refuse_eq_ok, exists_unit, Progress.Admits, Event.tag, ends,
      Option.mem_def, reduceCtorEq, false_imp_iff, implies_true, and_true, except_pure, Except.ok.injEq]
    exact and_congr h.beforeRoot_iff eq_comm
  | docType =>
    simp only [scanEvent, bind_eq_ok, refuse_eq_ok, exists_unit, Progress.Admits, Event.tag, ends,
      Option.mem_def, reduceCtorEq, false_imp_iff, implies_true, and_true, except_pure, ok.injEq,
      Bool.not_eq_true, and_assoc]
    exact and_congr_right fun _ => and_congr h.beforeRoot_iff eq_comm
  | comment v | pi target content =>
    simp only [scanEvent, Progress.Admits, Event.tag, ends, Option.mem_def, reduceCtorEq, false_imp_iff,
      implies_true, and_true, true_and, except_pure, ok.injEq]
    exact eq_comm

lemma scanRead_ok_iff (h : st.Tracks pl m) : st.scanRead pl r = .ok next ↔
    (checks pl).allows m r ∧ next = st.advanced r.event := by
  obtain ⟨p, s, o⟩ := m
  have hprog : p = _ := h.progress
  have hevents : p.events = st.events := by rw [hprog]
  simp only [scanRead, countEvent, bind_eq_ok, refuse_eq_ok, exists_unit, not_lt, except_pure,
    ok.injEq, checks, Monitor.both, shape, names, hevents]
  constructor
  · rintro ⟨_, ⟨hc, rfl⟩, hr⟩
    obtain ⟨⟨ha, hn, he⟩, hnx⟩ := (@scanEvent_ok_iff pl st next r.event r.position p s o h).mp hr
    exact ⟨⟨⟨hc, ha⟩, hn, he⟩, hnx⟩
  · rintro ⟨⟨⟨hc, ha⟩, hn, he⟩, hnx⟩
    exact ⟨_, ⟨hc, rfl⟩, (@scanEvent_ok_iff pl st next r.event r.position p s o h).mpr ⟨⟨ha, hn, he⟩, hnx⟩⟩

/-- How far a document was read. -/
def progress : Progress :=
  ⟨state.frames.length, state.elements, state.textBytes, state.events, state.rootName.isSome,
    state.rootComplete⟩

attribute [local simp] Progress.next Event.tag Event.textBytes Event.decoded

lemma progress_advanced {e : Event} (ha : st.progress.Admits pl e) :
    st.progress.next e = (st.advanced e).progress := by
  cases e with
  | start tag => simp [progress, advanced, declared, counted]
  | empty tag =>
    have hempty : decide (st.frames = []) = st.frames.isEmpty := by cases st.frames <;> rfl
    simp [progress, advanced, declared, counted, hempty]
  | stop n =>
    cases hframes : st.frames with
    | nil =>
      rw [progress, hframes] at ha
      exact absurd rfl ha
    | cons frame f =>
      have hempty : decide (f = []) = f.isEmpty := by cases f <;> rfl
      simp [progress, advanced, counted, leave, hframes, hempty]
  | text unescaped | cdata value => simp [progress, advanced, counted]
  | generalRef ref | decl => simp [progress, advanced, counted]
  | docType | comment value => simp [progress, advanced, counted]
  | pi t c => simp [progress, advanced, counted]

lemma Tracks.advance (h : st.Tracks pl m) (hal : (checks pl).allows m r) :
    (st.advanced r.event).Tracks pl ((checks pl).next m r) := by
  obtain ⟨b, s, o⟩ := m
  obtain ⟨e, p⟩ := r
  obtain ⟨⟨-, ha⟩, hn, -⟩ := hal
  have hcurr : s.current = st.bindings := h.current
  have hbef : b = st.progress := h.progress
  have hprog : b.next e = (st.advanced e).progress := by
    rw [hbef] at ha ⊢
    exact progress_advanced ha
  cases e with
  | start tag =>
    have hn := hn tag rfl
    rw [hcurr] at hn
    exact h.push hn rfl rfl hprog
  | empty tag | text unescaped => exact h.of_same rfl rfl hprog
  | stop n =>
    cases hframes : st.frames with
    | nil =>
      rw [hbef, ScanState.progress, hframes] at ha
      exact absurd rfl ha
    | cons frame f =>
      refine h.pop hframes ?_ ?_ hprog
      · simp [advanced, leave, counted, hframes]
      · simp [advanced, leave, counted, hframes]
  | cdata value | generalRef ref => exact h.of_same rfl rfl hprog
  | decl | docType => exact h.of_same rfl rfl hprog
  | comment value | pi target content => exact h.of_same rfl rfl hprog

/-- The scanner realizes its monitors. -/
theorem realizes_checks (policy : XmlSafetyPolicy) :
    Monitor.Realizes (fun st r => st.scanRead policy r) (checks policy) (ScanState.Tracks policy) :=
  Monitor.realizes_of_iff (fun st r => st.advanced r.event) scanRead_ok_iff Tracks.advance

end ScanState

/-! ## Documents -/

lemma validateXmlInput_ok_iff : validateXmlInput t b policy = .ok () ↔ ∃ n, scanXml t b policy = .ok n := by
  unfold validateXmlInput
  cases scanXml t b policy with
  | ok n =>
    constructor
    · intro _
      exact ⟨n, rfl⟩
    · intro _
      rfl
  | error e =>
    constructor
    · nofun
    · rintro ⟨n, h⟩
      cases h

/-- **The scanner accepts** a document of the right shape whose names are right, those of its end tags
too. -/
theorem validateXmlInput_accepts_iff :
    validateXmlInput t b policy = .ok () ↔ Accountable policy b ∧ WellShaped policy (t b) ∧
        (names policy).Accepts Scopes.new (t b).events ∧ ends.Accepts [] (t b).events := by
  have hreal := ScanState.realizes_checks policy
  have hnew := ScanState.tracks_new policy
  have hparts := fun e => (@Monitor.both_accepts _ _ _ (shape policy) ((names policy).both ends)
    new (Scopes.new, []) e).trans (and_congr_right fun _ => (names policy).both_accepts ends)
  rw [validateXmlInput_ok_iff]
  simp only [scanXml, bind_eq_ok, refuse_eq_ok, exists_unit, not_lt]
  constructor
  · rintro ⟨n, hp, hsz, state, hrn, hf⟩
    obtain ⟨ha, ht⟩ := hreal.of_ok hnew hrn
    obtain ⟨hs, hn, he⟩ := (hparts _).mp ha
    cases hr : (t b).finish with
    | failed er =>
      rw [hr] at hf
      cases hf
    | eof =>
      rw [hr] at hf
      simp only [bind_eq_ok, refuse_eq_ok, exists_unit, not_or, not_not, Bool.not_eq_false] at hf
      obtain ⟨⟨hfr, hc⟩, -⟩ := hf
      have hprog := ht.progress
      simp only [ScanState.checks, Monitor.both_after] at hprog
      refine ⟨⟨hp, hsz⟩, ⟨hs, hr, ?_⟩, hn, he⟩
      rw [hprog, hfr]
      exact ⟨rfl, hc⟩
  · rintro ⟨⟨hp, hsz⟩, ⟨hs, hr, hc⟩, hn, he⟩
    have ha := (hparts _).mpr ⟨hs, hn, he⟩
    obtain ⟨state, hrn⟩ := hreal.to_ok hnew ha
    have hprog := (hreal.of_ok hnew hrn).2.progress
    simp only [ScanState.checks, Monitor.both_after] at hprog
    rw [hprog] at hc
    refine ⟨state.rootName, hp, hsz, state, hrn, ?_⟩
    rw [hr]
    simp only [bind_eq_ok, refuse_eq_ok, exists_unit, not_or, not_not, Bool.not_eq_false]
    exact ⟨⟨length_eq_zero_iff.mp hc.1, hc.2⟩, rfl⟩

end AsterForge.Xml
