import AsterForge.Xml.ScannerChecks
import AsterForge.Xml.Stream

/-!
# What the streaming reader checks

The streaming reader checks the shape of a document and the values of its attributes; names, declarations
and prefixes are left to the resolver of the tokenizer.

* **`drain_accepts_iff`** — what the streaming reader accepts.
-/

namespace AsterForge.Xml

open Library StreamState XmlStreamReader List Option Except

variable {ρ : Type} (resolver : NamespaceResolver ρ)

/-! ## The resolver -/

def NamespaceResolver.Resolves (scope : ρ) : Event → Prop
  | .start tag | .empty tag => ∃ inner, resolver.push scope tag = .ok inner ∧
      (∃ uri, resolveNamespaceResult (resolver.resolveElement inner tag.name) = .ok uri) ∧
      ∀ entry, some entry ∈ tag.attributes →
        ∃ uri, resolveNamespaceResult (resolver.resolveAttribute inner entry.key) = .ok uri
  | .stop name => ∃ uri, resolveNamespaceResult (resolver.resolveElement scope name) = .ok uri
  | _ => True

def NamespaceResolver.next (scope : ρ) : Event → ρ
  | .start tag => ((resolver.push scope tag).toOption).getD scope
  | .empty tag => resolver.pop (((resolver.push scope tag).toOption).getD scope)
  | .stop _ => resolver.pop scope
  | _ => scope

/-- What the resolver refuses. -/
def resolution : Monitor ρ ReadEvent where
  allows := fun scope read => resolver.Resolves scope read.event
  next := fun scope read => resolver.next scope read.event

def positions (policy : XmlSafetyPolicy) : Monitor Unit ReadEvent where
  allows := fun _ read => read.position ≤ policy.maxInputBytes
  next := fun _ _ => ()

/-! ## Attributes -/

namespace StreamState

variable {resolver} {st : StreamState} {sc : ρ}

/-- **The attributes of a start tag.** -/
theorem readAttributes_ok_iff {s : StreamedAttributes} {e : List (Option XmlAttribute)}
    (hi : s.index ≤ st.policy.maxAttributesPerElement) :
    (∃ next, e.foldlM (st.readAttribute resolver sc) s = .ok next) ↔
      s.index + e.length ≤ st.policy.maxAttributesPerElement ∧ none ∉ e ∧
        (∀ en, some en ∈ e → en.normalized ≠ none) ∧
        ∀ en, some en ∈ e →
          ∃ uri, resolveNamespaceResult (resolver.resolveAttribute sc en.key) = .ok uri := by
  induction e generalizing s with
  | nil => simpa using hi
  | cons en e ih =>
    simp only [foldlM_cons, bind_eq_ok]
    constructor
    · rintro ⟨next, m, hm, hrs⟩
      simp only [readAttribute, bind_eq_ok, refuse_eq_ok, okOr_eq_ok, exists_unit, not_le,
        except_pure, ok.injEq] at hm
      obtain ⟨f, rfl, ho, uri, hu, v, hv, rfl⟩ := hm
      obtain ⟨ha, hrd, hvl, hr⟩ :=
        (ih (Nat.succ_le_of_lt ho)).mp ⟨next, hrs⟩
      refine ⟨?_, none_notMem_cons.mpr hrd, forall_some_cons.mpr ⟨?_, hvl⟩,
        forall_some_cons.mpr ⟨⟨uri, hu⟩, hr⟩⟩
      · rw [length_cons]
        dsimp only at ha
        omega
      · rw [hv]
        exact some_ne_none _
    · rintro ⟨ha, hrd, hvl, hr⟩
      rw [length_cons] at ha
      cases en with
      | none => exact absurd mem_cons_self hrd
      | some f =>
        obtain ⟨hv, hvl⟩ := forall_some_cons.mp hvl
        obtain ⟨⟨uri, hu⟩, hr⟩ := forall_some_cons.mp hr
        obtain ⟨v, hv⟩ := ne_none_iff_exists'.mp hv
        have ho : s.index < st.policy.maxAttributesPerElement := by omega
        have hm : st.readAttribute resolver sc s (some f) = .ok
            ⟨s.index + 1, if v.owned then s.cachedValues ++ [(s.index, v.value)]
              else s.cachedValues⟩ := by
          simp [readAttribute, okOr_some, ok_bind, hu, hv, refuse_of_not (not_le.mpr ho), except_pure]
        obtain ⟨next, hrs⟩ := (@ih ⟨s.index + 1, if v.owned then
          s.cachedValues ++ [(s.index, v.value)] else s.cachedValues⟩ ho).mpr
          ⟨by dsimp only; omega, none_notMem_cons.mp hrd, hvl, hr⟩
        exact ⟨next, _, hm, hrs⟩

/-- **A start tag** that the resolver has taken. -/
theorem beginElement_ok_iff {tag : BytesStart} {e : Bool} {next : StreamState} :
    (∃ uri cv, st.beginElement resolver sc tag e = .ok (uri, cv, next)) ↔
      ((¬ (st.depth = 0 ∧ st.rootComplete = true) ∧ st.depth + 1 ≤ st.policy.maxDepth ∧
          st.elements + 1 ≤ st.policy.maxElements ∧
          tag.attributes.length ≤ st.policy.maxAttributesPerElement ∧ none ∉ tag.attributes) ∧
        tag.WellValued ∧
        (∃ uri, resolveNamespaceResult (resolver.resolveElement sc tag.name) = .ok uri) ∧
        ∀ en, some en ∈ tag.attributes →
          ∃ uri, resolveNamespaceResult (resolver.resolveAttribute sc en.key) = .ok uri) ∧
      next = { st with
        elements := st.elements + 1
        rootSeen := true
        depth := if e then st.depth else st.depth + 1
        rootComplete := st.rootComplete || (e && st.depth = 0) } := by
  have hattrs := @readAttributes_ok_iff ρ resolver st sc ⟨0, []⟩ tag.attributes (Nat.zero_le _)
  rw [Nat.zero_add] at hattrs
  simp only [beginElement, bind_eq_ok, refuse_eq_ok, exists_unit, not_le, except_pure,
    ok.injEq, Prod.mk.injEq]
  constructor
  · rintro ⟨_, _, hi, hd, he, uri, hu, s, hs, rfl, rfl, rfl⟩
    obtain ⟨hc, hrd, hv, hr⟩ := hattrs.mp ⟨s, hs⟩
    exact ⟨⟨⟨hi, hd, he, hc, hrd⟩, hv, ⟨uri, hu⟩, hr⟩, rfl⟩
  · rintro ⟨⟨⟨hi, hd, he, hc, hrd⟩, hv, ⟨uri, hu⟩, hr⟩, rfl⟩
    obtain ⟨s, hs⟩ := hattrs.mpr ⟨hc, hrd, hv, hr⟩
    exact ⟨uri, s.cachedValues, hi, hd, he, uri, hu, s, hs, rfl, rfl,
      rfl⟩

lemma countText_ok_iff {v : Text} {next : StreamState} (hb : st.textBytes ≤ st.policy.maxTextBytes) :
    st.countText v = .ok next ↔ (st.textBytes + utf8Length v ≤ st.policy.maxTextBytes ∧
        (st.depth = 0 → v.all isWhitespace = true)) ∧
      next = { st with textBytes := st.textBytes + utf8Length v } := by
  have hroom : ¬ (st.policy.maxTextBytes - st.textBytes < utf8Length v) ↔
      st.textBytes + utf8Length v ≤ st.policy.maxTextBytes := by omega
  simp only [countText, bind_eq_ok, refuse_eq_ok, exists_unit, hroom, not_and, Bool.not_eq_false,
    except_pure, ok.injEq, and_assoc]
  refine and_congr_right fun _ => and_congr_right fun _ => ?_
  exact eq_comm

/-- How far a document was read. -/
def progress (state : StreamState) : Progress :=
  ⟨state.depth, state.elements, state.textBytes, state.events, state.rootSeen, state.rootComplete⟩

def counted (state : StreamState) : StreamState := { state with events := state.events + 1 }

/-- The state that has read as far as a monitor says. -/
def withProgress (state : StreamState) (progress : Progress) : StreamState :=
  { state with
    depth := progress.depth
    elements := progress.elements
    textBytes := progress.textBytes
    events := progress.events
    rootSeen := progress.rootSeen
    rootComplete := progress.rootComplete }

end StreamState

namespace XmlStreamReader

variable {resolver} {rd next : XmlStreamReader ρ}

/-! ## Events -/

def advanced (resolver : NamespaceResolver ρ) (reader : XmlStreamReader ρ) (event : Event) :
    XmlStreamReader ρ :=
  ⟨resolver.next reader.resolver event, reader.state.withProgress (reader.state.progress.next event)⟩

structure Tracks (policy : XmlSafetyPolicy) (reader : XmlStreamReader ρ)
    (monitored : Progress × Unit × Unit × ρ) : Prop where
  progress : monitored.1 = reader.state.progress
  scope : monitored.2.2.2 = reader.resolver
  limits : reader.state.policy = policy
  textBytes : reader.state.textBytes ≤ policy.maxTextBytes

def checks (resolver : NamespaceResolver ρ) (policy : XmlSafetyPolicy) :
    Monitor (Progress × Unit × Unit × ρ) ReadEvent :=
  (shape policy).both (values.both ((positions policy).both (resolution resolver)))

/-- What the monitors ask of an event in the state that the reader is in, but for its count and position. -/
def Allows (resolver : NamespaceResolver ρ) (reader : XmlStreamReader ρ) (event : Event) : Prop :=
  reader.state.progress.Admits reader.state.policy event ∧ (∀ tag ∈ event.tag, tag.WellValued) ∧
    resolver.Resolves reader.resolver event

lemma begin_ok_iff {tag : BytesStart} {e : Bool} {i : ρ} {state : StreamState}
    (hp : resolver.push rd.resolver tag = .ok i) :
    (∃ uri cv, rd.state.counted.beginElement resolver i tag e = .ok (uri, cv, state)) ↔
      (rd.state.progress.AdmitsTag rd.state.policy tag ∧ tag.WellValued ∧
        ∃ i, resolver.push rd.resolver tag = .ok i ∧
          (∃ uri, resolveNamespaceResult (resolver.resolveElement i tag.name) = .ok uri) ∧
          ∀ en, some en ∈ tag.attributes →
            ∃ uri, resolveNamespaceResult (resolver.resolveAttribute i en.key) = .ok uri) ∧
      state = rd.state.withProgress (rd.state.progress.next (if e then .empty tag else .start tag)) := by
  have hnext : ({ rd.state.counted with
      elements := rd.state.counted.elements + 1
      rootSeen := true
      depth := if e then rd.state.counted.depth else rd.state.counted.depth + 1
      rootComplete := rd.state.counted.rootComplete || (e && rd.state.counted.depth = 0) } :
        StreamState) = rd.state.withProgress
          (rd.state.progress.next (if e then .empty tag else .start tag)) := by
    cases e with
    | false => simp [withProgress, progress, Progress.next, Event.textBytes,
        Event.decoded, Event.tag, counted]
    | true =>
      simp [withProgress, progress, Progress.next, Event.textBytes, Event.decoded, Event.tag, counted]
      congr
  rw [beginElement_ok_iff, hnext]
  refine and_congr_left fun _ => ?_
  constructor
  · rintro ⟨⟨hi, hd, he, hc, hrd⟩, hv, hu, hr⟩
    exact ⟨⟨hi, hd, he, hc, hrd⟩, hv, i, hp, hu, hr⟩
  · rintro ⟨⟨hi, hd, he, hc, hrd⟩, hv, o, ho, hu, hr⟩
    cases hp.symm.trans ho
    exact ⟨⟨hi, hd, he, hc, hrd⟩, hv, hu, hr⟩

lemma countText_ok_iff {v : CowText} {state : StreamState}
    (hb : rd.state.textBytes ≤ rd.state.policy.maxTextBytes) : rd.state.counted.countText v.value = .ok state ↔
      rd.state.progress.AdmitsText rd.state.policy (some v) ∧
        state = { rd.state.counted with
          textBytes := rd.state.textBytes + utf8Length v.value } := by
  rw [@StreamState.countText_ok_iff rd.state.counted v.value state hb]
  refine and_congr_left fun _ => ?_
  constructor
  · intro h
    exact ⟨v, rfl, h⟩
  · rintro ⟨o, hs, h⟩
    cases hs
    exact h

variable {e : Event}

lemma enterScope_of_tag_eq_none (h : e.tag = none) : rd.enterScope resolver e = .ok rd.resolver := by
  cases e with
  | start | empty => cases h
  | _ => rfl

/-- A tag is the only event that asks for more than progress and a namespace. -/
lemma allows_of_tag_eq_none (h : e.tag = none) : rd.Allows resolver e ↔
    rd.state.progress.Admits rd.state.policy e ∧ resolver.Resolves rd.resolver e := by
  simp [Allows, h]

lemma advanced_text {v : CowText} (hd : e.decoded = some v) : rd.advanced resolver e = ⟨rd.resolver,
    { rd.state.counted with textBytes := rd.state.textBytes + utf8Length v.value }⟩ := by
  cases e with
  | text | cdata | generalRef => simp_all [advanced, withProgress, progress,
      Progress.next, Event.textBytes, Event.tag, NamespaceResolver.next, counted]
  | _ => cases hd

lemma advanced_of_same (ht : e.tag = none) (hd : e.decoded = none) (hs : ∀ n, e ≠ .stop n) :
    rd.advanced resolver e = ⟨rd.resolver, rd.state.counted⟩ := by
  cases e with
  | start | empty => cases ht
  | stop n => exact absurd rfl (hs n)
  | _ => simp_all [advanced, withProgress, progress, Progress.next,
      Event.textBytes, Event.tag, NamespaceResolver.next, counted]

/-- **One event** is handed out where the monitors allow it. -/
theorem handle_ok_iff (hb : rd.state.textBytes ≤ rd.state.policy.maxTextBytes) :
    (∃ i, rd.enterScope resolver e = .ok i ∧
      ∃ out, handle resolver ⟨i, rd.state.counted⟩ e = .ok (out, next)) ↔
      rd.Allows resolver e ∧ next = rd.advanced resolver e := by
  have hbef : ¬ (rd.state.rootSeen = true ∨ rd.state.depth ≠ 0 ∨
      rd.state.rootComplete = true) ↔ rd.state.progress.BeforeRoot := by
    simp [Progress.BeforeRoot, progress]
  cases e with
  | start tag | empty tag =>
    simp only [handle, bind_eq_ok, except_pure, ok.injEq, Prod.mk.injEq, Allows,
      Progress.Admits, NamespaceResolver.Resolves, Event.tag, mem_def, some.injEq, forall_eq']
    constructor
    · rintro ⟨i, hp, out, ⟨uri, cv, state⟩, hbg, rfl, rfl⟩
      obtain ⟨hal, rfl⟩ := (begin_ok_iff hp).mp ⟨uri, cv, hbg⟩
      refine ⟨hal, ?_⟩
      have hp : resolver.push rd.resolver tag = .ok i := hp
      simp [advanced, NamespaceResolver.next, hp, Except.toOption]
    · rintro ⟨⟨ha, hv, i, hp, hr⟩, rfl⟩
      obtain ⟨uri, cv, hbg⟩ :=
        (begin_ok_iff hp).mpr ⟨⟨ha, hv, i, hp, hr⟩, rfl⟩
      refine ⟨i, hp, _, _, hbg, rfl, ?_⟩
      simp [advanced, NamespaceResolver.next, hp, Except.toOption]
  | stop n =>
    rw [enterScope_of_tag_eq_none rfl, allows_of_tag_eq_none rfl]
    simp only [handle, bind_eq_ok, refuse_eq_ok, exists_unit, except_pure, Except.ok.injEq,
      Prod.mk.injEq, exists_eq_left', Progress.Admits, NamespaceResolver.Resolves]
    have hnext : (⟨resolver.pop rd.resolver, { rd.state.counted with
        depth := rd.state.counted.depth - 1
        rootComplete := rd.state.counted.rootComplete || rd.state.counted.depth - 1 = 0 }⟩ :
          XmlStreamReader ρ) = rd.advanced resolver (.stop n) := by
      simp [advanced, withProgress, progress, Progress.next, Event.textBytes,
        Event.decoded, Event.tag, NamespaceResolver.next, counted]
      congr
    constructor
    · rintro ⟨out, hd, uri, hu, rfl, rfl⟩
      exact ⟨⟨hd, uri, hu⟩, hnext⟩
    · rintro ⟨⟨hd, uri, hu⟩, rfl⟩
      exact ⟨_, hd, uri, hu, rfl, hnext⟩
  | text u =>
    rw [enterScope_of_tag_eq_none rfl, allows_of_tag_eq_none rfl]
    simp only [handle, bind_eq_ok, okOr_eq_ok, except_pure, ok.injEq, Prod.mk.injEq,
      exists_eq_left', Progress.Admits, NamespaceResolver.Resolves, and_true]
    constructor
    · rintro ⟨out, v, rfl, state, hs, rfl, rfl⟩
      obtain ⟨ha, rfl⟩ := (countText_ok_iff hb).mp hs
      exact ⟨ha, (advanced_text rfl).symm⟩
    · rintro ⟨ha, rfl⟩
      obtain ⟨v, rfl, -⟩ := id ha
      exact ⟨_, v, rfl, _, (countText_ok_iff hb).mpr ⟨ha, rfl⟩, rfl, (advanced_text rfl).symm⟩
  | cdata v =>
    have htext := fun state => @countText_ok_iff ρ rd ⟨v, false⟩ state hb
    rw [enterScope_of_tag_eq_none rfl, allows_of_tag_eq_none rfl]
    simp only [handle, bind_eq_ok, except_pure, ok.injEq, Prod.mk.injEq,
      exists_eq_left', Progress.Admits, NamespaceResolver.Resolves, and_true]
    constructor
    · rintro ⟨out, state, hs, rfl, rfl⟩
      obtain ⟨ha, rfl⟩ := (htext _).mp hs
      exact ⟨ha, (advanced_text rfl).symm⟩
    · rintro ⟨ha, rfl⟩
      exact ⟨_, _, (htext _).mpr ⟨ha, rfl⟩, rfl, (advanced_text rfl).symm⟩
  | generalRef ref =>
    rw [enterScope_of_tag_eq_none rfl, allows_of_tag_eq_none rfl]
    simp only [handle, bind_eq_ok, except_pure, ok.injEq, Prod.mk.injEq,
      exists_eq_left', Progress.Admits, NamespaceResolver.Resolves, and_true]
    cases hvalue : decodeReference ref with
    | error er => simp [Progress.AdmitsText, Event.decoded, hvalue, Except.toOption]
    | ok v =>
      have hdec : (Event.generalRef ref).decoded = some { v with owned := true } := by
        simp [Event.decoded, hvalue, Except.toOption]
      have htext := fun state => @countText_ok_iff ρ rd { v with owned := true } state hb
      rw [hdec]
      constructor
      · rintro ⟨out, o, ho, state, hs, rfl, rfl⟩
        cases ho
        obtain ⟨ha, rfl⟩ := (htext _).mp hs
        exact ⟨ha, (advanced_text hdec).symm⟩
      · rintro ⟨ha, rfl⟩
        exact ⟨_, v, rfl, _, (htext _).mpr ⟨ha, rfl⟩, rfl, (advanced_text hdec).symm⟩
  | decl =>
    rw [enterScope_of_tag_eq_none rfl, allows_of_tag_eq_none rfl, advanced_of_same rfl rfl (by simp)]
    simp only [handle, bind_eq_ok, refuse_eq_ok, exists_unit, except_pure, ok.injEq,
      Prod.mk.injEq, exists_eq_left', Progress.Admits, NamespaceResolver.Resolves, and_true, exists_and_left]
    exact and_congr hbef eq_comm
  | docType =>
    rw [enterScope_of_tag_eq_none rfl, allows_of_tag_eq_none rfl, advanced_of_same rfl rfl (by simp)]
    simp only [handle, bind_eq_ok, refuse_eq_ok, exists_unit, except_pure, ok.injEq,
      Prod.mk.injEq, exists_eq_left', Progress.Admits, NamespaceResolver.Resolves, and_true, exists_and_left,
      Bool.not_eq_true, and_assoc]
    exact and_congr_right fun _ => and_congr hbef eq_comm
  | comment | pi =>
    rw [enterScope_of_tag_eq_none rfl, allows_of_tag_eq_none rfl, advanced_of_same rfl rfl (by simp)]
    simp only [handle, except_pure, ok.injEq, Prod.mk.injEq, exists_eq_left', Progress.Admits,
      NamespaceResolver.Resolves, true_and]
    exact eq_comm

lemma textBytes_advanced (hal : rd.Allows resolver e) (hb : rd.state.textBytes ≤ rd.state.policy.maxTextBytes) :
    (rd.advanced resolver e).state.textBytes ≤ rd.state.policy.maxTextBytes := by
  change rd.state.textBytes + e.textBytes ≤ rd.state.policy.maxTextBytes
  obtain ⟨ha, -⟩ := hal
  cases e with
  | text u =>
    obtain ⟨v, rfl, hr, -⟩ := ha
    exact hr
  | cdata v =>
    obtain ⟨o, hs, hr, -⟩ := ha
    cases hs
    exact hr
  | generalRef ref =>
    obtain ⟨v, hv, hr, -⟩ := ha
    rw [Event.textBytes, hv]
    exact hr
  | _ => exact hb

/-- The streaming reader realizes its monitors. -/
theorem realizes_checks (rl : NamespaceResolver ρ) (pl : XmlSafetyPolicy) :
    Monitor.Realizes (fun rd r => (readEvent rl rd r).map Prod.snd)
      (checks rl pl) (XmlStreamReader.Tracks pl) := by
  refine Monitor.realizes_of_iff (fun rd r => rd.advanced rl r.event) ?_ ?_
  · rintro rd ⟨p, _, _, scope⟩ r next h
    have hprog : p = rd.state.progress := h.progress
    have hscope : scope = rd.resolver := h.scope
    have hlims := h.limits
    have hbytes : rd.state.textBytes ≤ rd.state.policy.maxTextBytes := by
      rw [hlims]
      exact h.textBytes
    have hhandle := @handle_ok_iff ρ rl rd next r.event hbytes
    have hmap : (readEvent rl rd r).map Prod.snd = .ok next ↔ ∃ out, readEvent rl rd r = .ok (out, next) := by
      cases readEvent rl rd r with
      | error e => simp [Except.map]
      | ok rs => simp [Except.map, Prod.ext_iff]
    have hread : (∃ out, readEvent rl rd r = .ok (out, next)) ↔
        (rd.state.events + 1 ≤ rd.state.policy.maxEvents ∧ r.position ≤ rd.state.policy.maxInputBytes) ∧
        ∃ i, rd.enterScope rl r.event = .ok i ∧
          ∃ out, handle rl ⟨i, rd.state.counted⟩ r.event = .ok (out, next) := by
      simp only [readEvent, countEvent, bind_eq_ok, refuse_eq_ok, exists_unit, not_lt,
        not_le, except_pure, ok.injEq, except_mapError_eq_ok]
      constructor
      · rintro ⟨out, i, hi, hp, state, ⟨he, rfl⟩, hh⟩
        exact ⟨⟨he, hp⟩, i, hi, out, hh⟩
      · rintro ⟨⟨he, hp⟩, i, hi, out, hh⟩
        exact ⟨out, i, hi, hp, _, ⟨he, rfl⟩, hh⟩
    rw [hmap, hread, hhandle]
    simp only [checks, Monitor.both, shape, values, positions, resolution, Allows, hprog, hscope, hlims]
    constructor
    · rintro ⟨⟨he, hp⟩, ⟨ha, hv, hr⟩, hn⟩
      exact ⟨⟨⟨he, ha⟩, hv, hp, hr⟩, hn⟩
    · rintro ⟨⟨⟨he, ha⟩, hv, hp, hr⟩, hn⟩
      exact ⟨⟨he, hp⟩, ⟨ha, hv, hr⟩, hn⟩
  · rintro rd ⟨p, _, _, scope⟩ r h ⟨⟨-, ha⟩, hv, -, hr⟩
    have hprog : p = rd.state.progress := h.progress
    have hscope : scope = rd.resolver := h.scope
    have hlims := h.limits
    have hbytes : rd.state.textBytes ≤ rd.state.policy.maxTextBytes := by
      rw [hlims]
      exact h.textBytes
    have hallows : rd.Allows rl r.event := by
      rw [hprog] at ha
      rw [hscope] at hr
      refine ⟨?_, hv, hr⟩
      rw [hlims]
      exact ha
    refine ⟨?_, ?_, hlims, ?_⟩
    · rw [hprog]
      rfl
    · rw [hscope]
      rfl
    · rw [← hlims]
      exact textBytes_advanced hallows hbytes

end XmlStreamReader

/-! ## Documents -/

/-- **The streaming reader gets to the end** of an input that was read as a whole, if the document has the
right shape and values, and the resolver refuses nothing. -/
theorem drain_accepts_iff {t : List UInt8 → TokenStream} {b : List UInt8} {p : XmlSafetyPolicy} :
    (∃ reader, drain resolver t b p = .ok reader) ↔ Accountable p b ∧ WellShaped p (t b) ∧
        values.Accepts () (t b).events ∧ (positions p).Accepts () (t b).events ∧
        (resolution resolver).Accepts (resolver.new p.maxNamespaceBindings) (t b).events := by
  have hreal := realizes_checks resolver p
  have hparts := fun e => (@Monitor.both_accepts _ _ _ (shape p)
    (values.both ((positions p).both (resolution resolver))) Progress.new
      ((), (), resolver.new p.maxNamespaceBindings) e).trans
      (and_congr_right fun _ => (values.both_accepts ((positions p).both (resolution resolver))).trans
        (and_congr_right fun _ => (positions p).both_accepts (resolution resolver)))
  have hnew : XmlStreamReader.Tracks p ⟨resolver.new p.maxNamespaceBindings,
      ⟨p, 0, 0, 0, 0, false, false, false⟩⟩ (Progress.new, (), (), resolver.new p.maxNamespaceBindings) :=
    ⟨rfl, rfl, rfl, Nat.zero_le _⟩
  -- Where the source is longer than the limit, the reader stands behind the limit at the end.
  have hinput : (b.take (p.maxInputBytes + 1)).length ≤ p.maxInputBytes ↔ b.length ≤ p.maxInputBytes := by
    rw [length_take]
    omega
  have htake : b.length ≤ p.maxInputBytes → b.take (p.maxInputBytes + 1) = b :=
    fun h => take_of_length_le (by omega)
  simp only [drain, new, bind_eq_ok, exists_unit, except_pure, ok.injEq]
  constructor
  · rintro ⟨l, s, ⟨hpl, rfl⟩, reader, hrn, ⟨ev, f⟩, he, -⟩
    obtain ⟨ha, ht⟩ := hreal.of_ok hnew hrn
    obtain ⟨hs, hv, hp, hrs⟩ := (hparts _).mp ha
    cases hr : (t (b.take (p.maxInputBytes + 1))).finish with
    | failed er =>
      rw [hr] at he
      cases he
    | eof =>
      rw [hr] at he
      simp only [readEnd, bind_eq_ok, refuse_eq_ok, exists_unit, not_or, not_not,
        Bool.not_eq_false, not_lt, ht.limits, hinput] at he
      obtain ⟨hsz, ⟨hd, hc⟩, -⟩ := he
      have hprog := ht.progress
      simp only [checks, Monitor.both_after] at hprog
      rw [htake hsz] at hs hv hp hrs hr hprog
      refine ⟨⟨hpl, hsz⟩, ⟨hs, hr, ?_⟩, hv, hp, hrs⟩
      rw [hprog]
      exact ⟨hd, hc⟩
  · rintro ⟨⟨hpl, hsz⟩, ⟨hs, hr, hc⟩, hv, hp, hrs⟩
    rw [htake hsz]
    obtain ⟨reader, hrn⟩ := hreal.to_ok hnew ((hparts _).mpr ⟨hs, hv, hp, hrs⟩)
    have ht := (hreal.of_ok hnew hrn).2
    have hprog := ht.progress
    simp only [checks, Monitor.both_after] at hprog
    rw [hprog] at hc
    refine ⟨_, _, ⟨hpl, rfl⟩, reader, hrn,
      (.eof, { reader with state := { reader.state with finished := true } }), ?_, rfl⟩
    rw [hr]
    simp only [readEnd, bind_eq_ok, refuse_eq_ok, exists_unit, not_or, not_not,
      Bool.not_eq_false, not_lt, ht.limits, except_pure]
    exact ⟨hsz, hc, trivial⟩

end AsterForge.Xml
