import AsterForge.Library.Monitor
import Mathlib.Data.List.ReduceOption
import AsterForge.Xml.Content
import AsterForge.Xml.Scanner

/-!
# What the readers check

Three readers refuse documents, each with a loop of its own.  What they check falls into parts that do not
depend on each other, and each part is a monitor of the events.
-/

namespace AsterForge.Xml

open Library List

/-! ## Shape -/

def Event.decoded : Event → Option CowText
  | .text unescaped => unescaped
  | .cdata value => some ⟨value, false⟩
  | .generalRef reference =>
    (decodeReference reference).toOption.map fun value => { value with owned := true }
  | _ => none

def Event.textBytes (event : Event) : ℕ := event.decoded.elim 0 fun value => utf8Length value.value

def Event.tag : Event → Option BytesStart
  | .start tag | .empty tag => some tag
  | _ => none

/-- How far a document was read. -/
structure Progress where
  depth : ℕ
  elements : ℕ
  textBytes : ℕ
  events : ℕ
  rootSeen : Bool
  rootComplete : Bool

namespace Progress

def new : Progress := ⟨0, 0, 0, 0, false, false⟩

variable (policy : XmlSafetyPolicy) (progress : Progress)

structure AdmitsTag (tag : BytesStart) : Prop where
  inside : ¬ (progress.depth = 0 ∧ progress.rootComplete = true)
  depth : progress.depth + 1 ≤ policy.maxDepth
  elements : progress.elements + 1 ≤ policy.maxElements
  attributes : tag.attributes.length ≤ policy.maxAttributesPerElement
  readable : none ∉ tag.attributes

/-- Character data may come: it can be decoded, and is white space outside of the root. -/
def AdmitsText (decoded : Option CowText) : Prop :=
  ∃ value, decoded = some value ∧ progress.textBytes + utf8Length value.value ≤ policy.maxTextBytes ∧
    (progress.depth = 0 → value.value.all isWhitespace = true)

def BeforeRoot : Prop :=
  progress.rootSeen = false ∧ progress.depth = 0 ∧ progress.rootComplete = false

def Admits : Event → Prop
  | .start tag | .empty tag => progress.AdmitsTag policy tag
  | .stop _ => progress.depth ≠ 0
  | .text unescaped => progress.AdmitsText policy unescaped
  | .cdata value => progress.AdmitsText policy (some ⟨value, false⟩)
  | .generalRef reference => progress.AdmitsText policy (Event.generalRef reference).decoded
  | .decl => progress.BeforeRoot
  | .docType => policy.rejectDoctype = false ∧ progress.BeforeRoot
  | .comment _ | .pi _ _ => True

def next (event : Event) : Progress :=
  { progress with
    events := progress.events + 1
    textBytes := progress.textBytes + event.textBytes
    elements := progress.elements + if event.tag.isSome then 1 else 0
    rootSeen := progress.rootSeen || event.tag.isSome
    depth := match event with
      | .start _ => progress.depth + 1
      | .stop _ => progress.depth - 1
      | _ => progress.depth
    rootComplete := match event with
      | .empty _ => progress.rootComplete || progress.depth = 0
      | .stop _ => progress.rootComplete || progress.depth - 1 = 0
      | _ => progress.rootComplete }

def Complete : Prop := progress.depth = 0 ∧ progress.rootComplete = true

end Progress

variable (policy : XmlSafetyPolicy)

/-- The nesting of elements, the text outside of the root, and the limits that are counted. -/
def shape : Monitor Progress ReadEvent where
  allows := fun progress read =>
    progress.events + 1 ≤ policy.maxEvents ∧ progress.Admits policy read.event
  next := fun progress read => progress.next read.event

/-! ## Names -/

def XmlAttribute.WellDeclared (entry : XmlAttribute) : Prop :=
  (∃ parts, validateQualifiedName entry.key = .ok parts) ∧
    ∀ nsPrefix ∈ namespaceDeclarationPrefix entry.key, ∃ uri, entry.normalized = some uri ∧
      validateNamespaceBinding nsPrefix uri.value = .ok ()

/-- The prefix of an attribute that declares nothing is declared, or needs no declaration. -/
def XmlAttribute.Resolved (bindings : List NamespaceBinding) (entry : XmlAttribute) : Prop :=
  namespaceDeclarationPrefix entry.key = none → ∀ nsPrefix ∈ (splitQualifiedName entry.key).1,
    nsPrefix ≠ "xml".toList → namespaceIn bindings nsPrefix ≠ none

/-- The names of a start tag are valid, the declarations too, the prefixes are declared, and there are not
too many bindings in scope. -/
structure BytesStart.WellNamed (policy : XmlSafetyPolicy) (bindings : List NamespaceBinding)
    (tag : BytesStart) : Prop where
  name : ∃ parts, validateQualifiedName tag.name = .ok parts
  declared : ∀ entry, some entry ∈ tag.attributes → entry.WellDeclared
  limit : (bindings ++ tagBindings tag).length ≤ policy.maxNamespaceBindings
  resolved : ∀ nsPrefix ∈ (splitQualifiedName tag.name).1,
    namespaceIn (bindings ++ tagBindings tag) nsPrefix ≠ none
  attributes : ∀ entry, some entry ∈ tag.attributes → entry.Resolved (bindings ++ tagBindings tag)

structure Scopes where
  current : List NamespaceBinding
  outer : List (List NamespaceBinding)

namespace Scopes

def new : Scopes := ⟨[], []⟩

variable (scopes : Scopes)

def enter (tag : BytesStart) : Scopes :=
  ⟨scopes.current ++ tagBindings tag, scopes.current :: scopes.outer⟩

def leave : Scopes :=
  match scopes.outer with
  | [] => scopes
  | current :: outer => ⟨current, outer⟩

def next : Event → Scopes
  | .start tag => scopes.enter tag
  | .stop _ => scopes.leave
  | _ => scopes

end Scopes

def names : Monitor Scopes ReadEvent where
  allows := fun scopes read => ∀ tag ∈ read.event.tag, tag.WellNamed policy scopes.current
  next := fun scopes read => scopes.next read.event

def ends : Monitor (List Text) ReadEvent where
  allows := fun opened read =>
    ∀ name, read.event = .stop name → ∀ innermost ∈ opened.head?, innermost = name
  next := fun opened read => match read.event with
    | .start tag => tag.name :: opened
    | .stop _ => opened.tail
    | _ => opened

/-! ## Values -/

def BytesStart.WellValued (tag : BytesStart) : Prop :=
  ∀ entry, some entry ∈ tag.attributes → entry.normalized ≠ none

def values : Monitor Unit ReadEvent where
  allows := fun _ read => ∀ tag ∈ read.event.tag, tag.WellValued
  next := fun _ _ => ()

/-! ## Arenas -/

def XmlAttribute.strings (entry : XmlAttribute) : List Text :=
  (namespaceDeclarationPrefix entry.key).getD entry.key :: (entry.normalized.map CowText.value).toList

def XmlAttribute.built (entry : XmlAttribute) : ℕ :=
  match entry.normalized with
  | some ⟨value, true⟩ =>
    if (namespaceDeclarationPrefix entry.key).isSome = true ∧ value = [] then 0 else 1
  | _ => 0

def builtFor (declaring : Bool) (entries : List (Option XmlAttribute)) : ℕ :=
  (entries.map fun entry => entry.elim 0 fun entry =>
    if (namespaceDeclarationPrefix entry.key).isSome = declaring then entry.built else 0).sum

/-- The sizes of the arenas, and the number of open elements. -/
structure Arenas where
  depth : ℕ
  nodes : ℕ
  attributes : ℕ
  namespaceScopes : ℕ
  namespaceBindings : ℕ
  ownedValues : ℕ

namespace Arenas

def new : Arenas := ⟨0, 0, 0, 0, 0, 0⟩

variable (arenas : Arenas)

/-- Every entry has an index of 32 bits. -/
structure Fit : Prop where
  nodes : arenas.nodes ≤ u32Max
  attributes : arenas.attributes ≤ u32Max
  namespaceScopes : arenas.namespaceScopes ≤ u32Max
  namespaceBindings : arenas.namespaceBindings ≤ u32Max
  ownedValues : arenas.ownedValues ≤ u32Max + 1

def addElement (tag : BytesStart) : Arenas :=
  { arenas with
    nodes := arenas.nodes + 1
    attributes := arenas.attributes + (tagAttributes tag).length
    namespaceScopes := arenas.namespaceScopes + if tagBindings tag = [] then 0 else 1
    namespaceBindings := arenas.namespaceBindings + (tagBindings tag).length
    ownedValues := arenas.ownedValues + builtFor true tag.attributes + builtFor false tag.attributes }

def addText (value : CowText) : Arenas :=
  if arenas.depth = 0 ∨ value.value = [] then arenas
  else { arenas with
    nodes := arenas.nodes + 1
    ownedValues := arenas.ownedValues + if value.owned then 1 else 0 }

def addNode : Arenas := if arenas.depth = 0 then arenas else { arenas with nodes := arenas.nodes + 1 }

def next : Event → Arenas
  | .start tag => { arenas.addElement tag with depth := arenas.depth + 1 }
  | .empty tag => arenas.addElement tag
  | .stop _ => { arenas with depth := arenas.depth - 1 }
  | .text unescaped => unescaped.elim arenas arenas.addText
  | .cdata value => arenas.addText ⟨value, false⟩
  | .generalRef reference => (Event.generalRef reference).decoded.elim arenas arenas.addText
  | .comment _ | .pi _ _ => arenas.addNode
  | .decl | .docType => arenas

def strings : Event → List Text
  | .start tag | .empty tag =>
    tag.name :: tag.attributes.reduceOption.flatMap XmlAttribute.strings
  | .text unescaped => if arenas.depth = 0 then [] else (unescaped.map CowText.value).toList
  | .cdata value => if arenas.depth = 0 then [] else [value]
  | .generalRef reference =>
    if arenas.depth = 0 then [] else ((Event.generalRef reference).decoded.map CowText.value).toList
  | .comment value => [value]
  | .pi target content => [target, (instructionContent content).getD []]
  | .stop _ | .decl | .docType => []

end Arenas

def arenas : Monitor Arenas ReadEvent where
  allows := fun arenas read => (arenas.next read.event).Fit ∧
    ∀ value ∈ arenas.strings read.event, utf8Length value ≤ u32Max
  next := fun arenas read => arenas.next read.event

/-! ## Documents -/

/-- A policy that a reader accepts, and an input that is not too large for it. -/
def Accountable (bytes : List UInt8) : Prop :=
  policy.validate = .ok () ∧ bytes.length ≤ policy.maxInputBytes

def WellShaped (source : TokenStream) : Prop :=
  (shape policy).Accepts Progress.new source.events ∧ source.finish = .eof ∧
    ((shape policy).after Progress.new source.events).Complete

/-! ## Attributes -/

variable {p : Option Text × Text} {e : XmlAttribute}

lemma validateQualifiedName_parts {n : Text} (h : validateQualifiedName n = .ok p) : p = splitQualifiedName n := by
  obtain ⟨_, -, h⟩ := bind_eq_ok.mp h
  cases h
  rfl

variable {f : XmlAttribute} {en : List (Option XmlAttribute)} {np : Text} {uri : CowText}

lemma forall_some_cons {P : XmlAttribute → Prop} : (∀ e, some e ∈ some f :: en → P e) ↔
    P f ∧ ∀ e, some e ∈ en → P e := by
  constructor
  · intro h
    exact ⟨h f mem_cons_self, fun e hm => h e (mem_cons_of_mem _ hm)⟩
  · rintro ⟨hf, ho⟩ e hm
    rcases mem_cons.mp hm with h | h
    · cases h
      exact hf
    · exact ho e h

lemma none_notMem_cons : none ∉ some f :: en ↔ none ∉ en := by
  simp

section

variable {σ : Type} {P : XmlAttribute → Prop} (Fits : σ → Prop) (total : σ → List (Option XmlAttribute) → σ)
  {g : σ → Option XmlAttribute → Except XmlError σ} {s next : σ}

/-- **A pass over the attributes** that asks each of them something, and keeps a bound on what it collects. -/
theorem pass_ok_iff (hnil : ∀ s, total s [] = s)
    (hcons : ∀ s entry entries, total s (entry :: entries) = total (total s [entry]) entries)
    (hfits : ∀ s entries, Fits (total s entries) → Fits s)
    (hstep : ∀ s next entry, Fits s → (g s entry = .ok next ↔
      ∃ f, entry = some f ∧ P f ∧ Fits (total s [entry]) ∧ next = total s [entry]))
    (h : Fits s) : en.foldlM g s = .ok next ↔
      (none ∉ en ∧ (∀ e, some e ∈ en → P e) ∧ Fits (total s en)) ∧ next = total s en := by
  induction en generalizing s with
  | nil =>
    simp only [foldlM_nil, except_pure, Except.ok.injEq, hnil, not_mem_nil, not_false_eq_true, false_imp_iff,
      implies_true, h, and_self, true_and]
    exact eq_comm
  | cons entry en ih =>
    rw [foldlM_cons, bind_eq_ok, hcons]
    constructor
    · rintro ⟨m, hm, hrs⟩
      obtain ⟨f, rfl, hp, hf, rfl⟩ := (hstep _ _ _ h).mp hm
      obtain ⟨⟨hn, ho, hl⟩, rfl⟩ := (ih hf).mp hrs
      exact ⟨⟨none_notMem_cons.mpr hn, forall_some_cons.mpr ⟨hp, ho⟩, hl⟩, rfl⟩
    · rintro ⟨⟨hn, hp, hl⟩, rfl⟩
      cases entry with
      | none => exact absurd mem_cons_self hn
      | some f =>
        obtain ⟨hp, ho⟩ := forall_some_cons.mp hp
        have hm := hfits _ _ hl
        exact ⟨_, (hstep _ _ _ h).mpr ⟨f, rfl, hp, hm, rfl⟩,
          (ih hm).mpr ⟨⟨none_notMem_cons.mp hn, ho, hl⟩, rfl⟩⟩

end

lemma tagBindings_cons (entry : Option XmlAttribute) (entries : List (Option XmlAttribute)) :
    tagBindings ⟨[], entry :: entries⟩ = tagBindings ⟨[], [entry]⟩ ++ tagBindings ⟨[], entries⟩ := by
  rw [tagBindings, tagBindings, tagBindings, ← filterMap_append, singleton_append]

lemma tagBindings_single_of_none
    (h : namespaceDeclarationPrefix e.key = none) : tagBindings ⟨[], [some e]⟩ = [] := by
  simp [tagBindings, h]

lemma tagBindings_single_of_some (h : namespaceDeclarationPrefix e.key = some np) (hu : e.normalized = some uri) :
    tagBindings ⟨[], [some e]⟩ = [⟨np, if uri.value = [] then none else some uri.value⟩] := by
  simp [tagBindings, h, hu]

lemma wellDeclared_of_none (h : namespaceDeclarationPrefix e.key = none)
    (hp : validateQualifiedName e.key = .ok p) : e.WellDeclared := by
  refine ⟨⟨p, hp⟩, ?_⟩
  intro np hm
  rw [h] at hm
  cases hm

lemma wellDeclared_of_some (h : namespaceDeclarationPrefix e.key = some np)
    (hp : validateQualifiedName e.key = .ok p) (hu : e.normalized = some uri)
    (hv : validateNamespaceBinding np uri.value = .ok ()) : e.WellDeclared := by
  refine ⟨⟨p, hp⟩, ?_⟩
  intro o hm
  rw [h] at hm
  cases hm
  exact ⟨uri, hu, hv⟩

/-! ## Prefixes in scope -/

def flatScope (scope : NamespaceScope) : List NamespaceBinding := scope.reverse.flatten

lemma flatScope_cons (b : List NamespaceBinding) (s : NamespaceScope) : flatScope (b :: s) = flatScope s ++ b := by
  simp [flatScope]

variable (s : NamespaceScope)

lemma flatScope_tagScope (tag : BytesStart) :
    flatScope (tagScope s tag) = flatScope s ++ tagBindings tag := by
  unfold tagScope
  split
  case isTrue h => rw [h, append_nil]
  case isFalse h => exact flatScope_cons _ _

lemma length_flatScope : (flatScope s).length = (s.map length).sum := by
  induction s with
  | nil => rfl
  | cons b s ih =>
    rw [flatScope_cons, length_append, ih, map_cons, sum_cons, Nat.add_comm]

lemma resolveNamespace_eq (nsPrefix : Text) :
    resolveNamespace s nsPrefix = namespaceIn (flatScope s) nsPrefix := by
  have hfind : (s.findSome? fun bn =>
      bn.reverse.find? fun b => b.nsPrefix = nsPrefix) =
        (flatScope s).reverse.find? fun b => b.nsPrefix = nsPrefix := by
    induction s with
    | nil => rfl
    | cons bn s ih =>
      rw [flatScope_cons, reverse_append, find?_append, findSome?_cons, ih]
      cases bn.reverse.find? fun b => b.nsPrefix = nsPrefix with
      | none => rfl
      | some b => rfl
  unfold resolveNamespace namespaceIn
  rw [hfind]

end AsterForge.Xml
