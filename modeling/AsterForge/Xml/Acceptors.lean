import AsterForge.Xml.DocumentChecks
import AsterForge.Xml.StreamChecks

/-!
# Three readers of one document

A document is read by a scanner, by a tree builder and by a streaming reader.  The scanner is a gate in
front of the others and shares their limits, yet each of them has checks that the others lack: the scanner
does not ask for the values of attributes, and the streaming reader does not look at names.

* **`acceptors_agree_exact`** — the documents on which the three agree.
-/

namespace AsterForge.Xml

open Library

/-- The three readers accept the same of some input, and the tree builder trims no text. -/
def AcceptorsAgree {ρ : Type} (tokenize : List UInt8 → TokenStream) (resolver : NamespaceResolver ρ)
    (policy : XmlSafetyPolicy) (bytes : List UInt8) : Prop :=
  (validateXmlInput tokenize bytes policy = .ok () ↔
      ∃ root, parseWithOptions tokenize bytes ⟨policy, false⟩ = .ok root) ∧
    ((∃ root, parseWithOptions tokenize bytes ⟨policy, false⟩ = .ok root) ↔
      ∃ reader, drain resolver tokenize bytes policy = .ok reader)

/-- No event ends behind the end of the source. -/
def PositionsInSource (tokenize : List UInt8 → TokenStream) : Prop :=
  ∀ source, ∀ read ∈ (tokenize source).events, read.position ≤ source.length

/-- An end tag has the name of the element that it closes. -/
def EndsMatch (tokenize : List UInt8 → TokenStream) : Prop :=
  ∀ source, ends.Accepts [] (tokenize source).events

lemma positions_accepts {p : XmlSafetyPolicy} {e : List ReadEvent}
    (h : ∀ r ∈ e, r.position ≤ p.maxInputBytes) : (positions p).Accepts () e := by
  induction e with
  | nil => exact trivial
  | cons r e ih =>
    exact ⟨h r List.mem_cons_self, ih fun o hm => h o (List.mem_cons_of_mem _ hm)⟩

/-- **The three readers agree** on an input exactly if it fails a check that all of them make, or the checks
that they do not share come out the same: where the names are right the values of the attributes are too,
the arenas hold the document and the resolver refuses nothing; and the names are right where the values are
and the resolver refuses nothing. -/
theorem acceptors_agree_exact {ρ : Type} {tokenize : List UInt8 → TokenStream}
    (resolver : NamespaceResolver ρ) (policy : XmlSafetyPolicy) (bytes : List UInt8)
    (hpositions : PositionsInSource tokenize) (hends : EndsMatch tokenize) :
    AcceptorsAgree tokenize resolver policy bytes ↔
      (Accountable policy bytes → WellShaped policy (tokenize bytes) →
        ((names policy).Accepts Scopes.new (tokenize bytes).events →
          values.Accepts () (tokenize bytes).events ∧
            arenas.Accepts Arenas.new (tokenize bytes).events ∧
              (resolution resolver).Accepts (resolver.new policy.maxNamespaceBindings)
                (tokenize bytes).events) ∧
        (values.Accepts () (tokenize bytes).events →
          (resolution resolver).Accepts (resolver.new policy.maxNamespaceBindings) (tokenize bytes).events →
          (names policy).Accepts Scopes.new (tokenize bytes).events)) := by
  rw [AcceptorsAgree, validateXmlInput_accepts_iff, parseWithOptions_accepts_iff, drain_accepts_iff]
  have hpositions : Accountable policy bytes →
      (positions policy).Accepts () (tokenize bytes).events := fun ha =>
    positions_accepts fun r hm => (hpositions bytes r hm).trans ha.2
  have hends := hends bytes
  constructor
  · rintro ⟨hsc, hst⟩ ha hs
    constructor
    · intro hn
      obtain ⟨-, -, -, hv, har⟩ := hsc.mp ⟨ha, hs, hn, hends⟩
      obtain ⟨-, -, -, -, hr⟩ := hst.mp ⟨ha, hs, hn, hv, har⟩
      exact ⟨hv, har, hr⟩
    · intro hv hr
      obtain ⟨-, -, hn, -⟩ := hst.mpr ⟨ha, hs, hv, hpositions ha, hr⟩
      exact hn
  · intro hc
    constructor
    · constructor
      · rintro ⟨ha, hs, hn, -⟩
        obtain ⟨hv, har, -⟩ := (hc ha hs).1 hn
        exact ⟨ha, hs, hn, hv, har⟩
      · rintro ⟨ha, hs, hn, -⟩
        exact ⟨ha, hs, hn, hends⟩
    · constructor
      · rintro ⟨ha, hs, hn, -⟩
        obtain ⟨hv, -, hr⟩ := (hc ha hs).1 hn
        exact ⟨ha, hs, hv, hpositions ha, hr⟩
      · rintro ⟨ha, hs, hv, -, hr⟩
        have hn := (hc ha hs).2 hv hr
        obtain ⟨-, har, -⟩ := (hc ha hs).1 hn
        exact ⟨ha, hs, hn, hv, har⟩

/-! ## Single documents -/

def tokenizeOnly (document : List UInt8) (stream : TokenStream) (source : List UInt8) : TokenStream :=
  if source = document then stream else ⟨[], .failed .other⟩

/-- A resolver, as far as documents without prefixes go. -/
def unprefixedResolver : NamespaceResolver Unit where
  new := fun _ => ()
  push := fun _ _ => .ok ()
  pop := fun _ => ()
  resolveElement := fun _ _ => .unbound
  resolveAttribute := fun _ _ => .unbound

lemma positionsInSource_tokenizeOnly {d : List UInt8} {s : TokenStream}
    (h : ∀ r ∈ s.events, r.position ≤ d.length) : PositionsInSource (tokenizeOnly d s) := by
  intro sr r hm
  unfold tokenizeOnly at hm
  split at hm
  case isTrue hsrc =>
    rw [hsrc]
    exact h r hm
  case isFalse hsrc => cases hm

lemma endsMatch_tokenizeOnly {d : List UInt8} {s : TokenStream}
    (h : ends.Accepts [] s.events) : EndsMatch (tokenizeOnly d s) := by
  intro sr
  unfold tokenizeOnly
  split
  case isTrue hsrc => exact h
  case isFalse hsrc => exact trivial

/-- `<a xmlns="u"><b c="v"></b></a>`. -/
def nestedDocument : List UInt8 :=
  [60, 97, 32, 120, 109, 108, 110, 115, 61, 34, 117, 34, 62, 60, 98, 32, 99, 61, 34, 118, 34, 62, 60, 47, 98, 62,
    60, 47, 97, 62]

def tokenizeNested : List UInt8 → TokenStream :=
  tokenizeOnly nestedDocument
    ⟨[⟨.start ⟨"a".toList, [some ⟨"xmlns".toList, some ⟨"u".toList, false⟩⟩]⟩, 13⟩,
      ⟨.start ⟨"b".toList, [some ⟨"c".toList, some ⟨"v".toList, false⟩⟩]⟩, 22⟩, ⟨.stop "b".toList, 26⟩,
      ⟨.stop "a".toList, 30⟩], .eof⟩

/-- A resolver, as far as that document goes. -/
def nestedResolver : NamespaceResolver ℕ where
  new := fun _ => 0
  push := fun depth _ => .ok (depth + 1)
  pop := fun depth => depth - 1
  resolveElement := fun depth _ => if depth = 0 then .unbound else .bound "u".toList
  resolveAttribute := fun _ _ => .unbound

/-- A namespace, an attribute and nested elements: no reader refuses them. -/
theorem acceptors_agree_exact_nested :
    AcceptorsAgree tokenizeNested nestedResolver .untrusted nestedDocument := by
  obtain ⟨-, -, hnames, hends⟩ := validateXmlInput_accepts_iff.mp
    (by decide +kernel : validateXmlInput tokenizeNested nestedDocument .untrusted = .ok ())
  obtain ⟨-, -, -, hvalues, harenas⟩ := parseWithOptions_accepts_iff.mp
    (⟨_, rfl⟩ : ∃ root, parseWithOptions tokenizeNested nestedDocument ⟨.untrusted, false⟩ = .ok root)
  obtain ⟨-, -, -, -, hresolution⟩ := (drain_accepts_iff nestedResolver).mp
    (⟨_, rfl⟩ : ∃ reader, drain nestedResolver tokenizeNested nestedDocument .untrusted = .ok reader)
  exact (acceptors_agree_exact nestedResolver .untrusted nestedDocument
    (positionsInSource_tokenizeOnly (by decide +kernel)) (endsMatch_tokenizeOnly hends)).mpr
      fun _ _ => ⟨fun _ => ⟨hvalues, harenas, hresolution⟩, fun _ _ => hnames⟩

/-- `<a b="&x;"/>`: an attribute that refers to an entity nobody declares. -/
def undeclaredEntity : List UInt8 := [60, 97, 32, 98, 61, 34, 38, 120, 59, 34, 47, 62]

/-- The events of that document. -/
def tokenizeUndeclaredEntity : List UInt8 → TokenStream :=
  tokenizeOnly undeclaredEntity ⟨[⟨.empty ⟨"a".toList, [some ⟨"b".toList, none⟩]⟩, 12⟩], .eof⟩

/-- The scanner lets a document through that neither of the others reads. -/
theorem acceptors_agree_counterexample :
    validateXmlInput tokenizeUndeclaredEntity undeclaredEntity .untrusted = .ok () ∧
      ¬ AcceptorsAgree tokenizeUndeclaredEntity unprefixedResolver .untrusted undeclaredEntity := by
  have hscan : validateXmlInput tokenizeUndeclaredEntity undeclaredEntity .untrusted = .ok () := by
    decide +kernel
  refine ⟨hscan, ?_⟩
  rintro ⟨ha, -⟩
  obtain ⟨-, -, -, hv, -⟩ := parseWithOptions_accepts_iff.mp (ha.mp hscan)
  exact hv.1 _ rfl ⟨"b".toList, none⟩ List.mem_cons_self rfl

end AsterForge.Xml
