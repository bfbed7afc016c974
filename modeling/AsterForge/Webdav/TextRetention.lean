import AsterForge.Library.Bytes
import AsterForge.Webdav.Xml
import AsterForge.Xml.Content

/-!
# What a parsed element keeps of its text

Formatting white space around a text is dropped when an element is parsed.  The tokenizer reads a
reference as a piece of its own, and each piece is trimmed by itself: white space next to a reference is
dropped too, though it stands in the middle of the text.

* **`text_retention`** — the text kept of a run of character data is the run without the white space at
  its ends exactly if no white space stands where two pieces of it meet.
-/

namespace AsterForge.Webdav

open Library Xml List

def decodedRun (run : List CharacterData) : Text := (run.map CharacterData.decoded).flatten

lemma flatten_filter_ne_nil (t : List Text) : (t.filter fun tx => tx ≠ []).flatten = t.flatten := by
  induction t with
  | nil => rfl
  | cons tx t ih =>
    rw [filter_cons]
    cases tx with
    | nil => exact ih
    | cons c tx =>
      rw [decide_eq_true (cons_ne_nil c tx), if_pos rfl, flatten_cons, ih, flatten_cons]

lemma keptRun_flatten (run : List CharacterData) :
    (keptRun webdavParseOptions run).flatten = ((run.map CharacterData.decoded).map trim).flatten := by
  rw [keptRun, flatten_filter_ne_nil, map_map]
  rfl

/-- **Text retention.**  A parsed element is the tree of what it was parsed from.  Of every run of
character data in it, what is kept is the run without the white space at its ends, exactly if no white
space stands where two pieces of the run meet. -/
theorem text_retention {tokenize : List UInt8 → TokenStream} {bytes : List UInt8}
    {element : DavXmlElement} {prolog epilog : List ReadEvent} {root : SourceNode}
    (hroot : root.IsElement) (hprolog : ∀ read ∈ prolog, read.event.IsMisc)
    (hepilog : ∀ read ∈ epilog, read.event.IsMisc)
    (hevents : (tokenize bytes).events = prolog ++ (root.events ++ epilog))
    (hparse : DavXmlElement.parse tokenize bytes = .ok element) :
    [element.node] = childrenFromForge (root.tree webdavParseOptions [] (endPosition 0 prolog)) ∧
      ∀ run ∈ root.runs, (keptRun webdavParseOptions run).flatten = trim (decodedRun run) ↔
        Joined (corePieces (run.map CharacterData.decoded)) := by
  obtain ⟨b, p, hb, hp, rfl⟩ := parse_eq_ok hparse
  have htree := parse_tree hroot hprolog hepilog hevents hb
  constructor
  · rw [← htree, hp]
    rfl
  · intro run _
    rw [keptRun_flatten]
    exact flatten_map_trim _

def spacedReference : SourceNode :=
  .element ⟨['a'], []⟩ 3
    [.run [(.text (some ⟨"a ".toList, false⟩), 5), (.reference ⟨"amp".toList, some none⟩, 10),
      (.text (some ⟨" b".toList, false⟩), 12)]] ['a'] 16

/-- The spaces around a reference are lost. -/
theorem text_retention_counterexample :
    ∃ element, DavXmlElement.parse (fun _ => ⟨spacedReference.events, .eof⟩)
        (utf8Bytes "<a>a &amp; b</a>") = .ok element ∧
      element.children = [.text ['a'], .text ['&'], .text ['b']] ∧
      ∃ run ∈ spacedReference.runs, decodedRun run = "a & b".toList ∧
        (keptRun webdavParseOptions run).flatten ≠ trim (decodedRun run) := by
  refine ⟨_, rfl, rfl, _, mem_singleton.mpr rfl, rfl, by decide⟩

/-- The theorem at that element. -/
theorem text_retention_spacedReference :
    ∃ element, DavXmlElement.parse (fun _ => ⟨spacedReference.events, .eof⟩)
        (utf8Bytes "<a>a &amp; b</a>") = .ok element ∧
      [element.node] = childrenFromForge (spacedReference.tree webdavParseOptions [] 0) := by
  refine ⟨_, rfl, ?_⟩
  exact (@text_retention (fun _ => ⟨spacedReference.events, .eof⟩) (utf8Bytes "<a>a &amp; b</a>") _
    [] [] spacedReference trivial (by simp) (by simp) (append_nil _).symm rfl).1

end AsterForge.Webdav
