import AsterForge.Xml.WriterCalls

/-!
# What a run of the writer writes

The calls that succeed in a run of the writer describe a document, and the document that is written is that
one, as long as no event is torn apart and every call is plain.  A torn event is left in the sink, and the
writer goes on behind it.

* **`written_document`** — the document of a clean run is well formed and is read as it was described.
-/

namespace AsterForge.Xml

open Library XmlStreamWriter List

variable {tokenize : List UInt8 → TokenStream} {W : Type} [Write W]

/-! ## Sinks -/

/-- A sink whose contents grow by what it takes. -/
structure Appends (contents : W → List UInt8) : Prop where
  writeAll : ∀ bytes sink, (Write.writeAll bytes sink).1 = true →
    contents (Write.writeAll bytes sink).2 = contents sink ++ bytes
  flush : ∀ sink, (Write.flush sink).1 = true → contents (Write.flush sink).2 = contents sink

variable {contents : W → List UInt8}

lemma contents_writeAll (hs : Appends contents) {b : List UInt8} {writer : LimitedWriter W}
    (h : (writer.writeAll b).1 = true) :
    contents (writer.writeAll b).2.inner = contents writer.inner ++ b := by
  have hi := hs.writeAll b writer.inner
  unfold LimitedWriter.writeAll at h ⊢
  split
  case isTrue hempty => rw [hempty, append_nil]
  case isFalse hempty =>
    rw [if_neg hempty] at h
    split
    case isTrue hbound =>
      rw [if_pos hbound] at h
      cases h
    case isFalse hbound =>
      rw [if_neg hbound] at h
      revert h hi
      rcases Write.writeAll b writer.inner with ⟨t, i⟩
      intro h hi
      cases t with
      | true => exact hi rfl
      | false => cases h

lemma contents_writePieces (hs : Appends contents) {p : List (List UInt8)}
    {writer : LimitedWriter W} (h : (writer.writePieces p).1 = true) :
    contents (writer.writePieces p).2.inner = contents writer.inner ++ p.flatten := by
  induction p generalizing writer with
  | nil => exact (append_nil _).symm
  | cons pc p ih =>
    have hp := @contents_writeAll W _ contents hs pc writer
    rw [LimitedWriter.writePieces] at h ⊢
    revert h hp
    rcases writer.writeAll pc with ⟨t, next⟩
    intro h hp
    cases t with
    | false => cases h
    | true =>
      have hrest := ih h
      rw [hp rfl] at hrest
      rw [flatten_cons, ← append_assoc]
      exact hrest

/-! ## Runs -/

variable (render : Rendering)

def writtenBytes (done : List (WriterState × WriterCall tokenize)) : List UInt8 :=
  done.flatMap fun entry => match entry.2.plan entry.1 with
    | .ok (output, _) => (output.pieces render).flatten
    | .error _ => []

def writtenItems (done : List (WriterState × WriterCall tokenize)) : List Item :=
  done.flatMap fun entry => entry.2.items entry.1

def described (outline : Outline) (done : List (WriterState × WriterCall tokenize)) : Outline :=
  done.foldl (fun outline entry => entry.2.describe outline) outline

def documentBytes (options : XmlWriteOptions) (done : List (WriterState × WriterCall tokenize)) :
    List UInt8 :=
  (if options.writeDocumentDeclaration then (render .decl).flatten else []) ++ writtenBytes render done

def documentItems (options : XmlWriteOptions) (done : List (WriterState × WriterCall tokenize)) : List Item :=
  (if options.writeDocumentDeclaration then [.decl] else []) ++ writtenItems done

/-- A call that is plain if it is not rejected, and whose event the sink takes as a whole or not at all. -/
def WriterCall.Clean (contents : W → List UInt8) (writer : XmlStreamWriter W)
    (call : WriterCall tokenize) : Prop :=
  ∀ output next, call.plan writer.state = .ok (output, next) → call.Plain writer.state ∧
    ((writer.writer.writePieces (output.pieces render)).1 = true ∨
      contents (writer.writer.writePieces (output.pieces render)).2.inner = contents writer.writer.inner)

def XmlStreamWriter.Clean (contents : W → List UInt8) : List (WriterCall tokenize) → XmlStreamWriter W → Prop
  | [], _ => True
  | call :: calls, writer => call.Clean render contents writer ∧
    XmlStreamWriter.Clean contents calls (XmlStreamWriter.call render call writer).2

def ReadsBack (tokenize : List UInt8 → TokenStream) (document : List UInt8) (items : List Item) : Prop :=
  WellFormed items → readItems (tokenize document).events = some items ∧ (tokenize document).finish = .eof

variable {render}

/-- What a run leaves: the sink holds what the successful calls wrote, and the state goes along with what
they describe. -/
structure RunSound (contents : W → List UInt8) (render : Rendering) (outline : Outline)
    (writer last : XmlStreamWriter W) (done : List (WriterState × WriterCall tokenize)) : Prop where
  accepted : wellFormed.Accepts outline (writtenItems done)
  after : wellFormed.after outline (writtenItems done) = described outline done
  follows : last.state.Follows (described outline done)
  declaration : .decl ∉ writtenItems done
  written : contents last.writer.inner = contents writer.writer.inner ++ writtenBytes render done

variable {w : XmlStreamWriter W}

omit [Write W] in
lemma runSound_nil {o : Outline} (h : w.state.Follows o) : @RunSound tokenize W contents render o w w [] :=
  ⟨trivial, rfl, h, not_mem_nil, (append_nil _).symm⟩

omit [Write W] in
lemma RunSound.cons {o : Outline} {writer next l : XmlStreamWriter W}
    {c : WriterCall tokenize} {ot : WriterOutput} {s : WriterState}
    {d : List (WriterState × WriterCall tokenize)} (hp : c.plan writer.state = .ok (ot, s))
    (hc : CallSound o writer.state s c)
    (hw : contents next.writer.inner = contents writer.writer.inner ++ (ot.pieces render).flatten)
    (h : RunSound contents render (c.describe o) next l d) :
    RunSound contents render o writer l ((writer.state, c) :: d) := by
  have hitems : writtenItems ((writer.state, c) :: d) = c.items writer.state ++ writtenItems d :=
    flatMap_cons
  have hbytes : writtenBytes render ((writer.state, c) :: d) =
      (ot.pieces render).flatten ++ writtenBytes render d := by
    rw [writtenBytes, flatMap_cons, hp]
    rfl
  refine ⟨?_, ?_, h.follows, ?_, ?_⟩
  · rw [hitems, Monitor.accepts_append, hc.described]
    exact ⟨hc.accepted, h.accepted⟩
  · rw [hitems, Monitor.after_append, hc.described]
    exact h.after
  · rw [hitems, mem_append, not_or]
    exact ⟨hc.declaration, h.declaration⟩
  · rw [h.written, hw, hbytes, append_assoc]

/-- **A clean run** keeps the sink, the state and what was described together. -/
theorem runSound_of_clean (hs : Appends contents) (c : List (WriterCall tokenize))
    {o : Outline} (hf : w.state.Follows o) (hc : XmlStreamWriter.Clean render contents c w) :
    RunSound contents render o w (w.after render c) (succeeded render c w) := by
  induction c generalizing w o with
  | nil => exact runSound_nil hf
  | cons cl c ih =>
    obtain ⟨hcl, hc⟩ := hc
    have hafter : w.after render (cl :: c) = (call render cl w).2.after render c := rfl
    rw [hafter]
    have hperform : call render cl w = perform render cl.plan w := by
      rw [call_eq]
    rw [succeeded]
    cases hplan : cl.plan w.state with
    | error e =>
      have hres : call render cl w = (.error e, w) := by
        rw [hperform, perform, hplan]
      rw [hres] at hc ⊢
      exact ih hf hc
    | ok p =>
      obtain ⟨ot, s⟩ := p
      obtain ⟨hp, hw⟩ := hcl ot s hplan
      have hpieces := @contents_writePieces W _ contents hs (ot.pieces render) w.writer
      cases hwrit : w.writer.writePieces (ot.pieces render) with
      | mk t i =>
        rw [hwrit] at hpieces hw
        cases t with
        | true =>
          have hres : call render cl w = (.ok (), ⟨i, s⟩) := by
            rw [hperform, perform, hplan]
            dsimp only
            rw [hwrit]
          rw [hres] at hc ⊢
          have hsound := call_sound hf hplan hp
          exact (ih hsound.follows hc).cons hplan hsound (hpieces rfl)
        | false =>
          have hres : call render cl w = (.error i.error, ⟨i, w.state⟩) := by
            rw [hperform, perform, hplan]
            dsimp only
            rw [hwrit]
          rw [hres] at hc ⊢
          -- the event was refused as a whole, so the sink is as it was
          have hkept := hw.resolve_left Bool.false_ne_true
          have hrest := @ih ⟨i, w.state⟩ o hf hc
          exact ⟨hrest.accepted, hrest.after, hrest.follows, hrest.declaration,
            hrest.written.trans (by rw [hkept])⟩

lemma withOptions_spec (hs : Appends contents) {o : XmlWriteOptions} {s : W} (h : withOptions render s o = .ok w) :
    w.state = .new o ∧ contents w.writer.inner = contents s ++
      if o.writeDocumentDeclaration then (render .decl).flatten else [] := by
  obtain ⟨_, -, h⟩ := bind_eq_ok.mp h
  cases hdeclares : o.writeDocumentDeclaration with
  | false =>
    rw [hdeclares] at h
    cases h
    exact ⟨rfl, (append_nil _).symm⟩
  | true =>
    rw [hdeclares] at h
    have hp := @contents_writePieces W _ contents hs (render .decl) ⟨s, o.maxOutputBytes, 0, false⟩
    simp only [if_true, perform, WriterOutput.pieces] at h
    revert h hp
    rcases LimitedWriter.writePieces (render .decl) ⟨s, o.maxOutputBytes, 0, false⟩ with
      ⟨taken, inner⟩
    intro hp h
    cases taken with
    | false => cases h
    | true =>
      cases h
      exact ⟨rfl, hp rfl⟩

lemma finish_spec (hs : Appends contents) {o : W} (h : w.finish = .ok o) :
    w.state.openNames = [] ∧ w.state.rootComplete = true ∧ contents o = contents w.writer.inner := by
  simp only [finish, bind_eq_ok, refuse_eq_ok, exists_unit, not_or, not_not, Bool.not_eq_false] at h
  obtain ⟨ho, ⟨-, hc⟩, h⟩ := h
  have hf := hs.flush w.writer.inner
  refine ⟨ho, hc, ?_⟩
  revert h hf
  rcases Write.flush w.writer.inner with ⟨f, i⟩
  intro h hf
  cases f with
  | false => cases h
  | true =>
    cases h
    exact hf rfl

/-! ## Documents -/

/-- A document that is well formed and is read as it was described, where a policy has room for it. -/
def ReadAsDescribed (tokenize : List UInt8 → TokenStream) (document : List UInt8) (items : List Item)
    (outline : Outline) : Prop :=
  WellFormed items ∧ ∀ policy, WithinLimits policy document (tokenize document) →
    ∃ root, parseWithOptions tokenize document ⟨policy, false⟩ = .ok root ∧
      outline = ⟨[], some root.node.named⟩

/-- **The document of a clean run** that is finished is what the successful calls wrote; it is well formed
and is read as they described it.  A call that is rejected leaves the writer as it is. -/
theorem written_document (hsink : Appends contents) {options : XmlWriteOptions} {sink output : W}
    {writer : XmlStreamWriter W} (hnew : XmlStreamWriter.withOptions render sink options = .ok writer)
    (calls : List (WriterCall tokenize)) (hclean : XmlStreamWriter.Clean render contents calls writer)
    (hfinish : (writer.after render calls).finish = .ok output)
    (hread : ReadsBack tokenize (documentBytes render options (XmlStreamWriter.succeeded render calls writer))
      (documentItems options (XmlStreamWriter.succeeded render calls writer))) :
    contents output = contents sink ++
        documentBytes render options (XmlStreamWriter.succeeded render calls writer) ∧
      ReadAsDescribed tokenize (documentBytes render options (XmlStreamWriter.succeeded render calls writer))
        (documentItems options (XmlStreamWriter.succeeded render calls writer))
        (described Outline.new (XmlStreamWriter.succeeded render calls writer)) ∧
      ∀ (other : XmlStreamWriter W) (call : WriterCall tokenize) (error : XmlError),
        call.plan other.state = .error error →
          XmlStreamWriter.call render call other = (.error error, other) := by
  obtain ⟨hs, hp⟩ := withOptions_spec hsink hnew
  have hfoll : writer.state.Follows Outline.new := by
    rw [hs]
    exact follows_new options
  have hrun := runSound_of_clean hsink calls hfoll hclean
  obtain ⟨ho, hcm, hc⟩ := finish_spec hsink hfinish
  have hclos := hrun.follows.opened_iff.mpr ho
  have hroot : (described Outline.new (XmlStreamWriter.succeeded render calls writer)).root ≠ none := by
    have hisSome := hrun.follows.complete
    rw [hcm] at hisSome
    exact Option.isSome_iff_ne_none.mp hisSome.symm
  have hafter : wellFormed.after Outline.new
      (documentItems options (XmlStreamWriter.succeeded render calls writer)) =
        described Outline.new (XmlStreamWriter.succeeded render calls writer) := by
    rw [documentItems, ← hrun.after]
    split
    case isTrue => rfl
    case isFalse => rfl
  have hform : WellFormed (documentItems options (XmlStreamWriter.succeeded render calls writer)) := by
    refine ⟨?_, ?_, ?_, ?_⟩
    · rw [documentItems, Monitor.accepts_append]
      split
      case isTrue => exact ⟨⟨⟨rfl, rfl⟩, trivial⟩, hrun.accepted⟩
      case isFalse => exact ⟨trivial, hrun.accepted⟩
    · rw [documentItems]
      split
      case isTrue => exact hrun.declaration
      case isFalse => exact fun hm => hrun.declaration (mem_of_mem_tail hm)
    · rw [hafter]
      exact hclos
    · rw [hafter]
      exact hroot
  refine ⟨?_, ⟨hform, ?_⟩, ?_⟩
  · rw [hc, hrun.written, hp, append_assoc]
    rfl
  · intro p hl
    obtain ⟨hi, he⟩ := hread hform
    obtain ⟨r, hpr, ht⟩ := parseWithOptions_of_wellFormed hi he hform hl
    exact ⟨r, hpr, by rw [← hafter, ht]⟩
  · intro other call error hpl
    rw [XmlStreamWriter.call_eq, XmlStreamWriter.perform, hpl]

/-! ## Single runs -/

lemma appends_list : Appends (id : List UInt8 → List UInt8) :=
  ⟨fun _ _ _ => rfl, fun _ _ => rfl⟩

lemma clean_of_plan {c : WriterCall tokenize} {o : WriterOutput}
    {next : WriterState} (hp : c.plan w.state = .ok (o, next)) (hpl : c.Plain w.state)
    (ht : (w.writer.writePieces (o.pieces render)).1 = true) : c.Clean render contents w := by
  intro o' n' hp'
  rw [hp] at hp'
  cases hp'
  exact ⟨hpl, .inl ht⟩

def letterA : Text := ['a']

def subtreeSource : List UInt8 := encodeText "<b>x</b>".toList

def smallDocument : List UInt8 := encodeText "<a xmlns:p=\"u\"><p:c/><b>x</b></a>".toList

/-- The events of the two documents. -/
def tokenizeSmall : List UInt8 → TokenStream := fun source =>
  let subtree := fun start => [⟨.start ⟨['b'], []⟩, start + 3⟩, ⟨.text (some ⟨['x'], false⟩), start + 4⟩,
    ⟨.stop ['b'], start + 8⟩]
  if source = subtreeSource then ⟨subtree 0, .eof⟩
  else if source = smallDocument then
    ⟨[⟨.start ⟨letterA, [some ⟨"xmlns:p".toList, some ⟨['u'], false⟩⟩]⟩, 15⟩, ⟨.empty ⟨"p:c".toList, []⟩, 21⟩] ++
      subtree 21 ++ [⟨.stop letterA, 33⟩], .eof⟩
  else ⟨[], .failed .other⟩

def smallSubtree : ValidatedXml tokenizeSmall :=
  ⟨subtreeSource, .untrusted, ⟨⟨['b'], [], [], 0, 8⟩, [.text ['x']]⟩, rfl⟩

def smallCalls : List (WriterCall tokenizeSmall) :=
  [.startElement letterA [("xmlns:p".toList, ['u'])], .emptyElement "p:c".toList [],
    .validatedSubtree smallSubtree, .endElement]

def newWriter (options : XmlWriteOptions) : XmlStreamWriter (List UInt8) :=
  ⟨⟨[], options.maxOutputBytes, 0, false⟩, .new options⟩

def smallRun : List (WriterState × WriterCall tokenizeSmall) :=
  succeeded markupRendering smallCalls (newWriter .new)

/-- An element of the namespace that the root declares, and a subtree, are read back. -/
theorem written_document_small :
    smallDocument = documentBytes markupRendering .new smallRun ∧
      ReadAsDescribed tokenizeSmall smallDocument (documentItems .new smallRun) (described Outline.new smallRun) := by
  have hread : ReadsBack tokenizeSmall smallDocument (documentItems .new smallRun) := by
    intro _
    constructor
    · decide +kernel
    · decide +kernel
  have hclean : XmlStreamWriter.Clean markupRendering id smallCalls (newWriter .new) := by
    refine ⟨clean_of_plan rfl trivial rfl, clean_of_plan rfl trivial rfl, clean_of_plan rfl ?_ rfl,
      clean_of_plan rfl trivial rfl, trivial⟩
    exact ⟨⟨fun _ => rfl, ⟨_, rfl⟩, by rintro _ ⟨⟩, forall_mem_nil _, forall_mem_nil _, forall_mem_nil _,
      forall_mem_nil _, nodup_nil, nodup_nil⟩, ⟨rfl, by rintro ⟨⟩⟩, ⟨_, rfl, rfl⟩, trivial⟩
  have hbytes : documentBytes markupRendering .new smallRun = smallDocument := by decide +kernel
  have hwritten := @written_document tokenizeSmall _ _ id markupRendering appends_list .new [] smallDocument
    (newWriter .new) rfl smallCalls hclean rfl (hbytes ▸ hread)
  exact ⟨hbytes.symm, hbytes ▸ hwritten.2.1⟩

/-! ## Torn events -/

def eightBytes : XmlWriteOptions := { XmlWriteOptions.new with maxOutputBytes := 8 }

/-- `<a><</a>`. -/
def tornDocument : List UInt8 := [60, 97, 62, 60, 60, 47, 97, 62]

/-- `<a></a>` is an element, and behind `<a>` there is a start tag with the name `</a` in what is torn. -/
def tokenizeTorn : List UInt8 → TokenStream := fun source =>
  if source = [60, 97, 62, 60, 47, 97, 62] then
    ⟨[⟨.start ⟨letterA, []⟩, 3⟩, ⟨.stop letterA, 7⟩], .eof⟩
  else if source = tornDocument then
    ⟨[⟨.start ⟨letterA, []⟩, 3⟩, ⟨.start ⟨"</a".toList, []⟩, 8⟩], .eof⟩
  else ⟨[], .failed .other⟩

/-- An element that does not fit between two tags that do. -/
def tornCalls : List (WriterCall tokenizeTorn) :=
  [.startElement letterA [], .emptyElement "bbbbbbbb".toList [], .endElement]

/-- The bound is reached behind the first byte of an event, the event fails, and the writer finishes with
that byte in its document: it is not what the successful calls wrote, although that would be read back, and
it is no document at all. -/
theorem written_document_counterexample :
    withOptions markupRendering ([] : List UInt8) eightBytes = .ok (newWriter eightBytes) ∧
      ((newWriter eightBytes).after markupRendering tornCalls).finish = .ok tornDocument ∧
      ReadsBack tokenizeTorn (documentBytes markupRendering eightBytes
          (succeeded markupRendering tornCalls (newWriter eightBytes)))
        (documentItems eightBytes (succeeded markupRendering tornCalls (newWriter eightBytes))) ∧
      tornDocument ≠ documentBytes markupRendering eightBytes
        (succeeded markupRendering tornCalls (newWriter eightBytes)) ∧
      parseWithOptions tokenizeTorn tornDocument ⟨.untrusted, false⟩ = .error (.safety .malformed) := by
  refine ⟨rfl, rfl, ?_, by decide +kernel, rfl⟩
  intro _
  constructor
  · decide +kernel
  · decide +kernel

end AsterForge.Xml
