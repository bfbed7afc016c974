import AsterForge.Webdav.Multistatus

/-!
# One document over two sinks

A Multi-Status document does not depend on where it is written.  Over two sinks that take what they are
given, the writer has the same results and the same state, call by call and item by item.
-/

namespace AsterForge.Webdav

open Library Xml Stateful XmlStreamWriter ChunkBuffer List

variable {E : Type}

/-! ## Two documents at once -/

section

variable {W V : Type} [Write W] [Write V] {rl : W → V → Prop}

mutual

theorem writeNode_lockstep (hsinks : SinksTogether rl) (r : Rendering) : ∀ (n : DavXmlNode) (i : OrderedMap Text Text),
    Lockstep (WritersTogether rl) (writeNode r i n) (writeNode r i n)
  | .element head [], i => by
    rw [writeNode, writeNode]
    exact (lockstep_lift _).bind fun _ => perform_lockstep hsinks r _
  | .element head (child :: children), i => by
    rw [writeNode, writeNode]
    refine (lockstep_lift _).bind fun m => ?_
    exact (perform_lockstep hsinks r _).bind fun _ =>
      (writeNode_lockstep hsinks r child m.namespaces).bind fun _ =>
        (writeChildren_lockstep hsinks r children m.namespaces).bind fun _ => perform_lockstep hsinks r _
  | .text _, _ => by
    rw [writeNode, writeNode]
    exact perform_lockstep hsinks r _
  | .cdata _, _ => by
    rw [writeNode, writeNode]
    exact perform_lockstep hsinks r _
  | .comment _, _ => by
    rw [writeNode, writeNode]
    exact perform_lockstep hsinks r _
  | .processingInstruction _ _, _ => by
    rw [writeNode, writeNode]
    exact perform_lockstep hsinks r _

theorem writeChildren_lockstep (hsinks : SinksTogether rl) (r : Rendering) :
    ∀ (c : List DavXmlNode) (i : OrderedMap Text Text),
    Lockstep (WritersTogether rl) (writeChildren r i c) (writeChildren r i c)
  | [], _ => by
    rw [writeChildren, writeChildren]
    exact lockstep_pure ()
  | child :: c, i => by
    rw [writeChildren, writeChildren]
    exact (writeNode_lockstep hsinks r child i).bind fun _ =>
      writeChildren_lockstep hsinks r c i

end

variable (hs : SinksTogether rl) (w : Wording)
include hs

lemma writeTextElement_lockstep (n v : Text) :
    Lockstep (WritersTogether rl) (writeTextElement w n v) (writeTextElement w n v) :=
  (perform_lockstep hs _ _).bind fun _ => (perform_lockstep hs _ _).bind fun _ =>
    perform_lockstep hs _ _

lemma writeStatus_lockstep (s : ℕ) : Lockstep (WritersTogether rl) (writeStatus w s) (writeStatus w s) :=
  (lockstep_lift _).bind fun _ => writeTextElement_lockstep hs w _ _

lemma writePropstat_lockstep (i : OrderedMap Text Text) (p : DavPropStat) :
    Lockstep (WritersTogether rl) (writePropstat w i p) (writePropstat w i p) :=
  (perform_lockstep hs _ _).bind fun _ => (perform_lockstep hs _ _).bind fun _ =>
    (lockstep_forM (fun pr : DavXmlElement =>
      writeNode_lockstep hs _ pr.node i) _).bind fun _ =>
      (perform_lockstep hs _ _).bind fun _ => (writeStatus_lockstep hs w _).bind fun _ =>
        perform_lockstep hs _ _

lemma writeCondition_lockstep (n : Text) (hr : Option Text) :
    Lockstep (WritersTogether rl) (writeCondition w n hr) (writeCondition w n hr) := by
  cases hr with
  | none => exact perform_lockstep hs _ _
  | some hr =>
    exact (perform_lockstep hs _ _).bind fun _ =>
      (writeTextElement_lockstep hs w _ _).bind fun _ => perform_lockstep hs _ _

lemma writeError_lockstep (error : DavErrorCondition) :
    Lockstep (WritersTogether rl) (writeError w error) (writeError w error) :=
  (perform_lockstep hs _ _).bind fun _ => (writeCondition_lockstep hs w _ _).bind fun _ =>
    perform_lockstep hs _ _

lemma writeResponseItem_lockstep (i : OrderedMap Text Text) (item : DavMultiStatusItem) :
    Lockstep (WritersTogether rl) (writeResponseItem w i item) (writeResponseItem w i item) :=
  (perform_lockstep hs _ _).bind fun _ => (writeTextElement_lockstep hs w _ _).bind fun _ =>
    (lockstep_forM (fun p => writePropstat_lockstep hs w i p) _).bind
      fun _ => (lockstep_forM (fun s => writeStatus_lockstep hs w s) _).bind fun _ =>
        (lockstep_forM (fun error => writeError_lockstep hs w error) _).bind fun _ =>
          perform_lockstep hs _ _

end

/-! ## Documents over two sinks -/

structure DocumentsTogether {W V : Type} (related : TrackingWriter W → TrackingWriter V → Prop)
    (left : DavMultiStatusWriter W) (right : DavMultiStatusWriter V) : Prop where
  writer : WritersTogether related left.writer right.writer
  inheritedNamespaces : left.inheritedNamespaces = right.inheritedNamespaces
  limits : left.limits = right.limits
  emittedItems : left.emittedItems = right.emittedItems

/-- Two computations that fail alike, or give related values. -/
def ResultsTogether {ε α β : Type} (related : α → β → Prop) : Except ε α → Except ε β → Prop
  | .error error, .error error' => error = error'
  | .ok left, .ok right => related left right
  | _, _ => False

lemma xmlFinish_together {W V : Type} [Write W] [Write V] {related : W → V → Prop}
    (hsinks : SinksTogether related) {left : XmlStreamWriter W} {right : XmlStreamWriter V}
    (h : WritersTogether related left right) : ResultsTogether related left.finish right.finish := by
  obtain ⟨hf, hf', hs⟩ := hsinks.flush _ _ h.writer.inner
  rw [finish, finish, h.state]
  cases refuse (right.state.openNames ≠ []) XmlError.invalidData with
  | error error => exact rfl
  | ok _ =>
    cases refuse (right.state.rootSeen = false ∨ right.state.rootComplete = false) XmlError.invalidData with
    | error error => exact rfl
    | ok _ =>
      revert hf hf' hs
      rcases Write.flush left.writer.inner with ⟨_, s⟩
      rcases Write.flush right.writer.inner with ⟨_, s'⟩
      rintro rfl rfl hs
      exact hs

section

variable {W V : Type} [Write W] [Write V] {rt : TrackingWriter W → TrackingWriter V → Prop}
  (hsn : SinksTogether rt) (hwr : ∀ lf rg, rt lf rg → lf.written = rg.written) (wr : Wording)
  {lf : DavMultiStatusWriter W} {rg : DavMultiStatusWriter V}

omit [Write W] [Write V] in
lemma progress_together (hwritten : ∀ lf rg, rt lf rg → lf.written = rg.written)
    (h : DocumentsTogether rt lf rg) : lf.progress = rg.progress := by
  rw [DavMultiStatusWriter.progress, DavMultiStatusWriter.progress, writerProgress, writerProgress,
    hwritten _ _ h.writer.writer.inner, h.emittedItems]

include hsn

lemma withOptions_together (o : XmlWriteOptions) {i : TrackingWriter W} {i' : TrackingWriter V} (hi : rt i i') :
    ResultsTogether (WritersTogether rt) (withOptions wr.render i o) (withOptions wr.render i' o) := by
  have hstart : WritersTogether rt
      (⟨⟨i, o.maxOutputBytes, 0, false⟩, .new o⟩ : XmlStreamWriter (TrackingWriter W))
      ⟨⟨i', o.maxOutputBytes, 0, false⟩, .new o⟩ := ⟨⟨hi, rfl, rfl, rfl⟩, rfl⟩
  rw [withOptions, withOptions]
  cases o.validate with
  | error error => exact rfl
  | ok _ =>
    dsimp only [ok_bind]
    split
    · obtain ⟨hr, hs⟩ := perform_lockstep hsn wr.render (fun s => .ok (.event .decl, s)) _ _ hstart
      revert hr hs
      generalize perform wr.render _ (_ : XmlStreamWriter (TrackingWriter W)) = lf
      generalize perform wr.render _ (_ : XmlStreamWriter (TrackingWriter V)) = rg
      obtain ⟨r, lf⟩ := lf
      obtain ⟨r', rg⟩ := rg
      rintro rfl hs
      cases r with
      | ok _ => exact hs
      | error error => exact rfl
    · exact hstart

include hwr

lemma new_together (lm : DavMultiStatusLimits) {i : W} {i' : V} (hi : rt ⟨i, 0⟩ ⟨i', 0⟩) :
    ResultsTogether (DocumentsTogether rt) (DavMultiStatusWriter.new (E := E) wr i lm)
      (DavMultiStatusWriter.new wr i' lm) := by
  rw [DavMultiStatusWriter.new, DavMultiStatusWriter.new]
  cases lm.validate with
  | error error => exact rfl
  | ok _ =>
    dsimp only [ok_bind]
    have hw := withOptions_together hsn wr
      { XmlWriteOptions.new with maxOutputBytes := lm.maximumOutputBytes } hi
    revert hw
    generalize withOptions wr.render (⟨i, 0⟩ : TrackingWriter W) _ = lf
    generalize withOptions wr.render (⟨i', 0⟩ : TrackingWriter V) _ = rg
    intro hw
    cases lf with
    | error error =>
      cases rg with
      | error e' =>
        cases hw
        exact rfl
      | ok rg => cases hw
    | ok lf =>
      cases rg with
      | error e' => cases hw
      | ok rg =>
        obtain ⟨hr, hs⟩ := perform_lockstep hsn wr.render
          (planElement "D:multistatus".toList [("xmlns:D".toList, davNamespace)] false) _ _ hw
        dsimp only [Except.mapError, ok_bind, startElement]
        revert hr hs
        generalize perform wr.render _ lf = lf
        generalize perform wr.render _ rg = rg
        obtain ⟨r, lf⟩ := lf
        obtain ⟨r', rg⟩ := rg
        rintro rfl hs
        cases r with
        | ok _ => exact ⟨hs, rfl, rfl, rfl⟩
        | error error =>
          have hprog := hwr _ _ hs.writer.inner
          dsimp only [ResultsTogether, writerProgress]
          rw [hprog]

lemma append_together (item : DavMultiStatusItem) (h : DocumentsTogether rt lf rg) :
    (lf.append (E := E) wr item).1 = (rg.append wr item).1 ∧
      DocumentsTogether rt (lf.append (E := E) wr item).2 (rg.append (E := E) wr item).2 := by
  have hprog := progress_together hwr h
  obtain ⟨writer, i, limits, e⟩ := lf
  obtain ⟨w', i', l', e'⟩ := rg
  obtain ⟨hw, rfl, rfl, rfl⟩ := h
  rw [DavMultiStatusWriter.append, DavMultiStatusWriter.append, hprog]
  split
  · exact ⟨rfl, hw, rfl, rfl, rfl⟩
  · cases validateItem item limits.maximumPropertiesPerItem with
    | error k => exact ⟨rfl, hw, rfl, rfl, rfl⟩
    | ok _ =>
      obtain ⟨hr, hs⟩ := writeResponseItem_lockstep hsn wr i item _ _ hw
      revert hr hs
      generalize writeResponseItem wr i item writer = written
      generalize writeResponseItem wr i item w' = written'
      obtain ⟨r, ir⟩ := written
      obtain ⟨r', ir'⟩ := written'
      rintro rfl hs
      cases r with
      | ok _ => exact ⟨rfl, hs, rfl, rfl, rfl⟩
      | error error =>
        have hnext : DocumentsTogether rt (⟨ir, i, limits, e⟩ :
            DavMultiStatusWriter W) ⟨ir', i, limits, e⟩ := ⟨hs, rfl, rfl, rfl⟩
        refine ⟨?_, hnext⟩
        dsimp only
        rw [progress_together hwr hnext]

lemma appendAll_together (i : List DavMultiStatusItem) (h : DocumentsTogether rt lf rg) :
    (appendAll (E := E) wr i lf).1 = (appendAll wr i rg).1 ∧
      DocumentsTogether rt (appendAll (E := E) wr i lf).2 (appendAll (E := E) wr i rg).2 := by
  induction i generalizing lf rg with
  | nil => exact ⟨rfl, h⟩
  | cons item i ih =>
    obtain ⟨hr, hn⟩ := append_together (E := E) hsn hwr wr item h
    rw [appendAll, appendAll]
    revert hr hn
    generalize lf.append wr item = written
    generalize rg.append wr item = written'
    obtain ⟨r, next⟩ := written
    obtain ⟨r', n'⟩ := written'
    rintro rfl hn
    cases r with
    | ok _ => exact ih hn
    | error error => exact ⟨rfl, hn⟩

lemma finish_together (h : DocumentsTogether rt lf rg) :
    ResultsTogether (fun s s' => ∃ c c', rt ⟨s, c⟩ ⟨s', c'⟩) (lf.finish (E := E) wr) (rg.finish wr) := by
  obtain ⟨writer, i, limits, e⟩ := lf
  obtain ⟨w', i', l', e'⟩ := rg
  obtain ⟨hw, rfl, rfl, rfl⟩ := h
  obtain ⟨hr, hs⟩ := perform_lockstep hsn wr.render planEnd _ _ hw
  rw [DavMultiStatusWriter.finish, DavMultiStatusWriter.finish]
  dsimp only [endElement]
  revert hr hs
  generalize perform wr.render planEnd writer = written
  generalize perform wr.render planEnd w' = written'
  obtain ⟨r, ir⟩ := written
  obtain ⟨r', ir'⟩ := written'
  rintro rfl hs
  have hprog := progress_together hwr (⟨hs, rfl, rfl, rfl⟩ : DocumentsTogether rt
    (⟨ir, i, limits, e⟩ : DavMultiStatusWriter W) ⟨ir', i, limits, e⟩)
  cases r with
  | error error =>
    dsimp only [ResultsTogether]
    rw [hprog]
  | ok _ =>
    have hfin := xmlFinish_together hsn hs
    revert hfin
    dsimp only
    cases ir.finish with
    | error error =>
      cases ir'.finish with
      | error er' =>
        rintro rfl
        dsimp only [ResultsTogether]
        rw [hprog]
      | ok s' =>
        intro h
        cases h
    | ok s =>
      cases ir'.finish with
      | error er' =>
        intro h
        cases h
      | ok s' =>
        intro h
        exact ⟨s.written, s'.written, h⟩

end

/-! ## Chunks -/

def ChunkBuffer.content (buffer : ChunkBuffer) : List UInt8 := buffer.ready.flatten ++ buffer.current

/-- No chunk is too long, and the last one is not full. -/
structure ChunkBuffer.Bounded (limit : ℕ) (buffer : ChunkBuffer) : Prop where
  chunkBytes : buffer.chunkBytes = limit
  current : buffer.current.length < limit
  ready : ∀ chunk ∈ buffer.ready, chunk.length ≤ limit

variable {l : ℕ} {bf : ChunkBuffer}

/-- **A sink of chunks** takes all bytes, and keeps its chunks short. -/
theorem write_bounded {f : ℕ} {b : List UInt8} (hf : b.length ≤ f) (h : bf.Bounded l) :
    (bf.write f b).Bounded l ∧ (bf.write f b).content = bf.content ++ b := by
  induction f generalizing b bf with
  | zero =>
    rw [eq_nil_of_length_eq_zero (Nat.le_zero.mp hf), append_nil]
    exact ⟨h, rfl⟩
  | succ f ih =>
    rw [write]
    by_cases hempty : b = []
    · rw [hempty, append_nil]
      exact ⟨h, rfl⟩
    · rw [if_neg hempty]
      dsimp only
      have hcurr := h.current
      have hchunk := h.chunkBytes
      -- at least one byte is taken
      generalize htaken : min (bf.chunkBytes - bf.current.length) b.length = taken
      have htake : (b.take taken).length = taken := by
        rw [length_take]
        omega
      have hrest : (b.drop taken).length ≤ f := by
        rw [length_drop]
        omega
      split
      case isTrue hfull =>
        have hnext : ChunkBuffer.Bounded l ⟨bf.chunkBytes, [], bf.ready ++ [bf.current ++ b.take taken]⟩ := by
          refine ⟨hchunk, by simp only [length_nil]; omega, ?_⟩
          intro c hm
          rcases mem_append.mp hm with hm | hm
          · exact h.ready c hm
          · rw [mem_singleton.mp hm, hfull, hchunk]
        obtain ⟨hb, hc⟩ := ih hrest hnext
        refine ⟨hb, hc.trans ?_⟩
        rw [content, content]
        simp
      case isFalse hopen =>
        have hnext : ChunkBuffer.Bounded l { bf with current := bf.current ++ b.take taken } := by
          refine ⟨hchunk, ?_, h.ready⟩
          rw [length_append] at hopen ⊢
          omega
        obtain ⟨hb, hc⟩ := ih hrest hnext
        refine ⟨hb, hc.trans ?_⟩
        rw [content, content]
        simp

/-- A sink of chunks that holds the end of what a sink in memory holds. -/
structure Chunked (limit : ℕ) (sent : List UInt8) (chunks : TrackingWriter ChunkBuffer)
    (bytes : TrackingWriter (List UInt8)) : Prop where
  written : chunks.written = bytes.written
  bounded : chunks.inner.Bounded limit
  content : sent ++ chunks.inner.content = bytes.inner

lemma chunked_sinks (limit : ℕ) (s : List UInt8) : SinksTogether (Chunked limit s) where
  writeAll bytes left right h := by
    obtain ⟨hb, hc⟩ := write_bounded (le_refl bytes.length) h.bounded
    refine ⟨rfl, rfl, congrArg (· + bytes.length) h.written, hb, ?_⟩
    calc s ++ (left.inner.write bytes.length bytes).content
        = s ++ left.inner.content ++ bytes := by rw [hc, append_assoc]
      _ = right.inner ++ bytes := by rw [h.content]
  flush left right h := ⟨rfl, rfl, h.written, h.bounded, h.content⟩

lemma takeChunks_spec (h : bf.Bounded l) : (∀ c ∈ bf.takeChunks.1, c.length ≤ l) ∧
    bf.takeChunks.1.flatten = bf.content ∧ bf.takeChunks.2.Bounded l ∧ bf.takeChunks.2.content = [] := by
  have hpos : 0 < l := (Nat.zero_le _).trans_lt h.current
  rw [takeChunks]
  refine ⟨?_, ?_, ⟨h.chunkBytes, hpos, by simp⟩, rfl⟩
  · intro c hm
    rcases mem_append.mp hm with hm | hm
    · exact h.ready c hm
    · split at hm
      · cases hm
      · rw [mem_singleton.mp hm]
        exact h.current.le
  · rw [flatten_append, content]
    split
    case isTrue hempty => rw [hempty, flatten_nil]
    case isFalse => rw [flatten_singleton]

/-- The same sink, which holds some bytes already. -/
def GrownSink (base : List UInt8) (left right : TrackingWriter (List UInt8)) : Prop :=
  left = right ∧ base <+: left.inner

lemma grownSink_sinks (b : List UInt8) : SinksTogether (GrownSink b) where
  writeAll bytes left right h := by
    obtain ⟨rfl, hb⟩ := h
    exact ⟨rfl, rfl, rfl, hb.trans (prefix_append _ _)⟩
  flush left right h := by
    obtain ⟨rfl, hb⟩ := h
    exact ⟨rfl, rfl, rfl, hb⟩

/-! ## The buffered document -/

section

variable (wording : Wording) (limits : DavMultiStatusLimits)

def writtenBytes (E : Type) (items : List DavMultiStatusItem) : List UInt8 :=
  match DavMultiStatusWriter.new (E := E) wording ([] : List UInt8) limits with
  | .error _ => []
  | .ok writer => (appendAll (E := E) wording items writer).2.writer.writer.inner.inner

variable {wording limits}

lemma appendAll_append {W : Type} [Write W] (i m : List DavMultiStatusItem) (writer : DavMultiStatusWriter W) :
    appendAll (E := E) wording (i ++ m) writer =
      match appendAll (E := E) wording i writer with
      | (.error error, writer) => (.error error, writer)
      | (.ok _, writer) => appendAll wording m writer := by
  induction i generalizing writer with
  | nil => rfl
  | cons item i ih =>
    rw [cons_append, appendAll, appendAll]
    rcases writer.append wording item with ⟨r, next⟩
    cases r with
    | error error => rfl
    | ok _ => exact ih next

lemma appendAll_begins (i : List DavMultiStatusItem) (writer : DavMultiStatusWriter (List UInt8)) :
    writer.writer.writer.inner.inner <+:
      (appendAll (E := E) wording i writer).2.writer.writer.inner.inner := by
  have hsame : DocumentsTogether (GrownSink writer.writer.writer.inner.inner) writer writer :=
    ⟨⟨⟨⟨rfl, prefix_refl _⟩, rfl, rfl, rfl⟩, rfl⟩, rfl, rfl, rfl⟩
  have hnext := appendAll_together (E := E) (grownSink_sinks _)
    (fun _ _ h => congrArg TrackingWriter.written h.1) wording i hsame
  exact hnext.2.writer.writer.inner.2

variable {d : List UInt8}

lemma finish_begins {writer : DavMultiStatusWriter (List UInt8)}
    (h : writer.finish (E := E) wording = .ok d) : writer.writer.writer.inner.inner <+: d := by
  have hsame : DocumentsTogether (GrownSink writer.writer.writer.inner.inner) writer writer :=
    ⟨⟨⟨⟨rfl, prefix_refl _⟩, rfl, rfl, rfl⟩, rfl⟩, rfl, rfl, rfl⟩
  have hfin := finish_together (E := E) (grownSink_sinks _)
    (fun _ _ h => congrArg TrackingWriter.written h.1) wording hsame
  rw [h] at hfin
  obtain ⟨c, c', hg⟩ := hfin
  exact hg.2

lemma writtenBytes_append (i m : List DavMultiStatusItem) :
    writtenBytes wording limits E i <+: writtenBytes wording limits E (i ++ m) := by
  unfold writtenBytes
  cases DavMultiStatusWriter.new (E := E) wording ([] : List UInt8) limits with
  | error error => exact prefix_refl _
  | ok writer =>
    dsimp only
    rw [appendAll_append]
    rcases appendAll (E := E) wording i writer with ⟨r, next⟩
    cases r with
    | error error => exact prefix_refl _
    | ok _ => exact appendAll_begins m next

lemma writtenBytes_document {i : List DavMultiStatusItem}
    (h : davMultistatusBytes (E := E) wording i limits = .ok d) : writtenBytes wording limits E i <+: d := by
  obtain ⟨writer, hw, h⟩ := bind_eq_ok.mp h
  rw [writtenBytes, hw]
  dsimp only
  revert h
  rcases appendAll (E := E) wording i writer with ⟨r, next⟩
  intro h
  cases r with
  | error error => cases h
  | ok _ => exact finish_begins h

end

/-! ## Items that are counted -/

section

variable {W : Type} [Write W] {wd : Wording} {wt next : DavMultiStatusWriter W} {i : DavMultiStatusItem}

lemma append_ok_items (h : wt.append (E := E) wd i = (.ok (), next)) :
    next.emittedItems = wt.emittedItems + 1 := by
  rw [DavMultiStatusWriter.append] at h
  split at h
  · cases h
  · split at h
    · cases h
    · split at h
      · cases h
      · cases h
        rfl

variable {e : DavMultiStatusError E}

lemma append_error_items (h : wt.append wd i = (.error e, next)) : e.progress.emittedItems = wt.emittedItems := by
  rw [DavMultiStatusWriter.append] at h
  split at h
  · cases h
    rfl
  · split at h
    · cases h
      rfl
    · split at h
      · cases h
        rfl
      · cases h

lemma finish_error_items (h : wt.finish wd = .error e) : e.progress.emittedItems = wt.emittedItems := by
  rw [DavMultiStatusWriter.finish] at h
  split at h
  · cases h
    rfl
  · split at h
    · cases h
    · cases h
      rfl

lemma new_items {i : W} {lm : DavMultiStatusLimits} (h : DavMultiStatusWriter.new (E := E) wd i lm = .ok wt) :
    wt.emittedItems = 0 := by
  simp only [DavMultiStatusWriter.new, bind_eq_ok] at h
  obtain ⟨_, -, _, -, h⟩ := h
  split at h
  · cases h
  · cases h
    rfl

end

end AsterForge.Webdav
