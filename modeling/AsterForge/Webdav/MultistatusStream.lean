import AsterForge.Webdav.MultistatusTogether

/-!
# Streaming a Multi-Status response

The stream writes the same document as the buffered path, into a sink that cuts it into chunks.  What
was sent and what is pending is at any time what the buffered path has written for the same items.

* **`multistatus_stream_exact`** — a stream that completes has sent the buffered document, and a stream
  that fails has sent the items that it reports.
-/

namespace AsterForge.Webdav

open Library Xml Stateful DavMultiStatusWriter Poll List

variable {E : Type}

/-! ## A running stream -/

def delivered : List (SourcePoll E) → List DavMultiStatusItem × Option (DavMultiStatusSourceError E)
  | [] => ([], none)
  | .pending :: source => delivered source
  | .failed error :: _ => ([], some error)
  | .item item :: source => (item :: (delivered source).1, (delivered source).2)

def DavMultiStatusLimits.Valid (limits : DavMultiStatusLimits) : Prop :=
  limits.maximumOutputBytes ≠ 0 ∧ limits.maximumItems ≠ 0 ∧ limits.maximumPropertiesPerItem ≠ 0 ∧
    limits.chunkBytes ≠ 0

def DavMultiStatusLimits.chunk (limits : DavMultiStatusLimits) : ℕ :=
  min limits.chunkBytes limits.maximumOutputBytes

/-- A writer of the stream, and the buffered document with the same items, of which some bytes are out of
the writer already. -/
structure Paired (E : Type) (wording : Wording) (limits : DavMultiStatusLimits)
    (seen : List DavMultiStatusItem) (taken : List UInt8) (writer : DavMultiStatusWriter ChunkBuffer)
    (document : DavMultiStatusWriter (List UInt8)) : Prop where
  started : ∃ start, DavMultiStatusWriter.new (E := E) wording [] limits = .ok start ∧
    appendAll (E := E) wording seen start = (.ok (), document)
  together : DocumentsTogether (Chunked limits.chunk taken) writer document
  items : writer.emittedItems = seen.length

structure Running (wording : Wording) (limits : DavMultiStatusLimits) (seen : List DavMultiStatusItem)
    (sent : List (List UInt8)) (stream : StreamingMultiStatus E) : Prop where
  sameLimits : stream.limits = limits
  done : stream.done = false
  progress : stream.progress = ⟨!sent.isEmpty, seen.length, sent.flatten.length⟩
  short : ∀ chunk ∈ sent ++ stream.pending, chunk.length ≤ limits.chunkBytes
  writer : (seen = [] ∧ sent ++ stream.pending = [] ∧ stream.writer = none) ∨
    seen ≠ [] ∧ ∃ writer document, stream.writer = some writer ∧ writer.writer.writer.inner.inner.content = [] ∧
      Paired E wording limits seen (sent ++ stream.pending).flatten writer document

section

variable {w : Wording} {l : DavMultiStatusLimits} {sn : List DavMultiStatusItem}
  {st : List (List UInt8)} {sr : StreamingMultiStatus E}

lemma chunk_pos (hl : l.Valid) : 0 < l.chunk := by
  obtain ⟨ho, -, -, hc⟩ := hl
  exact lt_min (Nat.pos_of_ne_zero hc) (Nat.pos_of_ne_zero ho)

lemma takeWriter_spec (hl : l.Valid) (h : Running w l sn st sr) :
    (∃ error, sr.takeWriter w = .error error ∧ sn = [] ∧ new w ([] : List UInt8) l = .error error) ∨
      ∃ writer document, sr.takeWriter w = .ok writer ∧
        Paired E w l sn (st ++ sr.pending).flatten writer document := by
  rcases h.writer with ⟨rfl, hnt, hnn⟩ | ⟨-, writer, document, hw, -, hp⟩
  · have hempty : Chunked l.chunk [] ⟨.new l.chunk, 0⟩ ⟨[], 0⟩ :=
      ⟨rfl, ⟨rfl, chunk_pos hl, by simp [ChunkBuffer.new]⟩, rfl⟩
    have hn := new_together (E := E) (chunked_sinks _ _) (fun _ _ h => h.written) w l hempty
    rw [StreamingMultiStatus.takeWriter, hnn, StreamingMultiStatus.newWriter, h.sameLimits]
    revert hn
    rw [← DavMultiStatusLimits.chunk]
    cases hleft : new (E := E) w (ChunkBuffer.new l.chunk) l with
    | error error =>
      cases hright : new (E := E) w ([] : List UInt8) l with
      | error e' =>
        rintro rfl
        exact .inl ⟨error, rfl, rfl, rfl⟩
      | ok document =>
        intro hn
        cases hn
    | ok writer =>
      cases hright : new (E := E) w ([] : List UInt8) l with
      | error e' =>
        intro hn
        cases hn
      | ok document =>
        intro hn
        rw [hnt, flatten_nil]
        exact .inr ⟨writer, document, rfl, ⟨document, hright, rfl⟩, hn, new_items hleft⟩
  · refine .inr ⟨writer, document, ?_, hp⟩
    rw [StreamingMultiStatus.takeWriter, hw]

variable {t : List UInt8} {wr : DavMultiStatusWriter ChunkBuffer} {d : DavMultiStatusWriter (List UInt8)}

lemma Paired.written (h : Paired E w l sn t wr d) : writtenBytes w l E sn = d.writer.writer.inner.inner := by
  obtain ⟨s, hs, hd⟩ := h.started
  rw [writtenBytes, hs]
  dsimp only
  rw [hd]

variable {er : DavMultiStatusError E}

lemma document_of_new_error (i : List DavMultiStatusItem) (h : new w ([] : List UInt8) l = .error er) :
    davMultistatusBytes w i l = .error er := by
  rw [davMultistatusBytes, h]
  rfl

lemma Paired.document_error {next : DavMultiStatusWriter (List UInt8)}
    (h : Paired E w l sn t wr d) {m : List DavMultiStatusItem} (hm : appendAll w m d = (.error er, next)) :
    davMultistatusBytes w (sn ++ m) l = .error er := by
  obtain ⟨s, hs, hd⟩ := h.started
  rw [davMultistatusBytes, hs, ok_bind, appendAll_append, hd]
  dsimp only
  rw [hm]

lemma Paired.document_finish (h : Paired E w l sn t wr d) : davMultistatusBytes (E := E) w sn l = d.finish w := by
  obtain ⟨s, hs, hd⟩ := h.started
  rw [davMultistatusBytes, hs, ok_bind, hd]

/-- **An item** is written as the buffered path writes it, or fails as it fails there. -/
theorem takeItem_spec (hl : l.Valid) (h : Running w l sn st sr) (hpn : sr.pending = []) (i : DavMultiStatusItem) :
    (∃ next, sr.takeItem w i = .ok next ∧ Running w l (sn ++ [i]) st next) ∨
      ∃ er, sr.takeItem w i = .error er ∧ er.progress = sr.progress ∧
        ∀ m, ∃ e', davMultistatusBytes w (sn ++ i :: m) l = .error e' ∧ e'.kind = er.kind := by
  rw [StreamingMultiStatus.takeItem]
  rcases takeWriter_spec hl h with ⟨er, ht, -, hnw⟩ | ⟨wr, d, ht, hp⟩
  · rw [ht]
    exact .inr ⟨_, rfl, rfl, fun m => ⟨er, document_of_new_error _ hnw, rfl⟩⟩
  · rw [ht]
    dsimp only
    obtain ⟨hr, hn⟩ := append_together (E := E) (chunked_sinks _ _) (fun _ _ h => h.written) w i hp.together
    have hitems := hp.items
    revert hr hn
    generalize hleft : wr.append (E := E) w i = appended
    generalize hright : d.append (E := E) w i = appended'
    obtain ⟨r, next⟩ := appended
    obtain ⟨r', n'⟩ := appended'
    rintro rfl hn
    cases r with
    | error er =>
      refine .inr ⟨_, rfl, ?_, ?_⟩
      · rw [StreamingMultiStatus.sentError]
        dsimp only
        rw [append_error_items hleft, hitems, h.progress]
      · intro m
        have hmore : appendAll w (i :: m) d = (.error er, n') := by
          rw [appendAll, hright]
        exact ⟨er, hp.document_error hmore, rfl⟩
    | ok _ =>
      refine .inl ⟨_, rfl, ?_⟩
      dsimp only at hn ⊢
      have hbounded := hn.writer.writer.inner.bounded
      obtain ⟨hsh, hf, hd, hc⟩ := takeChunks_spec hbounded
      obtain ⟨s, hs, hdc⟩ := hp.started
      rw [hpn, nil_append]
      refine ⟨h.sameLimits, h.done, ?_, ?_, .inr ⟨by simp, _, n', rfl, hc, ?_⟩⟩
      · dsimp only
        rw [h.progress, length_append]
        rfl
      · intro c hm
        rcases mem_append.mp hm with hm | hm
        · exact h.short c (mem_append_left _ hm)
        · exact (hsh c hm).trans (min_le_left _ _)
      · refine ⟨⟨s, hs, ?_⟩, ?_, ?_⟩
        · rw [appendAll_append, hdc]
          dsimp only
          rw [appendAll, hright]
          rfl
        · refine ⟨⟨⟨⟨hn.writer.writer.inner.written, hd, ?_⟩, hn.writer.writer.maxBytes,
            hn.writer.writer.written, hn.writer.writer.exceeded⟩, hn.writer.state⟩,
            hn.inheritedNamespaces, hn.limits, hn.emittedItems⟩
          dsimp only
          rw [hc, append_nil, flatten_append, hf, ← hn.writer.writer.inner.content, hpn, append_nil]
        · dsimp only
          rw [append_ok_items hleft, hitems, length_append]
          rfl

/-- **The end** of the items is written as the buffered path writes it, or fails as it fails there. -/
theorem takeEnd_spec (hl : l.Valid) (h : Running w l sn st sr) (hpn : sr.pending = []) :
    (∃ next, sr.takeEnd w = .ok next ∧ next.done = true ∧
        (∀ c ∈ st ++ next.pending, c.length ≤ l.chunkBytes) ∧
        davMultistatusBytes (E := E) w sn l = .ok (st ++ next.pending).flatten) ∨
      ∃ er, sr.takeEnd w = .error er ∧ er.progress = sr.progress ∧
        ∃ e', davMultistatusBytes w sn l = .error e' ∧ e'.kind = er.kind := by
  rw [StreamingMultiStatus.takeEnd]
  rcases takeWriter_spec hl h with ⟨er, ht, -, hn⟩ | ⟨wr, d, ht, hp⟩
  · rw [ht]
    exact .inr ⟨_, rfl, rfl, er, document_of_new_error _ hn, rfl⟩
  · rw [ht]
    dsimp only
    rw [hp.document_finish]
    have hf := finish_together (E := E) (chunked_sinks _ _) (fun _ _ h => h.written) w hp.together
    revert hf
    cases hleft : wr.finish (E := E) w with
    | error er =>
      cases hright : d.finish (E := E) w with
      | error e' =>
        rintro rfl
        refine .inr ⟨_, rfl, ?_, er, rfl, rfl⟩
        rw [StreamingMultiStatus.sentError]
        dsimp only
        rw [finish_error_items hleft, hp.items, h.progress]
      | ok b =>
        intro hf
        cases hf
    | ok bf =>
      cases hright : d.finish (E := E) w with
      | error e' =>
        intro hf
        cases hf
      | ok b =>
        rintro ⟨cn, cn', hc⟩
        obtain ⟨hs, hfl, -, -⟩ := takeChunks_spec hc.bounded
        have hcont := hc.content
        dsimp only at hcont hs hfl
        refine .inl ⟨_, rfl, rfl, ?_, ?_⟩
        · rw [hpn, nil_append]
          intro c hm
          rcases mem_append.mp hm with hm | hm
          · exact h.short c (mem_append_left _ hm)
          · exact (hs c hm).trans (min_le_left _ _)
        · rw [← hcont, hpn, nil_append, append_nil, flatten_append, hfl]

/-- What was sent is a part of what the buffered path has written for the items that were seen. -/
lemma Running.sent_begins (h : Running w l sn st sr) : st.flatten <+: writtenBytes w l E sn := by
  rcases h.writer with ⟨-, hn, -⟩ | ⟨-, wr, d, -, hc, hp⟩
  · rw [append_eq_nil_iff.mp hn |>.1]
    exact nil_prefix
  · rw [hp.written, ← hp.together.writer.writer.inner.content, hc, append_nil, flatten_append]
    exact prefix_append _ _

lemma Running.sent_eq (h : Running w l sn st sr) (hpn : sr.pending = []) :
    st.flatten = if sn.length = 0 then [] else writtenBytes w l E sn := by
  rcases h.writer with ⟨rfl, hn, -⟩ | ⟨hs, wr, d, -, hc, hp⟩
  · rw [append_eq_nil_iff.mp hn |>.1]
    rfl
  · have hwrit := hp.together.writer.writer.inner.content
    rw [hc, append_nil, hpn, append_nil, ← hp.written] at hwrit
    rw [if_neg (mt length_eq_zero_iff.mp hs), hwrit]

end

/-! ## The stages of a stream -/

/-- What the failure of a stream says about what was sent. -/
structure Reports (wording : Wording) (limits : DavMultiStatusLimits) (source : List (SourcePoll E))
    (sent : List (List UInt8)) (error : DavMultiStatusError E) : Prop where
  /-- The items that are reported were sent, and nothing else. -/
  items : error.progress.emittedItems ≤ (delivered source).1.length ∧
    sent.flatten = if error.progress.emittedItems = 0 then []
      else writtenBytes wording limits E ((delivered source).1.take error.progress.emittedItems)
  started : error.progress.responseStarted = !sent.isEmpty
  bytes : error.progress.emittedBytes = sent.flatten.length
  /-- The source has failed, or the buffered path fails with the same kind of error. -/
  kind : (∃ failure, (delivered source).2 = some failure ∧ error.kind = failure.kind) ∨
    ∃ error', davMultistatusBytes wording (delivered source).1 limits = .error error' ∧
      error'.kind = error.kind

/-- Where a stream is. -/
inductive Stage (E : Type)
  | running
  | completed
  | failed (error : DavMultiStatusError E)

def Reached (wording : Wording) (limits : DavMultiStatusLimits) (source : List (SourcePoll E))
    (sent : List (List UInt8)) : Stage E → StreamingMultiStatus E → Prop
  | .running, stream => ∃ seen, Running wording limits seen sent stream ∧
      delivered source = (seen ++ (delivered stream.source).1, (delivered stream.source).2)
  | .completed, stream => stream.done = true ∧ (delivered source).2 = none ∧
      (∀ chunk ∈ sent ++ stream.pending, chunk.length ≤ limits.chunkBytes) ∧
      davMultistatusBytes (E := E) wording (delivered source).1 limits = .ok (sent ++ stream.pending).flatten
  | .failed error, stream => stream.done = true ∧ stream.pending = [] ∧
      (∀ chunk ∈ sent, chunk.length ≤ limits.chunkBytes) ∧ Reports wording limits source sent error

def Poll.chunks : Poll E → List (List UInt8)
  | .chunk bytes => [bytes]
  | _ => []

def Tells (stream : StreamingMultiStatus E) (stage : Stage E) : Poll E → Prop
  | .failed error => stage = .failed error
  | .done => stage = .completed ∧ stream.pending = []
  | _ => ∀ error, stage ≠ .failed error

section

variable {wd : Wording} {lm : DavMultiStatusLimits} {s : List (SourcePoll E)}
  {se : List DavMultiStatusItem} {snt : List (List UInt8)} {sm : StreamingMultiStatus E}

lemma reports_of_running (h : Running wd lm se snt sm) (hpn : sm.pending = [])
    {m : List DavMultiStatusItem} (hs : (delivered s).1 = se ++ m)
    {error : DavMultiStatusError E} (hp : error.progress = sm.progress)
    (hk : (∃ f, (delivered s).2 = some f ∧ error.kind = f.kind) ∨
      ∃ e', davMultistatusBytes wd (delivered s).1 lm = .error e' ∧ e'.kind = error.kind) :
    Reports wd lm s snt error := by
  rw [h.progress] at hp
  have htake : (delivered s).1.take se.length = se := by
    rw [hs, take_left]
  refine ⟨⟨?_, ?_⟩, ?_, ?_, hk⟩
  · rw [hp, hs, length_append]
    exact Nat.le_add_right _ _
  · rw [hp]
    dsimp only
    rw [htake]
    exact h.sent_eq hpn
  · rw [hp]
  · rw [hp]

variable {pending : List (List UInt8)}

lemma Running.send (h : Running wd lm se snt sm) {c : List UInt8} (hp : sm.pending = c :: pending)
    (left : List (SourcePoll E)) :
    Running wd lm se (snt ++ [c]) { sm.send c pending with source := left } := by
  have hsame : snt ++ [c] ++ pending = snt ++ sm.pending := by
    rw [hp, append_assoc]
    rfl
  refine ⟨h.sameLimits, h.done, ?_, ?_, ?_⟩
  · dsimp only [StreamingMultiStatus.send]
    rw [h.progress]
    dsimp only
    rw [flatten_append, length_append, flatten_singleton]
    simp
  · dsimp only [StreamingMultiStatus.send]
    rw [hsame]
    exact h.short
  · dsimp only [StreamingMultiStatus.send]
    rw [hsame]
    exact h.writer

lemma sendPending_cons {c : List UInt8} (h : sm.pending = c :: pending) :
    sm.sendPending = some (.chunk c, sm.send c pending) := by
  rw [StreamingMultiStatus.sendPending, h]

lemma sendPending_done (hp : sm.pending = []) (hd : sm.done = true) : sm.sendPending = some (.done, sm) := by
  rw [StreamingMultiStatus.sendPending, hp, hd]
  rfl

lemma sendPending_running (h : Running wd lm se snt sm) (hp : sm.pending = []) : sm.sendPending = none := by
  rw [StreamingMultiStatus.sendPending, hp, h.done]
  rfl

variable {next : StreamingMultiStatus E}

lemma pollSource_of_send {p : Poll E} (left : List (SourcePoll E)) (h : sm.sendPending = some (p, next)) :
    sm.pollSource wd left = (p, { next with source := left }) := by
  rw [StreamingMultiStatus.pollSource.eq_def, h]

lemma reached_failed (h : Running wd lm se snt sm) (left : List (SourcePoll E))
    {error : DavMultiStatusError E} (hr : Reports wd lm s snt error) :
    Reached wd lm s snt (.failed error) { sm.stop with source := left } :=
  ⟨rfl, rfl, fun c hm => h.short c (mem_append_left _ hm), hr⟩

/-- **A poll** of a running stream takes it to a stage that it tells. -/
theorem pollSource_spec (hl : lm.Valid) : ∀ (left : List (SourcePoll E)) {se}
    {stream : StreamingMultiStatus E}, Running wd lm se snt stream →
    delivered s = (se ++ (delivered left).1, (delivered left).2) →
      ∃ stage, Reached wd lm s (snt ++ (stream.pollSource wd left).1.chunks) stage
          (stream.pollSource wd left).2 ∧
        Tells (stream.pollSource wd left).2 stage (stream.pollSource wd left).1 := by
  intro left
  induction left with
  | nil =>
    intro se stream h hd
    cases hpend : stream.pending with
    | cons chunk pending =>
      rw [pollSource_of_send [] (sendPending_cons hpend)]
      exact ⟨.running, ⟨se, h.send hpend [], hd⟩, fun _ => nofun⟩
    | nil =>
      have hall : (delivered s).1 = se := by
        rw [hd]
        exact append_nil _
      rw [StreamingMultiStatus.pollSource.eq_def, sendPending_running h hpend]
      dsimp only
      rcases takeEnd_spec hl h hpend with
        ⟨next, htake, hdone, hshort, hdc⟩ | ⟨error, htake, hprog, error', hdc, hk⟩
      · rw [htake]
        dsimp only
        have hfail : (delivered s).2 = none := by rw [hd]; rfl
        cases hnext : next.pending with
        | cons chunk pending =>
          rw [sendPending_cons hnext]
          have hsame : snt ++ [chunk] ++ pending = snt ++ next.pending := by
            rw [hnext, append_assoc]
            rfl
          refine ⟨.completed, ⟨hdone, hfail, ?_, ?_⟩, fun _ => nofun⟩
          · exact hsame ▸ hshort
          · rw [hall, hdc]
            exact congrArg (fun chunks => Except.ok chunks.flatten) hsame.symm
        | nil =>
          rw [sendPending_done hnext hdone]
          rw [hnext, append_nil] at hshort hdc
          have hnoth : snt ++ chunks (done : Poll E) ++ next.pending = snt := by
            rw [hnext, append_nil]
            exact append_nil _
          refine ⟨.completed, ⟨hdone, hfail, ?_, ?_⟩, rfl, hnext⟩
          · exact hnoth.symm ▸ hshort
          · rw [hall, hdc]
            exact congrArg (fun chunks => Except.ok chunks.flatten) hnoth.symm
      · rw [htake]
        dsimp only [chunks]
        rw [append_nil]
        refine ⟨.failed error, reached_failed h [] ?_, rfl⟩
        refine reports_of_running h hpend (hall.trans (append_nil _).symm) hprog ?_
        exact .inr ⟨error', by rw [hall]; exact hdc, hk⟩
  | cons poll left ih =>
    intro se stream h hd
    cases hpend : stream.pending with
    | cons chunk pending =>
      rw [pollSource_of_send _ (sendPending_cons hpend)]
      exact ⟨.running, ⟨se, h.send hpend _, hd⟩, fun _ => nofun⟩
    | nil =>
      rw [StreamingMultiStatus.pollSource.eq_def, sendPending_running h hpend]
      cases poll with
      | pending =>
        dsimp only [chunks]
        rw [append_nil]
        exact ⟨.running, ⟨se, { h with }, hd⟩, fun _ => nofun⟩
      | failed failure =>
        dsimp only [chunks]
        rw [append_nil]
        refine ⟨.failed _, reached_failed h left ?_, rfl⟩
        refine @reports_of_running E wd lm s se snt stream h hpend [] ?_ _ rfl ?_
        · rw [hd]
          rfl
        · exact .inl ⟨failure, by rw [hd]; rfl, rfl⟩
      | item item =>
        dsimp only
        rcases takeItem_spec hl h hpend item with
          ⟨next, htake, hnext⟩ | ⟨error, htake, hprog, hfails⟩
        · rw [htake]
          dsimp only
          refine ih hnext ?_
          rw [hd, append_assoc]
          rfl
        · rw [htake]
          dsimp only [chunks]
          rw [append_nil]
          obtain ⟨error', hdc, hk⟩ := hfails (delivered left).1
          have hall : (delivered s).1 = se ++ item :: (delivered left).1 := by
            rw [hd]
            rfl
          refine ⟨.failed error, reached_failed h left ?_, rfl⟩
          exact reports_of_running h hpend hall hprog (.inr ⟨error', by rw [hall]; exact hdc, hk⟩)

variable {sg : Stage E}

/-- A poll at any stage. -/
theorem pollNext_spec (hl : lm.Valid) (h : Reached wd lm s snt sg sm) :
    ∃ next, Reached wd lm s (snt ++ (sm.pollNext wd).1.chunks) next (sm.pollNext wd).2 ∧
      (Tells (sm.pollNext wd).2 next (sm.pollNext wd).1 ∨
        ∃ error, sg = .failed error ∧ next = .failed error ∧ (sm.pollNext wd).1 = .done) ∧
      ∀ error, sg = .failed error → next = .failed error := by
  cases sg with
  | running =>
    obtain ⟨se, hrn, hdl⟩ := h
    obtain ⟨next, hn, ht⟩ := pollSource_spec hl sm.source hrn hdl
    exact ⟨next, hn, .inl ht, nofun⟩
  | completed =>
    obtain ⟨hd, hf, hs, hdc⟩ := h
    rw [StreamingMultiStatus.pollNext]
    cases hp : sm.pending with
    | cons chunk pending =>
      have hsame : snt ++ [chunk] ++ pending = snt ++ sm.pending := by
        rw [hp, append_assoc]
        rfl
      rw [pollSource_of_send _ (sendPending_cons hp)]
      refine ⟨.completed, ⟨hd, hf, hsame ▸ hs, ?_⟩, .inl fun _ => nofun, nofun⟩
      rw [hdc]
      exact congrArg (fun chunks => Except.ok chunks.flatten) hsame.symm
    | nil =>
      rw [pollSource_of_send _ (sendPending_done hp hd)]
      dsimp only [chunks]
      rw [append_nil]
      exact ⟨.completed, ⟨hd, hf, hs, hdc⟩, .inl ⟨rfl, hp⟩, nofun⟩
  | failed error =>
    obtain ⟨hd, hp, hs, hr⟩ := h
    rw [StreamingMultiStatus.pollNext, pollSource_of_send _ (sendPending_done hp hd)]
    dsimp only [chunks]
    rw [append_nil]
    exact ⟨.failed error, ⟨hd, hp, hs, hr⟩, .inr ⟨error, rfl, rfl, rfl⟩, fun _ h => h⟩

lemma pollNext_end (hp : sm.pending = []) (hd : sm.done = true) : sm.pollNext wd = (.done, sm) := by
  rw [StreamingMultiStatus.pollNext, pollSource_of_send _ (sendPending_done hp hd)]

lemma polls_end (c : ℕ) (hp : sm.pending = []) (hd : sm.done = true) : (sm.polls wd c).2 = sm := by
  induction c with
  | zero => rfl
  | succ c ih =>
    rw [StreamingMultiStatus.polls]
    dsimp only
    rw [pollNext_end hp hd, ih]

structure PollsTell (stage next : Stage E) (polled : List (Poll E) × StreamingMultiStatus E) : Prop where
  failed : ∀ error, .failed error ∈ polled.1 → next = .failed error
  origin : ∀ error, next = .failed error → stage = .failed error ∨ .failed error ∈ polled.1
  done : .done ∈ polled.1 → next ≠ .running ∧ (next = .completed → polled.2.pending = [])

/-- **Polls of a stream** take it from stage to stage. -/
theorem polls_spec (hl : lm.Valid) (c : ℕ) (h : Reached wd lm s snt sg sm) :
    ∃ next, Reached wd lm s (snt ++ (sm.polls wd c).1.flatMap chunks) next (sm.polls wd c).2 ∧
      PollsTell sg next (sm.polls wd c) ∧ ∀ error, sg = .failed error → next = .failed error := by
  induction c generalizing snt sg sm with
  | zero =>
    refine ⟨sg, ?_, ⟨nofun, fun _ h => .inl h, nofun⟩, fun _ h => h⟩
    exact (append_nil snt).symm ▸ h
  | succ c ih =>
    obtain ⟨m, hmd, ht, hst⟩ := pollNext_spec hl h
    rw [StreamingMultiStatus.polls]
    generalize sm.pollNext wd = polled at hmd ht
    obtain ⟨p, f⟩ := polled
    obtain ⟨next, hn, hp, hk⟩ := ih hmd
    dsimp only at hn hp ht hmd ⊢
    rw [flatMap_cons, ← append_assoc]
    refine ⟨next, hn, ⟨?_, ?_, ?_⟩, fun error hs => hk error (hst error hs)⟩
    · intro error hm
      rcases mem_cons.mp hm with rfl | hm
      · rcases ht with ht | ⟨_, -, -, hd⟩
        · exact hk error ht
        · cases hd
      · exact hp.failed error hm
    · intro error hf
      rcases hp.origin error hf with rfl | hm
      · rcases ht with ht | ⟨e', hs, hsm, -⟩
        · cases p with
          | failed e' =>
            cases ht
            exact .inr mem_cons_self
          | done => cases ht.1
          | pending | chunk bytes => exact absurd rfl (ht error)
        · cases hsm
          exact .inl hs
      · exact .inr (mem_cons_of_mem _ hm)
    · intro hm
      rcases mem_cons.mp hm with rfl | hm
      · rcases ht with ⟨rfl, hpn⟩ | ⟨error, -, rfl, -⟩
        · have hend := @polls_end E wd f c hpn hmd.1
          rw [hend] at hn ⊢
          refine ⟨?_, fun _ => hpn⟩
          rintro rfl
          obtain ⟨se, hr, -⟩ := hn
          exact absurd (hr.done.symm.trans hmd.1) Bool.false_ne_true
        · rw [hk error rfl]
          exact ⟨nofun, nofun⟩
      · exact hp.done hm

/-! ## The end of a stream -/

lemma takeEnd_done (h : sm.takeEnd wd = .ok next) : next.done = true := by
  rw [StreamingMultiStatus.takeEnd] at h
  split at h
  · cases h
  · split at h
    · cases h
    · cases h
      rfl

variable (left : List (SourcePoll E))

lemma pollSource_source (stream : StreamingMultiStatus E) :
    (stream.pollSource wd left).2.source.length ≤ left.length := by
  induction left generalizing stream with
  | nil =>
    rw [StreamingMultiStatus.pollSource.eq_def]
    split
    · exact le_refl _
    · dsimp only
      split
      · exact le_refl _
      · split <;> exact le_refl _
  | cons p left ih =>
    rw [StreamingMultiStatus.pollSource.eq_def]
    split
    · exact le_refl _
    · cases p with
      | pending => exact Nat.le_succ _
      | failed f => exact Nat.le_succ _
      | item i =>
        dsimp only
        split
        · exact Nat.le_succ _
        · exact (ih _).trans (Nat.le_succ _)

lemma pollSource_progress (h : sm.sendPending = none) : (sm.pollSource wd left).2.done = true ∨
    (sm.pollSource wd left).2.source.length < left.length := by
  rw [StreamingMultiStatus.pollSource.eq_def, h]
  cases left with
  | nil =>
    dsimp only
    split
    · exact .inl rfl
    case h_2 next hnext =>
      have hdone := takeEnd_done hnext
      left
      cases hpend : next.pending with
      | cons c pending =>
        rw [sendPending_cons hpend]
        exact hdone
      | nil =>
        rw [sendPending_done hpend hdone]
        exact hdone
  | cons p left =>
    cases p with
    | pending => exact .inr (Nat.lt_succ_self _)
    | failed f => exact .inl rfl
    | item i =>
      dsimp only
      split
      · exact .inl rfl
      · exact .inr (Nat.lt_succ_of_le (pollSource_source _ _))

lemma mem_polls_succ {c : ℕ} (h : .done ∈ ((sm.pollNext wd).2.polls wd c).1) :
    .done ∈ (sm.polls wd (c + 1)).1 := by
  rw [StreamingMultiStatus.polls]
  exact mem_cons_of_mem _ h

/-- **A stream ends** after some number of polls: its source gets shorter, or what is pending does. -/
theorem polls_done (s : ℕ) : ∀ (stream : StreamingMultiStatus E),
    (if stream.done then 0 else stream.source.length + 1) ≤ s → ∃ c, .done ∈ (stream.polls wd c).1 := by
  induction s with
  | zero =>
    intro stream hs
    have hdone : stream.done = true := by
      by_contra hrunn
      rw [if_neg hrunn] at hs
      exact absurd hs (Nat.not_succ_le_zero _)
    induction hpend : stream.pending generalizing stream with
    | nil =>
      refine ⟨1, ?_⟩
      rw [StreamingMultiStatus.polls]
      dsimp only
      rw [pollNext_end hpend hdone]
      exact mem_cons_self
    | cons ch pending ih =>
      have hpoll : stream.pollNext wd = (.chunk ch, stream.send ch pending) := by
        rw [StreamingMultiStatus.pollNext, pollSource_of_send _ (sendPending_cons hpend)]
        rfl
      obtain ⟨c, hc⟩ := ih (stream.send ch pending) (by rw [StreamingMultiStatus.send]; exact hs) hdone rfl
      exact ⟨c + 1, mem_polls_succ (by rw [hpoll]; exact hc)⟩
  | succ s ih =>
    intro stream hs
    by_cases hdone : stream.done = true
    · exact ih stream (by rw [if_pos hdone]; exact Nat.zero_le _)
    · rw [if_neg hdone] at hs
      induction hpend : stream.pending generalizing stream with
      | nil =>
        have hnone : stream.sendPending = none := by
          rw [StreamingMultiStatus.sendPending, hpend]
          exact if_neg hdone
        obtain ⟨c, hc⟩ := ih (stream.pollNext wd).2 (by
          rcases @pollSource_progress E wd stream stream.source hnone with he | hl
          · exact (if_pos he).trans_le (Nat.zero_le _)
          · rw [StreamingMultiStatus.pollNext]
            split
            · exact Nat.zero_le _
            · omega)
        exact ⟨c + 1, mem_polls_succ hc⟩
      | cons ch pending ihp =>
        have hpoll : stream.pollNext wd = (.chunk ch, stream.send ch pending) := by
          rw [StreamingMultiStatus.pollNext, pollSource_of_send _ (sendPending_cons hpend)]
          rfl
        obtain ⟨c, hc⟩ := ihp (stream.send ch pending) hs hdone rfl
        exact ⟨c + 1, mem_polls_succ (by rw [hpoll]; exact hc)⟩

end

/-! ## Exactness -/

lemma validate_eq_ok {limits : DavMultiStatusLimits} {u : Unit} :
    limits.validate (E := E) = .ok u ↔ limits.Valid := by
  rw [DavMultiStatusLimits.validate, refuse_eq_ok, DavMultiStatusLimits.Valid]
  tauto

/-- **Streaming equals buffering.**  Limits that the stream refuses are refused with the same error by the
buffered path.  Otherwise the stream ends, however its source is scheduled.  Every chunk is short.  When it
ends without a failure, its chunks are the buffered document.  A failure is that of the source, or is of
the same kind as the failure of the buffered path, and reports the items and bytes that were sent; and the
stream fails if the buffered path does.  What was sent is at any time the beginning of the document, or of
what the buffered path has written when it fails. -/
theorem multistatus_stream_exact (wording : Wording) (limits : DavMultiStatusLimits)
    (source : List (SourcePoll E)) :
    (∀ error, StreamingMultiStatus.response source limits = .error error →
        ∀ items, davMultistatusBytes (E := E) wording items limits = .error error) ∧
      ∀ stream, StreamingMultiStatus.response source limits = .ok stream →
        (∃ count, .done ∈ (stream.polls wording count).1) ∧
        ∀ count polls, (stream.polls wording count).1 = polls →
          (∀ chunk ∈ polls.flatMap chunks, chunk.length ≤ limits.chunkBytes) ∧
          (.done ∈ polls → (∀ error, .failed error ∉ polls) → (delivered source).2 = none ∧
            davMultistatusBytes (E := E) wording (delivered source).1 limits =
              .ok (polls.flatMap chunks).flatten) ∧
          (∀ error, .failed error ∈ polls → Reports wording limits source (polls.flatMap chunks) error) ∧
          (∀ error : DavMultiStatusError E,
            davMultistatusBytes wording (delivered source).1 limits = .error error → .done ∈ polls →
            (delivered source).2 = none → ∃ error', .failed error' ∈ polls ∧ error'.kind = error.kind) ∧
          (∀ document, davMultistatusBytes (E := E) wording (delivered source).1 limits = .ok document →
            (polls.flatMap chunks).flatten <+: document) ∧
          ∀ error : DavMultiStatusError E,
            davMultistatusBytes wording (delivered source).1 limits = .error error →
            (polls.flatMap chunks).flatten <+: writtenBytes wording limits E (delivered source).1 := by
  constructor
  · intro error h items
    rw [StreamingMultiStatus.response] at h
    cases hvalid : limits.validate (E := E) with
    | ok _ =>
      rw [hvalid] at h
      cases h
    | error error' =>
      rw [hvalid] at h
      cases h
      refine document_of_new_error items ?_
      rw [new, hvalid]
      rfl
  · intro stream h
    simp only [StreamingMultiStatus.response, bind_eq_ok, validate_eq_ok] at h
    obtain ⟨_, hl, h⟩ := h
    cases h
    refine ⟨polls_done _ _ (le_refl _), ?_⟩
    rintro count polls rfl
    have hstart : Reached wording limits source [] .running (.new source limits) :=
      ⟨[], ⟨rfl, rfl, rfl, nofun, .inl ⟨rfl, rfl, rfl⟩⟩, rfl⟩
    obtain ⟨stage, hr, ht, -⟩ := polls_spec hl count hstart
    rw [nil_append] at hr
    generalize (StreamingMultiStatus.new source limits).polls wording count = polled at hr ht
    obtain ⟨polls, b⟩ := polled
    dsimp only at hr ht ⊢
    generalize polls.flatMap chunks = sent at hr
    cases stage with
    | running =>
      obtain ⟨seen, hrn, hdl⟩ := hr
      have hrunningDone : .done ∉ polls := fun hm => (ht.done hm).1 rfl
      have hbegins : sent.flatten <+: writtenBytes wording limits E (delivered source).1 := by
        rw [hdl]
        exact hrn.sent_begins.trans (writtenBytes_append _ _)
      refine ⟨fun chunk hm => hrn.short chunk (mem_append_left _ hm),
        fun hm => absurd hm hrunningDone, ?_, fun _ _ hm => absurd hm hrunningDone, ?_, fun _ _ => hbegins⟩
      · intro error hm
        cases ht.failed error hm
      · intro document hd
        exact hbegins.trans (writtenBytes_document hd)
    | completed =>
      obtain ⟨-, hf, hs, hd⟩ := hr
      refine ⟨fun chunk hm => hs chunk (mem_append_left _ hm), ?_, ?_, ?_, ?_, ?_⟩
      · intro hm _
        rw [(ht.done hm).2 rfl, append_nil] at hd
        exact ⟨hf, hd⟩
      · intro error hm
        cases ht.failed error hm
      · intro error he
        rw [hd] at he
        cases he
      · intro document hsm
        rw [hd, flatten_append] at hsm
        cases hsm
        exact prefix_append _ _
      · intro error he
        rw [hd] at he
        cases he
    | failed error =>
      obtain ⟨-, -, hs, hrp⟩ := hr
      have hm : .failed error ∈ polls := by
        rcases ht.origin error rfl with h | h
        · cases h
        · exact h
      have hbegins : sent.flatten <+: writtenBytes wording limits E (delivered source).1 := by
        rw [hrp.items.2]
        split
        · exact nil_prefix
        · conv_rhs => rw [← take_append_drop error.progress.emittedItems (delivered source).1]
          exact writtenBytes_append _ _
      refine ⟨hs, fun _ hn => absurd hm (hn error), ?_, ?_, ?_, fun _ _ => hbegins⟩
      · intro error' hm'
        cases ht.failed error' hm'
        exact hrp
      · intro error' he' _ hn
        refine ⟨error, hm, ?_⟩
        rcases hrp.kind with ⟨f, hf, -⟩ | ⟨o, ho, hk⟩
        · rw [hf] at hn
          cases hn
        · rw [ho] at he'
          cases he'
          exact hk.symm
      · intro document hd
        exact hbegins.trans (writtenBytes_document hd)

def plainWording : Wording :=
  ⟨markupRendering, fun status => if status = 200 then some "OK".toList else none⟩

def smallLimits : DavMultiStatusLimits := ⟨1000, 10, 10, 64⟩

def cancelledSource : List (SourcePoll Empty) :=
  [.item ⟨"/a".toList, some 200, [], none⟩, .failed .cancelled]

/-- A source that is cancelled fails the stream, and not the buffered path with the same items. -/
theorem multistatus_stream_counterexample :
    (∃ error, .failed error ∈ ((StreamingMultiStatus.new cancelledSource smallLimits).polls plainWording 4).1 ∧
        error.kind = .cancelled) ∧
      ∃ document, davMultistatusBytes (E := Empty) plainWording (delivered cancelledSource).1 smallLimits =
        .ok document := by
  constructor
  · exact ⟨⟨.cancelled, ⟨true, 1, 110⟩⟩, by decide +kernel, rfl⟩
  · have hsome : (davMultistatusBytes (E := Empty) plainWording (delivered cancelledSource).1
        smallLimits).toOption.isSome = true := by decide +kernel
    cases hdoc : davMultistatusBytes (E := Empty) plainWording (delivered cancelledSource).1 smallLimits with
    | error error =>
      rw [hdoc] at hsome
      cases hsome
    | ok document => exact ⟨document, rfl⟩

end AsterForge.Webdav
