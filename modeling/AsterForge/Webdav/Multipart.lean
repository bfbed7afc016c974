import AsterForge.Library.Intervals
import AsterForge.Webdav.Ranges
import AsterForge.Webdav.Traversal

/-!
# Multipart downloads

A response with several ranges is a multipart body: a header before each range, and a closing delimiter.
All of this framing is written when the response is planned, and so is its length; the body is streamed
later, from one backend stream after the other.

* `DavMultipartStream.advance` — one round of the body's polling loop; a subtraction below zero or a slice
  outside of the framing is a panic.
* **`multipart_download_exact`** — the emitted items are that body, of the announced length, or end with
  an error.
-/

namespace AsterForge.Webdav

open AsterForge.Core Library List Option

/-! ## Plans -/

structure DavMultipartSegmentPlan where
  range : HttpByteRange
  frameStart : ℕ
  frameEnd : ℕ

structure DavMultipartDownloadPlan where
  requestedRangeCount : ℕ
  selectedLength : ℕ
  expectedLength : ℕ
  segments : List DavMultipartSegmentPlan
  framing : List UInt8
  closingStart : ℕ

def decimal (n : ℕ) : List UInt8 := utf8Bytes (toString n)

section

variable (boundary contentType : List UInt8)

def partFrame (index : ℕ) (range : HttpByteRange) : List UInt8 :=
  (if index = 0 then utf8Bytes "--" else utf8Bytes "\r\n--") ++ boundary ++ utf8Bytes "\r\n" ++
    utf8Bytes "Content-Type: " ++ contentType ++ utf8Bytes "\r\nContent-Range: bytes " ++
    decimal range.start ++ utf8Bytes "-" ++ decimal range.stop ++ utf8Bytes "/" ++
    decimal range.totalSize ++ utf8Bytes "\r\n\r\n"

/-- What stands after the last range. -/
def closingFrame : List UInt8 := utf8Bytes "\r\n--" ++ boundary ++ utf8Bytes "--\r\n"

def frameParts : ℕ → List UInt8 → List HttpByteRange → List UInt8 × List DavMultipartSegmentPlan
  | _, framing, [] => (framing, [])
  | index, framing, range :: ranges =>
    let framed := framing ++ partFrame boundary contentType index range
    let (whole, segments) := frameParts (index + 1) framed ranges
    (whole, ⟨range, framing.length, framed.length⟩ :: segments)

end

def headerValue (value : List UInt8) : Except DavDownloadPlanError (List UInt8) := do
  refuse (value.all (fun byte => (32 ≤ byte && byte ≠ 127) || byte = 9) = false) .invalidRepresentation
  return value

/-- `build_multipart_plan`, with the boundary it draws; the content type is the second component. -/
def buildMultipartPlan (requestedRangeCount selectedLength : ℕ) (ranges : List HttpByteRange)
    (contentType boundary : List UInt8) :
    Except DavDownloadPlanError (DavMultipartDownloadPlan × List UInt8) := do
  let _ ← headerValue contentType
  let multipartContentType ← headerValue (utf8Bytes "multipart/byteranges; boundary=" ++ boundary)
  let (frames, segments) := frameParts boundary contentType 0 [] ranges
  let framing := frames ++ closingFrame boundary
  refuse (u64Max < framing.length) .invalidRepresentation
  let expectedLength ← okOr .invalidRepresentation (checkedAdd u64Max selectedLength framing.length)
  return (⟨requestedRangeCount, selectedLength, expectedLength, segments, framing, frames.length⟩,
    multipartContentType)

/-! ## Streams -/

inductive ContentPoll
  | pending
  | chunk (bytes : List UInt8)
  | failed (error : DavBackendError)
  | finished

/-- An opened part; `stream` is what the next polls of its backend stream answer. -/
structure DavOpenedMultipartPart where
  stream : List ContentPoll
  expectedLength : ℕ
  seen : ℕ
  frameStart : ℕ
  frameEnd : ℕ

inductive DavMultipartStreamPhase
  | frame
  | body
  | closing
  | done
  deriving DecidableEq

structure DavMultipartStream where
  parts : List DavOpenedMultipartPart
  framing : List UInt8
  closingStart : ℕ
  partIndex : ℕ
  phase : DavMultipartStreamPhase

abbrev BodyItem := Except DavBackendError (List UInt8)

inductive PollRound
  /-- The loop goes on. -/
  | again
  /-- The poll returns without an item; the body is polled again later. -/
  | pending
  | item (item : BodyItem)
  /-- The body has ended. -/
  | finished
  | panicked

/-- The backend stream of a planned segment, opened at its range; the backend names the length it
expects. -/
structure DavOpenedDownload where
  stream : List ContentPoll
  expectedLength : ℕ

inductive DavDownloadOpenError
  | backend (error : DavBackendError)
  | lengthMismatch (planned opened : ℕ)

def openParts (openRange : HttpByteRange → Except DavBackendError DavOpenedDownload) :
    List DavMultipartSegmentPlan → Except DavDownloadOpenError (List DavOpenedMultipartPart)
  | [] => .ok []
  | segment :: segments => do
    let opened ← (openRange segment.range).mapError .backend
    refuse (opened.expectedLength ≠ segment.range.length)
      (.lengthMismatch segment.range.length opened.expectedLength)
    let rest ← openParts openRange segments
    return ⟨opened.stream, opened.expectedLength, 0, segment.frameStart, segment.frameEnd⟩ :: rest

/-- `open_multipart_download`: the body, and the length announced for it. -/
def openMultipartDownload (openRange : HttpByteRange → Except DavBackendError DavOpenedDownload)
    (plan : DavMultipartDownloadPlan) : Except DavDownloadOpenError (DavMultipartStream × ℕ) := do
  let parts ← openParts openRange plan.segments
  return (⟨parts, plan.framing, plan.closingStart, 0, .frame⟩, plan.expectedLength)

def multipartStreamError : DavBackendError := ⟨.internal⟩

namespace DavMultipartStream

variable (stream : DavMultipartStream)

def frameItem (start stop : ℕ) : PollRound :=
  match (sliceBetween stream.framing start stop : Outcome Empty (List UInt8)) with
  | .ok frame => .item (.ok frame)
  | _ => .panicked

def withPart (part : DavOpenedMultipartPart) : DavMultipartStream :=
  { stream with parts := stream.parts.set stream.partIndex part }

def advanceBody (part : DavOpenedMultipartPart) : PollRound × DavMultipartStream :=
  match part.stream with
  | [] => (.pending, stream)
  | poll :: rest =>
    let polled := { part with stream := rest }
    match poll with
    | .pending => (.pending, stream.withPart polled)
    | .chunk bytes =>
      if bytes = [] then (.again, stream.withPart polled)
      else if part.expectedLength < part.seen then (.panicked, stream)
      else if part.expectedLength - part.seen < bytes.length then
        (.item (.error multipartStreamError), { stream.withPart polled with phase := .done })
      else (.item (.ok bytes), stream.withPart { polled with seen := part.seen + bytes.length })
    | .failed error => (.item (.error error), { stream.withPart polled with phase := .done })
    | .finished =>
      if part.seen = part.expectedLength then
        (.again, { stream.withPart polled with
          partIndex := stream.partIndex + 1
          phase := .frame })
      else (.item (.error multipartStreamError), { stream.withPart polled with phase := .done })

/-- One round of the loop in `poll_next`. -/
def advance : PollRound × DavMultipartStream :=
  match stream.phase with
  | .frame =>
    match stream.parts[stream.partIndex]? with
    | none => (.again, { stream with phase := .closing })
    | some part => (stream.frameItem part.frameStart part.frameEnd, { stream with phase := .body })
  | .body =>
    match stream.parts[stream.partIndex]? with
    | none => (.panicked, stream)
    | some part => stream.advanceBody part
  | .closing =>
    (stream.frameItem stream.closingStart stream.framing.length, { stream with phase := .done })
  | .done => (.finished, stream)

end DavMultipartStream

def PollRound.items : PollRound → List BodyItem
  | .item emitted => [emitted]
  | _ => []

/-- What a number of rounds emits, and the stream they leave; a body that has ended is polled no more. -/
def DavMultipartStream.transcript : ℕ → DavMultipartStream → List BodyItem × DavMultipartStream
  | 0, stream => ([], stream)
  | rounds + 1, stream =>
    match stream.advance with
    | (.finished, _) | (.panicked, _) => ([], stream)
    | (round, stream) =>
      let (items, stream) := stream.transcript rounds
      (round.items ++ items, stream)

/-! ## What a body should be -/

inductive StreamEnd
  | finished
  | failed (error : DavBackendError)
  /-- Nothing more is answered yet. -/
  | unfinished

def yielded : List ContentPoll → List UInt8 × StreamEnd
  | [] => ([], .unfinished)
  | .pending :: polls => yielded polls
  | .chunk bytes :: polls => (bytes ++ (yielded polls).1, (yielded polls).2)
  | .failed error :: _ => ([], .failed error)
  | .finished :: _ => ([], .finished)

/-- The stream yields that many bytes, and ends. -/
def YieldsExactly (polls : List ContentPoll) (length : ℕ) : Prop :=
  (yielded polls).2 = .finished ∧ (yielded polls).1.length = length

/-- The stream yields too many bytes, or too few, or it fails. -/
def Faulty (polls : List ContentPoll) (length : ℕ) : Prop :=
  length < (yielded polls).1.length ∨
    ((yielded polls).2 = .finished ∧ (yielded polls).1.length ≠ length) ∨
      ∃ error, (yielded polls).2 = .failed error

def multipartBody (boundary contentType : List UInt8) (content : HttpByteRange → List UInt8) :
    ℕ → List HttpByteRange → List UInt8
  | _, [] => closingFrame boundary
  | index, range :: ranges =>
    partFrame boundary contentType index range ++ content range ++
      multipartBody boundary contentType content (index + 1) ranges

def bodyBytes (items : List BodyItem) : List UInt8 :=
  items.flatMap fun item => item.toOption.getD []

/-! ## Framing -/

section

variable (boundary contentType framing : List UInt8)

inductive Framed : ℕ → ℕ → List DavMultipartSegmentPlan → ℕ → Prop
  | nil (index offset : ℕ) : Framed index offset [] offset
  | cons {index offset final : ℕ} {segment : DavMultipartSegmentPlan}
      {segments : List DavMultipartSegmentPlan} (hstart : segment.frameStart = offset)
      (hend : segment.frameEnd = offset + (partFrame boundary contentType index segment.range).length)
      (hframe : (sliceBetween framing segment.frameStart segment.frameEnd : Outcome Empty _) =
        .ok (partFrame boundary contentType index segment.range))
      (hrest : Framed (index + 1) segment.frameEnd segments final) :
      Framed index offset (segment :: segments) final

variable {boundary contentType framing}

/-- **The frames of a plan** are where the plan says, whatever is written behind them. -/
theorem frameParts_framed : ∀ {rg : List HttpByteRange} {index : ℕ} {w wh : List UInt8}
    {s : List DavMultipartSegmentPlan} (c : List UInt8), frameParts boundary contentType index w rg = (wh, s) →
      Framed boundary contentType (wh ++ c) index w.length s wh.length ∧
        (∃ m, wh = w ++ m) ∧ s.map DavMultipartSegmentPlan.range = rg
  | [], index, w, wh, s, c, h => by
    cases h
    exact ⟨.nil _ _, ⟨[], by simp⟩, rfl⟩
  | range :: rg, index, w, wh, s, c, h => by
    rw [frameParts] at h
    cases hrest : frameParts boundary contentType (index + 1)
        (w ++ partFrame boundary contentType index range) rg with
    | mk r t =>
      rw [hrest] at h
      cases h
      obtain ⟨hf, ⟨m, hw⟩, hr⟩ := frameParts_framed c hrest
      refine ⟨.cons rfl (by simp) ?_ hf, ⟨_, hw.trans (append_assoc ..)⟩, ?_⟩
      · rw [hw]
        have hsplit : w ++ partFrame boundary contentType index range ++ m ++ c =
            w ++ (partFrame boundary contentType index range ++ (m ++ c)) := by
          simp
        rw [hsplit]
        exact sliceBetween_middle rfl (length_append).symm
      · rw [map_cons, hr]

end

/-! ## Opening -/

def rangePolls (openRange : HttpByteRange → Except DavBackendError DavOpenedDownload)
    (range : HttpByteRange) : List ContentPoll :=
  match openRange range with
  | .ok opened => opened.stream
  | .error _ => []

section

variable (boundary contentType framing : List UInt8) (polls : HttpByteRange → List ContentPoll)

inductive Untouched : ℕ → List HttpByteRange → List DavOpenedMultipartPart → Prop
  | nil (index : ℕ) : Untouched index [] []
  | cons {index : ℕ} {range : HttpByteRange} {ranges : List HttpByteRange}
      {part : DavOpenedMultipartPart} {parts : List DavOpenedMultipartPart}
      (hstream : part.stream = polls range) (hexpected : part.expectedLength = range.length)
      (hseen : part.seen = 0)
      (hframe : (sliceBetween framing part.frameStart part.frameEnd : Outcome Empty _) =
        .ok (partFrame boundary contentType index range))
      (hrest : Untouched (index + 1) ranges parts) :
      Untouched index (range :: ranges) (part :: parts)

def bodyLength : ℕ → List HttpByteRange → ℕ
  | _, [] => (closingFrame boundary).length
  | index, range :: ranges =>
    (partFrame boundary contentType index range).length + (range.length + bodyLength (index + 1) ranges)

variable {boundary contentType framing}

lemma openParts_untouched {o : HttpByteRange → Except DavBackendError DavOpenedDownload}
    {index ot f : ℕ} {s : List DavMultipartSegmentPlan} (hf : Framed boundary contentType framing index ot s f) :
    ∀ {p : List DavOpenedMultipartPart}, openParts o s = .ok p →
      Untouched boundary contentType framing (rangePolls o) index
        (s.map DavMultipartSegmentPlan.range) p := by
  induction hf with
  | nil index ot =>
    intro p hop
    cases hop
    exact .nil index
  | @cons index ot f sg s hs he hfr hr ih =>
    intro p hop
    simp only [openParts, bind_eq_ok, refuse_eq_ok, Decidable.not_not] at hop
    obtain ⟨op, ho, _, hl, r, hr, hp⟩ := hop
    cases hp
    cases hsrc : o sg.range with
    | error e =>
      rw [hsrc] at ho
      cases ho
    | ok op' =>
      rw [hsrc] at ho
      cases ho
      have hpolls : op.stream = rangePolls o sg.range := by
        rw [rangePolls, hsrc]
      exact .cons hpolls hl rfl hfr (ih hr)

lemma frameParts_length : ∀ {rg : List HttpByteRange} {index : ℕ} {w wh : List UInt8}
    {s : List DavMultipartSegmentPlan}, frameParts boundary contentType index w rg = (wh, s) →
      w.length + bodyLength boundary contentType index rg =
        (rg.map HttpByteRange.length).sum + (wh ++ closingFrame boundary).length
  | [], index, w, wh, s, h => by
    cases h
    simp [bodyLength]
  | range :: rg, index, w, wh, s, h => by
    rw [frameParts] at h
    dsimp only at h
    cases hrest : frameParts boundary contentType (index + 1)
        (w ++ partFrame boundary contentType index range) rg with
    | mk r t =>
      rw [hrest] at h
      cases h
      have ih := frameParts_length hrest
      rw [length_append] at ih
      rw [bodyLength, map_cons, sum_cons]
      dsimp only
      omega

/-! ## Runs -/

abbrev streamedBody (boundary contentType : List UInt8) (polls : HttpByteRange → List ContentPoll)
    (index : ℕ) (ranges : List HttpByteRange) : List UInt8 :=
  multipartBody boundary contentType (fun range => (yielded (polls range)).1) index ranges

variable (boundary contentType) (ranges : List HttpByteRange)

/-- Items without an error, what of the body is to follow them, and how long that may get. -/
structure Wrote (items : List BodyItem) (rest : List UInt8) (restLength : ℕ) : Prop where
  ok : ∀ item ∈ items, ∃ bytes, item = .ok bytes
  bytes : bodyBytes items ++ rest = streamedBody boundary contentType polls 0 ranges
  length : (bodyBytes items).length + restLength = bodyLength boundary contentType 0 ranges

variable (framing) (closingStart : ℕ)

/-- How far a body has come.  The ranges before the current one were yielded exactly. -/
inductive Progress : List BodyItem → DavMultipartStream → Prop
  | frame {items : List BodyItem} {before after : List HttpByteRange}
      {polled fresh : List DavOpenedMultipartPart} (hranges : ranges = before ++ after)
      (hexact : ∀ range ∈ before, YieldsExactly (polls range) range.length)
      (hpolled : polled.length = before.length)
      (hfresh : Untouched boundary contentType framing polls before.length after fresh)
      (hwrote : Wrote boundary contentType polls ranges items
        (streamedBody boundary contentType polls before.length after)
        (bodyLength boundary contentType before.length after)) :
      Progress items ⟨polled ++ fresh, framing, closingStart, before.length, .frame⟩
  | body {items : List BodyItem} {before after : List HttpByteRange} {range : HttpByteRange}
      {polled fresh : List DavOpenedMultipartPart} {part : DavOpenedMultipartPart}
      (hranges : ranges = before ++ range :: after)
      (hexact : ∀ range ∈ before, YieldsExactly (polls range) range.length)
      (hpolled : polled.length = before.length)
      (hfresh : Untouched boundary contentType framing polls (before.length + 1) after fresh)
      (hexpected : part.expectedLength = range.length) (hseen : part.seen ≤ range.length)
      (hlength : part.seen + (yielded part.stream).1.length = (yielded (polls range)).1.length)
      (hend : (yielded part.stream).2 = (yielded (polls range)).2)
      (hwrote : Wrote boundary contentType polls ranges items
        ((yielded part.stream).1 ++ streamedBody boundary contentType polls (before.length + 1) after)
        (range.length - part.seen + bodyLength boundary contentType (before.length + 1) after)) :
      Progress items ⟨polled ++ part :: fresh, framing, closingStart, before.length, .body⟩
  | closing {items : List BodyItem} {parts : List DavOpenedMultipartPart} {index : ℕ}
      (hexact : ∀ range ∈ ranges, YieldsExactly (polls range) range.length)
      (hwrote : Wrote boundary contentType polls ranges items (closingFrame boundary)
        (closingFrame boundary).length) :
      Progress items ⟨parts, framing, closingStart, index, .closing⟩
  | complete {items : List BodyItem} {parts : List DavOpenedMultipartPart} {index : ℕ}
      (hexact : ∀ range ∈ ranges, YieldsExactly (polls range) range.length)
      (hwrote : Wrote boundary contentType polls ranges items [] 0) :
      Progress items ⟨parts, framing, closingStart, index, .done⟩
  | failed {items : List BodyItem} {error : DavBackendError} {before after : List HttpByteRange}
      {range : HttpByteRange} {rest : List UInt8} {restLength : ℕ}
      {parts : List DavOpenedMultipartPart} {index : ℕ} (hranges : ranges = before ++ range :: after)
      (hexact : ∀ range ∈ before, YieldsExactly (polls range) range.length)
      (hfaulty : Faulty (polls range) range.length)
      (hwrote : Wrote boundary contentType polls ranges items rest restLength) :
      Progress (items ++ [.error error]) ⟨parts, framing, closingStart, index, .done⟩

variable {boundary contentType framing polls ranges closingStart}

@[simp] lemma bodyBytes_append (items m : List BodyItem) :
    bodyBytes (items ++ m) = bodyBytes items ++ bodyBytes m := flatMap_append

variable {it : List BodyItem} {rn : HttpByteRange} {pl f : List DavOpenedMultipartPart}
    {part : DavOpenedMultipartPart}

lemma Wrote.emit {c r : List UInt8} {l rl : ℕ} (h : Wrote boundary contentType polls ranges it (c ++ r) l)
    (hl : l = c.length + rl) : Wrote boundary contentType polls ranges (it ++ [.ok c]) r rl := by
  have hchunk : bodyBytes [.ok c] = c := by simp [bodyBytes, Except.toOption]
  refine ⟨?_, ?_, ?_⟩
  · intro i hm
    rcases mem_append.mp hm with hm | hm
    · exact h.ok i hm
    · exact ⟨c, mem_singleton.mp hm⟩
  · rw [bodyBytes_append, hchunk, append_assoc]
    exact h.bytes
  · have hbef := h.length
    rw [bodyBytes_append, hchunk, length_append]
    omega

lemma bodyBytes_error (items : List BodyItem) (e : DavBackendError) :
    bodyBytes (items ++ [.error e]) = bodyBytes items := by
  rw [bodyBytes_append]
  exact append_nil _

variable {s : DavMultipartStream}

lemma Progress.length_le (h : Progress boundary contentType framing polls ranges closingStart it s) :
    (bodyBytes it).length ≤ bodyLength boundary contentType 0 ranges := by
  cases h with
  | frame _ _ _ _ hw | body _ _ _ _ _ _ _ _ hw => exact hw.length ▸ Nat.le_add_right _ _
  | closing _ hw | complete _ hw => exact hw.length ▸ Nat.le_add_right _ _
  | failed _ _ _ hw =>
    rw [bodyBytes_error]
    exact hw.length ▸ Nat.le_add_right _ _

/-! ## One round -/

section

variable {α : Type} {b a : List α} {x : α} {i : ℕ}

lemma getElem?_middle (hi : b.length = i) : (b ++ x :: a)[i]? = some x := by
  subst hi
  simp

lemma set_middle (y : α) (hi : b.length = i) : (b ++ x :: a).set i y = b ++ y :: a := by
  subst hi
  simp

lemma append_middle : b ++ x :: a = (b ++ [x]) ++ a := by simp

end

lemma exact_concat {before : List HttpByteRange} (he : ∀ o ∈ before, YieldsExactly (polls o) o.length)
    (hr : YieldsExactly (polls rn) rn.length) : ∀ o ∈ before ++ [rn], YieldsExactly (polls o) o.length := by
  intro o hm
  rcases mem_append.mp hm with hm | hm
  · exact he o hm
  · exact mem_singleton.mp hm ▸ hr

open DavMultipartStream

lemma advanceBody_progress {before after : List HttpByteRange} (hr : ranges = before ++ rn :: after)
    (hex : ∀ rn ∈ before, YieldsExactly (polls rn) rn.length) (hp : pl.length = before.length)
    (hf : Untouched boundary contentType framing polls (before.length + 1) after f)
    (hep : part.expectedLength = rn.length) (hs : part.seen ≤ rn.length)
    (hl : part.seen + (yielded part.stream).1.length = (yielded (polls rn)).1.length)
    (he : (yielded part.stream).2 = (yielded (polls rn)).2) (hw : Wrote boundary contentType polls ranges it
      ((yielded part.stream).1 ++ streamedBody boundary contentType polls (before.length + 1) after)
      (rn.length - part.seen + bodyLength boundary contentType (before.length + 1) after)) :
    let stream : DavMultipartStream :=
      ⟨pl ++ part :: f, framing, closingStart, before.length, .body⟩
    (stream.advanceBody part).1 ≠ .panicked ∧
      Progress boundary contentType framing polls ranges closingStart
        (it ++ (stream.advanceBody part).1.items) (stream.advanceBody part).2 := by
  obtain ⟨sc, ex, s, fs, fe⟩ := part
  dsimp only at hep hs hl he hw ⊢
  subst hep
  have hfails : ∀ (e : DavBackendError) (r : List ContentPoll), Faulty (polls rn) rn.length →
        Progress boundary contentType framing polls ranges closingStart (it ++ [.error e])
          ⟨pl ++ ⟨r, rn.length, s, fs, fe⟩ :: f, framing, closingStart, before.length, .done⟩ := by
    intro e r hfl
    exact .failed hr hex hfl hw
  cases sc with
  | nil =>
    refine ⟨by simp [advanceBody], ?_⟩
    simp only [advanceBody, PollRound.items, append_nil]
    exact .body hr hex hp hf rfl hs hl he hw
  | cons p r =>
    rw [advanceBody]
    simp only [withPart, set_middle _ hp]
    cases p with
    | pending =>
      refine ⟨by simp, ?_⟩
      simp only [PollRound.items, append_nil]
      exact .body hr hex hp hf rfl hs hl he hw
    | chunk b =>
      rw [yielded] at hl he hw
      dsimp only at hl he hw ⊢
      rw [length_append] at hl
      by_cases hempty : b = []
      · subst hempty
        rw [if_pos rfl]
        refine ⟨by simp, ?_⟩
        simp only [PollRound.items, append_nil]
        refine .body hr hex hp hf rfl hs ?_ he hw
        rw [length_nil, Nat.zero_add] at hl
        exact hl
      · rw [if_neg hempty, if_neg (Nat.not_lt.mpr hs)]
        by_cases hlong : rn.length - s < b.length
        · rw [if_pos hlong]
          refine ⟨by simp, hfails _ _ (.inl ?_)⟩
          omega
        · rw [if_neg hlong]
          rw [append_assoc] at hw
          refine ⟨by simp, ?_⟩
          refine .body hr hex hp hf rfl ?_ ?_ he (hw.emit ?_)
          · dsimp only
            omega
          · dsimp only
            omega
          · dsimp only
            omega
    | failed e =>
      exact ⟨by simp, hfails _ _ (.inr (.inr ⟨e, he.symm⟩))⟩
    | finished =>
      rw [yielded] at hl he hw
      by_cases hall : s = rn.length
      · have hrange : YieldsExactly (polls rn) rn.length :=
          ⟨he.symm, hl.symm.trans hall⟩
        rw [if_pos hall, append_middle]
        refine ⟨by simp, ?_⟩
        simp only [PollRound.items, append_nil]
        have hcount : (before ++ [rn]).length = before.length + 1 := length_append
        rw [← hcount] at hf hw ⊢
        refine .frame (hr.trans append_middle) (exact_concat hex hrange) ?_ hf ?_
        · rw [hcount, length_append, hp]
          rfl
        · rw [hall, Nat.sub_self, Nat.zero_add] at hw
          exact hw
      · rw [if_neg hall]
        refine ⟨by simp, hfails _ _ (.inr (.inl ⟨he.symm, ?_⟩))⟩
        rw [← hl]
        exact hall

lemma frameItem_of_slice {sr : DavMultipartStream} {s st : ℕ} {f : List UInt8}
    (hf : (sliceBetween sr.framing s st : Outcome Empty _) = .ok f) : sr.frameItem s st = .item (.ok f) := by
  rw [frameItem, hf]

/-- **One round** does not panic and keeps the progress of the body. -/
theorem Progress.advance
    (hc : (sliceBetween framing closingStart framing.length : Outcome Empty _) = .ok (closingFrame boundary))
    (h : Progress boundary contentType framing polls ranges closingStart it s) :
    s.advance.1 ≠ .panicked ∧ Progress boundary contentType framing polls ranges closingStart
        (it ++ s.advance.1.items) s.advance.2 := by
  cases h with
  | @frame _ before after pl f hr he hp hf hw =>
    cases hf with
    | nil =>
      have hnone : pl[before.length]? = none := by
        rw [getElem?_eq_none_iff, hp]
      rw [append_nil] at hr ⊢
      simp only [advance, hnone, PollRound.items, append_nil]
      exact ⟨by simp, .closing (hr ▸ he) hw⟩
    | @cons _ rn after part f hst hex hs hfr hrs =>
      have hitem : ∀ p : DavMultipartStreamPhase,
          (⟨pl ++ part :: f, framing, closingStart, before.length, p⟩ :
            DavMultipartStream).frameItem part.frameStart part.frameEnd =
            .item (.ok (partFrame boundary contentType before.length rn)) := by
        intro p
        exact frameItem_of_slice hfr
      simp only [advance, getElem?_middle hp, hitem]
      refine ⟨by simp, .body hr he hp hrs hex ?_ ?_ ?_ ?_⟩
      · rw [hs]
        exact Nat.zero_le _
      · rw [hs, hst, Nat.zero_add]
      · rw [hst]
      · rw [streamedBody, multipartBody, append_assoc] at hw
        rw [hst, hs]
        exact hw.emit rfl
  | body hr he hp hf hex hs hl hen hw =>
    simp only [advance, getElem?_middle hp]
    exact advanceBody_progress hr he hp hf hex hs hl hen hw
  | @closing _ pr index he hw =>
    have hitem : (⟨pr, framing, closingStart, index, .closing⟩ :
        DavMultipartStream).frameItem closingStart framing.length =
          .item (.ok (closingFrame boundary)) := frameItem_of_slice hc
    simp only [advance, hitem]
    have hlast : Wrote boundary contentType polls ranges it (closingFrame boundary ++ [])
        (closingFrame boundary).length := by
      rw [append_nil]
      exact hw
    exact ⟨by simp, .complete he (hlast.emit rfl)⟩
  | complete he hw =>
    simp only [advance, PollRound.items, append_nil]
    exact ⟨by simp, .complete he hw⟩
  | failed hr he hfl hw =>
    simp only [advance, PollRound.items, append_nil]
    exact ⟨by simp, .failed hr he hfl hw⟩

/-! ## All rounds -/

namespace DavMultipartStream

variable {s : DavMultipartStream}

lemma transcript_succ {r : ℕ} (hrn : s.phase ≠ .done) (hr : s.advance.1 ≠ .panicked) :
    s.transcript (r + 1) = (s.advance.1.items ++ (s.advance.2.transcript r).1,
        (s.advance.2.transcript r).2) := by
  have hfin : s.advance.1 ≠ .finished := by
    unfold advance
    split
    · split
      · simp
      · unfold frameItem
        split <;> simp
    · split
      · simp
      · unfold advanceBody
        repeat' split
        all_goals simp
    · unfold frameItem
      split <;> simp
    · contradiction
  rw [transcript]
  cases hadv : s.advance with
  | mk rn next =>
    rw [hadv] at hr hfin
    cases rn with
    | finished => exact absurd rfl hfin
    | panicked => exact absurd rfl hr
    | again => rfl
    | pending => rfl
    | item e => rfl

lemma transcript_done (hd : s.phase = .done) : ∀ r, s.transcript r = ([], s)
  | 0 => rfl
  | r + 1 => by
    have hadv : s.advance = (.finished, s) := by
      rw [advance, hd]
    rw [transcript, hadv]

/-- The rounds that may still come: two for every part, one for every poll of it. -/
def rank (stream : DavMultipartStream) : ℕ :=
  (match stream.phase with
    | .frame => 3
    | .body => 2
    | .closing => 1
    | .done => 0) +
    ((stream.parts.drop stream.partIndex).map fun part => part.stream.length + 2).sum

end DavMultipartStream

def DavMultipartStream.Waiting (stream : DavMultipartStream) : Prop :=
  stream.phase = .body ∧ ∃ part, stream.parts[stream.partIndex]? = some part ∧ part.stream = []

lemma rank_middle {index : ℕ} (hp : pl.length = index) :
    (((pl ++ part :: f).drop index).map fun part => part.stream.length + 2).sum =
      part.stream.length + 2 + ((f.map fun part => part.stream.length + 2).sum) := by
  subst hp
  simp

lemma rank_after {index : ℕ} (hp : pl.length = index) :
    (((pl ++ part :: f).drop (index + 1)).map fun part => part.stream.length + 2).sum =
      (f.map fun part => part.stream.length + 2).sum := by
  subst hp
  simp

lemma Progress.rank_advance {st : DavMultipartStream}
    (h : Progress boundary contentType framing polls ranges closingStart it st)
    (hr : st.phase ≠ .done) (hw : ¬ st.Waiting) : st.advance.2.rank < st.rank := by
  cases h with
  | @frame _ before after pl f _ _ hp hf _ =>
    cases hf with
    | nil =>
      have hnone : (pl ++ ([] : List DavOpenedMultipartPart))[before.length]? = none := by
        rw [append_nil, getElem?_eq_none_iff, hp]
      simp only [DavMultipartStream.advance, hnone, DavMultipartStream.rank]
      omega
    | cons _ _ _ _ _ =>
      simp only [DavMultipartStream.advance, getElem?_middle hp, DavMultipartStream.rank]
      omega
  | @body _ before after rn pl f part _ _ hp _ he hs _ _ _ =>
    simp only [DavMultipartStream.advance, getElem?_middle hp]
    obtain ⟨s, e, sn, fs, fe⟩ := part
    cases s with
    | nil => exact absurd ⟨rfl, _, getElem?_middle hp, rfl⟩ hw
    | cons p r =>
      simp only [DavMultipartStream.advanceBody, DavMultipartStream.withPart, set_middle _ hp]
      cases p with
      | pending | failed error =>
        simp only [DavMultipartStream.rank, rank_middle hp, length_cons]
        omega
      | chunk b =>
        dsimp only
        split
        · simp only [DavMultipartStream.rank, rank_middle hp, length_cons]
          omega
        · split
          · dsimp only at he hs
            omega
          · split
            · simp only [DavMultipartStream.rank, rank_middle hp, length_cons]
              omega
            · simp only [DavMultipartStream.rank, rank_middle hp, length_cons]
              omega
      | finished =>
        dsimp only
        split
        · simp only [DavMultipartStream.rank, rank_middle hp, rank_after hp, length_cons]
          omega
        · simp only [DavMultipartStream.rank, rank_middle hp, length_cons]
          omega
  | closing _ _ =>
    simp only [DavMultipartStream.advance, DavMultipartStream.rank]
    omega
  | complete _ _ => exact absurd rfl hr
  | failed _ _ _ _ => exact absurd rfl hr

/-- **All rounds**: none panics, and the body makes progress. -/
theorem Progress.transcript (hc :
    (sliceBetween framing closingStart framing.length : Outcome Empty _) = .ok (closingFrame boundary)) :
    ∀ (r : ℕ) {items : List BodyItem} {s : DavMultipartStream},
      Progress boundary contentType framing polls ranges closingStart items s →
        Progress boundary contentType framing polls ranges closingStart
          (items ++ (s.transcript r).1) (s.transcript r).2
  | 0, items, s, h => by
    rw [DavMultipartStream.transcript, append_nil]
    exact h
  | r + 1, items, s, h => by
    by_cases hdone : s.phase = .done
    · rw [DavMultipartStream.transcript_done hdone, append_nil]
      exact h
    · obtain ⟨hr, hn⟩ := h.advance hc
      rw [DavMultipartStream.transcript_succ hdone hr, ← append_assoc]
      exact Progress.transcript hc r hn

/-- **The rounds come to an end**: the body ends for good, or it waits for a stream that answers
nothing more. -/
theorem Progress.settles (hc :
    (sliceBetween framing closingStart framing.length : Outcome Empty _) = .ok (closingFrame boundary))
    {s : DavMultipartStream} (h : Progress boundary contentType framing polls ranges closingStart it s) :
    ∃ r, (s.transcript r).2.Waiting ∨ (s.transcript r).2.phase = .done ∧
        ∀ l ≥ r, s.transcript l = s.transcript r := by
  induction hrank : s.rank using Nat.strong_induction_on generalizing it s with
  | _ rn ih =>
    by_cases hdone : s.phase = .done
    · refine ⟨0, .inr ⟨hdone, ?_⟩⟩
      intro l _
      rw [transcript_done hdone, transcript_done hdone]
    · by_cases hwaiting : s.Waiting
      · exact ⟨0, .inl hwaiting⟩
      · obtain ⟨hr, hn⟩ := h.advance hc
        have hless := hrank ▸ h.rank_advance hdone hwaiting
        obtain ⟨r, hrn⟩ := ih _ hless hn rfl
        refine ⟨r + 1, ?_⟩
        rw [transcript_succ hdone hr]
        refine hrn.imp id (And.imp_right ?_)
        intro hs l hl
        obtain ⟨l, rfl⟩ := Nat.exists_eq_add_of_lt hl
        have hagain := hs (r + l) (Nat.le_add_right _ _)
        rw [transcript_succ hdone hr, hagain]

lemma not_faulty {s : List ContentPoll} {l : ℕ} (h : YieldsExactly s l) : ¬ Faulty s l := by
  rintro (hl | ⟨-, hln⟩ | ⟨e, he⟩)
  · exact absurd h.2 (Nat.ne_of_gt hl)
  · exact hln h.2
  · cases h.1.symm.trans he

lemma Progress.waiting (h : Progress boundary contentType framing polls ranges closingStart it s)
    (hw : s.Waiting) : ∃ before rn after, ranges = before ++ rn :: after ∧
      (∀ o ∈ before, YieldsExactly (polls o) o.length) ∧
        ¬ YieldsExactly (polls rn) rn.length ∧ ¬ Faulty (polls rn) rn.length := by
  obtain ⟨hp, part, hpr, hs⟩ := hw
  cases h with
  | @body _ before after rn pl f c hr hex hpl _ _ hsn hl he _ =>
    rw [getElem?_middle hpl] at hpr
    cases hpr
    rw [hs] at hl he
    rw [yielded] at hl he
    refine ⟨before, rn, after, hr, hex, ?_, ?_⟩
    · rintro ⟨hf, -⟩
      cases he.trans hf
    · rintro (hln | ⟨hf, -⟩ | ⟨e, her⟩)
      · rw [length_nil] at hl
        omega
      · cases he.trans hf
      · cases he.trans her
  | frame _ _ _ _ _ => cases hp
  | closing _ _ => cases hp
  | complete _ _ => cases hp
  | failed _ _ _ _ => cases hp

lemma first_inexact {before b' after a' : List HttpByteRange} {r' : HttpByteRange}
    (heq : before ++ rn :: after = b' ++ r' :: a') (he : ∀ o ∈ before, YieldsExactly (polls o) o.length)
    (he' : ∀ o ∈ b', YieldsExactly (polls o) o.length) (hr : ¬ YieldsExactly (polls rn) rn.length)
    (hr' : ¬ YieldsExactly (polls r') r'.length) : rn = r' := by
  rcases append_eq_append_iff.mp heq with ⟨m, rfl, hm⟩ | ⟨m, rfl, hm⟩
  · cases m with
    | nil => exact (cons.inj hm).1
    | cons h t =>
      have hhead : h = rn := ((cons.inj hm).1).symm
      exact absurd (he' rn (by simp [hhead])) hr
  · cases m with
    | nil => exact (cons.inj hm).1.symm
    | cons h t =>
      have hhead : h = r' := ((cons.inj hm).1).symm
      exact absurd (he r' (by simp [hhead])) hr'

lemma exists_chunks (h : ∀ i ∈ it, ∃ b, i = .ok b) : ∃ c : List (List UInt8), it = c.map .ok := by
  induction it with
  | nil => exact ⟨[], rfl⟩
  | cons i it ih =>
    obtain ⟨b, rfl⟩ := h i mem_cons_self
    obtain ⟨c, rfl⟩ := ih fun o hm => h o (mem_cons_of_mem _ hm)
    exact ⟨b :: c, rfl⟩

lemma bodyBytes_chunks (c : List (List UInt8)) : bodyBytes (c.map .ok) = c.flatten := by
  induction c with
  | nil => rfl
  | cons ch c ih => exact congrArg (ch ++ ·) ih

end

/-! ## Opened bodies -/

/-- **An opened body** has made no progress yet, and its announced length is that of its framing and its
ranges. -/
theorem openMultipartDownload_spec {c sl a : ℕ} {ranges : List HttpByteRange}
    {contentType boundary mct : List UInt8} {p : DavMultipartDownloadPlan}
    {o : HttpByteRange → Except DavBackendError DavOpenedDownload} {stream : DavMultipartStream}
    (hsl : sl = (ranges.map HttpByteRange.length).sum)
    (hp : buildMultipartPlan c sl ranges contentType boundary = .ok (p, mct))
    (ho : openMultipartDownload o p = .ok (stream, a)) :
    (sliceBetween p.framing p.closingStart p.framing.length : Outcome Empty _) = .ok (closingFrame boundary) ∧
      bodyLength boundary contentType 0 ranges = a ∧
        Progress boundary contentType p.framing (rangePolls o) ranges p.closingStart []
          stream := by
  simp only [buildMultipartPlan, bind_eq_ok] at hp
  obtain ⟨_, -, _, -, _, -, el, he, hp⟩ := hp
  cases hframes : frameParts boundary contentType 0 [] ranges with
  | mk f s =>
    rw [hframes] at he hp
    obtain ⟨hf, -, hr⟩ := frameParts_framed (closingFrame boundary) hframes
    have hlen := frameParts_length hframes
    cases hp
    simp only [openMultipartDownload, bind_eq_ok] at ho
    obtain ⟨pr, hpr, hs⟩ := ho
    cases hs
    have hsum : a = sl + (f ++ closingFrame boundary).length := by
      rw [okOr_eq_ok, checkedAdd] at he
      split at he
      · exact (some.inj he).symm
      · cases he
    rw [length_nil, Nat.zero_add] at hlen
    refine ⟨?_, ?_, ?_⟩
    · have hslice := @sliceBetween_middle Empty _ f (closingFrame boundary) [] _ _ rfl rfl
      rw [append_nil, ← length_append] at hslice
      exact hslice
    · rw [hlen, hsum, hsl]
    · have huntouched := openParts_untouched hf hpr
      rw [hr] at huntouched
      exact @Progress.frame _ _ _ _ _ _ [] [] ranges [] pr rfl (by simp) rfl huntouched
        ⟨by simp, rfl, Nat.zero_add _⟩

end AsterForge.Webdav
