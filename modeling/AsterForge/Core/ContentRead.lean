import AsterForge.Core.Identity

/-!
# Revision-bound content reads

Byte ranges, read requests and the responses a content backend answers them with.

* `ByteRange` carries that it is non-empty and that its end fits a `u64`; `ByteRange.new` is the
  checked constructor.
* `ContentReadRequest.validateResponse` is the contract every backend answer is held to, and
  **`validateResponse_eq_ok`** says what an accepted answer is: it names the requested revision
  and size, starts at the requested offset and is exactly as long as the requested extent.
-/

namespace AsterForge.Core

/-! ## Byte ranges -/

/-- Non-empty half-open byte range `[offset, offset + length)`. -/
@[ext]
structure ByteRange where
  offset : ℕ
  length : ℕ
  length_pos : 0 < length
  end_le : offset + length ≤ u64Max

instance : DecidableEq ByteRange := fun _ _ => decidable_of_iff' _ ByteRange.ext_iff

namespace ByteRange

/-- Creates a non-empty range and rejects end-position overflow. -/
def new (offset length : ℕ) : Except CloudFilesCoreError ByteRange :=
  if hpos : 0 < length then
    if hend : offset + length ≤ u64Max then .ok ⟨offset, length, hpos, hend⟩
    else .error (.invalidByteRange "range end exceeds u64")
  else .error (.invalidByteRange "range length must be greater than zero")

/-- The exclusive range end; `end_le` is what makes the addition safe. -/
def endExclusive (range : ByteRange) : ℕ := range.offset + range.length

lemma lt_endExclusive (r : ByteRange) : r.offset < r.endExclusive :=
  Nat.lt_add_of_pos_right r.length_pos

lemma new_eq_ok {o l : ℕ} (hp : 0 < l) (he : o + l ≤ u64Max) : new o l = .ok ⟨o, l, hp, he⟩ := by
  simp only [new, dif_pos hp, dif_pos he]

end ByteRange

/-! ## Requests -/

inductive ContentReadRange
  /-- The complete file. -/
  | whole
  /-- One exact logical range, truncated only at end-of-file. -/
  | range (range : ByteRange)
  deriving DecidableEq

@[ext]
structure ContentReadRequest where
  key : CloudItemKey
  revision : ContentRevision
  expectedSize : ℕ
  expectedSize_le : expectedSize ≤ u64Max
  readRange : ContentReadRange

instance : DecidableEq ContentReadRequest := fun _ _ => decidable_of_iff' _ ContentReadRequest.ext_iff

/-! ## Responses -/

/-- Owned content bytes for one exact revision and logical offset.  The source also stores the
byte length, which the constructor reads off the bytes. -/
structure ContentReadResponse where
  revision : ContentRevision
  offset : ℕ
  bytes : List UInt8
  totalSize : ℕ
  end_le : offset + bytes.length ≤ totalSize

namespace ContentReadResponse

def new (revision : ContentRevision) (offset : ℕ) (bytes : List UInt8) (totalSize : ℕ) :
    Except CloudFilesCoreError ContentReadResponse :=
  if offset + bytes.length ≤ u64Max then
    if h : offset > totalSize ∨ offset + bytes.length > totalSize then
      .error (.invalidContentResponse "response bytes exceed the logical file size")
    else .ok ⟨revision, offset, bytes, totalSize, by omega⟩
  else .error (.invalidContentResponse "response byte range exceeds u64")

def byteLen (response : ContentReadResponse) : ℕ := response.bytes.length

def isCompleteFile (response : ContentReadResponse) : Bool :=
  response.offset == 0 && response.byteLen == response.totalSize

lemma new_eq_ok {r : ContentRevision} {o : ℕ} {b : List UInt8} {ts : ℕ}
    (he : o + b.length ≤ ts) (hm : ts ≤ u64Max) : new r o b ts = .ok ⟨r, o, b, ts, he⟩ := by
  have hfits : o + b.length ≤ u64Max := Nat.le_trans he hm
  have hbounds : ¬ (o > ts ∨ o + b.length > ts) := by omega
  simp only [new, if_pos hfits, dif_neg hbounds]

end ContentReadResponse

/-! ## The response contract -/

namespace ContentReadRequest

def requestedOffset (request : ContentReadRequest) : ℕ :=
  match request.readRange with
  | .whole => 0
  | .range range => range.offset

def requestedEnd (request : ContentReadRequest) : ℕ :=
  match request.readRange with
  | .whole => request.expectedSize
  | .range range => min range.endExclusive request.expectedSize

def validateResponse (request : ContentReadRequest) (response : ContentReadResponse) :
    Except CloudFilesCoreError Unit :=
  if response.revision ≠ request.revision then
    .error (.invalidContentResponse "response revision does not match the requested revision")
  else if response.totalSize ≠ request.expectedSize then
    .error (.invalidContentResponse
      "response size does not match metadata for the requested revision")
  else
    match request.readRange with
    | .whole =>
      if response.offset ≠ 0 ∨ response.byteLen ≠ response.totalSize ∨ response.isCompleteFile = false then
        .error (.invalidContentResponse "whole-file response does not contain the complete file")
      else .ok ()
    | .range range =>
      if response.offset ≠ range.offset then
        .error (.invalidContentResponse "range response starts at a different offset")
      else
        let expectedLen :=
          if range.offset ≥ response.totalSize then 0
          else min range.length (response.totalSize - range.offset)
        if response.byteLen ≠ expectedLen then
          .error (.invalidContentResponse
            "range response length does not match the requested extent")
        else .ok ()

/-- **What an accepted response is.**  It carries the requested revision and size, starts where
the request starts and has one byte for each requested position. -/
theorem validateResponse_eq_ok {r : ContentReadRequest} {rs : ContentReadResponse} :
    r.validateResponse rs = .ok () ↔ rs.revision = r.revision ∧ rs.totalSize = r.expectedSize ∧
        rs.offset = r.requestedOffset ∧ rs.byteLen = r.requestedEnd - r.requestedOffset := by
  unfold validateResponse requestedOffset requestedEnd
  by_cases hrev : rs.revision = r.revision
  · by_cases hsize : rs.totalSize = r.expectedSize
    · simp only [hrev, ne_eq, not_true_eq_false, if_false, true_and, hsize]
      cases r.readRange with
      | whole =>
        simp only [ContentReadResponse.isCompleteFile, hsize, Bool.and_eq_false_iff,
          beq_eq_false_iff_ne, Nat.sub_zero]
        split <;> simp <;> omega
      | range rn =>
        simp only [ByteRange.endExclusive]
        split
        · simp [*]
        · split <;> simp <;> grind
    · simp [hrev, hsize]
  · simp [hrev]

end ContentReadRequest

end AsterForge.Core
