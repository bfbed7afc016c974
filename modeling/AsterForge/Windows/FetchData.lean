import AsterForge.Windows.Error

/-!
# Fetch callbacks

What a pending fetch of the platform is made of: the keys that tell two fetches apart, the ranges
callbacks speak of, progress samples, the watchdog's deadline, and the gate that decides between
the one native completion of a fetch and its cancellation by the platform.

The gate is an atomic with four values.  Every transition is a compare-and-exchange, and the two
operations that may leave either of two states try one exchange after the other, so other threads
can run in between.
-/

namespace AsterForge.Windows

open AsterForge.Core

/-- The largest `i64`. -/
def i64Max : ℕ := 2 ^ 63 - 1

/-! ## Correlation and ranges -/

structure WindowsFetchDataCorrelation where
  generation : SessionGeneration
  connectionKey : ℤ
  transferKey : ℤ
  requestKey : ℤ
  fileId : ℤ
  deriving DecidableEq

/-- The scalars of a callback that waiters are looked up by. -/
structure WindowsCallbackInfoSnapshot where
  generation : SessionGeneration
  connectionKey : ℤ
  transferKey : ℤ
  requestKey : ℤ
  fileId : ℤ
  fileSize : ℕ

def WindowsFetchDataCorrelation.fromInfo (info : WindowsCallbackInfoSnapshot) :
    WindowsFetchDataCorrelation :=
  ⟨info.generation, info.connectionKey, info.transferKey, info.requestKey, info.fileId⟩

inductive WindowsCallbackRangeLength
  | exact (length : ℕ)
  | toEnd
  deriving DecidableEq

/-- Owned callback range; its constructors keep it within the platform's signed integers. -/
structure WindowsCallbackRange where
  offset : ℕ
  length : WindowsCallbackRangeLength
  offset_le : offset ≤ i64Max
  end_le : ∀ bytes, length = .exact bytes → 0 < bytes ∧ offset + bytes ≤ i64Max

/-- A cancellation callback. -/
structure WindowsCancelFetchDataSnapshot where
  info : WindowsCallbackInfoSnapshot
  range : WindowsCallbackRange

def callbackRange (range : WindowsCallbackRange) (fileSize : ℕ) :
    Except WindowsCloudFilesError ByteRange := do
  let length ←
    match range.length with
    | .exact length => .ok length
    | .toEnd =>
      if range.offset ≤ fileSize then .ok (fileSize - range.offset)
      else .error (.invalidCallbackSnapshot "cancellation range offset exceeds callback file size")
  if length = 0 then
    .error (.invalidCallbackSnapshot "cancellation range must not be empty")
  else if fileSize < range.offset + length then
    .error (.invalidCallbackSnapshot "cancellation range exceeds callback file size")
  else (ByteRange.new range.offset length).mapError .core

def rangeCovers (outer inner : ByteRange) : Bool :=
  outer.offset ≤ inner.offset && inner.endExclusive ≤ outer.endExclusive

def rangesOverlap (left right : ByteRange) : Bool :=
  left.offset < right.endExclusive && right.offset < left.endExclusive

/-! ## Progress -/

/-- One provider progress sample for a pending transfer. -/
structure WindowsFetchDataProgress where
  total : ℕ
  completed : ℕ
  completed_le : completed ≤ total
  total_le : total ≤ i64Max

/-- Validates a new sample against a previous sample for the same transfer. -/
def WindowsFetchDataProgress.advanceFrom (self previous : WindowsFetchDataProgress) :
    Except WindowsCloudFilesError WindowsFetchDataProgress :=
  if self.total ≠ previous.total then
    .error (.invalidProviderProgress "progress total changed during one transfer")
  else if self.completed < previous.completed then
    .error (.invalidProviderProgress "completed bytes regressed during one transfer")
  else .ok self

/-! ## The watchdog -/

def windowsCfapiCallbackTimeout : ℕ := 60 * 10 ^ 9

@[ext]
structure WindowsFetchDataWatchdogConfig where
  timeout : ℕ
  positive : 0 < timeout
  le_callbackTimeout : timeout ≤ windowsCfapiCallbackTimeout

def WindowsFetchDataWatchdogConfig.default : WindowsFetchDataWatchdogConfig :=
  ⟨windowsCfapiCallbackTimeout, by decide, Nat.le_refl _⟩

/-- Deadline state for one pending fetch, with instants in nanoseconds. -/
structure WindowsFetchDataWatchdog where
  config : WindowsFetchDataWatchdogConfig
  lastActivity : ℕ

namespace WindowsFetchDataWatchdog

def started (config : WindowsFetchDataWatchdogConfig) (now : ℕ) : WindowsFetchDataWatchdog :=
  ⟨config, now⟩

/-- The next deadline, or `none` if a clock that ends at `lastInstant` cannot represent it. -/
def deadline (lastInstant : ℕ) (self : WindowsFetchDataWatchdog) : Option ℕ :=
  if self.lastActivity + self.config.timeout ≤ lastInstant then
    some (self.lastActivity + self.config.timeout)
  else none

/-- Records valid provider progress or another host operation and resets the deadline. -/
def touch (self : WindowsFetchDataWatchdog) (now : ℕ) : WindowsFetchDataWatchdog :=
  { self with lastActivity := now }

/-- Whether the watchdog is due at `now`. -/
def isDue (lastInstant : ℕ) (self : WindowsFetchDataWatchdog) (now : ℕ) : Bool :=
  match self.deadline lastInstant with
  | some deadline => deadline ≤ now
  | none => false

end WindowsFetchDataWatchdog

/-! ## The terminal gate -/

/-- The values of the gate's atomic. -/
inductive FetchTerminalState
  | pending
  | nativeAttempted
  | platformCancelled
  | watchdogTimedOut
  deriving DecidableEq

/-- `FetchTerminalGate::transition`: one compare-and-exchange, with whether it succeeded and the
value it leaves. -/
def FetchTerminalState.transition (self source target : FetchTerminalState) : Bool × FetchTerminalState :=
  if self = source then (true, target) else (false, self)

/-- Which exchange `begin_native` or `cancel_by_platform` makes next. -/
inductive GateAttempt
  | fromPending
  | fromWatchdogTimedOut

def GateAttempt.source : GateAttempt → FetchTerminalState
  | .fromPending => .pending
  | .fromWatchdogTimedOut => .watchdogTimedOut

def FetchTerminalState.Decided (self : FetchTerminalState) : Prop :=
  self = .nativeAttempted ∨ self = .platformCancelled

end AsterForge.Windows
