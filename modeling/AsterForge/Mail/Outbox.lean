import AsterForge.Library.Text

/-!
# Dispatch of a mail outbox

A dispatcher lists the rows that are due, and for each of them claims it, delivers the mail and marks the row:
as sent, for a retry, or as failed for good.  What it knows of a row is what it has listed.
-/

namespace AsterForge.Mail

open Library

/-! ## Rows and policies -/

inductive MailOutboxStatus
  | pending
  | processing
  | retry
  | sent
  | failed
  deriving DecidableEq

def MailOutboxStatus.isTerminal : MailOutboxStatus → Bool
  | .sent | .failed => true
  | .pending | .processing | .retry => false

/-- The payload that is stored after terminal delivery. -/
def clearedJson : Text := "\x7b\x7d".toList

structure DispatchStats where
  claimed : ℕ := 0
  sent : ℕ := 0
  retried : ℕ := 0
  failed : ℕ := 0

/-- What a dispatcher keeps of a row that it has listed. -/
structure MailOutboxDispatchContext where
  id : ℤ
  attemptCount : ℤ
  templateCode : Text
  toAddress : Text
  toName : Option Text

def MailOutboxDispatchContext.deliveryAttemptCount (context : MailOutboxDispatchContext) : ℤ :=
  context.attemptCount + 1

structure MailOutboxRetryPolicy where
  maxAttempts : ℤ
  maxErrorLen : ℕ

structure MailOutboxDispatchConfig where
  batchSize : ℕ
  processingStaleSecs : ℤ
  retryPolicy : MailOutboxRetryPolicy
  markSentRetryDelaysMs : List ℕ

def retryDelaySecs (attemptCount : ℤ) : ℤ :=
  if attemptCount = 1 then 5
  else if attemptCount = 2 then 15
  else if attemptCount = 3 then 60
  else if attemptCount = 4 then 300
  else if attemptCount = 5 then 900
  else 1800

def truncateError (error : Text) (maxLen : ℕ) : Text := error.take maxLen

inductive DeliveryMark
  | sent (subject : Text)
  | retry (attemptCount retryDelaySecs : ℤ) (errorMessage : Text)
  | permanentFailure (attemptCount : ℤ) (errorMessage : Text)

def DeliveryMark.isFailure : DeliveryMark → Bool
  | .sent _ => false
  | .retry .. | .permanentFailure .. => true

namespace MailOutboxRetryPolicy

variable (policy : MailOutboxRetryPolicy)

def shouldPermanentlyFail (attemptCount : ℤ) : Bool := policy.maxAttempts ≤ attemptCount

def deliveryFailureDecision (attemptCount : ℤ) (error : Text) : DeliveryMark :=
  let errorMessage := truncateError error policy.maxErrorLen
  if policy.shouldPermanentlyFail attemptCount then .permanentFailure attemptCount errorMessage
  else .retry attemptCount (retryDelaySecs attemptCount) errorMessage

end MailOutboxRetryPolicy

/-! ## Dispatchers -/

/-- Where a dispatcher is: before it lists; before it claims a row; while it delivers the mail; before it
marks the row, with the delays after which it would try again to mark it. -/
inductive DispatchPhase
  | listing
  | claiming (stats : DispatchStats) (context : MailOutboxDispatchContext)
      (rest : List MailOutboxDispatchContext)
  | delivering (stats : DispatchStats) (context : MailOutboxDispatchContext)
      (rest : List MailOutboxDispatchContext)
  | marking (stats : DispatchStats) (context : MailOutboxDispatchContext) (mark : DeliveryMark)
      (later : List ℕ) (rest : List MailOutboxDispatchContext)

variable {E : Type}

/-- What a dispatcher goes on with, or returns. -/
abbrev DispatchNext (E : Type) := DispatchPhase ⊕ Except E DispatchStats

def nextRow (stats : DispatchStats) : List MailOutboxDispatchContext → DispatchNext E
  | [] => .inr (.ok stats)
  | context :: rest => .inl (.claiming stats context rest)

def afterList : Except E (List MailOutboxDispatchContext) → DispatchNext E
  | .ok rows => nextRow {} rows
  | .error error => .inr (.error error)

def afterTryClaim (stats : DispatchStats) (context : MailOutboxDispatchContext)
    (rest : List MailOutboxDispatchContext) : Except E Bool → DispatchNext E
  | .ok true => .inl (.delivering { stats with claimed := stats.claimed + 1 } context rest)
  | .ok false => nextRow stats rest
  | .error error => .inr (.error error)

def deliveryMark (config : MailOutboxDispatchConfig) (context : MailOutboxDispatchContext) :
    Except Text Text → DeliveryMark
  | .ok subject => .sent subject
  | .error error => config.retryPolicy.deliveryFailureDecision context.deliveryAttemptCount error

def afterDelivery (config : MailOutboxDispatchConfig) (stats : DispatchStats)
    (context : MailOutboxDispatchContext) (rest : List MailOutboxDispatchContext)
    (result : Except Text Text) : DispatchPhase :=
  .marking stats context (deliveryMark config context result) config.markSentRetryDelaysMs.tail rest

def DispatchStats.marked (stats : DispatchStats) : DeliveryMark → DispatchStats
  | .sent _ => { stats with sent := stats.sent + 1 }
  | .retry .. => { stats with retried := stats.retried + 1 }
  | .permanentFailure .. => { stats with failed := stats.failed + 1 }

/-- Marking a row as sent is tried again after each delay, and given up after the last; marking it otherwise
is not tried again. -/
def afterMark (stats : DispatchStats) (context : MailOutboxDispatchContext) (mark : DeliveryMark)
    (later : List ℕ) (rest : List MailOutboxDispatchContext) : Except E Bool → DispatchNext E
  | .ok true => nextRow (stats.marked mark) rest
  | .ok false => nextRow stats rest
  | .error error =>
    match mark, later with
    | .sent _, _ :: later => .inl (.marking stats context mark later rest)
    | .sent _, [] => nextRow stats rest
    | _, _ => .inr (.error error)

/-! ## The row that a dispatcher works on -/

def workedRow : DispatchPhase → Option ℤ
  | .delivering _ context _ | .marking _ context _ _ _ => some context.id
  | .listing | .claiming .. => none

variable {s : DispatchStats} {c : MailOutboxDispatchContext} {r : List MailOutboxDispatchContext}
  {p : DispatchPhase} {id : ℤ}

lemma nextRow_idle (h : (nextRow stats rest : DispatchNext E) = .inl p) : workedRow p = none := by
  cases rest with
  | nil => cases h
  | cons c rest =>
    cases h
    rfl

lemma afterList_idle {a : Except E (List MailOutboxDispatchContext)} (h : afterList a = .inl p) :
    workedRow p = none := by
  cases a with
  | ok r => exact nextRow_idle h
  | error e => cases h

lemma afterTryClaim_worked {a : Except E Bool} (h : afterTryClaim s c r a = .inl p) (hw : workedRow p = some id) :
    a = .ok true ∧ p = .delivering { s with claimed := s.claimed + 1 } c r := by
  match a with
  | .ok true => exact ⟨rfl, (Sum.inl.inj h).symm⟩
  | .ok false =>
    rw [nextRow_idle h] at hw
    cases hw
  | .error e => cases h

lemma afterMark_worked {mark : DeliveryMark} {later : List ℕ} {answer : Except E Bool}
    (h : afterMark s c mark later r answer = .inl p) (hw : workedRow p = some id) :
    ∃ subject later', mark = .sent subject ∧ p = .marking s c mark later' r := by
  have hn : ∀ s, (nextRow s r : DispatchNext E) ≠ .inl p := by
    intro s hn
    rw [nextRow_idle hn] at hw
    cases hw
  match answer, mark, later with
  | .ok true, _, _ => exact absurd h (hn _)
  | .ok false, _, _ => exact absurd h (hn _)
  | .error error, .sent subject, [] => exact absurd h (hn _)
  | .error error, .sent subject, _ :: later => exact ⟨subject, later, rfl, (Sum.inl.inj h).symm⟩
  | .error error, .retry .., _ => cases h
  | .error error, .permanentFailure .., _ => cases h

end AsterForge.Mail
