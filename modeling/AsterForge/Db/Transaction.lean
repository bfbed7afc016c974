import AsterForge.Db.Error

/-!
# Transactions with retries

A callback is run in a transaction, and again in another one where the first is known to have left nothing
behind.  Whether a commit that failed took effect is known to the database only; here it is a bit of the
attempt that no decision looks at.

* **`withTransactionRetry_commits`** — what at most one of the attempts does.
* **`withTransaction_retryable_iff`** — when `withTransaction`, which makes one attempt, offers no commit for
  another try that may have taken effect.
-/

namespace AsterForge.Db

open Library List Option

variable {T E : Type}

def commitOutcomeKnownRolledBack (kind : Option DatabaseErrorKind) : Bool :=
  kind = some .deadlock ∨ kind = some .serializationFailure

/-- What one attempt meets.  A commit that fails may have taken effect, unless its failure says that it was
rolled back. -/
inductive Attempt (T E : Type)
  | beginFailed (error : DbErr)
  | callbackFailed (error : E) (rollbackFailed : Bool)
  | commitFailed (value : T) (error : DbErr) (tookEffect : Bool)
      (honest : commitOutcomeKnownRolledBack (databaseErrorKind error) = true → tookEffect = false)
  | committed (value : T)

/-- The value of an attempt whose effects the database keeps; a transaction that is not committed leaves
nothing, whether its rollback fails or not. -/
def Attempt.effect : Attempt T E → Option T
  | .beginFailed _ | .callbackFailed .. => none
  | .commitFailed value _ tookEffect _ => if tookEffect then some value else none
  | .committed value => some value

/-- A commit failure that does not say what became of the transaction. -/
def Attempt.OutcomeUnknown : Attempt T E → Prop
  | .commitFailed _ error _ _ => commitOutcomeKnownRolledBack (databaseErrorKind error) = false
  | _ => False

inductive CommitFailureAction
  | retry
  | returnKnownFailure
  | returnOutcomeUnknown

def commitFailureAction (retryable outcomeKnownRolledBack : Bool) (attempt maxRetries : ℕ) :
    CommitFailureAction :=
  if outcomeKnownRolledBack = false then .returnOutcomeUnknown
  else if retryable then
    if attempt < maxRetries then .retry else .returnKnownFailure
  else .returnKnownFailure

section

variable (maxRetries : ℕ) (fromDb : DbError → E) (shouldRetry : E → Bool)

/-- What an attempt returns, or nothing if another one is made. -/
def attemptResult (attempt : ℕ) : Attempt T E → Option (Except E T)
  | .beginFailed error =>
    let error := fromDb (databaseOperationWithContext error "begin transaction".toList)
    if attempt < maxRetries ∧ shouldRetry error = true then none else some (.error error)
  | .callbackFailed error _ =>
    if attempt < maxRetries ∧ shouldRetry error = true then none else some (.error error)
  | .commitFailed _ error _ _ =>
    let kind := databaseErrorKind error
    let classified := fromDb (databaseOperationWithContext error "commit transaction".toList)
    match commitFailureAction (shouldRetry classified) (commitOutcomeKnownRolledBack kind) attempt
        maxRetries with
    | .retry => none
    | .returnKnownFailure => some (.error classified)
    | .returnOutcomeUnknown => some (.error
      (fromDb (.commitOutcomeUnknown ("commit transaction: ".toList ++ error.message) kind)))
  | .committed value => some (.ok value)

variable {maxRetries fromDb shouldRetry} {attempt : ℕ} {met : Attempt T E}

lemma commitFailureAction_eq_retry {r k : Bool} (h : commitFailureAction r k attempt maxRetries = .retry) :
    k = true ∧ attempt < maxRetries := by
  unfold commitFailureAction at h
  split_ifs at h with hknown hretry hatt
  exact ⟨Bool.not_eq_false _ ▸ hknown, hatt⟩

/-- **Another attempt** is made where this one left nothing behind. -/
theorem attemptResult_eq_none (h : attemptResult maxRetries fromDb shouldRetry attempt met = none) :
    attempt < maxRetries ∧ met.effect = none ∧ ¬ met.OutcomeUnknown := by
  cases met with
  | beginFailed e | callbackFailed e rollbackFailed =>
    simp only [attemptResult, ite_eq_left_iff, reduceCtorEq, imp_false, not_not] at h
    exact ⟨h.1, rfl, fun h => h⟩
  | commitFailed v e te ho =>
    unfold attemptResult at h
    dsimp only at h
    split at h
    case h_1 haction =>
      obtain ⟨hk, ha⟩ := commitFailureAction_eq_retry haction
      refine ⟨ha, ?_, ?_⟩
      · rw [Attempt.effect, ho hk]
        rfl
      · rw [Attempt.OutcomeUnknown, hk]
        exact Bool.false_ne_true.symm
    case h_2 => cases h
    case h_3 => cases h
  | committed v => cases h

lemma attemptResult_eq_ok {v : T}
    (h : attemptResult maxRetries fromDb shouldRetry attempt met = some (.ok v)) : met.effect = some v := by
  cases met with
  | beginFailed e | callbackFailed e rollbackFailed =>
    unfold attemptResult at h
    dsimp only at h
    split_ifs at h
    cases h
  | commitFailed v' e te ho =>
    unfold attemptResult at h
    dsimp only at h
    split at h
    case h_1 => cases h
    case h_2 => cases h
    case h_3 => cases h
  | committed v' =>
    cases h
    rfl

/-- An error is returned by an attempt that left nothing behind, or whose outcome is not known. -/
lemma attemptResult_eq_error {e : E}
    (h : attemptResult maxRetries fromDb shouldRetry attempt met = some (.error e)) :
    met.effect = none ∨ ∃ m k, e = fromDb (.commitOutcomeUnknown m k) := by
  cases met with
  | beginFailed e' => exact .inl rfl
  | callbackFailed e' rf => exact .inl rfl
  | commitFailed v e' te ho =>
    unfold attemptResult at h
    dsimp only at h
    split at h
    case h_1 => cases h
    case h_2 haction =>
      refine .inl ?_
      have hknown : commitOutcomeKnownRolledBack (databaseErrorKind e') = true := by
        unfold commitFailureAction at haction
        split_ifs at haction with hknown
        · exact Bool.not_eq_false _ ▸ hknown
        · exact Bool.not_eq_false _ ▸ hknown
      rw [Attempt.effect, ho hknown]
      rfl
    case h_3 =>
      cases h
      exact .inr ⟨_, _, rfl⟩
  | committed v => cases h

variable (maxRetries fromDb shouldRetry)

/-- `with_transaction_retry`, from an attempt on: the attempts that are made, and what is returned.  The
delay between them changes nothing. -/
def withTransactionRetry (attempts : ℕ → Attempt T E) (attempt : ℕ) : List (Attempt T E) × Except E T :=
  match h : attemptResult maxRetries fromDb shouldRetry attempt (attempts attempt) with
  | some result => ([attempts attempt], result)
  | none =>
    let made := withTransactionRetry attempts (attempt + 1)
    (attempts attempt :: made.1, made.2)
termination_by maxRetries - attempt
decreasing_by
  have hattempt := (attemptResult_eq_none h).1
  omega

/-- The values whose effects the database keeps. -/
def effects (made : List (Attempt T E)) : List T := made.filterMap Attempt.effect

/-- What is known when a transaction with retries returns. -/
structure CommitsOnce (fromDb : DbError → E) (maxRetries attempt : ℕ) (made : List (Attempt T E))
    (result : Except E T) : Prop where
  once : (effects made).length ≤ 1
  ok : ∀ value, result = .ok value → effects made = [value]
  kept : ∀ value, effects made = [value] → result = .ok value ∨
    ∃ message kind, result = .error (fromDb (.commitOutcomeUnknown message kind))
  error : ∀ error, result = .error error → effects made = [] ∨
    ∃ message kind, error = fromDb (.commitOutcomeUnknown message kind)
  unknown : ∀ before met rest, made = before ++ met :: rest → met.OutcomeUnknown → rest = []
  attempts : made.length ≤ maxRetries - attempt + 1

variable {maxRetries fromDb shouldRetry} {m : List (Attempt T E)}

lemma effects_cons_of_none (h : met.effect = none) : effects (met :: m) = effects m :=
  filterMap_cons_none h

lemma effects_singleton (met : Attempt T E) : effects [met] = met.effect.toList := by
  unfold effects
  rw [filterMap_cons]
  cases met.effect with
  | none => rfl
  | some v => rfl

lemma commitsOnce_last {r : Except E T} (h : attemptResult maxRetries fromDb shouldRetry attempt met = some r) :
    CommitsOnce fromDb maxRetries attempt [met] r := by
  have hlast : ∀ b (met' : Attempt T E) rs, [met] = b ++ met' :: rs → rs = [] := by
    intro b met' rs hs
    cases b with
    | nil =>
      cases hs
      rfl
    | cons first b =>
      have hlen := congrArg length hs
      simp at hlen
  refine ⟨?_, ?_, ?_, ?_, fun b met' rs hs _ => hlast b met' rs hs, ?_⟩
  · exact length_toList_le
  · rintro v rfl
    rw [effects_singleton, attemptResult_eq_ok h]
    rfl
  · intro v hk
    rw [effects_singleton, toList_eq_singleton_iff] at hk
    cases r with
    | ok v' =>
      rw [attemptResult_eq_ok h] at hk
      cases hk
      exact .inl rfl
    | error e =>
      obtain ⟨m, k, rfl⟩ := (attemptResult_eq_error h).resolve_left (by simp [hk])
      exact .inr ⟨m, k, rfl⟩
  · rintro e rfl
    rw [effects_singleton, toList_eq_nil_iff]
    exact attemptResult_eq_error h
  · simp

lemma CommitsOnce.cons {r : Except E T} (h : CommitsOnce fromDb maxRetries (attempt + 1) m r)
    (hn : attemptResult maxRetries fromDb shouldRetry attempt met = none) :
    CommitsOnce fromDb maxRetries attempt (met :: m) r := by
  obtain ⟨ha, he, hk⟩ := attemptResult_eq_none hn
  have hsame := @effects_cons_of_none T E met m he
  refine ⟨?_, ?_, ?_, ?_, ?_, ?_⟩
  · rw [hsame]
    exact h.once
  · rw [hsame]
    exact h.ok
  · rw [hsame]
    exact h.kept
  · rw [hsame]
    exact h.error
  · intro b met' rs hs hu
    cases b with
    | nil =>
      cases hs
      exact absurd hu hk
    | cons first b =>
      cases hs
      exact h.unknown b met' rs rfl hu
  · have hmade := h.attempts
    rw [length_cons]
    omega

/-- **A transaction with retries**, whatever its attempts meet: the effects of at most one attempt are kept;
a value is returned only by the one that was committed; where one was committed its value is returned, or the
error that says that the outcome is not known; every other error leaves nothing behind; no attempt follows
one whose outcome is not known; and there are not more attempts than the policy allows. -/
theorem withTransactionRetry_commits (attempts : ℕ → Attempt T E) : CommitsOnce fromDb maxRetries 0
    (withTransactionRetry maxRetries fromDb shouldRetry attempts 0).1
    (withTransactionRetry maxRetries fromDb shouldRetry attempts 0).2 := by
  generalize 0 = attempt
  induction attempt using withTransactionRetry.induct maxRetries fromDb shouldRetry attempts with
  | case1 attempt r h =>
    rw [withTransactionRetry, h]
    exact commitsOnce_last h
  | case2 attempt h ih =>
    rw [withTransactionRetry, h]
    exact ih.cons h

end

/-- A connection that is lost in a commit that takes effect: one attempt was committed, and no value is
returned. -/
theorem withTransactionRetry_counterexample :
    let attempts : ℕ → Attempt ℕ DbError := fun _ => .commitFailed 7 ⟨[], none⟩ true (by decide)
    let made := withTransactionRetry 3 id (fun _ => true) attempts 0
    effects made.1 = [7] ∧ made.2 = .error (.commitOutcomeUnknown "commit transaction: ".toList none) := by
  intro attempts made
  have hmade : made = ([attempts 0], .error (.commitOutcomeUnknown "commit transaction: ".toList none)) := by
    change withTransactionRetry 3 id (fun _ => true) attempts 0 = _
    rw [withTransactionRetry]
    rfl
  rw [hmade]
  exact ⟨rfl, rfl⟩

/-! ## One attempt -/

def Attempt.commitError : Attempt T E → Option DbErr
  | .commitFailed _ error _ _ => some error
  | .beginFailed _ | .callbackFailed .. | .committed _ => none

/-- `with_transaction`: what one attempt returns. -/
def withTransaction (fromDb : DbError → E) : Attempt T E → Except E T
  | .beginFailed error =>
    .error (fromDb (databaseOperationWithContext error "begin transaction".toList))
  | .callbackFailed error _ => .error error
  | .commitFailed _ error _ _ =>
    .error (fromDb (databaseOperationWithContext error "commit transaction".toList))
  | .committed value => .ok value

lemma isRetryable_databaseOperationWithContext (e : DbErr) (c : Text) :
    (databaseOperationWithContext e c).isRetryable =
      (databaseErrorKind e).any DatabaseErrorKind.isTransientLocking := by
  unfold databaseOperationWithContext
  cases databaseErrorKind e <;> rfl

/-- **Commits that may have taken effect** are not offered for another try, exactly if the failure is no lock
timeout: that class is retryable, and does not say that the transaction was rolled back. -/
theorem withTransaction_retryable_iff (met : Attempt T DbError) :
    (∀ error, withTransaction id met = .error error → met.OutcomeUnknown → error.isRetryable = false) ↔
      met.commitError.bind databaseErrorKind ≠ some .lockTimeout := by
  cases met with
  | beginFailed error | callbackFailed error rollbackFailed =>
    simp [Attempt.commitError, Attempt.OutcomeUnknown]
  | committed v => simp [Attempt.commitError, Attempt.OutcomeUnknown]
  | commitFailed v error te ho =>
    simp only [withTransaction, Except.error.injEq, forall_eq', id_eq, Attempt.OutcomeUnknown,
      Attempt.commitError, bind_some, isRetryable_databaseOperationWithContext]
    cases databaseErrorKind error with
    | none => simp
    | some k =>
      cases k <;> simp [commitOutcomeKnownRolledBack, DatabaseErrorKind.isTransientLocking]

/-- A lock timeout of MySQL in a commit that takes effect, which is returned as an error to retry on. -/
theorem withTransaction_retryable_counterexample :
    ∃ met : Attempt ℕ DbError, ∃ error, met.OutcomeUnknown ∧ met.effect = some 7 ∧
      withTransaction id met = .error error ∧ error.isRetryable = true :=
  ⟨.commitFailed 7 ⟨[], some ⟨.other, some 1205, none, none⟩⟩ true (by decide), _, rfl, rfl, rfl, rfl⟩

end AsterForge.Db
