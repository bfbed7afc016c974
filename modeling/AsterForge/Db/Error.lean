import AsterForge.Library.Checks
import AsterForge.Library.Text

/-!
# Database failures

What the driver says about a failure is sorted into a few classes that a decision to retry can rest on.
-/

namespace AsterForge.Db

open Library

inductive DatabaseErrorKind
  | deadlock
  | serializationFailure
  /-- A lock wait timeout, or a database that is busy or locked. -/
  | lockTimeout
  | uniqueConstraint
  | foreignKeyConstraint
  deriving DecidableEq

/-- Whether a bounded retry can resolve the failure. -/
def DatabaseErrorKind.isTransientLocking : DatabaseErrorKind → Bool
  | .deadlock | .serializationFailure | .lockTimeout => true
  | .uniqueConstraint | .foreignKeyConstraint => false

inductive DriverErrorKind
  | uniqueViolation
  | foreignKeyViolation
  | other
  deriving DecidableEq

/-- What the driver of a database says of a failure; only one of the codes is there. -/
structure DriverError where
  kind : DriverErrorKind
  mysqlNumber : Option ℕ
  postgresCode : Option Text
  sqliteCode : Option ℤ
  deriving DecidableEq

/-- A failure of the object mapper, with what the driver said if it came from the database. -/
structure DbErr where
  message : Text
  driver : Option DriverError
  deriving DecidableEq

def mysqlErrorKind : ℕ → Option DatabaseErrorKind
  | 1205 => some .lockTimeout
  | 1213 => some .deadlock
  | _ => none

def postgresErrorKind (code : Text) : Option DatabaseErrorKind :=
  if code = "40P01".toList then some .deadlock
  else if code = "40001".toList then some .serializationFailure
  else if code = "55P03".toList then some .lockTimeout
  else none

def sqliteErrorKind (code : ℤ) : Option DatabaseErrorKind :=
  if code % 256 = 5 ∨ code % 256 = 6 then some .lockTimeout else none

/-- `database_error_kind_from_signals`. -/
def DriverError.databaseErrorKind (error : DriverError) : Option DatabaseErrorKind :=
  match error.kind with
  | .uniqueViolation => some .uniqueConstraint
  | .foreignKeyViolation => some .foreignKeyConstraint
  | .other => (error.mysqlNumber.bind mysqlErrorKind).or
    ((error.postgresCode.bind postgresErrorKind).or (error.sqliteCode.bind sqliteErrorKind))

def databaseErrorKind (error : DbErr) : Option DatabaseErrorKind :=
  error.driver.bind DriverError.databaseErrorKind

inductive DbError
  | databaseConnection (message : Text)
  | databaseOperation (message : Text)
  | databaseOperationClassified (message : Text) (kind : DatabaseErrorKind)
  /-- The commit response was lost after the transaction may have been committed. -/
  | commitOutcomeUnknown (message : Text) (kind : Option DatabaseErrorKind)
  | retryExhausted
  | nonRetryable (message : Text)
  deriving DecidableEq

/-- Connection failures and transient locking conflicts are retried, and nothing else. -/
def DbError.isRetryable : DbError → Bool
  | .databaseConnection _ => true
  | .databaseOperationClassified _ kind => kind.isTransientLocking
  | _ => false

/-- `database_operation_with_context`. -/
def databaseOperationWithContext (error : DbErr) (context : Text) : DbError :=
  let message := context ++ ": ".toList ++ error.message
  match databaseErrorKind error with
  | some kind => .databaseOperationClassified message kind
  | none => .databaseOperation message

def DbError.ofDbErr (error : DbErr) : DbError :=
  match databaseErrorKind error with
  | some kind => .databaseOperationClassified error.message kind
  | none => .databaseOperation error.message

/-! ## Checks of requests -/

def byteLength (text : Text) : ℕ := (text.map Char.utf8Size).sum

def validateNonEmpty (name value : Text) : Except DbError Unit :=
  refuse (trim value = []) (.nonRetryable (name ++ " must not be empty".toList))

def validateMaxLen (name value : Text) (maxLen : ℕ) : Except DbError Unit :=
  refuse (maxLen < byteLength value)
    (.nonRetryable (name ++ " must be at most ".toList ++ (toString maxLen).toList ++ " bytes".toList))

end AsterForge.Db
