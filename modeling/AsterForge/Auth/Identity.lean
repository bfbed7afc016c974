import AsterForge.Library.Checks
import AsterForge.Library.Text

/-!
# Identities of the authentication layer

Subjects, sessions and refresh credentials are named by texts that were checked: not blank, at most 256
bytes, no control characters.  Time is in whole seconds and arithmetic on it is that of 64-bit integers.
-/

namespace AsterForge.Auth

open Library

/-- `AuthError`, by what went wrong. -/
inductive AuthError
  | cryptoProviderNotInitialized
  | cryptoProviderAlreadyInstalled
  | keyTooShort
  | invalidPolicy
  | tokenTooLarge
  | invalidToken
  | expired
  | notYetValid
  | missingClaim
  | wrongTokenType
  | algorithmMismatch
  | issuerMismatch
  | audienceMismatch
  | encoding
  | resourceLimit
  | cancelled
  deriving DecidableEq

/-! ## Numbers -/

def i64Min : ℤ := -(2 ^ 63)

def i64Max : ℤ := 2 ^ 63 - 1

/-- The value of a computation in 64-bit signed integers, if it has one. -/
def checkedI64 (value : ℤ) : Option ℤ := if i64Min ≤ value ∧ value ≤ i64Max then some value else none

/-! ## Names -/

def byteLength (text : Text) : ℕ := (text.map Char.utf8Size).sum

/-- `char::is_control`. -/
def isControl (c : Char) : Bool := c.toNat ≤ 0x1F || (0x7F ≤ c.toNat && c.toNat ≤ 0x9F)

def validateIdentifier (value : Text) : Except AuthError Unit :=
  refuse (trim value = [] ∨ 256 < byteLength value ∨ value.any isControl = true) .invalidPolicy

inductive IdentifierKind
  | subject
  | sessionId
  | refreshJti

def Identifier (_ : IdentifierKind) : Type := {value : Text // validateIdentifier value = .ok ()}

instance (kind : IdentifierKind) : DecidableEq (Identifier kind) :=
  inferInstanceAs (DecidableEq {value : Text // validateIdentifier value = .ok ()})

/-- `Subject::new`, `SessionId::new`, `RefreshJti::new`. -/
def Identifier.new {kind : IdentifierKind} (value : Text) : Except AuthError (Identifier kind) :=
  if h : validateIdentifier value = .ok () then .ok ⟨value, h⟩ else .error .invalidPolicy

abbrev Subject := Identifier .subject

abbrev SessionId := Identifier .sessionId

abbrev RefreshJti := Identifier .refreshJti

end AsterForge.Auth
