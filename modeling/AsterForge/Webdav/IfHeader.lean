import AsterForge.Library.Checks
import AsterForge.Library.Text

/-!
# The `If` header

Conditions on the state of resources that a request submits: lists of state tokens and entity tags, for
the resource of the request or for tagged ones.

* `parseIfHeader` — the parser; it goes through the text from left to right, and its functions hand on
  what is left of it.
-/

namespace AsterForge.Webdav

open Library

inductive DavProtocolErrorKind
  | badRequest
  | preconditionFailed
  deriving DecidableEq

structure DavProtocolError where
  kind : DavProtocolErrorKind
  status : ℕ
  message : String
  deriving DecidableEq

def DavProtocolError.badRequest (message : String) : DavProtocolError := ⟨.badRequest, 400, message⟩

/-! ## Conditions -/

inductive IfStateCondition
  /-- A lock state token. -/
  | token (value : Text) (negated : Bool)
  /-- An entity tag. -/
  | etag (value : Text) (negated : Bool)
  deriving DecidableEq

/-- Conditions that must all hold. -/
structure IfStateList where
  conditions : List IfStateCondition
  deriving DecidableEq

/-- Lists of which one must hold, for a tagged resource or for the request target. -/
structure IfResourceGroup where
  taggedPath : Option Text
  lists : List IfStateList
  deriving DecidableEq

structure IfHeader where
  groups : List IfResourceGroup
  deriving DecidableEq

/-! ## Parsing -/

def invalidIfHeader : DavProtocolError := .badRequest "Invalid If header"

def isLinearWhitespace (c : Char) : Bool := c = ' ' || c = '\t' || c = '\r' || c = '\n'

variable (text : Text)

def skipLinearWhitespace : Text := text.dropWhile isLinearWhitespace

def isAsciiWhitespace (c : Char) : Bool := c = ' ' || c = '\t' || c = '\n' || c = '\r' || c = '\x0C'

/-- A token without angle brackets around it. -/
def normalizeLockToken (value : Text) : Text :=
  let isBracket := fun c : Char => decide (c = '<' ∨ c = '>')
  ((trim value).dropWhile isBracket).rdropWhile isBracket

/-- What stands between two delimiters, without white space at its ends. -/
def parseDelimited (opening closing : Char) (text : Text) : Except DavProtocolError (Text × Text) :=
  match text with
  | [] => .error invalidIfHeader
  | c :: rest =>
    if c = opening then
      match splitOnce closing rest with
      | none => .error invalidIfHeader
      | some (value, rest) =>
        if trim value = [] then .error invalidIfHeader else .ok (trim value, rest)
    else .error invalidIfHeader

def parseAngleValue : Except DavProtocolError (Text × Text) := parseDelimited '<' '>' text

def parseBracketValue : Except DavProtocolError (Text × Text) :=
  parseDelimited '[' ']' text

/-- The word `not`, in any case, before white space, a token, a tag or the end. -/
def consumeNot : Bool × Text :=
  if (text.take 3).length = 3 ∧ eqIgnoreAsciiCase (text.take 3) "not".toList ∧
      ¬ (text.drop 3).head?.any (fun c => !isAsciiWhitespace c && c ≠ '<' && c ≠ '[') then
    (true, text.drop 3)
  else (false, text)

def parseCondition : Except DavProtocolError (IfStateCondition × Text) :=
  let (negated, rest) := consumeNot text
  let rest := skipLinearWhitespace rest
  match rest.head? with
  | some '<' => do
    let (value, rest) ← parseAngleValue rest
    return (.token (normalizeLockToken value) negated, rest)
  | some '[' => do
    let (value, rest) ← parseBracketValue rest
    return (.etag value negated, rest)
  | _ => .error invalidIfHeader

/-- The conditions up to the end of their list; each is at least one character long, and `fuel` is the
length of the text. -/
def parseConditions : ℕ → Text → Except DavProtocolError (List IfStateCondition × Text)
  | 0, _ => .error invalidIfHeader
  | fuel + 1, text =>
    match skipLinearWhitespace text with
    | [] => .error invalidIfHeader
    | ')' :: rest => .ok ([], rest)
    | rest => do
      let (condition, rest) ← parseCondition rest
      let (conditions, rest) ← parseConditions fuel rest
      return (condition :: conditions, rest)

def parseStateList : Except DavProtocolError (IfStateList × Text) :=
  match text with
  | '(' :: rest => do
    let (conditions, rest) ← parseConditions (rest.length + 1) rest
    refuse (conditions = []) invalidIfHeader
    return (⟨conditions⟩, rest)
  | _ => .error invalidIfHeader

def parseTaggedLists : ℕ → Text → Except DavProtocolError (List IfStateList × Text)
  | 0, _ => .error invalidIfHeader
  | fuel + 1, text =>
    let rest := skipLinearWhitespace text
    if rest.head? = some '(' then do
      let (list, rest) ← parseStateList rest
      let (lists, rest) ← parseTaggedLists fuel rest
      return (list :: lists, rest)
    else .ok ([], rest)

def parseTaggedGroups : ℕ → Text → Except DavProtocolError (List IfResourceGroup)
  | 0, _ => .error invalidIfHeader
  | fuel + 1, text => do
    let (taggedPath, rest) ← parseAngleValue text
    let (lists, rest) ← parseTaggedLists (rest.length + 1) rest
    refuse (lists = []) invalidIfHeader
    match rest.head? with
    | none => return [⟨some taggedPath, lists⟩]
    | some '<' => do
      let groups ← parseTaggedGroups fuel rest
      return ⟨some taggedPath, lists⟩ :: groups
    | some _ => .error invalidIfHeader

def parseUntaggedLists : ℕ → Text → Except DavProtocolError (List IfStateList)
  | 0, _ => .error invalidIfHeader
  | fuel + 1, text =>
    if text = [] then .ok []
    else do
      let (list, rest) ← parseStateList text
      let rest := skipLinearWhitespace rest
      refuse (rest.head? = some '<') invalidIfHeader
      let lists ← parseUntaggedLists fuel rest
      return list :: lists

/-- `IfHeaderParser::parse`. -/
def parseIf (input : Text) : Except DavProtocolError IfHeader :=
  match skipLinearWhitespace input with
  | [] => .error invalidIfHeader
  | '<' :: rest => do
    let groups ← parseTaggedGroups (rest.length + 2) ('<' :: rest)
    return ⟨groups⟩
  | text => do
    let lists ← parseUntaggedLists (text.length + 1) text
    return ⟨[⟨none, lists⟩]⟩

/-- `parse_if_header`, for the value of the header field if there is one. -/
def parseIfHeader (value : Option (List UInt8)) : Except DavProtocolError (Option IfHeader) :=
  match value with
  | none => .ok none
  | some value => do
    let raw ← okOr invalidIfHeader (headerText value)
    let header ← parseIf raw
    return some header

end AsterForge.Webdav
