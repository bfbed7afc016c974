import AsterForge.Library.Bytes

/-!
# Paths below a WebDAV mount

The part of a path that recursive operations use: the path of a child, from its parent's and from the
name the backend lists it under.
-/

namespace AsterForge.Webdav

open Library

inductive DavPathError
  /-- Malformed percent encoding, or a name that is not text. -/
  | invalidEncoding
  /-- Dot-segment normalization would escape the mount root. -/
  | pathEscape
  /-- A backend child name is empty, a dot segment, or contains a path separator. -/
  | invalidChildName
  deriving DecidableEq

structure DavPath where
  canonical : String
  deriving DecidableEq

def EndsWithSlash (text : String) : Prop := text.toList.getLast? = some '/'
  deriving Decidable

def childRelativePath (parent : String) (name : List UInt8) (isCollection : Bool) :
    Except DavPathError String := do
  let name ← okOr .invalidEncoding (fromUtf8 name)
  refuse (name = "" ∨ name = "." ∨ name = ".." ∨ '/' ∈ name.toList ∨ '\\' ∈ name.toList)
    .invalidChildName
  let relative :=
    if parent = "/" then "/" ++ name
    else if EndsWithSlash parent then parent ++ name
    else parent ++ "/" ++ name
  return if isCollection ∧ ¬ EndsWithSlash relative then relative ++ "/" else relative

def DavPath.joinChild (path : DavPath) (decodedName : List UInt8) (isCollection : Bool) :
    Except DavPathError DavPath := do
  let canonical ← childRelativePath path.canonical decodedName isCollection
  return ⟨canonical⟩

example : DavPath.joinChild ⟨"/source/"⟩ [0x64] true = .ok ⟨"/source/d/"⟩ := by decide

end AsterForge.Webdav
