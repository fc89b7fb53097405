import BucketTree.Key.Basic
import BucketTree.Value

/-!
# Paths

A path names a key. `Path.toKey` drops the root address of the file system, splits the rest at
the separators and joins the non-empty segments; `Path.normalize` is the absolute path of that
key. A path is refused when it is no text, holds a NUL character, points outside the root
address, or has a segment of one or two dots.
-/

set_option autoImplicit false

namespace BucketTree

/-- The reason for which a path is refused. -/
inductive PathFault where
  /-- The path is of another type than text. -/
  | notText (typeName : String)
  /-- The path holds a NUL character. -/
  | nul
  /-- The path is an address outside the root address. -/
  | outsideRoot (path root : String)
  /-- The path has a segment of one or two dots. -/
  | relative (segment path : String)
  /-- The path has a segment that ends like a directory marker. -/
  | reserved (segment suffix : String)
  /-- The root directory has no marker. -/
  | rootMarker
  /-- The root directory cannot be deleted. -/
  | rootDelete
  /-- The root directory can be neither end of a rename. -/
  | rootRename
  /-- The root directory cannot be read as a file. -/
  | rootRead
  /-- The root directory cannot be written as a file. -/
  | rootWrite
  /-- Both ends of a rename are one key. -/
  | sameEnds (key : Key)
  /-- A directory would move below itself. -/
  | intoItself (source destination : Key)

/-- A refused path and the reason. -/
structure PathRefusal where
  fault : PathFault
  path : Value

namespace Path

/-- The path without the root address, when it starts with it. -/
def withoutRoot (path root : String) : String :=
  let base := Text.trimEnd Key.separator root
  if !base.isEmpty && (path == base || Text.beginsWith path (base ++ Key.separatorText)) then
    Text.dropFirst base.toList.length path
  else path

/-- Tells whether a segment is one or two dots. -/
def isRelative (segment : String) : Bool := segment == "." || segment == ".."

/-- The text of a path. -/
def textOf (path : Value) : Except PathRefusal String :=
  match path with
  | .text raw => if raw.toList.contains '\x00' then .error ⟨.nul, path⟩ else .ok raw
  | other => .error ⟨.notText other.typeName, other⟩

/-- The segments of a text under a root address. -/
def segmentsOf (raw root : String) : Except PathRefusal (List String) :=
  let inner := withoutRoot raw root
  if Text.contains inner "://" then
    .error ⟨.outsideRoot inner (if root.isEmpty then Key.separatorText else root), inner⟩
  else
    let parts := (Key.segments inner.toList).map String.ofList
    match parts.find? isRelative with
    | some segment => .error ⟨.relative segment inner, inner⟩
    | none => .ok parts

/-- The segments of a path under a root address. -/
def segments (path : Value) (root : String) : Except PathRefusal (List String) :=
  match textOf path with
  | .ok raw => segmentsOf raw root
  | .error refusal => .error refusal

/-- The key of a path. -/
def toKey (path : Value) (root : String) : Except PathRefusal Key :=
  (segments path root).map (Key.separatorText.intercalate ·)

/-- The canonical path of the same key. -/
def normalize (path : Value) (root : String) : Except PathRefusal String :=
  (segments path root).map fun parts => Key.separatorText ++ Key.separatorText.intercalate parts

end Path

end BucketTree
