import BucketTree.Argument
import BucketTree.Key.Basic

/-!
# Settings

The settings of a file system over a bucket, and the settings of the connection to a store,
which are only kept.

Settings of a file system are given as values of any type. `GivenSettings.check` refuses a
chunk length below one first, then a marker suffix that is empty or holds a separator, and
keeps the rest as it is given. `Settings` are those that a tree can be made with: the suffix is
a text. The chunk length may be any number that is not below one, and a store may refuse to cut
pages by it; the root address is not asked for before a path is to be resolved.
-/

set_option autoImplicit false

namespace BucketTree

/-- The settings of a file system before they are checked. -/
structure GivenSettings where
  /-- The number of keys in a page of a listing. -/
  chunkLength : Value
  /-- The suffix of the markers of directories. -/
  folderSuffix : Value
  /-- The root address that paths may start with. -/
  rootUri : Value

/-- The settings of a file system. -/
structure Settings where
  /-- The number of keys in a page of a listing. -/
  chunkLength : Value
  /-- The suffix of the markers of directories. -/
  folderSuffix : String
  /-- The root address that paths may start with. -/
  rootUri : Value
  chunkLength_not_below : chunkLength.isBelow 1 = .ok false
  folderSuffix_ne : folderSuffix ≠ ""
  separator_not_mem : Key.separator ∉ folderSuffix.toList

namespace Settings

/-- The default chunk length. -/
def defaultChunkLength : Value := .int 1000

/-- The default marker suffix. -/
def defaultFolderSuffix : String := "_$folder$"

/-- The default settings. -/
def default : Settings where
  chunkLength := defaultChunkLength
  folderSuffix := defaultFolderSuffix
  rootUri := ""
  chunkLength_not_below := rfl
  folderSuffix_ne := by decide
  separator_not_mem := by decide

instance : Inhabited Settings := ⟨default⟩

/-- Checks settings: the chunk length first, then the suffix. -/
def make (chunkLength : Value) (folderSuffix : String) (rootUri : Value) :
    Except Misuse Settings :=
  match h : chunkLength.isBelow 1 with
  | .error misuse => .error misuse
  | .ok true => .error (.chunkLength chunkLength)
  | .ok false =>
      if hs : folderSuffix ≠ "" ∧ Key.separator ∉ folderSuffix.toList then
        .ok ⟨chunkLength, folderSuffix, rootUri, h, hs.1, hs.2⟩
      else .error (.folderSuffix folderSuffix)

/-- An integer is a chunk length exactly when it is at least one. -/
theorem one_le_of_chunkLength_eq (s : Settings) {n : Int} (h : s.chunkLength = .int n) :
    1 ≤ n := by
  have below := s.chunkLength_not_below
  rw [h, Value.isBelow_int] at below
  simpa using below

end Settings

namespace GivenSettings

/-- Settings with defaults for the absent fields. -/
def ofFields (chunkLength folderSuffix rootUri : Option Value) : GivenSettings where
  chunkLength := chunkLength.getD Settings.defaultChunkLength
  folderSuffix := folderSuffix.getD Settings.defaultFolderSuffix
  rootUri := rootUri.getD ""

/-- Settings from an environment. The chunk length is converted to an integer first. -/
def ofEnvironment (chunkLength folderSuffix rootUri : Option Value) :
    Except Misuse GivenSettings :=
  match chunkLength with
  | none => .ok (ofFields none folderSuffix rootUri)
  | some length => length.toInteger.map fun n => ofFields (some (.int n)) folderSuffix rootUri

/-- The settings, or the misuse of the chunk length or of the suffix. -/
def check (g : GivenSettings) : Except Misuse GivenSettings := do
  if ← g.chunkLength.isBelow 1 then throw (.chunkLength g.chunkLength)
  if !g.folderSuffix.isTruthy then throw (.folderSuffix g.folderSuffix)
  if ← g.folderSuffix.holds Key.separatorText then throw (.folderSuffix g.folderSuffix)
  return g

/-- The settings for a tree. The suffix must be a text, since it is joined to keys. -/
def toSettings (g : GivenSettings) : Except Misuse Settings := do
  let g ← g.check
  match g.folderSuffix with
  | .text suffix => Settings.make g.chunkLength suffix g.rootUri
  | other => throw (.mismatch (.operation other.typeName "endswith"))

end GivenSettings

/-- The settings of a connection to a store. They are not checked. -/
structure Connection where
  connectTimeoutMillis : Value
  socketTimeoutMillis : Value
  lifetimeMillis : Value
  maxConnections : Value
  extra : Value

namespace Connection

/-- The default settings of a connection. -/
def default : Connection := ⟨.int 50000, .int 50000, .int (-1), .int 1024, .record []⟩

end Connection

end BucketTree
