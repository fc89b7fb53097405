import BucketTree.Tree.Address
import BucketTree.Tree.Directory

/-!
# The tree over a bucket

A `Tree` shows a bucket as a hierarchy of files and directories. `Tree.resolve` turns a path
into a key, and refuses a path with a segment that ends like a marker, because marker keys are
reserved for directories. The queries tell files from directories; a key that is both an object
and the start of other keys counts as a file.
-/

set_option autoImplicit false

namespace BucketTree

/-- A bucket seen as a hierarchy. -/
structure Tree where
  /-- The name of the bucket. -/
  bucket : String
  settings : Settings
  isOpen : Bool
  /-- The largest number of pages in one walk. -/
  pageLimit : Nat
  /-- The largest number of nested calls of an operation that calls itself, not counting the first
  call. -/
  nestingLimit : Nat

/-- The status of a file or a directory. -/
structure FileStatus where
  /-- The absolute path with single separators. -/
  path : String
  /-- The last name of the path, empty for the root. -/
  name : String
  isDirectory : Bool
  /-- The size in bytes, zero for a directory. -/
  size : Nat
  /-- The modification time; a directory without a marker has none. -/
  modifiedMillis : Option Int
deriving DecidableEq, Repr

namespace Tree

/-- A store keeps no owners, so every path has this one. -/
def owner : String := ""

/-- A store keeps no groups, so every path has this one. -/
def group : String := ""

/-- A store keeps no permissions, so every path grants all of them. -/
def mode : Nat := 0o777

/-- Accepts every mode that is an integer. Permissions are not stored. -/
def setMode (mode : Value) : Except Misuse Unit := mode.index.map fun _ => ()

/-- The tree over the bucket with the given name, which must not be empty. -/
def make (bucket : String) (settings : Settings) (pageLimit nestingLimit : Nat) :
    Except Misuse Tree :=
  if bucket.isEmpty then .error .bucketRequired
  else .ok ⟨bucket, settings, true, pageLimit, nestingLimit⟩

/-- The closed tree. -/
def close (t : Tree) : Tree := { t with isOpen := false }

/-- The suffix of markers. -/
def suffix (t : Tree) : String := t.settings.folderSuffix

/-- The key of a path, or the fault that refuses the path. -/
def resolve (t : Tree) (path : Value) : Except Fault Key :=
  if !t.isOpen then .error (.known ⟨.general "ERR_CLOSED", none, .closed t.bucket⟩)
  else
    match Address.segments path t.settings.rootUri with
    | .error fault => .error fault
    | .ok parts =>
        match parts.find? (Key.isMarker t.suffix) with
        | some segment => .error (.known (.ofRefusal ⟨.reserved segment t.suffix, path⟩))
        | none => .ok (Key.separatorText.intercalate parts)

/-- The key of a path, as the first step of an operation. -/
def key (t : Tree) (path : Value) : Action Key := Action.ofExcept (t.resolve path)

/-- Refuses the root directory. -/
def refuseRoot (key : Key) (fault : PathFault) (path : Value) : Action Unit :=
  if key == Key.root then Action.fail (.ofRefusal ⟨fault, path⟩) else pure ()

/-! ## Queries -/

/-- Tells whether an object is stored at the key of the path. -/
def isFile (t : Tree) (path : Value) : Action Bool := do
  let key ← t.key path
  if key == Key.root then return false
  return (← statusOf key).isSome

/-- Tells whether the path is a directory. -/
def isDirectory (t : Tree) (path : Value) : Action Bool := do
  let key ← t.key path
  Directory.exists? t.suffix key

/-- Tells whether the path is a file or a directory. -/
def exists? (t : Tree) (path : Value) : Action Bool := do
  if ← t.isFile path then return true
  t.isDirectory path

/-- The status of a file or a directory. -/
def status (t : Tree) (path : Value) : Action FileStatus := do
  let key ← t.key path
  if key == Key.root then return ⟨Key.separatorText, "", true, 0, none⟩
  match ← statusOf key with
  | some object =>
      return ⟨Key.toPath key, Key.basename key, false, object.size, some object.modifiedMillis⟩
  | none =>
      match ← Directory.markerStatus t.suffix key with
      | some marker =>
          return ⟨Key.toPath key, Key.basename key, true, 0, some marker.modifiedMillis⟩
      | none =>
          if ← Directory.hasChildren key none then
            return ⟨Key.toPath key, Key.basename key, true, 0, none⟩
          Action.fail (.notFound key (.noSuchEntry key))

/-- A listing of the keys below a directory path. -/
def listing (t : Tree) (path : Value) (isRecursive : Bool) (cancel : Option Token) :
    Action Listing := do
  let key ← t.key path
  return .start (Key.directoryPrefix key) isRecursive t.settings.chunkLength cancel

end Tree

end BucketTree
