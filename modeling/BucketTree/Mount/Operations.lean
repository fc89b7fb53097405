import BucketTree.Mount.Attributes
import BucketTree.Mount.Basic
import BucketTree.Tree.Entries
import BucketTree.Tree.Move
import BucketTree.Tree.Removal

/-!
# Operations of a mount

The calls of the operating system, answered from the tree and from the table of writers. Reads
through a write handle see its buffer; other reads go to the store.
-/

set_option autoImplicit false

namespace BucketTree.Mount

/-! ## Attributes and directories -/

/-- The attributes of a path; a file that is open for writing has the size of its buffer. -/
def getAttributes (t : Tree) (path : Value) (handle : Option Int) : MountAction Attributes := do
  match ← addressed path handle with
  | some (_, w) =>
      if !w.isClosed then return .ofFile (← passed w.size) none
  | none => pure ()
  return .ofStatus (← reported (t.status path))

/-- The names in a directory, each once, after the two for itself and its parent. -/
def readDirectory (t : Tree) (path : Value) : MountAction (List String) := do
  let entries ← reported (t.list path false none)
  let addNew := fun (names : List String) (name : String) =>
    if names.contains name then names else names ++ [name]
  return [".", ".."] ++ (entries.map (·.name)).foldl addNew []

/-- Makes a directory whose parent exists. Its mode is not stored. -/
def makeDirectory (t : Tree) (path mode : Value) : MountAction Unit := do
  passed (Tree.setMode mode)
  unless ← reported (t.mkdirs path false) do refuse .exists

/-- Removes an empty directory. -/
def removeDirectory (t : Tree) (path : Value) : MountAction Unit := do
  unless (← reported (t.status path)).isDirectory do refuse .notDirectory
  reported (t.delete path false none)

/-- Removes a file. -/
def unlink (t : Tree) (path : Value) : MountAction Unit := do
  if (← reported (t.status path)).isDirectory then refuse .isDirectory
  reported (t.delete path false none)

/-- Renames a file or a directory. An existing file is replaced. -/
def rename (t : Tree) (source destination : Value) : MountAction Unit :=
  reported (discard <| t.rename source destination none true)

/-! ## Open files -/

/-- Creates a file and opens it for writing. Its mode is not stored. -/
def create (t : Tree) (path mode : Value) : MountAction Nat := do
  passed (Tree.setMode mode)
  register (← reported (t.openForWrite path []))

/-- The flags ask for reading only. -/
def isReadOnly (flags : Int) : Bool := flags % 4 == 0

/-- The flags ask for an empty file. -/
def truncates (flags : Int) : Bool := flags / 512 % 2 == 1

/-- Opens a file. If it is opened for writing, it keeps its content unless the flags ask for an
empty file. -/
def openFile (t : Tree) (path : Value) (flags : Int) : MountAction Nat := do
  if isReadOnly flags then
    unless ← reported (t.isFile path) do refuse .noEntry
    handOut
  else
    let keeps ← if truncates flags then pure false else reported (t.isFile path)
    let data ← if keeps then reported (t.readOnce path (.int 0) (-1)) else pure []
    register (← reported (t.openForWrite path data))

/-- Reads from the buffer under the handle, or else from the store. -/
def read (t : Tree) (path : Value) (size offset : Int) (handle : Option Int) :
    MountAction Bytes := do
  match handle.bind (← get).writer? with
  | some w =>
      let (outcome, w) := w.readAt offset size
      modify fun m => handle.elim m (m.setWriter · w)
      passed outcome
  | none => reported (t.readOnce path (.int offset) size)

/-- Writes into the buffer under the handle. -/
def write (data : Bytes) (offset : Int) (handle : Option Int) : MountAction Nat := do
  match handle, handle.bind (← get).writer? with
  | some h, some w =>
      let (outcome, w) := w.writeAt data offset
      modify (setWriter h w)
      passed outcome
  | _, _ => refuse .badHandle

/-- Truncates or extends a file: the buffer of an open writer, or else the stored object. -/
def truncate (t : Tree) (path : Value) (length : Int) (handle : Option Int) :
    MountAction Unit := do
  match ← addressed path handle with
  | some (h, w) =>
      let (outcome, w) := w.truncate (some length)
      modify (setWriter h w)
      discard <| passed outcome
  | none =>
      let data ← if 0 < length then reported (t.readOnce path (.int 0) length) else pure []
      unless Word.fits length do throw (.fault (.misuse (.outOfRange .count)))
      reported (t.storeFile path (data ++ List.replicate (length.toNat - data.length) 0))

/-- Uploads the buffer under the handle and keeps it open. -/
def sync (handle : Option Int) : MountAction Unit := do
  match handle, handle.bind (← get).writer? with
  | some h, some w =>
      let (outcome, w) ← lift w.sync
      modify (setWriter h w)
      reported (Action.ofExcept outcome)
  | _, _ => return ()

/-- Removes a handle from the table and uploads its buffer, if it has one. -/
def release (handle : Option Int) : MountAction Unit := do
  match handle, handle.bind (← get).writer? with
  | some h, some w =>
      modify (dropHandle h)
      let (outcome, _) ← lift w.close
      reported (Action.ofExcept outcome)
  | _, _ => return ()

/-- Closes writers in turn and ignores failed uploads. -/
def closeAll : List (Int × Writer) → MountAction Unit
  | [] => return ()
  | (_, w) :: rest => do
      match (← lift w.close).1 with
      | .ok () => closeAll rest
      | .error fault => if fault.isFailure then closeAll rest else throw (.fault fault)

/-- Uploads all open buffers at the end of the mount. -/
def destroy : MountAction Unit := do
  let m ← get
  set m.dropAll
  closeAll m.writers

/-- The handles of open writers, with their keys and the sizes of their buffers. -/
def openHandles (m : Mount) : Except Misuse (List (Int × Key × Nat)) :=
  m.writers.mapM fun (h, w) => w.size.map fun size => (h, w.key, size)

end BucketTree.Mount
