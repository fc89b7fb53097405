import BucketTree.Content.Reader
import BucketTree.Content.Writer
import BucketTree.Tree.Basic

/-!
# Opening and creating

Files are opened for reading at an offset, and for writing into a buffer that is uploaded on close.
Directories are made by writing their markers, those of missing ancestors first.
-/

set_option autoImplicit false

namespace BucketTree.Tree

/-- Opens a file for reading at an offset. -/
def openForRead (t : Tree) (path offset : Value) : Action Reader := do
  if ← Action.ofMisuse (offset.isBelow 0) then throw (.misuse (.negativeOffset offset))
  let key ← t.key path
  refuseRoot key .rootRead path
  match ← Action.lift (Program.openRange key offset) with
  | .ok stream => return .start stream key offset
  | .error fault =>
      let failure := fault.toFailure (some "GET") (some key)
      if failure.isNotFound then Action.fail (.notFound key (.noSuchFile key))
      else Action.fail (.read key (.openFailed key failure.message))

/-- Opens a file for writing, with the given initial content. -/
def openForWrite (t : Tree) (path : Value) (data : Bytes) : Action Writer := do
  let key ← t.key path
  refuseRoot key .rootWrite path
  return .start key data Writer.defaultSpoolSize

/-- Makes a directory, and its missing ancestors if `createParents` is set. It returns whether the
directory was made; an existing directory is left as it is. A missing parent is made by a nested
call, and no marker is written before that call returns. The number bounds the nested calls: beyond
it the operation fails and nothing is stored. -/
def makeDirectory (t : Tree) : Nat → Value → Bool → Action Bool
  | 0, _, _ => throw (.misuse .tooDeep)
  | calls + 1, path, createParents => do
      let key ← t.key path
      if key == Key.root then return false
      if (← statusOf key).isSome then
        Action.fail (.alreadyExists key (.fileExists key))
      if ← Directory.exists? t.suffix key then return false
      match Key.parent? key with
      | none => pure ()
      | some parent =>
          if parent != Key.root then
            unless ← Directory.exists? t.suffix parent do
              if !createParents then Action.fail (.notFound parent (.noParent parent))
              discard <| makeDirectory t calls (Key.toPath parent) true
      Directory.createMarker t.suffix key
      return true

/-- Makes a directory, as `makeDirectory` does, within the limit of the tree on nested calls. -/
def mkdirs (t : Tree) (path : Value) (createParents : Bool) : Action Bool :=
  t.makeDirectory (t.nestingLimit + 1) path createParents

/-- Opens a new file for writing, and makes its missing parents if `createParents` is set. -/
def create (t : Tree) (path : Value) (createParents : Bool) : Action Writer := do
  let key ← t.key path
  if createParents then
    match Key.parent? key with
    | none => pure ()
    | some parent =>
        if parent != Key.root then discard <| t.mkdirs (Key.toPath parent) true
  t.openForWrite path []

/-! ## Whole requests -/

/-- Opens a file, reads once and closes it. A fault of closing hides a fault of reading. -/
def readOnce (t : Tree) (path offset : Value) (size : Int) : Action Bytes := do
  let reader ← t.openForRead path offset
  let (outcome, reader) := reader.read size
  Action.ofExcept reader.close.1
  Action.ofExcept outcome

/-- Uploads what a writer holds and closes it. -/
def closeWriter (writer : Writer) : Action Unit := do
  Action.ofExcept (← Action.lift writer.close).1

/-- Stores a file with the given content. -/
def storeFile (t : Tree) (path : Value) (data : Bytes) : Action Unit := do
  closeWriter (← t.openForWrite path data)

/-- Creates a file, writes data to it, closes it, and returns the number of bytes. -/
def writeFile (t : Tree) (path : Value) (data : Bytes) (createParents : Bool) : Action Nat := do
  let writer ← t.create path createParents
  match writer.write data with
  | (.error misuse, _) => throw (.misuse misuse)
  | (.ok count, writer) =>
      closeWriter writer
      return count

end BucketTree.Tree
