import BucketTree.Key.AnyKey
import BucketTree.Mount.Operations

/-!
# Operations with arguments of any type

Positions, sizes, flags and handles are values of any type in a session. The operations here check
the type of an argument when the operation first needs it, so the effects before that point take
place even if the type is wrong. On integers they are the operations of the same name.
-/

set_option autoImplicit false

namespace BucketTree

namespace Action

/-- Ends with a failure if the token is cancelled. The failure reports the given context. -/
def checkCancelledAny (token : Option Token) (context : Value) : Action Unit := do
  match context with
  | .null => checkCancelled token none
  | .text s => checkCancelled token (some s)
  | other => if ← lift (Program.isCancelled token) then throw (.reported (.cancelled other))

@[simp]
theorem checkCancelledAny_text (token : Option Token) (context : String) :
    checkCancelledAny token (.text context) = checkCancelled token (some context) := rfl

end Action

namespace Directory

/-- Tells whether some key lies below a directory. Every empty value counts as the root. -/
def hasChildrenAny (key : Value) (cancel : Option Token) : Action Bool := do
  if !key.isTruthy then hasChildren Key.root cancel
  else hasChildren (← Action.ofMisuse (AnyKey.joinable key)) cancel

end Directory

namespace Reader

/-- Reads with a size that must be an integer. -/
def readAny (size : Value) (r : Reader) : Piece × Reader :=
  match size.index with
  | .ok size => r.read size
  | .error misuse => (.error (.misuse misuse), r)

/-- Reads a line of a size that may be absent. -/
def readLineAny (size : Value) (r : Reader) : Piece × Reader :=
  match size.count with
  | .ok size => r.readLine (size.getD (-1))
  | .error misuse => (.error (.misuse misuse), r)

@[simp]
theorem readAny_int (size : Int) (r : Reader) : r.readAny (.int size) = r.read size := rfl

@[simp]
theorem readLineAny_int (size : Int) (r : Reader) :
    r.readLineAny (.int size) = r.readLine size := rfl

end Reader

namespace Writer

/-- Writes at a position that must be an integer. -/
def writeAtAny (data : Bytes) (offset : Value) (w : Writer) : Except Misuse Nat × Writer :=
  match offset.index with
  | .ok offset => w.writeAt data offset
  | .error misuse => whileOpen .write w (.error misuse, w)

/-- Reads back from a position that must be an integer, up to a size that may be absent. The size is
needed only at the position. -/
def readAtAny (offset size : Value) (w : Writer) : Except Misuse Bytes × Writer :=
  match offset.index, size.count with
  | .ok offset, .ok size => w.readAt offset (size.getD (-1))
  | .error misuse, _ => whileOpen .read w (.error misuse, w)
  | .ok offset, .error misuse =>
      whileOpen .read w <|
        match w.spool.seek offset with
        | .error misuse => (.error misuse, w)
        | .ok spool => (.error misuse, { w with spool := spool })

/-- Truncates to a size that may be absent, and gives the size as it was asked for. One that is
no integer is first compared with the size up to which the buffer stays in memory, and moves it
to disk like an integer. -/
def truncateAny (size : Value) (w : Writer) : Except Misuse Value × Writer :=
  match size.count with
  | .ok count =>
      let (outcome, w) := w.truncate count
      (outcome.map fun position => if count.isNone then .int position else size, w)
  | .error misuse =>
      match size.isAbove w.spool.maxSize with
      | .error misuse => (.error misuse, w)
      | .ok isAbove =>
          match if isAbove then w.spool.moveToDisk else (.ok (), w.spool) with
          | (.error misuse, spool) => (.error misuse, { w with spool := spool })
          | (.ok (), spool) =>
              let onDisk := (spool.fileSizeRefusal? 0).getD (.mismatch (.integer size.typeName))
              (.error (if spool.onDisk then onDisk else misuse), { w with spool := spool })

@[simp]
theorem writeAtAny_int (data : Bytes) (offset : Int) (w : Writer) :
    w.writeAtAny data (.int offset) = w.writeAt data offset := rfl

@[simp]
theorem readAtAny_int (offset size : Int) (w : Writer) :
    w.readAtAny (.int offset) (.int size) = w.readAt offset size := rfl

@[simp]
theorem truncateAny_int (size : Int) (w : Writer) :
    w.truncateAny (.int size) =
      ((w.truncate (some size)).1.map fun _ => .int size, (w.truncate (some size)).2) := rfl

end Writer

namespace Tree

/-- Opens a file, reads once and closes it. A size that is no integer is found out when the file
is open, and a fault of closing wins over it. -/
def readOnceAny (t : Tree) (path offset size : Value) : Action Bytes := do
  match size.index with
  | .ok size => t.readOnce path offset size
  | .error misuse =>
      let reader ← t.openForRead path offset
      Action.ofExcept reader.close.1
      throw (.misuse misuse)

@[simp]
theorem readOnceAny_int (t : Tree) (path offset : Value) (size : Int) :
    t.readOnceAny path offset (.int size) = t.readOnce path offset size := rfl

end Tree

namespace Mount

/-- A number that is never a handle. -/
def noHandle : Int := -1

/-- The handle that a value denotes, none if it is absent or empty. A value of another type than a
number denotes no handle, and a list or a record cannot be looked up in a table. -/
def handleOf : Value → Except Misuse (Option Int)
  | .null => .ok none
  | .bool b => .ok (some (if b then 1 else 0))
  | .int n => .ok (some n)
  | .real x => .ok (some (if x.fraction.mantissa = 0 then x.truncate else noHandle))
  | .text s => .ok (if s.isEmpty then none else some noHandle)
  | .list items => Value.mismatched (.lookup (Value.list items).typeName)
  | .record fields => Value.mismatched (.lookup (Value.record fields).typeName)
  | _ => .ok (some noHandle)

/-- The handle to be looked up in the table of writers. -/
def searchedHandle (handle : Value) : MountAction (Option Int) := passed (handleOf handle)

/-- The handle given with a path. A value that does not count as true is no handle, and then the
path alone decides. -/
def handleBesidePath (handle : Value) : MountAction (Option Int) :=
  if handle.isTruthy then searchedHandle handle else return none

/-- The handle to be removed from the table. An empty table is not searched. -/
def handleTakenOut (handle : Value) : MountAction (Option Int) := do
  if (← get).writers.isEmpty then return none else searchedHandle handle

/-- Opens a file with flags that must be an integer. -/
def openFileAny (t : Tree) (path flags : Value) : MountAction Nat :=
  match flags.index with
  | .ok flags => openFile t path flags
  | .error _ =>
      passed (Value.mismatched (.operands .bitAnd flags.typeName (Value.int 0).typeName))

/-- Reads from the buffer under the handle, or else from the store. -/
def readAny (t : Tree) (path size offset : Value) (handle : Option Int) : MountAction Bytes := do
  match size, offset with
  | .int size, .int offset => read t path size offset handle
  | _, _ =>
      match handle, handle.bind (← get).writer? with
      | some h, some w =>
          let (outcome, w) := w.readAtAny offset size
          modify (setWriter h w)
          passed outcome
      | _, _ => reported (t.readOnceAny path offset size)

/-- Writes into the buffer under the handle. -/
def writeAny (data : Bytes) (offset : Value) (handle : Option Int) : MountAction Nat := do
  match offset.index with
  | .ok offset => write data offset handle
  | .error _ =>
      match handle.bind (← get).writer? with
      | some w => passed (w.writeAtAny data offset).1
      | none => refuse .badHandle

/-- Refuses to truncate a file without an open writer to a size that is no integer. A size above
zero is first used to read the old content. -/
def refuseLength (t : Tree) (path length : Value) : MountAction Unit := do
  if ← passed (length.isAbove 0) then
    discard <| reported (t.readOnceAny path (.int 0) length)
  passed (Value.mismatched (.repetition length.typeName))

/-- Truncates or extends a file: the buffer of an open writer, or else the stored object. -/
def truncateAny (t : Tree) (path length : Value) (handle : Option Int) : MountAction Unit := do
  match length.index with
  | .ok length => truncate t path length handle
  | .error _ =>
      match ← addressed path handle with
      | some (h, w) =>
          let (outcome, w) := w.truncateAny length
          modify (setWriter h w)
          discard <| passed outcome
      | none => refuseLength t path length

@[simp]
theorem searchedHandle_int (n : Int) : searchedHandle (.int n) = return (some n) := rfl

@[simp]
theorem openFileAny_int (t : Tree) (path : Value) (flags : Int) :
    openFileAny t path (.int flags) = openFile t path flags := rfl

@[simp]
theorem readAny_int (t : Tree) (path : Value) (size offset : Int) (handle : Option Int) :
    readAny t path (.int size) (.int offset) handle = read t path size offset handle := rfl

@[simp]
theorem writeAny_int (data : Bytes) (offset : Int) (handle : Option Int) :
    writeAny data (.int offset) handle = write data offset handle := rfl

@[simp]
theorem truncateAny_int (t : Tree) (path : Value) (length : Int) (handle : Option Int) :
    truncateAny t path (.int length) handle = truncate t path length handle := rfl

end Mount

end BucketTree
