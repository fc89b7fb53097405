import BucketTree.Content.Spool
import BucketTree.Store.Program

/-!
# Writers

A `Writer` buffers the new content of an object and uploads all of it when it is closed;
`Writer.sync` uploads without closing. Until then the store keeps the old object. Every operation
that succeeds leaves the position of the buffer at its end, so plain writes append.

A closed writer refuses every operation on its content. A writer whose buffer failed is still open.
It can be neither uploaded nor discarded while the size of the buffer cannot be read.
-/

set_option autoImplicit false

namespace BucketTree

/-- A writer for the object `key`. -/
structure Writer where
  key : Key
  spool : Spool
  isClosed : Bool

namespace Writer

variable {α : Type}

/-- The size over which a buffer moves to disk: 64 MiB. -/
def defaultSpoolSize : Int := 64 * 1024 * 1024

/-- A writer with the given initial content. -/
def start (key : Key) (data : Bytes) (maxSize : Int) : Writer :=
  let spool := Spool.empty maxSize
  ⟨key, if data.isEmpty then spool else (spool.write data).2, false⟩

/-- The buffered content. -/
def content (w : Writer) : Bytes := w.spool.bytes

/-- Runs `body` if the writer is open, and refuses the action otherwise. -/
def whileOpen (action : WriterAction) (w : Writer)
    (body : Except Misuse α × Writer) : Except Misuse α × Writer :=
  if w.isClosed then (.error (.closedWriter action w.key), w) else body

/-- Appends data and returns its number of bytes. -/
def write (data : Bytes) (w : Writer) : Except Misuse Nat × Writer :=
  whileOpen .write w <|
    let (outcome, spool) := w.spool.write data
    (outcome.map fun _ => data.length, { w with spool := spool })

/-- Writes data at a position and returns its number of bytes. -/
def writeAt (data : Bytes) (offset : Int) (w : Writer) : Except Misuse Nat × Writer :=
  whileOpen .write w <|
    match w.spool.seek offset with
    | .error misuse => (.error misuse, w)
    | .ok spool =>
        match spool.write data with
        | (.error misuse, spool) => (.error misuse, { w with spool := spool })
        | (.ok (), spool) =>
            match spool.seekEnd with
            | .error misuse => (.error misuse, { w with spool := spool })
            | .ok spool => (.ok data.length, { w with spool := spool })

/-- Reads buffered bytes back. -/
def readAt (offset size : Int) (w : Writer) : Except Misuse Bytes × Writer :=
  whileOpen .read w <|
    match w.spool.seek offset with
    | .error misuse => (.error misuse, w)
    | .ok spool =>
        match spool.read size with
        | .error misuse => (.error misuse, { w with spool := spool })
        | .ok (data, spool) => (.ok data, { w with spool := spool.atEnd })

/-- The position of the buffer. -/
def tell (w : Writer) : Except Misuse Nat := w.spool.tell

/-- The size of the buffered content. A failed buffer has none. -/
def size (w : Writer) : Except Misuse Nat := w.spool.measure

/-- Truncates to a size, or to the position, and returns the given size. -/
def truncate (size : Option Int) (w : Writer) : Except Misuse Int × Writer :=
  match size.elim (w.tell.map Int.ofNat) .ok with
  | .error misuse => (.error misuse, w)
  | .ok size =>
      match w.spool.truncate size with
      | (.error misuse, spool) => (.error misuse, { w with spool := spool })
      | (.ok (), spool) => (.ok size, { w with spool := spool.atEnd })

/-- The data of an upload: the buffer as a stream, with its size. -/
def uploaded (w : Writer) : Upload :=
  ⟨w.spool.content, true, .int w.spool.size, w.spool.sentBlock?⟩

/-- Uploads the buffered content and leaves the buffer at its end. A full buffer shares its memory
with the store from then on. -/
def upload (w : Writer) : Program (Except Fault Unit × Writer) :=
  match w.size with
  | .error misuse => return (.error (.misuse misuse), w)
  | .ok _ => do
      let outcome ← Program.put w.key w.uploaded
      let w := { w with spool := w.spool.atEnd }
      match outcome with
      | .ok block => return (.ok (), { w with spool := w.spool.stored block })
      | .error fault =>
          let detail := (fault.toFailure (some "PUT") (some w.key)).message
          return (.error (.known (.write w.key (.uploadFailed w.key detail))), w)

/-- The writer after a change of the holders of blocks: its buffer shares its block only while the
block is held elsewhere. -/
def reclaim (isHeld : BlockNumber → Bool) (w : Writer) : Writer :=
  match w.spool.sharedBlock? with
  | none => w
  | some block => if isHeld block then w else { w with spool := w.spool.unshared }

@[simp]
theorem content_reclaim (isHeld : BlockNumber → Bool) (w : Writer) :
    (w.reclaim isHeld).content = w.content := by
  unfold reclaim
  split
  · rfl
  · split
    · rfl
    · exact Spool.bytes_unshared w.spool

/-- Uploads the content buffered so far and keeps the writer open. -/
def sync (w : Writer) : Program (Except Fault Unit × Writer) :=
  if w.isClosed then return (.error (.misuse (.closedWriter .sync w.key)), w) else w.upload

/-- Closes the buffer and the writer. If the buffer has data that it cannot save, the buffer is
closed and the writer stays open. -/
def finish (w : Writer) : Except Misuse Unit × Writer :=
  match w.spool.close with
  | (.error misuse, spool) => (.error misuse, { w with spool := spool })
  | (.ok (), spool) => (.ok (), { w with spool := spool, isClosed := true })

/-- Closes the writer without an upload, after it has read the size of the buffer. A second call
changes nothing. -/
def abort (w : Writer) : Except Misuse Unit × Writer :=
  if w.isClosed then (.ok (), w)
  else
    match w.size with
    | .error misuse => (.error misuse, w)
    | .ok _ => w.finish

/-- Uploads the content and closes the writer, also when the upload fails. A second call changes
nothing. An error in closing the buffer hides a failed upload. -/
def close (w : Writer) : Program (Except Fault Unit × Writer) :=
  if w.isClosed then return (.ok (), w)
  else do
    let (outcome, w) ← w.upload
    match w.finish with
    | (.error misuse, w) => return (.error (.misuse misuse), w)
    | (.ok (), w) => return (outcome, w)

/-- Writes the items in turn, up to the first that is refused. -/
def writeAll : List Bytes → Writer → Except Misuse Unit × Writer
  | [], w => (.ok (), w)
  | data :: rest, w =>
      match w.write data with
      | (.error misuse, w) => (.error misuse, w)
      | (.ok _, w) => writeAll rest w

/-- Discards the writer because of a fault. A misuse in doing so hides the fault. -/
def discardFor (fault : Fault) (w : Writer) : Except Fault Unit × Writer :=
  match w.abort with
  | (.error misuse, w) => (.error (.misuse misuse), w)
  | (.ok (), w) => (.error fault, w)

/-- Writes the items in turn and closes the writer. If an item is refused, or `fault` is given, it
discards the writer. -/
def scope (items : List Bytes) (fault : Option Fault) (w : Writer) :
    Program (Except Fault Unit × Writer) :=
  if w.isClosed then return (.error (.misuse .closedStream), w)
  else
    match w.writeAll items, fault with
    | (.error misuse, w), _ => return w.discardFor (.misuse misuse)
    | (.ok (), w), some fault => return w.discardFor fault
    | (.ok (), w), none => w.close

end Writer

end BucketTree
