import BucketTree.Content.Stream
import BucketTree.Number.Word

/-!
# Readers

A `Reader` reads an object from an offset and keeps its own position. A fault of the stream is
reported as a failed read of the key. Bytes read before a fault within one request are lost, but
they count in the position. The offset is the value given by the caller. If it is not a number, the
error arises when the position is computed.
-/

set_option autoImplicit false

namespace BucketTree

/-- A reader on the object `key`, opened at the byte `offset`. -/
structure Reader where
  key : Key
  offset : Value
  /-- The number of bytes read from the stream. -/
  position : Nat
  stream : Stream
  isClosed : Bool

namespace Reader

/-- A reader at the start of a stream that begins at `offset`. -/
def start (stream : Stream) (key : Key) (offset : Value) : Reader :=
  ⟨key, offset, 0, stream, false⟩

/-- Tells whether the reader holds the given block of memory. -/
def holds (block : BlockNumber) (r : Reader) : Bool := r.stream.holds block

/-- The position in the object. -/
def tell (r : Reader) : Except Misuse Value := r.offset.advancedBy r.position

/-- The fault of a failed read. It contains the position, so the misuse of a position that cannot be
computed hides it. -/
def failed (fault : Fault) (r : Reader) : Fault :=
  match r.tell with
  | .error misuse => .misuse misuse
  | .ok _ =>
      .known (.read r.key (.readFailed r.key (fault.toFailure (some "GET") (some r.key)).message))

/-- One read from the stream. -/
def readOnce (length : Nat) (r : Reader) : Piece × Reader :=
  match r.stream.read length with
  | (.ok bytes, stream) =>
      (.ok bytes, { r with stream := stream, position := r.position + bytes.length })
  | (.error fault, stream) => (.error (r.failed fault), { r with stream := stream })

/-- Reads everything that is left. -/
def readAll (r : Reader) : Piece × Reader :=
  match r.stream.drain with
  | (.ok bytes, count, stream) =>
      (.ok bytes, { r with stream := stream, position := r.position + count })
  | (.error fault, count, stream) =>
      (.error (r.failed fault),
        { r with stream := stream, position := r.position + count })

/-- Reads everything that is left if the size is negative, and once at most that size otherwise. It
allocates the size first. -/
def read (size : Int) (r : Reader) : Piece × Reader :=
  if !Word.fits size then (.error (.misuse (.outOfRange .position)), r)
  else if Word.memoryLimit ≤ size then (.error (.misuse .outOfMemory), r)
  else if size < 0 then r.readAll else r.readOnce size.toNat

/-- The byte that ends a line. -/
def lineEnd : UInt8 := 10

/-- Reads a line byte by byte. At most `room` more bytes are read; `line` holds the bytes already
read, the last one first. -/
def readLineWith : Nat → Bytes → Reader → Piece × Reader
  | 0, line, r => (.ok line.reverse, r)
  | room + 1, line, r =>
      match r.readOnce 1 with
      | (.error fault, r) => (.error fault, r)
      | (.ok [], r) => (.ok line.reverse, r)
      | (.ok (b :: _), r) =>
          if b == lineEnd then (.ok (b :: line).reverse, r) else readLineWith room (b :: line) r

/-- The next line with its end, cut at `size` bytes unless `size` is negative. -/
def readLine (size : Int) (r : Reader) : Piece × Reader :=
  if !Word.fits size then (.error (.misuse (.outOfRange .count)), r)
  else readLineWith (if size < 0 then r.stream.weight + 1 else size.toNat) [] r

/-- Closes the reader and its stream. A second call changes nothing. -/
def close (r : Reader) : Except Fault Unit × Reader :=
  if r.isClosed then (.ok (), r)
  else
    let (outcome, stream) := r.stream.close
    (outcome, { r with stream := stream, isClosed := true })

end Reader

end BucketTree
