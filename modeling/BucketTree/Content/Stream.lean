import BucketTree.Content.Body
import BucketTree.Failure.Fault

/-!
# Streams

A `Stream` delivers the bytes of an object in pieces, possibly with a fault among them. A read takes
at most the requested length from the first piece, so it may be short; an empty piece reads as the
end. `Stream.drain` reads until a read is empty. If no piece before the end is empty, it returns the
concatenation of the pieces (`drainPieces_of_gapless`).
-/

set_option autoImplicit false

namespace BucketTree

/-- An item of a stream: a piece of the content, or a fault. -/
abbrev Piece := Except Fault Bytes

/-- A source of bytes. -/
structure Stream where
  /-- The items not yet read. -/
  pieces : List Piece
  isClosed : Bool
  /-- The fault that closing raises. -/
  closeFault : Option Fault
  /-- The block of memory that is read, if it can have other holders. -/
  block : Option BlockNumber

namespace Stream

/-- The stream over bytes held in memory. -/
def ofBody (body : Body) : Stream := ⟨[.ok body.bytes], false, none, body.block⟩

/-- The stream over the bytes from an offset on. -/
def ofBodyFrom (offset : Value) (body : Body) : Except Fault Stream :=
  (offset.startPoint.map fun n => ofBody (body.suffix n)).mapError .misuse

/-- The stream from an integer offset. -/
@[simp]
theorem ofBodyFrom_int (offset : Int) (body : Body) :
    ofBodyFrom (.int offset) body = .ok (ofBody (body.suffix offset)) := rfl

/-- Tells whether the stream holds the given block of memory. A closed stream holds none. -/
def holds (block : BlockNumber) (s : Stream) : Bool := !s.isClosed && s.block == some block

/-- At most `length` bytes of the first piece. The rest of the piece stays first. -/
def readPieces (length : Nat) : List Piece → Piece × List Piece
  | [] => (.ok [], [])
  | .error fault :: rest => (.error fault, rest)
  | .ok piece :: rest =>
      if piece.length ≤ length then (.ok piece, rest)
      else (.ok (piece.take length), .ok (piece.drop length) :: rest)

/-- One read of at most `length` bytes. -/
def read (length : Nat) (s : Stream) : Piece × Stream :=
  if s.isClosed then (.error (.misuse .closedStream), s)
  else
    let (piece, rest) := readPieces length s.pieces
    (piece, { s with pieces := rest })

/-- All bytes up to the first empty piece or the end, the number of bytes read, and the pieces left.
A fault discards the bytes read before it. -/
def drainPieces : List Piece → Bytes → Piece × Nat × List Piece
  | [], before => (.ok before, before.length, [])
  | .error fault :: rest, before => (.error fault, before.length, rest)
  | .ok [] :: rest, before => (.ok before, before.length, rest)
  | .ok (b :: bs) :: rest, before => drainPieces rest (before ++ b :: bs)

/-- No piece is empty before the last byte. An empty piece reads as the end of the stream. -/
def Gapless : List Bytes → Prop
  | [] => True
  | piece :: rest => (piece = [] → rest.flatten = []) ∧ Gapless rest

/-- Draining pieces without a gap gives their concatenation. -/
theorem drainPieces_of_gapless {pieces : List Bytes} (h : Gapless pieces) (before : Bytes) :
    ∃ rest, drainPieces (pieces.map .ok) before =
      (.ok (before ++ pieces.flatten), (before ++ pieces.flatten).length, rest) := by
  induction pieces generalizing before with
  | nil => exact ⟨[], by simp [drainPieces]⟩
  | cons piece rest ih =>
      cases piece with
      | nil =>
          -- the empty piece is taken for the end, and is it
          rw [List.flatten_cons, h.1 rfl, List.append_nil, List.append_nil]
          exact ⟨_, rfl⟩
      | cons b bs =>
          obtain ⟨left, hdrain⟩ := ih h.2 (before ++ b :: bs)
          rw [List.append_assoc] at hdrain
          exact ⟨left, hdrain⟩

/-- Reads until a read is empty. It returns the bytes and the number of bytes that left the
stream. -/
def drain (s : Stream) : Piece × Nat × Stream :=
  if s.isClosed then (.error (.misuse .closedStream), 0, s)
  else
    let (piece, count, rest) := drainPieces s.pieces []
    (piece, count, { s with pieces := rest })

/-- Closes the stream. The stream is closed also if closing raises a fault. -/
def close (s : Stream) : Except Fault Unit × Stream :=
  (match s.closeFault with
    | some fault => .error fault
    | none => .ok (), { s with isClosed := true })

/-- The number of bytes and pieces in a list of pieces. -/
def piecesWeight : List Piece → Nat
  | [] => 0
  | .ok bytes :: rest => bytes.length + 1 + piecesWeight rest
  | .error _ :: rest => 1 + piecesWeight rest

/-- The number of bytes and pieces not yet read. -/
def weight (s : Stream) : Nat := piecesWeight s.pieces

end Stream

end BucketTree
