import BucketTree.Content.Reader
import BucketTree.Content.Sparse

/-!
# Objects in pieces

A stream may hand out an object in pieces of any length (`Stream.HandsOut`). A single read gives at
most the first piece, which may be shorter than requested before the end; reading until a read is
empty gives the whole object. `Bytes.take_eq_take_iff` and `Bytes.resize_eq_resize_iff` state when
the first piece is as good as the whole. A stream that breaks off (`Stream.BreaksOff`) gives a fault
to a read of the whole, never a part of the object.
-/

set_option autoImplicit false

namespace BucketTree

/-! ## The beginning of a content -/

namespace Bytes

variable {first bytes : Bytes} {size : Nat}

/-- An initial segment has the first `size` bytes of the whole exactly when it is long enough. -/
theorem take_eq_take_iff (h : first <+: bytes) :
    first.take size = bytes.take size ↔ min size bytes.length ≤ first.length := by
  obtain ⟨rest, rfl⟩ := h
  rw [List.take_append, List.self_eq_append_right, List.take_eq_nil_iff,
    ← List.length_eq_zero_iff, List.length_append]
  omega

/-- An initial segment, padded with zeros, equals the whole up to `size` exactly when the bytes
after the segment are zeros. -/
theorem resize_eq_resize_iff (h : first <+: bytes) : first.resize size = bytes.resize size ↔
    ∀ b ∈ (bytes.take size).drop first.length, b = 0 := by
  obtain ⟨rest, rfl⟩ := h
  have hbehind : ((first ++ rest).take size).drop first.length =
      rest.take (size - first.length) := by
    rw [List.drop_take, List.drop_left]
  -- of the zeros behind the beginning some stand for bytes of the content, the others for none
  have hzeros : List.replicate (size - first.length) (0 : UInt8) =
      List.replicate (rest.take (size - first.length)).length 0 ++
        List.replicate (size - (first ++ rest).length) 0 := by
    rw [List.replicate_append_replicate, List.length_take, List.length_append]
    congr 1
    omega
  unfold resize
  rw [hbehind, hzeros, List.take_append, List.append_assoc, List.append_right_inj,
    List.append_left_inj, eq_comm, List.eq_replicate_iff]
  exact and_iff_right rfl

end Bytes

/-! ## Streams in pieces -/

namespace Stream

/-- The stream hands out the bytes in pieces, of which none before the end is empty, and closes
without a fault. -/
structure HandsOut (s : Stream) (bytes : Bytes) : Prop where
  isOpen : s.isClosed = false
  closes : s.closeFault = none
  split : ∃ pieces : List Bytes, s.pieces = pieces.map .ok ∧ Gapless pieces ∧ pieces.flatten = bytes

/-- The next piece of the stream. -/
def firstPiece (s : Stream) : Bytes :=
  match s.pieces with
  | .ok piece :: _ => piece
  | _ => []

/-- The stream over a body with one byte in each piece. -/
def oneByOne (body : Body) : Stream := ⟨body.bytes.map fun b => .ok [b], false, none, none⟩

/-- A body is handed out in one piece. -/
theorem handsOut_ofBody (body : Body) : (ofBody body).HandsOut body.bytes :=
  ⟨rfl, rfl, [body.bytes], rfl, ⟨fun _ => rfl, trivial⟩, List.append_nil _⟩

theorem gapless_singletons (bytes : Bytes) : Gapless (bytes.map fun b => [b]) := by
  induction bytes with
  | nil => trivial
  | cons b rest ih => exact ⟨fun h => absurd h (List.cons_ne_nil _ _), ih⟩

theorem handsOut_oneByOne (body : Body) : (oneByOne body).HandsOut body.bytes := by
  refine ⟨rfl, rfl, body.bytes.map fun b => [b], ?_, gapless_singletons _, ?_⟩
  · unfold oneByOne
    rw [List.map_map]
    rfl
  · rw [← List.flatMap_def, List.flatMap_singleton']

theorem firstPiece_eq {s : Stream} {pieces : List Bytes} (h : s.pieces = pieces.map .ok) :
    s.firstPiece = pieces.headD [] := by
  unfold firstPiece
  rw [h]
  cases pieces with
  | nil => rfl
  | cons piece rest => rfl

/-- A read takes bytes from the first piece only. -/
theorem readPieces_map_ok (size : Nat) (pieces : List Bytes) :
    (readPieces size (pieces.map .ok)).1 = .ok ((pieces.headD []).take size) := by
  cases pieces with
  | nil => exact congrArg Except.ok List.take_nil.symm
  | cons piece rest =>
      show (if piece.length ≤ size then (_ : Piece × List Piece) else _).1 = _
      split
      next hshort => exact congrArg Except.ok (List.take_of_length_le hshort).symm
      next => rfl

/-- A reader closes without a fault when its stream does. -/
theorem close_reader {s : Stream} (h : s.closeFault = none) (key : Key) (offset : Value)
    (position : Nat) (rest : List Piece) :
    (Reader.close ⟨key, offset, position, { s with pieces := rest }, false⟩).1 = .ok () := by
  unfold Reader.close Stream.close
  dsimp only
  rw [if_neg Bool.false_ne_true, h]

namespace HandsOut

variable {s : Stream} {bytes : Bytes}

/-- The first piece is an initial segment of the object. -/
theorem firstPiece_prefix (h : s.HandsOut bytes) : s.firstPiece <+: bytes := by
  obtain ⟨pieces, hpieces, -, rfl⟩ := h.split
  rw [firstPiece_eq hpieces]
  cases pieces with
  | nil => exact List.nil_prefix
  | cons piece rest => exact List.prefix_append _ _

/-- The first piece is empty only when the object is. -/
theorem firstPiece_eq_nil_iff (h : s.HandsOut bytes) : s.firstPiece = [] ↔ bytes = [] := by
  refine ⟨fun hfirst => ?_, fun hbytes => List.prefix_nil.1 (hbytes ▸ h.firstPiece_prefix)⟩
  obtain ⟨pieces, hpieces, hgapless, rfl⟩ := h.split
  rw [firstPiece_eq hpieces] at hfirst
  cases pieces with
  | nil => rfl
  | cons piece rest =>
      obtain rfl : piece = [] := hfirst
      exact hgapless.1 rfl

/-- A read gives the first `size` bytes of the first piece. -/
theorem read (h : s.HandsOut bytes) (size : Nat) :
    ∃ rest, s.read size = (.ok (s.firstPiece.take size), { s with pieces := rest }) := by
  obtain ⟨pieces, hpieces, -, -⟩ := h.split
  refine ⟨(readPieces size s.pieces).2, ?_⟩
  unfold Stream.read
  rw [h.isOpen, if_neg Bool.false_ne_true, firstPiece_eq hpieces, hpieces,
    ← readPieces_map_ok size pieces]

/-- Draining the stream gives the whole object. -/
theorem drain (h : s.HandsOut bytes) :
    ∃ rest, s.drain = (.ok bytes, bytes.length, { s with pieces := rest }) := by
  obtain ⟨pieces, hpieces, hgapless, rfl⟩ := h.split
  obtain ⟨rest, hdrain⟩ := drainPieces_of_gapless hgapless []
  unfold Stream.drain
  rw [h.isOpen, if_neg Bool.false_ne_true, hpieces, hdrain]
  exact ⟨_, rfl⟩

/-- A read of a new reader gives the first `size` bytes of the first piece. -/
theorem read_start (h : s.HandsOut bytes) (key : Key) (offset : Value) {size : Nat}
    (hroom : (size : Int) < Word.memoryLimit) :
    ∃ reader, (Reader.start s key offset).read size = (.ok (s.firstPiece.take size), reader) ∧
      reader.close.1 = .ok () := by
  obtain ⟨rest, hread⟩ := h.read size
  have hstream : (Reader.start s key offset).stream = s := rfl
  have hnat : ¬ (size : Int) < 0 := Int.not_lt.2 (Int.natCast_nonneg size)
  refine ⟨_, ?_, close_reader h.closes key offset (0 + (s.firstPiece.take size).length) rest⟩
  unfold Reader.read Reader.readOnce
  rw [Word.fits_of_room hroom, if_neg (by decide), if_neg (Int.not_le.2 hroom), if_neg hnat,
    Int.toNat_natCast, hstream, hread]
  rfl

/-- A read of all bytes by a new reader gives the whole object. -/
theorem readAll_start (h : s.HandsOut bytes) (key : Key) (offset : Value) :
    ∃ reader, (Reader.start s key offset).read (-1) = (.ok bytes, reader) ∧
      reader.close.1 = .ok () := by
  obtain ⟨rest, hdrain⟩ := h.drain
  have hstream : (Reader.start s key offset).stream = s := rfl
  have hall : (Reader.start s key offset).read (-1) = (Reader.start s key offset).readAll := rfl
  refine ⟨_, ?_, close_reader h.closes key offset (0 + bytes.length) rest⟩
  rw [hall]
  unfold Reader.readAll
  rw [hstream, hdrain]
  rfl

end HandsOut

/-! ## Streams that break off -/

/-- The stream hands out an initial segment of the bytes, or all of them, in non-empty pieces, and
then fails. It closes without a fault. -/
structure BreaksOff (s : Stream) (bytes : Bytes) : Prop where
  isOpen : s.isClosed = false
  closes : s.closeFault = none
  split : ∃ (pieces : List Bytes) (fault : Fault) (rest : List Piece),
    s.pieces = pieces.map .ok ++ .error fault :: rest ∧ (∀ piece ∈ pieces, piece ≠ []) ∧
      pieces.flatten <+: bytes

/-- The stream over a body that hands out `count` bytes one by one and then fails. -/
def failingAt (count : Nat) (body : Body) : Stream :=
  ⟨(body.bytes.take count).map (fun b => .ok [b]) ++ [.error (.remote none "connection lost")],
    false, none, none⟩

theorem breaksOff_failingAt (count : Nat) (body : Body) :
    (failingAt count body).BreaksOff body.bytes := by
  refine ⟨rfl, rfl, (body.bytes.take count).map fun b => [b], .remote none "connection lost", [],
    ?_, ?_, ?_⟩
  · unfold failingAt
    rw [List.map_map]
    rfl
  · intro piece hpiece
    obtain ⟨b, -, rfl⟩ := List.mem_map.1 hpiece
    exact List.cons_ne_nil b []
  · rw [← List.flatMap_def, List.flatMap_singleton']
    exact List.take_prefix count body.bytes

/-- Draining pieces of which one is a fault gives that fault, unless an empty piece comes before
it. -/
theorem drainPieces_of_error {pieces : List Bytes} (h : ∀ piece ∈ pieces, piece ≠ [])
    (fault : Fault) (rest : List Piece) (before : Bytes) :
    drainPieces (pieces.map .ok ++ .error fault :: rest) before =
      (.error fault, (before ++ pieces.flatten).length, rest) := by
  induction pieces generalizing before with
  | nil => rw [List.flatten_nil, List.append_nil]; rfl
  | cons piece more ih =>
      cases piece with
      | nil => exact absurd rfl (h [] List.mem_cons_self)
      | cons b bs =>
          have hmore := ih (fun piece hm => h piece (List.mem_cons_of_mem _ hm)) (before ++ b :: bs)
          rw [List.append_assoc] at hmore
          exact hmore

/-- A read of all bytes fails on a stream that breaks off. -/
theorem BreaksOff.readAll_start {s : Stream} {bytes : Bytes} (h : s.BreaksOff bytes) (key : Key)
    (offset : Int) :
    ∃ failure reader, (Reader.start s key (.int offset)).read (-1) =
        (.error (.known failure), reader) ∧ failure.kind = .read ∧ reader.close.1 = .ok () := by
  obtain ⟨pieces, fault, rest, hpieces, hpiece, -⟩ := h.split
  have hstream : (Reader.start s key (.int offset)).stream = s := rfl
  have hall : (Reader.start s key (.int offset)).read (-1) =
      (Reader.start s key (.int offset)).readAll := rfl
  have hdrain : s.drain = (.error fault, pieces.flatten.length, { s with pieces := rest }) := by
    unfold Stream.drain
    rw [h.isOpen, if_neg Bool.false_ne_true, hpieces, drainPieces_of_error hpiece]
    rfl
  refine ⟨.read key (.readFailed key (fault.toFailure (some "GET") (some key)).message), _, ?_,
    rfl, close_reader h.closes key (.int offset) (0 + pieces.flatten.length) rest⟩
  rw [hall]
  unfold Reader.readAll
  rw [hstream, hdrain]
  rfl

end Stream

end BucketTree
