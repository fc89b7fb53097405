import BucketTree.Proofs.Content.Pieces
import BucketTree.Proofs.Mount.Opening
import BucketTree.Proofs.Mount.ShortReads

/-!
# Reading an object

A reader is asked repeatedly for up to `size` bytes, or for all bytes left (`Reader.readEach`). The
bytes returned are those of the object from the offset on, in order, without gaps or repetitions,
for every way in which the store cuts its stream into pieces (`Reader.Delivers`). `Reader.Step`
specifies a single read, and a sequence of reads follows by induction on the requests. Asking for
all bytes left gives the same as filling a buffer of any size until a read returns nothing
(`readUntilEmpty_eq_readAll`).
-/

set_option autoImplicit false

namespace BucketTree

/-! ## Streams -/

namespace Stream

/-- The stream is open and has the bytes left, in pieces of which none before the end is empty. -/
structure HasLeft (s : Stream) (bytes : Bytes) : Prop where
  isOpen : s.isClosed = false
  split : ∃ pieces : List Bytes, s.pieces = pieces.map .ok ∧ Gapless pieces ∧ pieces.flatten = bytes

theorem HandsOut.hasLeft {s : Stream} {bytes : Bytes} (h : s.HandsOut bytes) : s.HasLeft bytes :=
  ⟨h.isOpen, h.split⟩

/-- One read takes bytes from the front; it takes none only at the end or when none are
requested. -/
theorem readPieces_of_gapless {pieces : List Bytes} (h : Gapless pieces) (length : Nat) :
    ∃ piece rest, readPieces length (pieces.map .ok) = (.ok piece, rest.map .ok) ∧ Gapless rest ∧
      piece ++ rest.flatten = pieces.flatten ∧ piece.length ≤ length ∧
      (piece = [] → length = 0 ∨ pieces.flatten = []) := by
  cases pieces with
  | nil => exact ⟨[], [], rfl, trivial, rfl, Nat.zero_le length, fun _ => Or.inr rfl⟩
  | cons first rest =>
      by_cases hshort : first.length ≤ length
      · refine ⟨first, rest, ?_, h.2, rfl, hshort, fun hempty => Or.inr ?_⟩
        · simp [readPieces, hshort]
        · simp [hempty, h.1 hempty]
      · -- what is left of the first piece is not empty, so it is not taken for the end
        have hleft : first.drop length ≠ [] := by
          rw [Ne, List.drop_eq_nil_iff]
          exact hshort
        refine ⟨first.take length, first.drop length :: rest, ?_,
          ⟨fun hempty => absurd hempty hleft, h.2⟩, ?_, List.length_take_le length first,
          fun hempty => Or.inl ?_⟩
        · simp [readPieces, hshort]
        · rw [List.flatten_cons, ← List.append_assoc, List.take_append_drop, List.flatten_cons]
        · obtain hzero | hnil := List.take_eq_nil_iff.1 hempty
          · exact hzero
          · rw [hnil] at hshort
            exact absurd (Nat.zero_le length) hshort

/-- Draining the pieces leaves empty ones only. -/
theorem drainPieces_leaves {pieces : List Bytes} (h : Gapless pieces) (before : Bytes) :
    ∃ rest : List Bytes, (drainPieces (pieces.map .ok) before).2.2 = rest.map .ok ∧
      Gapless rest ∧ rest.flatten = [] := by
  induction pieces generalizing before with
  | nil => exact ⟨[], rfl, trivial, rfl⟩
  | cons piece rest ih =>
      cases piece with
      | nil => exact ⟨rest, rfl, h.2, h.1 rfl⟩
      | cons b bs => exact ih h.2 (before ++ b :: bs)

namespace HasLeft

variable {s : Stream} {bytes : Bytes}

/-- A read takes bytes from the front and leaves the others; it takes none only at the end or when
none are requested. -/
theorem read (h : s.HasLeft bytes) (length : Nat) :
    ∃ piece left stream, s.read length = (.ok piece, stream) ∧ stream.HasLeft left ∧
      piece ++ left = bytes ∧ piece.length ≤ length ∧ (piece = [] → length = 0 ∨ bytes = []) := by
  obtain ⟨pieces, hpieces, hgapless, rfl⟩ := h.split
  obtain ⟨piece, rest, hread, hrest, hsplit, hlength, hempty⟩ :=
    readPieces_of_gapless hgapless length
  refine ⟨piece, rest.flatten, { s with pieces := rest.map .ok }, ?_, ⟨h.isOpen, rest, rfl, hrest,
    rfl⟩, hsplit, hlength, hempty⟩
  simp [Stream.read, h.isOpen, hpieces, hread]

/-- Draining a stream returns all bytes left. -/
theorem drain (h : s.HasLeft bytes) :
    ∃ stream, s.drain = (.ok bytes, bytes.length, stream) ∧ stream.HasLeft [] := by
  obtain ⟨pieces, hpieces, hgapless, rfl⟩ := h.split
  obtain ⟨left, hdrain⟩ := drainPieces_of_gapless hgapless []
  obtain ⟨rest, hleft, hrest, hnone⟩ := drainPieces_leaves hgapless []
  rw [hdrain] at hleft
  obtain rfl : left = rest.map .ok := hleft
  refine ⟨{ s with pieces := rest.map .ok }, ?_, h.isOpen, rest, rfl, hrest, hnone⟩
  simp [Stream.drain, h.isOpen, hpieces, hdrain]

end HasLeft

end Stream

/-! ## Readers -/

namespace Reader

/-- The size of a read fits into a machine word and into memory. -/
def HasRoom (size : Int) : Prop := Word.fits size = true ∧ size < Word.memoryLimit

/-- The ends of a read by a reader whose stream has `bytes` left. -/
inductive Step (r : Reader) (bytes : Bytes) (size : Int) : Piece → Reader → Prop
  /-- The size does not fit: the read fails and the reader is unchanged. -/
  | refused {misuse : Misuse} (hsize : ¬ HasRoom size) :
      Step r bytes size (.error (.misuse misuse)) r
  /-- The read returns bytes from the front; none only at the end or when none are requested. -/
  | some {piece left : Bytes} {stream : Stream} (hsize : 0 ≤ size) (hsplit : piece ++ left = bytes)
      (hlength : piece.length ≤ size) (hempty : piece = [] → size = 0 ∨ bytes = [])
      (hleft : stream.HasLeft left) :
      Step r bytes size (.ok piece) { r with stream, position := r.position + piece.length }
  /-- A negative size: the read returns all bytes left. -/
  | all {stream : Stream} (hsize : size < 0) (hleft : stream.HasLeft []) :
      Step r bytes size (.ok bytes) { r with stream, position := r.position + bytes.length }

theorem step_read (r : Reader) {bytes : Bytes} (h : r.stream.HasLeft bytes) (size : Int) :
    r.Step bytes size (r.read size).1 (r.read size).2 := by
  by_cases hroom : HasRoom size
  · obtain ⟨hfits, hlimit⟩ := hroom
    by_cases hsize : size < 0
    · obtain ⟨stream, hdrain, hleft⟩ := h.drain
      have hread : r.read size =
          (.ok bytes, { r with stream, position := r.position + bytes.length }) := by
        simp [Reader.read, hfits, Int.not_le.2 hlimit, hsize, readAll, hdrain]
      rw [hread]
      exact .all hsize hleft
    · obtain ⟨piece, left, stream, hread, hleft, hsplit, hlength, hempty⟩ := h.read size.toNat
      have hread : r.read size =
          (.ok piece, { r with stream, position := r.position + piece.length }) := by
        simp [Reader.read, hfits, Int.not_le.2 hlimit, hsize, readOnce, hread]
      rw [hread]
      refine .some (Int.not_lt.1 hsize) hsplit (by omega) (fun hnone => ?_) hleft
      exact (hempty hnone).imp_left fun hzero => by omega
  · obtain ⟨misuse, hread⟩ : ∃ misuse, r.read size = (.error (.misuse misuse), r) := by
      cases hfits : Word.fits size with
      | false => exact ⟨.outOfRange .position, by simp [Reader.read, hfits]⟩
      | true =>
          have hlimit : Word.memoryLimit ≤ size := Int.not_lt.1 fun hlt => hroom ⟨hfits, hlt⟩
          exact ⟨.outOfMemory, by simp [Reader.read, hfits, hlimit]⟩
    rw [hread]
    exact .refused hroom

/-- A sequence of reads, with what each of them returns. -/
def readEach : List Int → Reader → List Piece × Reader
  | [], r => ([], r)
  | size :: sizes, r =>
      let (piece, r) := r.read size
      let (pieces, r) := readEach sizes r
      (piece :: pieces, r)

/-- The bytes returned by a sequence of reads. A read that failed contributes none. -/
def returned (pieces : List Piece) : Bytes :=
  pieces.flatMap fun piece => piece.toOption.getD []

theorem readEach_cons (size : Int) (sizes : List Int) (r : Reader) :
    readEach (size :: sizes) r =
      ((r.read size).1 :: (readEach sizes (r.read size).2).1, (readEach sizes (r.read size).2).2) :=
  rfl

@[simp]
theorem returned_ok (piece : Bytes) : returned [.ok piece] = piece := List.append_nil piece

theorem returned_append (pieces rest : List Piece) :
    returned (pieces ++ rest) = returned pieces ++ returned rest :=
  List.flatMap_append

theorem returned_cons (piece : Piece) (rest : List Piece) :
    returned (piece :: rest) = returned [piece] ++ returned rest :=
  returned_append [piece] rest

/-- After a sequence of reads, the bytes left are those that were not returned, and the position has
advanced by the number of those that were. -/
structure Run (r : Reader) (bytes : Bytes) (pieces : List Piece) (r' : Reader) : Prop where
  split : ∃ left, returned pieces ++ left = bytes ∧ r'.stream.HasLeft left
  offset : r'.offset = r.offset
  position : r'.position = r.position + (returned pieces).length

theorem Step.run {r r' : Reader} {bytes : Bytes} {size : Int} {piece : Piece}
    (h : r.Step bytes size piece r') (hbytes : r.stream.HasLeft bytes) :
    r.Run bytes [piece] r' := by
  cases h with
  | refused => exact ⟨⟨bytes, rfl, hbytes⟩, rfl, rfl⟩
  | some hsize hsplit hlength hempty hleft =>
      exact ⟨⟨_, by rwa [returned_ok], hleft⟩, rfl, by rw [returned_ok]⟩
  | all hsize hleft =>
      exact ⟨⟨[], by rw [returned_ok, List.append_nil], hleft⟩, rfl, by rw [returned_ok]⟩

theorem run_readEach (r : Reader) {bytes : Bytes} (h : r.stream.HasLeft bytes) (sizes : List Int) :
    r.Run bytes (r.readEach sizes).1 (r.readEach sizes).2 := by
  induction sizes generalizing r bytes with
  | nil => exact ⟨⟨bytes, rfl, h⟩, rfl, rfl⟩
  | cons size sizes ih =>
      obtain ⟨⟨left, hsplit, hleft⟩, hoffset, hposition⟩ := (r.step_read h size).run h
      obtain ⟨⟨rest, hrest, hafter⟩, hoffset', hposition'⟩ := ih (r.read size).2 hleft
      have hreturned := returned_cons (r.read size).1 ((r.read size).2.readEach sizes).1
      refine ⟨⟨rest, ?_, hafter⟩, hoffset'.trans hoffset, ?_⟩
      · rw [readEach_cons, hreturned, List.append_assoc, hrest, hsplit]
      · rw [readEach_cons, hreturned, hposition', hposition, List.length_append, Nat.add_assoc]

/-! ## Buffers -/

/-- At most `fuel` reads of up to `length` bytes until one returns nothing; `before` are the bytes
read so far. -/
def readUntilEmpty (length : Nat) : Nat → Bytes → Reader → Piece × Reader
  | 0, before, r => (.ok before, r)
  | fuel + 1, before, r =>
      match r.readOnce length with
      | (.error fault, r) => (.error fault, r)
      | (.ok [], r) => (.ok before, r)
      | (.ok (b :: bs), r) => readUntilEmpty length fuel (before ++ b :: bs) r

/-- The failure of a reader does not depend on its stream and position. -/
theorem failed_moved (fault : Fault) (r : Reader) (stream : Stream) (position : Nat) :
    failed fault { r with stream, position } = failed fault r := by
  obtain ⟨key, offset, before, source, isClosed⟩ := r
  unfold failed tell
  cases offset <;> rfl

/-- A read from a non-empty piece returns some of it, and draining what is left gives the rest. -/
theorem readPieces_cons {length : Nat} (hlength : 0 < length) (b : UInt8) (bs : Bytes)
    (rest : List Piece) :
    ∃ c cs left, Stream.readPieces length (.ok (b :: bs) :: rest) = (.ok (c :: cs), left) ∧
      (∀ before, Stream.drainPieces left (before ++ c :: cs) =
        Stream.drainPieces (.ok (b :: bs) :: rest) before) ∧
      Stream.piecesWeight left < Stream.piecesWeight (.ok (b :: bs) :: rest) := by
  obtain ⟨room, rfl⟩ := Nat.exists_eq_add_of_lt hlength
  by_cases hshort : (b :: bs).length ≤ 0 + room + 1
  · refine ⟨b, bs, rest, ?_, fun before => rfl, ?_⟩
    · simp only [Stream.readPieces, if_pos hshort]
    · simp [Stream.piecesWeight]
  · have hleft : bs.drop room ≠ [] := by
      rw [Ne, List.drop_eq_nil_iff]
      simp at hshort
      omega
    obtain ⟨d, ds, hd⟩ := List.exists_cons_of_ne_nil hleft
    refine ⟨b, bs.take room, .ok (bs.drop room) :: rest, ?_, fun before => ?_, ?_⟩
    · simp only [Stream.readPieces, if_neg hshort]
      simp
    · rw [hd]
      simp only [Stream.drainPieces]
      rw [← hd, List.append_assoc, List.cons_append, List.take_append_drop]
    · simp only [Stream.piecesWeight, List.length_cons, List.length_drop]
      omega

/-- All bytes left, after `before` was read since the position `start`. -/
def readOn (before : Bytes) (start : Nat) (r : Reader) : Piece × Reader :=
  let (piece, count, rest) := Stream.drainPieces r.stream.pieces before
  (piece.mapError r.failed,
    { r with stream := { r.stream with pieces := rest }, position := start + count })

theorem readAll_eq_readOn {r : Reader} (hopen : r.stream.isClosed = false) :
    r.readAll = r.readOn [] r.position := by
  simp only [readAll, readOn, Stream.drain, hopen, if_neg Bool.false_ne_true]
  cases (Stream.drainPieces r.stream.pieces []).1 with
  | ok bytes => rfl
  | error fault => rfl

theorem readUntilEmpty_eq_readOn {length : Nat} (hlength : 0 < length) {fuel start : Nat}
    {before : Bytes} {r : Reader} (hopen : r.stream.isClosed = false)
    (hfuel : r.stream.weight < fuel) (hposition : r.position = start + before.length) :
    r.readUntilEmpty length fuel before = r.readOn before start := by
  induction fuel generalizing before r with
  | zero => exact absurd hfuel (Nat.not_lt_zero _)
  | succ fuel ih =>
      obtain ⟨key, offset, position, ⟨pieces, closed, closeFault, block⟩, isClosed⟩ := r
      obtain rfl : closed = false := hopen
      obtain rfl : position = start + before.length := hposition
      match pieces with
      | [] => rfl
      | .error fault :: rest => rfl
      | .ok [] :: rest => rfl
      | .ok (b :: bs) :: rest =>
          obtain ⟨c, cs, left, hread, hdrain, hweight⟩ := readPieces_cons hlength b bs rest
          let r : Reader := ⟨key, offset, start + before.length,
            ⟨.ok (b :: bs) :: rest, false, closeFault, block⟩, isClosed⟩
          let moved : Reader := ⟨key, offset, start + before.length + (c :: cs).length,
            ⟨left, false, closeFault, block⟩, isClosed⟩
          have honce : r.readOnce length = (.ok (c :: cs), moved) := by
            simp only [readOnce, Stream.read, r, if_neg Bool.false_ne_true, hread]
            rfl
          have hfailed : moved.failed = r.failed :=
            funext fun fault => failed_moved fault r moved.stream moved.position
          have hmoved : moved.readUntilEmpty length fuel (before ++ c :: cs) =
              moved.readOn (before ++ c :: cs) start := by
            refine ih rfl (Nat.lt_of_lt_of_le hweight (Nat.lt_succ_iff.1 hfuel)) ?_
            rw [List.length_append]
            exact Nat.add_assoc start before.length (c :: cs).length
          show r.readUntilEmpty length (fuel + 1) before = r.readOn before start
          rw [readUntilEmpty, honce]
          show moved.readUntilEmpty length fuel (before ++ c :: cs) = _
          rw [hmoved]
          unfold readOn
          rw [hfailed, hdrain before]

/-- Reading into a buffer of any size until a read returns nothing gives all bytes left. -/
theorem readUntilEmpty_eq_readAll {length : Nat} (hlength : 0 < length) {fuel : Nat} {r : Reader}
    (hfuel : r.stream.weight < fuel) : r.readUntilEmpty length fuel [] = r.readAll := by
  cases hclosed : r.stream.isClosed with
  | false =>
      rw [readAll_eq_readOn hclosed]
      exact readUntilEmpty_eq_readOn hlength hclosed hfuel rfl
  | true =>
      obtain ⟨rounds, rfl⟩ := Nat.exists_eq_add_of_lt hfuel
      simp [readUntilEmpty, readOnce, readAll, Stream.read, Stream.drain, hclosed]

/-! ## Runs -/

theorem readEach_concat (sizes : List Int) (size : Int) (r : Reader) :
    (r.readEach (sizes ++ [size])).1 =
      (r.readEach sizes).1 ++ [((r.readEach sizes).2.read size).1] := by
  induction sizes generalizing r with
  | nil => rfl
  | cons first sizes ih => simp [readEach_cons, ih]

/-- The reader delivers `bytes`, the bytes of an object from `offset` on, for every sequence of
reads. -/
structure Delivers (r : Reader) (offset : Nat) (bytes : Bytes) : Prop where
  /-- The bytes returned are an initial segment of `bytes`: none is left out, and none comes
  twice. -/
  returned_prefix (sizes : List Int) : returned (r.readEach sizes).1 <+: bytes
  /-- The position is the offset plus the number of bytes returned. -/
  tell (sizes : List Int) : (r.readEach sizes).2.tell =
    .ok (.int (offset + (returned (r.readEach sizes).1).length))
  /-- A read whose size fits returns at most that many bytes, and none only when none are requested
  or none are left. -/
  answered (sizes : List Int) {size : Int} (hroom : HasRoom size) :
    ∃ part, ((r.readEach sizes).2.read size).1 = .ok part ∧ (0 ≤ size → part.length ≤ size) ∧
      (part = [] → size = 0 ∨ bytes.drop (returned (r.readEach sizes).1).length = [])
  /-- A read of size -1 returns all bytes left. -/
  rest (sizes : List Int) : ((r.readEach sizes).2.read (-1)).1 =
    .ok (bytes.drop (returned (r.readEach sizes).1).length)
  /-- Filling a buffer of any positive size until a read returns nothing gives the same. -/
  buffered (sizes : List Int) {length fuel : Nat} (hlength : 0 < length)
    (hfuel : (r.readEach sizes).2.stream.weight < fuel) :
    (r.readEach sizes).2.readUntilEmpty length fuel [] = (r.readEach sizes).2.read (-1)
  /-- With a final read of size -1, the bytes returned are all of `bytes`. -/
  whole (sizes : List Int) : returned (r.readEach (sizes ++ [-1])).1 = bytes

theorem drop_returned {pieces : List Piece} {left bytes : Bytes}
    (h : returned pieces ++ left = bytes) : bytes.drop (returned pieces).length = left := by
  rw [← h, List.drop_left]

theorem Step.answered {r r' : Reader} {bytes : Bytes} {size : Int} {piece : Piece}
    (h : r.Step bytes size piece r') (hroom : HasRoom size) :
    ∃ part, piece = .ok part ∧ (0 ≤ size → part.length ≤ size) ∧
      (part = [] → size = 0 ∨ bytes = []) := by
  cases h with
  | refused hsize => exact absurd hroom hsize
  | some hsize hsplit hlength hempty hleft => exact ⟨_, rfl, fun _ => hlength, hempty⟩
  | all hsize hleft => exact ⟨bytes, rfl, fun h => absurd h (Int.not_le.2 hsize), Or.inr⟩

theorem Step.eq_all {r r' : Reader} {bytes : Bytes} {piece : Piece}
    (h : r.Step bytes (-1) piece r') : piece = .ok bytes := by
  cases h with
  | refused hsize => exact absurd ⟨rfl, by decide⟩ hsize
  | some hsize => exact absurd hsize (by decide)
  | all => rfl

/-- A reader at the start of a stream delivers the bytes that the stream has left. -/
theorem delivers_start {stream : Stream} {bytes : Bytes} (h : stream.HasLeft bytes) (key : Key)
    (offset : Nat) : (start stream key (.int offset)).Delivers offset bytes := by
  generalize hr : start stream key (.int offset) = r
  have hbytes : r.stream.HasLeft bytes := by rwa [← hr]
  have hoffset : r.offset = .int offset := by rw [← hr]; rfl
  have hposition : r.position = 0 := by rw [← hr]; rfl
  have hrun (sizes : List Int) := r.run_readEach hbytes sizes
  have hrest (sizes : List Int) : ((r.readEach sizes).2.read (-1)).1 =
      .ok (bytes.drop (returned (r.readEach sizes).1).length) := by
    obtain ⟨left, hsplit, hleft⟩ := (hrun sizes).split
    rw [drop_returned hsplit]
    exact (step_read _ hleft (-1)).eq_all
  refine ⟨fun sizes => ?_, fun sizes => ?_, fun sizes size hroom => ?_, hrest,
    fun sizes length fuel hlength hfuel => ?_, fun sizes => ?_⟩
  · obtain ⟨left, hsplit, -⟩ := (hrun sizes).split
    exact ⟨left, hsplit⟩
  · rw [Reader.tell, (hrun sizes).offset, (hrun sizes).position, hoffset, hposition, Nat.zero_add]
    rfl
  · obtain ⟨left, hsplit, hleft⟩ := (hrun sizes).split
    rw [drop_returned hsplit]
    exact (step_read _ hleft size).answered hroom
  · rw [readUntilEmpty_eq_readAll hlength hfuel]
    rfl
  · obtain ⟨left, hsplit, -⟩ := (hrun sizes).split
    rw [readEach_concat, hrest, drop_returned hsplit, returned_append, returned_ok, hsplit]

end Reader

namespace Tree

variable {t : Tree} {path : Value} {key : Key}

/-- A reader opened at an offset delivers the bytes of the object from there on, for every sequence
of reads and for every way in which the store cuts the stream. In memory these are the content of
the object from the offset on, which is empty for an offset beyond its end. -/
theorem openForRead_delivers (h : t.Names path key) (offset : Nat) :
    (∀ {σ : Type} (backend : Backend σ) (s s' : σ) (stream : Stream) (bytes : Bytes),
      backend.answer (.openRange key (.int offset)) s = (.ok stream, s') → stream.HasLeft bytes →
      ∃ reader, (t.openForRead path (.int offset)).perform backend s = (some (.ok reader), s') ∧
        reader.Delivers offset bytes) ∧
    ∀ (name : String) (memory : Memory) (object : StoredObject),
      (memory.bucket name).find? key = some object →
      ∃ reader memory', (t.openForRead path (.int offset)).perform (Memory.backend name) memory =
          (some (.ok reader), memory') ∧
        Memory.Unchanged memory memory' ∧ reader.Delivers offset (object.content.drop offset) ∧
        (object.content.length ≤ offset →
          ∀ sizes, Reader.returned (reader.readEach sizes).1 = []) := by
  have hopened {σ : Type} (backend : Backend σ) (s s' : σ) (stream : Stream) (bytes : Bytes)
      (hanswer : backend.answer (.openRange key (.int offset)) s = (.ok stream, s'))
      (hleft : stream.HasLeft bytes) :
      ∃ reader, (t.openForRead path (.int offset)).perform backend s = (some (.ok reader), s') ∧
        reader.Delivers offset bytes :=
    ⟨_, openForRead_of_answer h (Int.natCast_nonneg offset) hanswer,
      Reader.delivers_start hleft key offset⟩
  refine ⟨hopened, fun name memory object hobject => ?_⟩
  have hanswer : (Memory.backend name).answer (.openRange key (.int offset)) memory =
      (.ok (.ofBody (object.body.suffix offset)), (memory.get name key).2) := by
    have hlookup : memory.lookup name key = .ok object := by
      simp [Memory.lookup, hobject]
    show ((memory.get name key).1.bind (Stream.ofBodyFrom (.int offset)), _) = _
    simp only [Memory.get, hlookup]
    rfl
  obtain ⟨reader, hopen, hdelivers⟩ := hopened _ _ _ _ _ hanswer (Stream.handsOut_ofBody _).hasLeft
  rw [object.bytes_suffix] at hdelivers
  refine ⟨reader, _, hopen, ⟨rfl, rfl, rfl⟩, hdelivers, fun hend sizes => ?_⟩
  have hprefix := hdelivers.returned_prefix sizes
  rwa [List.drop_eq_nil_of_le hend, List.prefix_nil] at hprefix

/-- Six bytes read from the third on, by a store that gives one byte at each read and by one that
gives all at once. -/
theorem openForRead_delivers_cut :
    keyByKey.Names "/f" "f" ∧
    (∃ reader memory, (keyByKey.openForRead "/f" (.int (2 : Nat))).perform (Memory.byteByByte "b")
        Mount.sixBytes = (some (.ok reader), memory) ∧ reader.Delivers 2 [3, 4, 5, 6]) ∧
    ∃ reader memory, (keyByKey.openForRead "/f" (.int (2 : Nat))).perform (Memory.backend "b")
        Mount.sixBytes = (some (.ok reader), memory) ∧ reader.Delivers 2 [3, 4, 5, 6] := by
  have hnames : keyByKey.Names "/f" "f" := ⟨rfl, by decide⟩
  have hanswer : (Memory.byteByByte "b").answer (.openRange "f" (.int (2 : Nat))) Mount.sixBytes =
      (.ok (.oneByOne ⟨[3, 4, 5, 6], none⟩), (Mount.sixBytes.get "b" "f").2) := rfl
  obtain ⟨hcut, hmemory⟩ := openForRead_delivers hnames 2
  refine ⟨hnames, ?_, ?_⟩
  · obtain ⟨reader, hopen, hdelivers⟩ :=
      hcut _ _ _ _ _ hanswer (Stream.handsOut_oneByOne ⟨[3, 4, 5, 6], none⟩).hasLeft
    exact ⟨reader, _, hopen, hdelivers⟩
  · obtain ⟨reader, memory, hopen, -, hdelivers, -⟩ := hmemory "b" Mount.sixBytes _ rfl
    exact ⟨reader, memory, hopen, hdelivers⟩

end Tree

end BucketTree
