import BucketTree.Content.Sparse
import BucketTree.Number.Word

/-!
# Spooled buffers

A `Spool` buffers bytes in memory until its size exceeds a limit, and on disk from then on. It reads
and writes at a position. Both places behave alike for valid positions and sizes. They differ in
what they refuse, and only a buffer on disk grows when it is truncated to a larger size.

A buffer in memory lies in a block with some room to grow. When the content fills the block, an
upload hands over the block, and the buffer shares it with the stored object from then on. A block
that is too small, or that has other holders, is replaced by a larger one before it is changed.

A buffer can fail. If memory has no room for a larger block, the old block is lost with its content,
unless it has other holders, and the buffer counts as closed. A buffer that failed to move to disk
is stranded: its place is a file, and it can neither return to memory nor move again. A file buffers
data before it saves them, so it accepts data behind the end of the largest file; after that only
its position can be read.
-/

set_option autoImplicit false

namespace BucketTree

/-- The place of the content of a buffer. -/
inductive SpoolPlace where
  /-- In memory: the size of the block there, and its number if it has other holders. -/
  | memory (room : Nat) (shared : Option BlockNumber)
  /-- On disk, stranded or not. The data that cannot be saved have `pending` bytes. -/
  | file (isStranded : Bool) (pending : Nat)
deriving DecidableEq, Repr

/-- A buffer of bytes with a position. -/
structure Spool where
  content : Sparse
  position : Nat
  /-- The buffer moves to disk when it grows over this size; zero stands for no limit on
  writes. -/
  maxSize : Int
  place : SpoolPlace
  isOpen : Bool

namespace SpoolPlace

/-- The size of a block after it is fitted to a new size. A small growth reserves extra room. -/
def fittedRoom (size room : Nat) : Nat :=
  if size < room / 2 then size + 1
  else if size < room then room
  else if 8 * size ≤ 9 * room then size + size / 8 + (if size < 9 then 3 else 6)
  else size + 1

/-- The place after a buffer of `size` bytes was written to up to `reach`. -/
def written (size reach : Nat) : SpoolPlace → SpoolPlace
  | .memory room shared =>
      if room < reach then .memory (fittedRoom reach room) none
      else if shared.isSome then .memory (max reach size) none
      else .memory room none
  | .file isStranded pending => .file isStranded pending

/-- The place after a buffer of `size` bytes was cut to a smaller size. -/
def cut (size smaller : Nat) : SpoolPlace → SpoolPlace
  | .memory room shared =>
      if smaller < size && smaller < room / 2 then .memory (fittedRoom smaller room) none
      else .memory room shared
  | .file isStranded pending => .file isStranded pending

/-- Tells whether the place is a file. -/
def isFile : SpoolPlace → Bool
  | .memory _ _ => false
  | .file _ _ => true

/-- Tells whether the place is that of a buffer without failures. -/
def isSound : SpoolPlace → Bool
  | .memory _ _ => true
  | .file isStranded pending => !isStranded && pending == 0

/-- A write keeps a sound place sound. -/
theorem isSound_written (place : SpoolPlace) (size reach : Nat) :
    (place.written size reach).isSound = place.isSound := by
  cases place with
  | memory room shared =>
      simp only [written]
      split
      · rfl
      · split <;> rfl
  | file isStranded pending => rfl

/-- A cut keeps a sound place sound. -/
theorem isSound_cut (place : SpoolPlace) (size smaller : Nat) :
    (place.cut size smaller).isSound = place.isSound := by
  cases place with
  | memory room shared =>
      simp only [cut]
      split <;> rfl
  | file isStranded pending => rfl

/-- A cut does not change whether the place is a file. -/
theorem isFile_cut (place : SpoolPlace) (size smaller : Nat) :
    (place.cut size smaller).isFile = place.isFile := by
  cases place with
  | memory room shared =>
      simp only [cut]
      split <;> rfl
  | file isStranded pending => rfl

end SpoolPlace

namespace Spool

/-- An empty buffer. -/
def empty (maxSize : Int) : Spool := ⟨.empty, 0, maxSize, .memory 0 none, true⟩

/-- The buffered bytes. -/
def bytes (s : Spool) : Bytes := s.content.bytes

/-- The number of buffered bytes. -/
def size (s : Spool) : Nat := s.content.length

/-- Tells whether the buffer is a file. -/
def onDisk (s : Spool) : Bool := s.place.isFile

/-- Tells whether the buffer is a file with data that cannot be saved. -/
def isStuck (s : Spool) : Bool :=
  match s.place with
  | .memory _ _ => false
  | .file _ pending => pending != 0

/-- The misuse of a closed buffer. -/
def closedUse (use : FileUse) (s : Spool) : Misuse :=
  if s.onDisk then .closedFile use else .closedStream

/-- Closes the buffer, for good unless it is to move to disk. Data that cannot be saved are
reported then. -/
def close (s : Spool) : Except Misuse Unit × Spool :=
  (if s.isOpen && s.isStuck then .error .fileTooLarge else .ok (), { s with isOpen := false })

/-! ## Blocks of memory -/

/-- The block of the buffer, if it has other holders. -/
def sharedBlock? (s : Spool) : Option BlockNumber :=
  match s.place with
  | .memory _ shared => shared
  | .file _ _ => none

/-- Tells whether the buffer is in memory with a block that has other holders. The empty block has
some, since all empty buffers start with it. -/
def isShared (s : Spool) : Bool :=
  match s.place with
  | .memory room shared => room == 0 || shared.isSome
  | .file _ _ => false

/-- Tells whether the content fills its block, so that an upload hands over the block. Blocks of one
byte are too small for that. -/
def isFull (s : Spool) : Bool :=
  match s.place with
  | .memory room _ => 1 < s.size && s.size == room
  | .file _ _ => false

/-- The block that an upload sends, if it has other holders already. -/
def sentBlock? (s : Spool) : Option BlockNumber := if s.isFull then s.sharedBlock? else none

/-- The buffer after its content was stored in a block. -/
def stored (block : Option BlockNumber) (s : Spool) : Spool :=
  match s.place, block with
  | .memory room _, some number =>
      if s.isFull then { s with place := .memory room (some number) } else s
  | _, _ => s

/-- The buffer after all other holders of its block are gone. -/
def unshared (s : Spool) : Spool :=
  match s.place with
  | .memory room _ => { s with place := .memory room none }
  | .file _ _ => s

/-- Storing the content in a block does not change the bytes. -/
@[simp]
theorem bytes_stored (block : Option BlockNumber) (s : Spool) :
    (s.stored block).bytes = s.bytes := by
  unfold stored
  split
  · split <;> rfl
  · rfl

@[simp]
theorem bytes_unshared (s : Spool) : s.unshared.bytes = s.bytes := by
  unfold unshared
  split <;> rfl

/-! ## Position -/

/-- The position of an open buffer. -/
def tell (s : Spool) : Except Misuse Nat :=
  if s.isOpen then .ok s.position else .error (s.closedUse .tell)

/-- The misuse of seeking to a position that the buffer cannot have. -/
def seekRefusal? (position : Int) (s : Spool) : Option Misuse :=
  if s.onDisk then
    if !s.isOpen then some (.closedFile .seek)
    else if !Word.fits position then some (.outOfRange .offset)
    else if s.isStuck then some .fileTooLarge
    else if position < 0 || Word.diskLimit < position then some .invalidArgument
    else none
  else if !Word.fits position then some (.outOfRange .position)
  else if !s.isOpen then some .closedStream
  else if position < 0 then some (.negativeSeek position)
  else none

/-- Seeks to a position from the start. -/
def seek (position : Int) (s : Spool) : Except Misuse Spool :=
  match s.seekRefusal? position with
  | some misuse => .error misuse
  | none => .ok { s with position := position.toNat }

/-- The buffer with its position after the last byte. -/
def atEnd (s : Spool) : Spool := { s with position := s.size }

/-- Seeks an open buffer to its end. -/
def seekEnd (s : Spool) : Except Misuse Spool :=
  if s.isStuck then .error .fileTooLarge else .ok s.atEnd

/-- The size, computed by seeking to the end and back. -/
def measure (s : Spool) : Except Misuse Nat := do
  discard s.tell
  return (← s.seekEnd).position

/-! ## Moving to disk -/

/-- Moves a buffer in memory to disk. -/
def moveToDisk (s : Spool) : Except Misuse Unit × Spool :=
  match s.place with
  | .file isStranded _ => (if isStranded then .error .cannotMove else .ok (), s)
  | .memory _ _ =>
      if !s.isOpen then
        (.error .closedStream,
          { s with content := .empty, position := 0, place := .file true 0, isOpen := true })
      else if Word.diskLimit < s.position then
        (.error .invalidArgument, { s.atEnd with place := .file true 0 })
      else (.ok (), { s with place := .file false 0 })

/-- Moves the buffer to disk if its position is over the limit. -/
def settle (s : Spool) : Except Misuse Unit × Spool :=
  if s.maxSize != 0 && s.maxSize < s.position then s.moveToDisk else (.ok (), s)

/-! ## Writing -/

/-- The overhead of a bytes object over its content. -/
def textOverhead : Int := 33

/-- The buffer after an allocation failed. -/
def withoutRoom (s : Spool) : Spool := if s.isShared then s else { s with isOpen := false }

/-- The misuse of a write up to a position for which memory has no room, and the buffer after it. -/
def memoryRefusal? (reach : Int) (s : Spool) : Option (Misuse × Spool) :=
  if Word.bound ≤ reach then some (.bufferTooLong, s)
  else if Word.bound ≤ reach + 1 then some (.roomTooLong s.isShared, s.withoutRoom)
  else if s.isShared && Word.bound ≤ reach + 1 + textOverhead then some (.tooLong, s)
  else if Word.memoryLimit ≤ reach then some (.outOfMemory, s.withoutRoom)
  else none

/-- The buffer with data at its position, and its position after the data. -/
def withData (data : Bytes) (s : Spool) : Spool :=
  { s with
    content := s.content.overlay s.position data
    position := s.position + data.length
    place := s.place.written s.size (s.position + data.length) }

/-- The number of bytes that a file buffers before it saves them. -/
def pendingLimit : Nat := 4096

/-- The file with buffered data that cannot be saved. -/
def withPending (count pending : Nat) (s : Spool) : Spool :=
  { s with
    position := s.position + count
    place := match s.place with
      | .memory room shared => .memory room shared
      | .file isStranded _ => .file isStranded pending }

/-- Writes data to a file after the end of the largest possible file. A short write is buffered
first; a long write saves at once what the file has room for. -/
def writeBehind (data : Bytes) (s : Spool) : Except Misuse Unit × Spool :=
  let saved := if data.length ≤ pendingLimit then 0 else Word.diskLimit.toNat - s.position
  let rest := data.length - saved
  if rest ≤ pendingLimit then (.ok (), s.withPending data.length rest)
  else (.error .fileTooLarge, s.withData (data.take saved))

/-- Writes to a file with data that cannot be saved: more data is buffered while there is room. -/
def writeStuck (data : Bytes) (pending : Nat) (s : Spool) : Except Misuse Unit × Spool :=
  if pending + data.length ≤ pendingLimit then
    (.ok (), s.withPending data.length (pending + data.length))
  else (.error .fileTooLarge, s)

/-- Writes data at the place of the buffer. -/
def writeInPlace (data : Bytes) (s : Spool) : Except Misuse Unit × Spool :=
  match s.place with
  | .memory _ _ =>
      match s.memoryRefusal? (s.position + data.length) with
      | some (misuse, s) => (.error misuse, s)
      | none => (.ok (), s.withData data)
  | .file _ pending =>
      if pending != 0 then s.writeStuck data pending
      else if Word.diskLimit < s.position + data.length then s.writeBehind data
      else (.ok (), s.withData data)

/-- Writes at the position. An empty write may still move the buffer to disk. -/
def write (data : Bytes) (s : Spool) : Except Misuse Unit × Spool :=
  if !s.isOpen then (.error (s.closedUse .write), s)
  else if data.isEmpty then s.settle
  else
    match s.writeInPlace data with
    | (.error misuse, s) => (.error misuse, s)
    | (.ok (), s) => s.settle

/-! ## Reading and truncation -/

/-- The misuse of a read that is refused. A file allocates the whole length first. -/
def readRefusal? (length : Int) (s : Spool) : Option Misuse :=
  if !Word.fits length then some (.outOfRange .count)
  else if !s.isOpen then some (s.closedUse .read)
  else if !s.onDisk then none
  else if length < -1 then some .readLength
  else if Word.bound ≤ length + textOverhead then some .tooLong
  else if Word.memoryLimit ≤ (if length < 0 then (s.size - s.position : Int) else length) then
    some .outOfMemory
  else if s.isStuck then some .fileTooLarge
  else none

/-- The bytes from the position on, at most `length` of them. A negative length means no limit. -/
def read (length : Int) (s : Spool) : Except Misuse (Bytes × Spool) :=
  match s.readRefusal? length with
  | some misuse => .error misuse
  | none =>
      let rest := s.content.drop s.position
      let data := (if length < 0 then rest else rest.take length.toNat).bytes
      .ok (data, { s with position := s.position + data.length })

/-- The misuse of truncating a file to a size. -/
def fileSizeRefusal? (size : Int) (s : Spool) : Option Misuse :=
  if !s.isOpen then some (.closedFile .truncate)
  else if s.isStuck then some .fileTooLarge
  else if !Word.fits size then some (.outOfRange .fileSize)
  else if size < 0 then some .invalidArgument
  else if Word.diskLimit < size then some .fileTooLarge
  else none

/-- The misuse of truncating a buffer in memory to a size. -/
def memorySizeRefusal? (size : Int) (s : Spool) : Option Misuse :=
  if !Word.fits size then some (.outOfRange .count)
  else if !s.isOpen then some .closedStream
  else if size < 0 then some (.negativeSize size)
  else none

/-- The buffer in memory cut to a size. -/
def cutTo (size : Nat) (s : Spool) : Spool :=
  { s with content := s.content.take size, place := s.place.cut s.size size }

/-- Truncates to a size. A size over the limit moves the buffer to disk first, even if the size is
refused after that. -/
def truncate (size : Int) (s : Spool) : Except Misuse Unit × Spool :=
  match if s.maxSize < size then s.moveToDisk else (.ok (), s) with
  | (.error misuse, s) => (.error misuse, s)
  | (.ok (), s) =>
      if s.onDisk then
        match s.fileSizeRefusal? size with
        | some misuse => (.error misuse, s)
        | none => (.ok (), { s with content := s.content.resize size.toNat })
      else
        match s.memorySizeRefusal? size with
        | some misuse => (.error misuse, s)
        | none => (.ok (), s.cutTo size.toNat)

/-! ## A buffer in good order

As long as there is room, an open buffer does as a list of bytes does, wherever it is. -/

/-- The buffer is open and has not failed. -/
structure InOrder (s : Spool) : Prop where
  isOpen : s.isOpen = true
  isSound : s.place.isSound = true

theorem inOrder_empty (maxSize : Int) : (empty maxSize).InOrder := ⟨rfl, rfl⟩

theorem inOrder_atEnd {s : Spool} (h : s.InOrder) : s.atEnd.InOrder := ⟨h.1, h.2⟩

theorem not_isStuck_of_inOrder {s : Spool} (h : s.InOrder) : s.isStuck = false := by
  obtain ⟨content, position, maxSize, place, isOpen⟩ := s
  have hsound : place.isSound = true := h.isSound
  cases place with
  | memory room shared => rfl
  | file isStranded pending =>
      simp only [SpoolPlace.isSound, Bool.and_eq_true, beq_iff_eq] at hsound
      simp [isStuck, hsound.2]

theorem seekEnd_of_inOrder {s : Spool} (h : s.InOrder) : s.seekEnd = .ok s.atEnd := by
  unfold seekEnd
  rw [not_isStuck_of_inOrder h]
  rfl

/-- The size of a sound buffer is its number of bytes. -/
theorem measure_of_inOrder {s : Spool} (h : s.InOrder) : s.measure = .ok s.size := by
  unfold measure tell
  rw [h.isOpen, seekEnd_of_inOrder h]
  rfl

/-- A buffer with a position that a file can have moves to disk with all its content, if it
moves. -/
theorem moveToDisk_of_inOrder {s : Spool} (h : s.InOrder)
    (hfile : (s.position : Int) ≤ Word.diskLimit) :
    s.moveToDisk = (.ok (), { s with place := .file false 0 }) := by
  obtain ⟨content, position, maxSize, place, isOpen⟩ := s
  have hopen : isOpen = true := h.isOpen
  have hsound : place.isSound = true := h.isSound
  have hfile : ¬ Word.diskLimit < (position : Int) := by simpa using hfile
  cases place with
  | memory room shared => simp [moveToDisk, hopen, hfile]
  | file isStranded pending =>
      simp only [SpoolPlace.isSound, Bool.and_eq_true, Bool.not_eq_true', beq_iff_eq] at hsound
      obtain ⟨rfl, rfl⟩ := hsound
      rfl

theorem settle_of_inOrder {s : Spool} (h : s.InOrder)
    (hfile : (s.position : Int) ≤ Word.diskLimit) :
    ∃ place : SpoolPlace,
      place.isSound = true ∧ s.settle = (.ok (), { s with place := place }) := by
  unfold settle
  split
  · exact ⟨.file false 0, rfl, moveToDisk_of_inOrder h hfile⟩
  · exact ⟨s.place, h.isSound, rfl⟩

/-- A write that ends below the memory limit is not refused. -/
theorem memoryRefusal?_of_room {reach : Int} (s : Spool) (hroom : reach < Word.memoryLimit) :
    s.memoryRefusal? reach = none := by
  unfold Word.memoryLimit at hroom
  unfold memoryRefusal? Word.bound textOverhead Word.memoryLimit
  have h₁ : ¬ (9223372036854775808 : Int) ≤ reach := by omega
  have h₂ : ¬ (9223372036854775808 : Int) ≤ reach + 1 := by omega
  have h₃ : ¬ (9223372036854775808 : Int) ≤ reach + 1 + 33 := by omega
  have h₄ : ¬ (34359738368 : Int) ≤ reach := by omega
  simp [h₁, h₂, h₃, h₄]

theorem writeInPlace_of_room {s : Spool} {data : Bytes} (h : s.InOrder)
    (hroom : (s.position : Int) + data.length < Word.memoryLimit) :
    s.writeInPlace data = (.ok (), s.withData data) := by
  have hrefusal := memoryRefusal?_of_room s hroom
  have hfile : ¬ Word.diskLimit < (s.position : Int) + data.length := by
    unfold Word.memoryLimit at hroom
    unfold Word.diskLimit
    omega
  have hsound := h.isSound
  unfold writeInPlace
  split
  · rw [hrefusal]
  · next isStranded pending hplace =>
      rw [hplace] at hsound
      simp only [SpoolPlace.isSound, Bool.and_eq_true, beq_iff_eq] at hsound
      simp [hsound.2, hfile]

/-- A write below the memory limit overlays the bytes at the position. -/
theorem write_of_room {s : Spool} {data : Bytes} (h : s.InOrder)
    (hroom : (s.position : Int) + data.length < Word.memoryLimit) :
    ∃ s', s.write data = (.ok (), s') ∧ s'.InOrder ∧
      s'.bytes = s.bytes.overlay s.position data ∧ s'.position = s.position + data.length := by
  by_cases hempty : data = []
  · subst hempty
    have hfile : (s.position : Int) ≤ Word.diskLimit := by
      simp only [Word.diskLimit]
      simp only [Word.memoryLimit, List.length_nil] at hroom
      omega
    obtain ⟨place, hplace, hsettle⟩ := settle_of_inOrder h hfile
    refine ⟨{ s with place := place }, ?_, ⟨h.isOpen, hplace⟩, rfl, rfl⟩
    unfold write
    rw [h.isOpen] at hsettle ⊢
    simpa using hsettle
  · have hfile : ((s.withData data).position : Int) ≤ Word.diskLimit := by
      simp only [withData, Word.diskLimit]
      simp only [Word.memoryLimit] at hroom
      omega
    have hdata : (s.withData data).InOrder :=
      ⟨h.isOpen, (SpoolPlace.isSound_written _ _ _).trans h.isSound⟩
    obtain ⟨place, hplace, hsettle⟩ := settle_of_inOrder hdata hfile
    refine ⟨{ s.withData data with place := place }, ?_, ⟨h.isOpen, hplace⟩, ?_, rfl⟩
    · unfold write
      rw [h.isOpen, writeInPlace_of_room h hroom]
      simpa [hempty] using hsettle
    · exact Sparse.bytes_overlay s.content s.position data

/-- A seek to a position that a file can have succeeds. -/
theorem seek_of_room {s : Spool} {position : Nat} (h : s.InOrder)
    (hfile : (position : Int) ≤ Word.diskLimit) :
    s.seek position = .ok { s with position := position } := by
  have hfits : Word.fits position = true := by
    rw [Word.fits_iff]
    simp only [Word.diskLimit] at hfile
    simp only [Word.bound]
    omega
  have hnone : s.seekRefusal? position = none := by
    unfold seekRefusal?
    have hfile : ¬ Word.diskLimit < (position : Int) := by simpa using hfile
    have hnat : ¬ (position : Int) < 0 := by omega
    simp [h.isOpen, hfits, hfile, hnat, not_isStuck_of_inOrder h]
  unfold seek
  rw [hnone]
  rfl

/-- A read that is not refused returns the bytes at the position. -/
theorem read_of_readRefusal?_eq_none {s : Spool} {length : Int}
    (h : s.readRefusal? length = none) :
    s.read length =
      let rest := s.content.drop s.position
      let data := (if length < 0 then rest else rest.take length.toNat).bytes
      .ok (data, { s with position := s.position + data.length }) := by
  unfold read
  rw [h]

theorem readRefusal?_of_room {s : Spool} {length : Int} (h : s.InOrder) (hnonneg : 0 ≤ length)
    (hroom : length < Word.memoryLimit) : s.readRefusal? length = none := by
  unfold readRefusal? Word.fits Word.bound textOverhead
  unfold Word.memoryLimit at hroom ⊢
  have h₁ : (-9223372036854775808 : Int) ≤ length := by omega
  have h₂ : length < (9223372036854775808 : Int) := by omega
  have h₃ : ¬ length < (-1 : Int) := by omega
  have h₄ : ¬ (9223372036854775808 : Int) ≤ length + 33 := by omega
  have h₅ : ¬ length < (0 : Int) := by omega
  have h₆ : ¬ (34359738368 : Int) ≤ length := by omega
  simp [h.isOpen, h₁, h₂, h₃, h₄, h₅, h₆, not_isStuck_of_inOrder h]

/-- A read below the memory limit returns the bytes at the position. -/
theorem read_of_room {s : Spool} {length : Nat} (h : s.InOrder)
    (hroom : (length : Int) < Word.memoryLimit) :
    s.read length = .ok ((s.bytes.drop s.position).take length,
      { s with position := s.position + ((s.bytes.drop s.position).take length).length }) := by
  have hnat : ¬ (length : Int) < 0 := by omega
  rw [read_of_readRefusal?_eq_none (readRefusal?_of_room h (by omega) hroom)]
  simp [bytes, hnat]

theorem fileSizeRefusal?_of_room {s : Spool} {size : Int} (h : s.InOrder)
    (hnonneg : 0 ≤ size) (hfile : size ≤ Word.diskLimit) : s.fileSizeRefusal? size = none := by
  unfold fileSizeRefusal? Word.fits Word.bound
  unfold Word.diskLimit at hfile ⊢
  have h₁ : (-9223372036854775808 : Int) ≤ size := by omega
  have h₂ : size < (9223372036854775808 : Int) := by omega
  have h₃ : ¬ size < (0 : Int) := by omega
  have h₄ : ¬ (17592186040320 : Int) < size := by omega
  simp [h.isOpen, h₁, h₂, h₃, h₄, not_isStuck_of_inOrder h]

theorem memorySizeRefusal?_of_room {s : Spool} {size : Int} (hopen : s.isOpen = true)
    (hnonneg : 0 ≤ size) (hfile : size ≤ Word.diskLimit) :
    s.memorySizeRefusal? size = none := by
  unfold memorySizeRefusal? Word.fits Word.bound
  unfold Word.diskLimit at hfile
  have h₁ : (-9223372036854775808 : Int) ≤ size := by omega
  have h₂ : size < (9223372036854775808 : Int) := by omega
  have h₃ : ¬ size < (0 : Int) := by omega
  simp [hopen, h₁, h₂, h₃]

/-- A truncation keeps the first bytes. A size beyond the old one extends the content on disk
only. -/
theorem truncate_of_room {s : Spool} {size : Int} (h : s.InOrder)
    (hposition : (s.position : Int) ≤ Word.diskLimit) (hnonneg : 0 ≤ size)
    (hfile : size ≤ Word.diskLimit) :
    ∃ s', s.truncate size = (.ok (), s') ∧ s'.InOrder ∧
      s'.bytes =
        if s'.onDisk then s.bytes.resize size.toNat else s.bytes.take size.toNat := by
  have hmove : ∃ place : SpoolPlace, place.isSound = true ∧
      (if s.maxSize < size then s.moveToDisk else (.ok (), s)) =
        (.ok (), { s with place := place }) := by
    split
    · exact ⟨.file false 0, rfl, moveToDisk_of_inOrder h hposition⟩
    · exact ⟨s.place, h.isSound, rfl⟩
  obtain ⟨place, hplace, hmove⟩ := hmove
  have hmoved : ({ s with place := place } : Spool).InOrder := ⟨h.isOpen, hplace⟩
  unfold truncate
  rw [hmove]
  simp only [fileSizeRefusal?_of_room hmoved hnonneg hfile,
    memorySizeRefusal?_of_room hmoved.isOpen hnonneg hfile]
  by_cases hdisk : ({ s with place := place } : Spool).onDisk = true
  · rw [if_pos hdisk]
    exact ⟨_, rfl, ⟨h.isOpen, hplace⟩,
      (Sparse.bytes_resize s.content size.toNat).trans (if_pos hdisk).symm⟩
  · have hcut : ¬ (({ s with place := place } : Spool).cutTo size.toNat).onDisk = true := by
      have hfile := SpoolPlace.isFile_cut place s.size size.toNat
      exact fun hcut => hdisk (hfile.symm.trans hcut)
    rw [if_neg hdisk]
    refine ⟨_, rfl, ⟨h.isOpen, (SpoolPlace.isSound_cut _ _ _).trans hplace⟩, ?_⟩
    rw [if_neg hcut]
    exact Sparse.bytes_take size.toNat s.content

end Spool

end BucketTree
