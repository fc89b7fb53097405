import BucketTree.Content.Stream

/-!
# Sparse contents

A `Sparse` represents a content with long runs of zeros stored by their length, so that a file with
a gap takes no more room than its data. `Sparse.bytes` is the content itself. Overlaying and
resizing are defined on bytes first (`Bytes.overlay`, `Bytes.resize`); `bytes_overlay` and
`bytes_resize` state that the operations on a sparse content agree with them.
-/

set_option autoImplicit false

namespace BucketTree

namespace Bytes

/-- The bytes `data` laid over `content` from `offset` on, with zeros in a gap before it. No data
changes nothing. -/
def overlay (content : Bytes) (offset : Nat) (data : Bytes) : Bytes :=
  if data.isEmpty then content
  else
    content.take offset ++ List.replicate (offset - content.length) 0 ++ data ++
      content.drop (offset + data.length)

/-- The bytes `content` cut or extended with zeros to `size` bytes. -/
def resize (content : Bytes) (size : Nat) : Bytes :=
  content.take size ++ List.replicate (size - content.length) 0

/-- The length is the larger one of the old length and the end of the data. -/
theorem length_overlay (content : Bytes) (offset : Nat) (data : Bytes) :
    (overlay content offset data).length =
      if data = [] then content.length else max content.length (offset + data.length) := by
  cases data with
  | nil => rfl
  | cons b bs =>
      simp [overlay]
      omega

/-- Data at the end of the content is appended. -/
theorem overlay_length (content data : Bytes) :
    overlay content content.length data = content ++ data := by
  cases data with
  | nil => simp [overlay]
  | cons b bs => simp [overlay]

theorem length_resize (content : Bytes) (size : Nat) : (resize content size).length = size := by
  simp [resize]
  omega

end Bytes

/-- A part of a content: bytes, or a run of zeros. -/
inductive Extent where
  /-- The given bytes. -/
  | data (bytes : Bytes)
  /-- A run of zeros. -/
  | zeros (count : Nat)

namespace Extent

/-- The bytes of a part. -/
def bytes : Extent → Bytes
  | .data bytes => bytes
  | .zeros count => List.replicate count 0

/-- The number of bytes of a part. -/
def size : Extent → Nat
  | .data bytes => bytes.length
  | .zeros count => count

/-- The first bytes of a part, at most `n`. -/
def take (n : Nat) : Extent → Extent
  | .data bytes => .data (bytes.take n)
  | .zeros count => .zeros (min n count)

/-- A part without its first `n` bytes. -/
def drop (n : Nat) : Extent → Extent
  | .data bytes => .data (bytes.drop n)
  | .zeros count => .zeros (count - n)

theorem length_bytes (e : Extent) : e.bytes.length = e.size := by
  cases e with
  | data bytes => rfl
  | zeros count => exact List.length_replicate

theorem bytes_take (n : Nat) (e : Extent) : (e.take n).bytes = e.bytes.take n := by
  cases e with
  | data bytes => rfl
  | zeros count => exact List.take_replicate.symm

theorem bytes_drop (n : Nat) (e : Extent) : (e.drop n).bytes = e.bytes.drop n := by
  cases e with
  | data bytes => rfl
  | zeros count => exact List.drop_replicate.symm

end Extent

/-- A content as a list of parts. -/
structure Sparse where
  extents : List Extent

namespace Sparse

/-- The concatenated bytes of the parts. -/
def flatten : List Extent → Bytes
  | [] => []
  | e :: rest => e.bytes ++ flatten rest

/-- The number of bytes in the parts. -/
def total : List Extent → Nat
  | [] => 0
  | e :: rest => e.size + total rest

/-- The parts that hold the first `n` bytes. -/
def takeExtents (n : Nat) : List Extent → List Extent
  | [] => []
  | e :: rest => if n ≤ e.size then [e.take n] else e :: takeExtents (n - e.size) rest

/-- The parts without their first `n` bytes. -/
def dropExtents (n : Nat) : List Extent → List Extent
  | [] => []
  | e :: rest => if n < e.size then e.drop n :: rest else dropExtents (n - e.size) rest

/-- The content as bytes. -/
def bytes (s : Sparse) : Bytes := flatten s.extents

/-- The number of bytes. -/
def length (s : Sparse) : Nat := total s.extents

/-- No bytes. -/
def empty : Sparse := ⟨[]⟩

/-- The content with the given bytes. -/
def ofBytes (bytes : Bytes) : Sparse := ⟨[.data bytes]⟩

/-- A run of zeros. -/
def zeros (count : Nat) : Sparse := ⟨[.zeros count]⟩

/-- One content after another. -/
def append (s t : Sparse) : Sparse := ⟨s.extents ++ t.extents⟩

/-- The first `n` bytes. -/
def take (n : Nat) (s : Sparse) : Sparse := ⟨takeExtents n s.extents⟩

/-- All but the first `n` bytes. -/
def drop (n : Nat) (s : Sparse) : Sparse := ⟨dropExtents n s.extents⟩

/-- Data laid over the content from an offset on; see `Bytes.overlay`. -/
def overlay (s : Sparse) (offset : Nat) (data : Bytes) : Sparse :=
  if data.isEmpty then s
  else
    (s.take offset).append <| (zeros (offset - s.length)).append <|
      (ofBytes data).append (s.drop (offset + data.length))

/-- The content cut or extended to a size; see `Bytes.resize`. -/
def resize (s : Sparse) (size : Nat) : Sparse :=
  (s.take size).append (zeros (size - s.length))

theorem flatten_append (es fs : List Extent) :
    flatten (es ++ fs) = flatten es ++ flatten fs := by
  induction es with
  | nil => rfl
  | cons e rest ih => simp [flatten, ih]

theorem length_flatten (es : List Extent) : (flatten es).length = total es := by
  induction es with
  | nil => rfl
  | cons e rest ih => simp [flatten, total, e.length_bytes, ih]

theorem flatten_takeExtents (n : Nat) (es : List Extent) :
    flatten (takeExtents n es) = (flatten es).take n := by
  induction es generalizing n with
  | nil => simp [takeExtents, flatten]
  | cons e rest ih =>
      have he := e.length_bytes
      by_cases h : n ≤ e.size
      · simp [takeExtents, h, flatten, e.bytes_take, List.take_append, he, Nat.sub_eq_zero_of_le h]
      · have hall : e.bytes.take n = e.bytes := List.take_of_length_le (by omega)
        simp [takeExtents, h, flatten, ih, List.take_append, he, hall]

theorem flatten_dropExtents (n : Nat) (es : List Extent) :
    flatten (dropExtents n es) = (flatten es).drop n := by
  induction es generalizing n with
  | nil => simp [dropExtents, flatten]
  | cons e rest ih =>
      have he := e.length_bytes
      by_cases h : n < e.size
      · have hle : n - e.size = 0 := by omega
        simp [dropExtents, h, flatten, e.bytes_drop, List.drop_append, he, hle]
      · have hnone : e.bytes.drop n = [] := List.drop_eq_nil_of_le (by omega)
        simp [dropExtents, h, flatten, ih, List.drop_append, he, hnone]

/-! ## The bytes after each operation -/

@[simp]
theorem bytes_empty : empty.bytes = [] := rfl

@[simp]
theorem bytes_ofBytes (bytes : Bytes) : (ofBytes bytes).bytes = bytes := List.append_nil bytes

@[simp]
theorem bytes_zeros (count : Nat) : (zeros count).bytes = List.replicate count 0 :=
  List.append_nil _

@[simp]
theorem bytes_append (s t : Sparse) : (s.append t).bytes = s.bytes ++ t.bytes :=
  flatten_append s.extents t.extents

/-- The length of the bytes is the sum of the sizes of the parts. -/
@[simp]
theorem length_bytes (s : Sparse) : s.bytes.length = s.length := length_flatten s.extents

@[simp]
theorem bytes_take (n : Nat) (s : Sparse) : (s.take n).bytes = s.bytes.take n :=
  flatten_takeExtents n s.extents

@[simp]
theorem bytes_drop (n : Nat) (s : Sparse) : (s.drop n).bytes = s.bytes.drop n :=
  flatten_dropExtents n s.extents

/-- Overlaying the parts overlays the bytes. -/
theorem bytes_overlay (s : Sparse) (offset : Nat) (data : Bytes) :
    (s.overlay offset data).bytes = s.bytes.overlay offset data := by
  unfold overlay Bytes.overlay
  split
  · rfl
  · simp

/-- Resizing the parts resizes the bytes. -/
theorem bytes_resize (s : Sparse) (size : Nat) :
    (s.resize size).bytes = s.bytes.resize size := by
  unfold resize Bytes.resize
  simp

end Sparse

end BucketTree
