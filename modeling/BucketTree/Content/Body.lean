/-!
# Bodies

The content of an object is a list of bytes. A store keeps it as a `Body`, the bytes together with
their block of memory. A block can have several holders: a copy of an object shares the block of the
object, a read of a whole object shares it too, and the upload of a full buffer shares the block of
the buffer.
-/

set_option autoImplicit false

namespace BucketTree

/-- The content of an object. -/
abbrev Bytes := List UInt8

/-- The number that identifies a block of memory. -/
abbrev BlockNumber := Nat

/-- Bytes in memory. -/
structure Body where
  bytes : Bytes
  /-- The block of the bytes, if it can have other holders. -/
  block : Option BlockNumber

namespace Body

/-- Bytes in a block of their own. -/
def fresh (bytes : Bytes) : Body := ⟨bytes, none⟩

/-- The bytes from an offset on. A negative offset counts from the end. Only the whole content stays
in its block. -/
def suffix (offset : Int) (b : Body) : Body :=
  let start := if offset < 0 then (offset + b.bytes.length).toNat else offset.toNat
  ⟨b.bytes.drop start, if start = 0 then b.block else none⟩

@[simp]
theorem suffix_zero (b : Body) : b.suffix 0 = b := rfl

end Body

end BucketTree
