import BucketTree.Tree.Basic

/-!
# Attributes

The attributes of a file, a directory and the whole volume, and the options of a mount.
-/

set_option autoImplicit false

namespace BucketTree

/-- The attributes of a file or a directory. -/
structure Attributes where
  /-- Kind and permissions. -/
  mode : Nat
  size : Nat
  links : Nat
  /-- Blocks of 512 bytes. -/
  blocks : Nat
  /-- The modification time in milliseconds. Without one, the current time is shown. -/
  modifiedMillis : Option Int
deriving DecidableEq, Repr

namespace Attributes

/-- The size of a block for transfers. -/
def blockSize : Nat := 4096

/-- The device number of a special file. There are no special files. -/
def device : Nat := 0

/-- The attributes of a regular file. -/
def ofFile (size : Nat) (modifiedMillis : Option Int) : Attributes :=
  ⟨0o100644, size, 1, (size + 511) / 512, modifiedMillis⟩

/-- The attributes of a directory. -/
def ofDirectory (modifiedMillis : Option Int) : Attributes :=
  ⟨0o040755, 4096, 2, 8, modifiedMillis⟩

/-- The attributes given by a status. -/
def ofStatus (s : FileStatus) : Attributes :=
  if s.isDirectory then ofDirectory s.modifiedMillis else ofFile s.size s.modifiedMillis

/-- A time in milliseconds as seconds with three decimals. -/
def secondsText (millis : Int) : String :=
  let digits := toString (millis.natAbs % 1000)
  let fraction := String.ofList (List.replicate (3 - digits.length) '0') ++ digits
  (if millis < 0 then "-" else "") ++ toString (millis.natAbs / 1000) ++ "." ++ fraction

end Attributes

/-- The sizes of a volume. -/
structure VolumeStatus where
  blockSize : Nat
  fragmentSize : Nat
  blocks : Nat
  freeBlocks : Nat
  availableBlocks : Nat
  files : Nat
  freeFiles : Nat
  availableFiles : Nat
  flags : Nat
  nameLength : Nat
deriving DecidableEq, Repr

/-- A store has no fixed capacity: the volume counts as five terabytes, all of them free. -/
def VolumeStatus.unlimited : VolumeStatus :=
  ⟨4096, 4096, 1250000000, 1250000000, 1250000000, 1000000000, 999999999, 999999999, 0, 255⟩

/-- The options of a mount. Attributes and entries are cached for one second only, because others
may change the bucket. -/
structure MountOptions where
  /-- The value given by the caller. -/
  foreground : Value
  defaultPermissions : Bool
  readWrite : Bool
  bigWrites : Bool
  hardRemove : Bool
  entryTimeout : Nat
  negativeTimeout : Nat
  attributeTimeout : Nat
  /-- Tells whether other users may enter. The option is passed only if it is set. -/
  allowOther : Bool

/-- The options for the two choices of a caller. -/
def MountOptions.make (foreground allowOther : Value) : MountOptions :=
  ⟨foreground, true, true, true, true, 1, 1, 1, allowOther.isTruthy⟩

end BucketTree
