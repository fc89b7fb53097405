import BucketTree.Failure.Mismatch
import BucketTree.Key.Basic
import BucketTree.Text.Integer
import BucketTree.Text.Quoted
import BucketTree.Time.Parts

/-!
# Misuse

A misuse is a wrong request: a setting out of range, a negative position, an argument of the wrong
type, an operation on something closed. A misuse is no failure of the store, and it is reported
unchanged.
-/

set_option autoImplicit false

namespace BucketTree

/-- What was attempted on a closed writer. -/
inductive WriterAction where
  | write
  | read
  | sync
deriving DecidableEq, Repr

/-- What was attempted on a closed file. -/
inductive FileUse where
  | tell
  | seek
  | read
  | write
  | truncate
deriving DecidableEq, Repr

/-- What a machine word was to hold. -/
inductive WordUse where
  /-- A number of bytes to read or to keep, where an absent one means all. -/
  | count
  /-- A position in memory, or the length of a single read. -/
  | position
  /-- A position on disk. -/
  | offset
  /-- A size on disk. -/
  | fileSize
deriving DecidableEq, Repr

/-- A misuse: an error that is not a fault of the store or of a path. -/
inductive Misuse where
  /-- A file system needs the name of a bucket. -/
  | bucketRequired
  /-- The length of a listing chunk is below one. -/
  | chunkLength (length : Value)
  /-- The marker suffix is empty or holds a separator. -/
  | folderSuffix (suffix : Value)
  /-- A setting is no integer. -/
  | integer (fault : Text.IntegerFault)
  /-- The page size of a listing is below one. -/
  | pageSize (size : Value)
  /-- A file is to be read from a position below zero. -/
  | negativeOffset (offset : Value)
  /-- A stream or a buffer in memory is closed. -/
  | closedStream
  /-- A buffer on disk is closed. -/
  | closedFile (use : FileUse)
  /-- A writer is closed. -/
  | closedWriter (action : WriterAction) (key : Key)
  /-- A buffer in memory cannot go to a position below zero. -/
  | negativeSeek (position : Int)
  /-- A buffer in memory cannot have a size below zero. -/
  | negativeSize (size : Int)
  /-- A buffer on disk cannot read a length below minus one. -/
  | readLength
  /-- The operating system refused a position or a size. -/
  | invalidArgument
  /-- The operating system refused a file of that size. -/
  | fileTooLarge
  /-- An integer does not fit the machine word for it. -/
  | outOfRange (use : WordUse)
  /-- No memory holds that many bytes. -/
  | outOfMemory
  /-- A text of bytes would be longer than a machine word can tell. -/
  | tooLong
  /-- A buffer in memory would be longer than a machine word can tell. -/
  | bufferTooLong
  /-- A buffer in memory would be so long that its room, one byte more, is not told by a machine
  word; the report differs for a buffer whose memory has other holders. -/
  | roomTooLong (isShared : Bool)
  /-- An infinite number stands for no integer. -/
  | infinite
  /-- The value NaN stands for no integer. -/
  | notANumber
  /-- A moment cannot be made. -/
  | moment (fault : MomentFault)
  /-- A value or an argument lacks the operation that was asked of it. -/
  | mismatch (m : Mismatch)
  /-- A buffer that failed to move to disk once cannot move again. -/
  | cannotMove
  /-- The nested calls of an operation exceed the limit of the interpreter. -/
  | tooDeep

namespace Misuse

/-- The name of the misuse, as it shows in messages. -/
def typeName : Misuse → String
  | .invalidArgument => "OSError"
  | .fileTooLarge => "OSError"
  | .outOfRange .offset => "ValueError"
  | .outOfRange _ => "OverflowError"
  | .outOfMemory => "MemoryError"
  | .tooLong => "OverflowError"
  | .bufferTooLong => "OverflowError"
  | .roomTooLong _ => "SystemError"
  | .infinite => "OverflowError"
  | .moment fault => fault.typeName
  | .mismatch m => m.typeName
  | .cannotMove => "AttributeError"
  | .tooDeep => "RecursionError"
  | _ => "ValueError"

/-- The most characters that a message shows of a text that is no integer, quotes included. -/
def shownLimit : Nat := 200

/-- The words for an integer that cannot be read; a long text is cut off. -/
def integerText : Text.IntegerFault → String
  | .malformed text =>
      "invalid literal for int() with base 10: " ++
        String.ofList ((Text.quoted text).toList.take shownLimit)
  | .tooLong digits =>
      s!"Exceeds the limit ({Text.digitLimit} digits) for integer string conversion: value has " ++
        s!"{digits} digits; use sys.set_int_max_str_digits() to increase the limit"

/-- The words for an integer that does not fit its machine word. -/
def rangeText : WordUse → String
  | .count => "cannot fit 'int' into an index-sized integer"
  | .position => "Python int too large to convert to C ssize_t"
  | .offset => "cannot fit 'int' into an offset-sized integer"
  | .fileSize => "Python int too large to convert to C long"

/-- The words for a use of a closed file. -/
def closedText : FileUse → String
  | .tell => "I/O operation on closed file"
  | .seek => "seek of closed file"
  | .read => "read of closed file"
  | .write => "write to closed file"
  | .truncate => "truncate of closed file"

/-- The words for a misuse. -/
def text : Misuse → String
  | .bucketRequired => "A bucket name is required"
  | .chunkLength length => s!"listing_chunk_length must be positive, got {length.plain}"
  | .folderSuffix suffix => "Invalid folder suffix: " ++ suffix.shown
  | .integer fault => integerText fault
  | .pageSize size => s!"max_keys must be positive, got {size.plain}"
  | .negativeOffset offset => s!"offset must be non-negative, got {offset.plain}"
  | .closedStream => "I/O operation on closed file."
  | .closedFile use => closedText use
  | .closedWriter .write key => s!"write to closed writer for {key}"
  | .closedWriter .read key => s!"read from closed writer for {key}"
  | .closedWriter .sync key => s!"sync of closed writer for {key}"
  | .negativeSeek position => s!"negative seek value {position}"
  | .negativeSize size => s!"negative size value {size}"
  | .readLength => "read length must be non-negative or -1"
  | .invalidArgument => "[Errno 22] Invalid argument"
  | .fileTooLarge => "[Errno 27] File too large"
  | .outOfRange use => rangeText use
  | .outOfMemory => ""
  | .tooLong => "byte string is too large"
  | .bufferTooLong => "new buffer size too large"
  | .roomTooLong true => "Negative size passed to PyBytes_FromStringAndSize"
  | .roomTooLong false => "Objects/bytesobject.c:3124: bad argument to internal function"
  | .infinite => "cannot convert float infinity to integer"
  | .notANumber => "cannot convert float NaN to integer"
  | .moment fault => fault.text
  | .mismatch m => m.text
  | .cannotMove => "'SpooledTemporaryFile' object has no attribute '_TemporaryFileArgs'"
  | .tooDeep => "maximum recursion depth exceeded"

end Misuse

end BucketTree
