import BucketTree.Text.Affix

/-!
# Keys

An object is filed under a key, a plain text. Read as a hierarchy, a key is a list of segments
with a separator between them; the empty key is the root. The functions here move between a
key, its directory prefix, its parent and its last segment.
-/

set_option autoImplicit false

namespace BucketTree

/-- The name of an object in a bucket. -/
abbrev Key := String

namespace Key

/-- The character between two segments. -/
def separator : Char := '/'

/-- The separator as a text. -/
def separatorText : String := "/"

/-- The key of the root directory. -/
def root : Key := ""

/-- The non-empty segments of a text. -/
def segments (text : List Char) : List (List Char) :=
  (text.splitOn separator).filter fun segment => !segment.isEmpty

/-- The absolute path of a key, without separators at its end. -/
def toPath (key : Key) : String := separatorText ++ Text.trim separator key

/-- The prefix of all keys below a directory, empty for the root. -/
def directoryPrefix (key : Key) : String := if key.isEmpty then "" else key ++ separatorText

/-- The key of the parent directory; the root has none. -/
def parent? (key : Key) : Option Key :=
  if key.isEmpty then none
  else some (String.ofList ((key.toList.reverse.dropWhile (· != separator)).drop 1).reverse)

/-- The last segment of a key without the separators at its end. -/
def basename (key : Key) : String :=
  String.ofList ((Text.trimEnd separator key).toList.reverse.takeWhile (· != separator)).reverse

/-- The key of the child `name` of a directory. -/
def join (parent : Key) (name : String) : Key :=
  directoryPrefix parent ++ Text.trim separator name

/-- Tells that `key` lies strictly below `ancestor`. -/
def isAncestor (ancestor key : Key) : Bool :=
  Text.beginsWith key (directoryPrefix ancestor) && key != ancestor

end Key

end BucketTree
