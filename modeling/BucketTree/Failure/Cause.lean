import BucketTree.Key.Path

/-!
# Causes of failure

The reasons for failures, with their data, and the words that report them. Where the store gave a
reason of its own, the cause contains that text as its detail.
-/

set_option autoImplicit false

namespace BucketTree

/-- The reason of a failure. -/
inductive Cause where
  /-- A reason in words chosen elsewhere. -/
  | stated (words : String)
  /-- The path was refused. -/
  | path (fault : PathFault)
  /-- The file system on the bucket is closed. -/
  | closed (bucket : String)
  /-- No object is at the key. -/
  | noSuchKey (key : Key)
  /-- The path is neither a file nor a directory. -/
  | noSuchEntry (key : Key)
  /-- The path is no directory. -/
  | noSuchDirectory (key : Key)
  /-- The path is no file. -/
  | noSuchFile (key : Key)
  /-- The source of a rename, under its name in the report, does not exist. -/
  | noRenameSource (name : String)
  /-- The parent of a new directory does not exist. -/
  | noParent (key : Key)
  /-- The destination of a rename exists. -/
  | destinationExists (key : Key)
  /-- A file is at the key of the directory to be made. -/
  | fileExists (key : Key)
  /-- The directory has children. -/
  | notEmpty (key : Key)
  /-- The length of the data of an upload differs from the announced length. -/
  | lengthMismatch (key : Key) (expected : Value) (got : Nat)
  /-- A page was requested with a size below one. -/
  | badPageSize (size : Value)
  /-- The store did not return the status of an object. -/
  | queryFailed (key : Key) (detail : String)
  /-- The store returned metadata without a size and a time. -/
  | malformedMetadata (key : Key) (shown : String)
  /-- The store returned a negative size. -/
  | negativeSize (key : Key) (size : Int)
  /-- The store did not return a page. -/
  | listFailed (under : String) (detail : String)
  /-- The store returned something other than a page. -/
  | malformedPage (under : String)
  /-- The store returned the token of the request. -/
  | stuckToken (under : String)
  /-- The store refused an upload. -/
  | uploadFailed (key : Key) (detail : String)
  /-- The store refused the marker of a directory. -/
  | markerFailed (marker : Key) (detail : String)
  /-- The stream of an object failed. -/
  | readFailed (key : Key) (detail : String)
  /-- The store failed to open an object. -/
  | openFailed (key : Key) (detail : String)
  /-- The store refused a deletion. -/
  | deleteFailed (key : Key) (detail : String)
  /-- A recursive deletion stopped after `count` objects. -/
  | deleteStopped (key : Key) (count : Nat) (detail : String)
  /-- The contents of a directory were deleted, but not its marker. -/
  | markerLeft (key : Key) (detail : String)
  /-- The store failed to copy an object. -/
  | copyFailed (source destination : Key) (detail : String)
  /-- An object was copied, but its source was not deleted. -/
  | sourceLeft (source destination : Key) (detail : String)
  /-- The move of a directory stopped at an object that could not be copied. -/
  | moveStopped (source destination key : Key) (detail : String)
  /-- The move of a directory stopped at an object that was copied but not deleted. -/
  | moveLeft (source destination key : Key) (detail : String)
  /-- The move of a directory was interrupted between objects. -/
  | moveInterrupted (source destination : Key) (count : Nat) (detail : String)
  /-- The caller cancelled the operation in the given context. -/
  | cancelled (context : Option String)

/-- The words for a refused path. -/
def PathFault.text : PathFault → String
  | .notText typeName => s!"Path must be a string, got {typeName}"
  | .nul => "Path contains a NUL character"
  | .outsideRoot path root => s!"Path {path} is outside the filesystem root {root}"
  | .relative segment path => s!"Relative segment '{segment}' not supported in {path}"
  | .reserved segment suffix => s!"Path segment '{segment}' ends with the reserved suffix {suffix}"
  | .rootMarker => "The root directory has no marker object"
  | .rootDelete => "Refusing to delete the filesystem root"
  | .rootRename => "Cannot rename to or from the filesystem root"
  | .rootRead => "Cannot open the root directory for reading"
  | .rootWrite => "Cannot write to the root directory"
  | .sameEnds key => "Source and destination are the same: " ++ Key.toPath key
  | .intoItself source destination =>
      "Cannot move " ++ Key.toPath source ++ " into itself (" ++ Key.toPath destination ++ ")"

/-- The words for a cause. -/
def Cause.text : Cause → String
  | .stated words => words
  | .path fault => fault.text
  | .closed bucket => s!"Filesystem on bucket {bucket} is closed"
  | .noSuchKey key => s!"NoSuchKey: {key}"
  | .noSuchEntry key => "No such file or directory: " ++ Key.toPath key
  | .noSuchDirectory key => "No such directory: " ++ Key.toPath key
  | .noSuchFile key => "No such file: " ++ Key.toPath key
  | .noRenameSource name => s!"Rename source {name} does not exist"
  | .noParent key => "Parent directory " ++ Key.toPath key ++ " does not exist"
  | .destinationExists key => "Rename destination " ++ Key.toPath key ++ " already exists"
  | .fileExists key => "A file exists at " ++ Key.toPath key
  | .notEmpty key => "Directory " ++ Key.toPath key ++ " is not empty"
  | .lengthMismatch key expected got =>
      s!"Content length mismatch for {key}: expected {expected.plain}, got {got}"
  | .badPageSize size => s!"Invalid max_keys {size.plain}"
  | .queryFailed key detail => s!"Failed to query status of {key}: {detail}"
  | .malformedMetadata key shown => s!"Malformed metadata for {key}: {shown}"
  | .negativeSize key size => s!"Malformed metadata for {key}: negative size {size}"
  | .listFailed under detail => s!"Failed to list prefix '{under}': {detail}"
  | .malformedPage under => s!"Malformed listing response for prefix '{under}'"
  | .stuckToken under =>
      s!"Listing of prefix '{under}' returned a continuation token that did not advance"
  | .uploadFailed key detail => s!"Failed to write {key}: {detail}"
  | .markerFailed marker detail => s!"Failed to create directory marker {marker}: {detail}"
  | .readFailed key detail => s!"Failed to read {key}: {detail}"
  | .openFailed key detail => s!"Failed to open {key}: {detail}"
  | .deleteFailed key detail => s!"Failed to delete {key}: {detail}"
  | .deleteStopped key count detail =>
      "Recursive delete of " ++ Key.toPath key ++ s!" stopped after {count} objects: {detail}"
  | .markerLeft key detail =>
      "Deleted the contents of " ++ Key.toPath key ++ s!" but not its marker: {detail}"
  | .copyFailed source destination detail =>
      s!"Failed to copy {source} to {destination}: {detail}"
  | .sourceLeft source destination detail =>
      s!"Copied {source} to {destination} but could not delete the source: {detail}"
  | .moveStopped source destination key detail =>
      s!"Directory rename {source} -> {destination} stopped at {key}: {detail}"
  | .moveLeft source destination key detail =>
      s!"Directory rename {source} -> {destination} copied {key} but could not delete it: {detail}"
  | .moveInterrupted source destination count detail =>
      s!"Directory rename {source} -> {destination} interrupted after {count} objects: {detail}"
  | .cancelled context =>
      match context with
      | none => "Operation cancelled"
      | some place =>
          if place.isEmpty then "Operation cancelled" else s!"Operation cancelled during {place}"

end BucketTree
