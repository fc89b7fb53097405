import BucketTree.Key.Marker
import BucketTree.Tree.Listing
import BucketTree.Tree.Status

/-!
# Directories

A directory exists because its marker exists, or because some key lies below it. The functions here
query the marker and the children of a directory key, and write markers. They take the marker suffix
as an argument.
-/

set_option autoImplicit false

namespace BucketTree.Directory

/-- The status of the marker of a directory; the root has none. -/
def markerStatus (suffix : String) (key : Key) : Action (Option ObjectStatus) := do
  if key == Key.root then return none
  let marker ← Action.ofPath (Key.marker suffix key)
  statusOf marker

/-- Tells whether some key lies below the directory. It reads one page of one name, so an empty page
means no children even if it has a token. -/
def hasChildren (key : Key) (cancel : Option Token) : Action Bool := do
  let chunk ← (Listing.start (Key.directoryPrefix key) false (.int 1) cancel).first
  return !(chunk.keys.isEmpty && chunk.groups.isEmpty)

/-- Tells whether the directory exists: it is the root, or its marker exists, or it has children.
The children are listed only if there is no marker. -/
def exists? (suffix : String) (key : Key) : Action Bool := do
  if key == Key.root then return true
  if (← markerStatus suffix key).isSome then return true
  hasChildren key none

/-- Writes the marker of a directory, an empty object. -/
def createMarker (suffix : String) (key : Key) : Action Unit := do
  let marker ← Action.ofPath (Key.marker suffix key)
  match ← Action.lift (Program.put marker (.ofBody (.fresh []))) with
  | .ok _ => return ()
  | .error fault =>
      let detail := (fault.toFailure (some "PUT") (some marker)).message
      Action.fail (.write marker (.markerFailed marker detail))

end BucketTree.Directory
