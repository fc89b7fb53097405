import BucketTree.Key.Path

/-!
# Directory markers

A directory without children is kept by its marker: an empty object filed under the key of the
directory with a reserved suffix. The root directory needs no marker.
-/

set_option autoImplicit false

namespace BucketTree.Key

/-- Tells that `key` is the key of a marker. -/
def isMarker (suffix : String) (key : Key) : Bool := Text.endsWith key suffix

/-- The key of the marker of a directory. -/
def marker (suffix : String) (key : Key) : Except PathRefusal Key :=
  if key == root then .error ⟨.rootMarker, key⟩ else .ok (key ++ suffix)

/-- The key of the directory that a marker belongs to. Other keys are unchanged. -/
def withoutSuffix (suffix : String) (key : Key) : Key :=
  if isMarker suffix key then Text.dropLast suffix.toList.length key else key

end BucketTree.Key
