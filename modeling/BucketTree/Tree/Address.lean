import BucketTree.Failure.Fault

/-!
# Root addresses of any type

A path is resolved under the root address of a file system, which is kept as it was given. It should
be a text. If it is not, a path is still refused for its own faults first; otherwise the root
address cannot be stripped, which is a misuse. If it is a text, paths are resolved by
`Path.segments`.
-/

set_option autoImplicit false

namespace BucketTree.Address

/-- The segments of a path under a root address. -/
def segments (path root : Value) : Except Fault (List String) := do
  let raw ← (Path.textOf path).mapError fun refusal => .known (.ofRefusal refusal)
  let root ← (root.textFor "rstrip").mapError .misuse
  (Path.segmentsOf raw root).mapError fun refusal => .known (.ofRefusal refusal)

/-- The key of a path under a root address. -/
def toKey (path root : Value) : Except Fault Key :=
  (segments path root).map (Key.separatorText.intercalate ·)

/-- The canonical path of the same key. -/
def normalize (path root : Value) : Except Fault String :=
  (segments path root).map fun parts => Key.separatorText ++ Key.separatorText.intercalate parts

/-- For a root address that is a text, the segments are those of the path without it. -/
theorem segments_text (path : Value) (root : String) :
    segments path (.text root) =
      (Path.segments path root).mapError fun refusal => .known (.ofRefusal refusal) := by
  unfold segments Path.segments
  cases Path.textOf path with
  | error refusal => rfl
  | ok raw =>
      generalize Path.segmentsOf = segmentsOf
      rfl

end BucketTree.Address
