import BucketTree.Argument
import BucketTree.Key.Marker

/-!
# Keys of any type

The queries on keys, for keys of any type. A key that is no text must offer the first operation that
the query needs: a method of texts, or to be joined to a separator. Every empty value counts as the
root. On texts the queries are those on keys.
-/

set_option autoImplicit false

namespace BucketTree.AnyKey

/-- The absolute path of a key. -/
def toPath (key : Value) : Except Misuse String := (key.textFor "strip").map Key.toPath

/-- The key of a value to which a text can be joined. -/
def joinable (key : Value) : Except Misuse Key :=
  let joined := (Value.text "").typeName
  match key with
  | .text s => .ok s
  | .list _ => Value.mismatched (.join key.typeName joined)
  | other => Value.mismatched (.operands .plus other.typeName joined)

/-- The prefix of all keys below a directory. -/
def directoryPrefix (key : Value) : Except Misuse String :=
  if !key.isTruthy then .ok "" else (joinable key).map Key.directoryPrefix

/-- Tells whether the key is that of a marker. -/
def isMarker (suffix : String) (key : Value) : Except Misuse Bool :=
  (key.textFor "endswith").map (Key.isMarker suffix)

/-- The key of the directory that a marker belongs to. Other keys are unchanged. -/
def withoutSuffix (suffix : String) (key : Value) : Except Misuse Key :=
  (key.textFor "endswith").map (Key.withoutSuffix suffix)

/-- The key of the parent directory; the root has none. -/
def parent? (key : Value) : Except Misuse (Option Key) :=
  if !key.isTruthy then .ok none else (key.textFor "rfind").map Key.parent?

/-- The last segment of a key. -/
def basename (key : Value) : Except Misuse String := (key.textFor "rstrip").map Key.basename

/-- The key of the child `name` of a directory. -/
def join (parent name : Value) : Except Misuse Key := do
  let start ← directoryPrefix parent
  return start ++ Text.trim Key.separator (← name.textFor "strip")

/-- Tells that `key` lies strictly below `ancestor`. -/
def isAncestor (ancestor key : Value) : Except Misuse Bool := do
  let key ← key.textFor "startswith"
  return Text.beginsWith key (← directoryPrefix ancestor) && !ancestor.isText key

/-- A text is its own joinable key. -/
@[simp]
theorem joinable_text (key : Key) : joinable (.text key) = .ok key := rfl

/-- The path of a text is that of the key. -/
@[simp]
theorem toPath_text (key : Key) : toPath (.text key) = .ok (Key.toPath key) := rfl

/-- The prefix of a text is that of the key. -/
@[simp]
theorem directoryPrefix_text (key : Key) :
    directoryPrefix (.text key) = .ok (Key.directoryPrefix key) := by
  by_cases h : key.isEmpty <;>
    simp [directoryPrefix, joinable, Value.isTruthy, Key.directoryPrefix, h, Except.map]

/-- The parent of a text is that of the key. -/
@[simp]
theorem parent?_text (key : Key) : parent? (.text key) = .ok (Key.parent? key) := by
  by_cases h : key.isEmpty <;> simp [parent?, Value.isTruthy, Key.parent?, h, Except.map]

/-- Texts are joined as keys are. -/
@[simp]
theorem join_text (parent : Key) (name : String) :
    join (.text parent) (.text name) = .ok (Key.join parent name) := by
  simp [join, Key.join, bind, Except.bind, pure, Except.pure]

end BucketTree.AnyKey
