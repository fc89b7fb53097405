import BucketTree.Failure.Misuse
import BucketTree.Value

/-!
# Arguments of any type

What a request asks of an argument whose type is not known: an integer, a count, a comparison,
the items that it holds, or the text that it is. Each question is answered for the values that
allow it, and is a misuse for all others.
-/

set_option autoImplicit false

namespace BucketTree.Value

variable {α : Type}

/-- A mismatch of an argument. -/
def mismatched (mismatch : Mismatch) : Except Misuse α := .error (.mismatch mismatch)

/-- The integer value of an argument. -/
def index : Value → Except Misuse Int
  | .bool b => .ok (if b then 1 else 0)
  | .int n => .ok n
  | other => mismatched (.integer other.typeName)

/-- The integer value of an argument that may be absent. -/
def count : Value → Except Misuse (Option Int)
  | .null => .ok none
  | .bool b => .ok (some (if b then 1 else 0))
  | .int n => .ok (some n)
  | other => mismatched (.count other.typeName)

/-- The integer that an argument is converted to: a number loses its fraction, and a text is read in
base ten. -/
def toInteger : Value → Except Misuse Int
  | .bool b => .ok (if b then 1 else 0)
  | .int n => .ok n
  | .real x => .ok x.truncate
  | .infinite _ => .error .infinite
  | .notANumber => .error .notANumber
  | .text s => (Text.readInteger s).mapError .integer
  | other => mismatched (.number other.typeName)

/-- Tells whether the argument is less than an integer. -/
def isBelow (bound : Int) : Value → Except Misuse Bool
  | .bool b => .ok (decide ((if b then 1 else 0) < bound))
  | .int n => .ok (decide (n < bound))
  | .real x => .ok (x.isBelow bound)
  | .infinite isNegative => .ok isNegative
  | .notANumber => .ok false
  | other => mismatched (.order .less other.typeName (Value.int bound).typeName)

/-- Tells whether the argument is greater than an integer. -/
def isAbove (bound : Int) : Value → Except Misuse Bool
  | .bool b => .ok (decide (bound < if b then 1 else 0))
  | .int n => .ok (decide (bound < n))
  | .real x => .ok (x.isAbove bound)
  | .infinite isNegative => .ok !isNegative
  | .notANumber => .ok false
  | other => mismatched (.order .greater other.typeName (Value.int bound).typeName)

/-- Tells whether the argument is equal to an integer. -/
def isInteger (n : Int) : Value → Bool
  | .bool b => (if b then 1 else 0) == n
  | .int m => m == n
  | .real x => !x.isBelow n && !x.isAbove n
  | _ => false

/-- The smaller one of an integer and an argument, or the argument if they are equal. -/
def atMost (bound : Int) (v : Value) : Except Misuse Value :=
  match v.isAbove bound with
  | .ok isAbove => .ok (if isAbove then .int bound else v)
  | .error _ => mismatched (.order .less (Value.int bound).typeName v.typeName)

/-- The integer at which a content is cut. -/
def cutPoint (v : Value) : Except Misuse Int :=
  match v.index with
  | .ok n => .ok n
  | .error _ => mismatched .cut

/-- The integer from which a content is taken, zero if absent. -/
def startPoint : Value → Except Misuse Int
  | .null => .ok 0
  | other => other.cutPoint

/-- The sum of the argument and a count. -/
def advancedBy (count : Nat) : Value → Except Misuse Value
  | .bool b => .ok (.int ((if b then 1 else 0) + count))
  | .int n => .ok (.int (n + count))
  | .real x => .ok (.real (x.plus count))
  | .infinite isNegative => .ok (.infinite isNegative)
  | .notANumber => .ok .notANumber
  | .text _ => mismatched (.join (Value.text "").typeName (Value.int 0).typeName)
  | .list _ => mismatched (.join (Value.list []).typeName (Value.int 0).typeName)
  | other => mismatched (.operands .plus other.typeName (Value.int 0).typeName)

/-- Tells whether the value is the given text. -/
def isText (s : String) : Value → Bool
  | .text t => t == s
  | _ => false

/-- Tells whether the argument contains a text: as a part of it, among its items, or as a field
name. -/
def holds (s : String) : Value → Except Misuse Bool
  | .text t => .ok (Text.contains t s)
  | .list items => .ok (items.any (isText s))
  | .record fields => .ok (fields.any (·.1 == s))
  | other => mismatched (.membership other.typeName)

/-- The items of the argument: its characters, its items, or its field names. -/
def items : Value → Except Misuse (List Value)
  | .text s => .ok (s.toList.map fun c => .text (String.ofList [c]))
  | .list items => .ok items
  | .record fields => .ok (fields.map fun f => .text f.1)
  | other => mismatched (.items other.typeName)

/-- The text value of an argument, as the operation of the given name needs it. -/
def textFor (operation : String) : Value → Except Misuse String
  | .text s => .ok s
  | other => mismatched (.operation other.typeName operation)

/-- The value of an integer is the integer. -/
@[simp]
theorem index_int (n : Int) : (Value.int n).index = .ok n := rfl

/-- An integer is compared as an integer. -/
@[simp]
theorem isBelow_int (bound n : Int) : (Value.int n).isBelow bound = .ok (decide (n < bound)) := rfl

/-- An integer is equal only to itself. -/
@[simp]
theorem isInteger_int (n m : Int) : (Value.int m).isInteger n = (m == n) := rfl

/-- The smaller one of two integers. -/
@[simp]
theorem atMost_int (bound n : Int) : (Value.int n).atMost bound = .ok (.int (min n bound)) := by
  show Except.ok (if decide (bound < n) = true then Value.int bound else .int n) = _
  by_cases h : bound < n
  · rw [if_pos (decide_eq_true h), Int.min_eq_right (Int.le_of_lt h)]
  · rw [if_neg (by simpa using h), Int.min_eq_left (Int.not_lt.mp h)]

/-- An integer is its own cut point. -/
@[simp]
theorem cutPoint_int (n : Int) : (Value.int n).cutPoint = .ok n := rfl

/-- An integer is its own start point. -/
@[simp]
theorem startPoint_int (n : Int) : (Value.int n).startPoint = .ok n := rfl

/-- An integer is advanced by addition. -/
@[simp]
theorem advancedBy_int (n : Int) (count : Nat) :
    (Value.int n).advancedBy count = .ok (.int (n + count)) := rfl

/-- The text value of a text is the text. -/
@[simp]
theorem textFor_text (operation s : String) : (Value.text s).textFor operation = .ok s := rfl

end BucketTree.Value
