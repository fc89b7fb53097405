import BucketTree.Number.Shortest
import BucketTree.Text.Quoted
import BucketTree.Time.Moment

/-!
# Loosely typed values

Paths, content lengths and modification times come from outside and may be of any type. A
`Value` is one of them: an absent value, a number, a text, a list, a record or a moment. The
module gives its type name, the text that shows it inside a message, and whether it counts as
true.
-/

set_option autoImplicit false

namespace BucketTree

/-- A value of unknown type. -/
inductive Value where
  | null
  | bool (b : Bool)
  | int (n : Int)
  | real (x : Binary64)
  | infinite (isNegative : Bool)
  | notANumber
  | text (s : String)
  | list (items : List Value)
  | record (fields : List (String × Value))
  | moment (t : Moment)

namespace Value

instance : Inhabited Value := ⟨.null⟩

instance : Coe String Value := ⟨.text⟩

/-- The value of a text that may be absent. -/
def ofOption (s : Option String) : Value := s.elim .null .text

/-- The name of the type of the value in messages. -/
def typeName : Value → String
  | .null => "NoneType"
  | .bool _ => "bool"
  | .int _ => "int"
  | .real _ => "float"
  | .infinite _ => "float"
  | .notANumber => "float"
  | .text _ => "str"
  | .list _ => "list"
  | .record _ => "dict"
  | .moment _ => "datetime"

mutual

/-- The text of a value inside a message. -/
def shown : Value → String
  | .null => "None"
  | .bool b => if b then "True" else "False"
  | .int n => toString n
  | .real x => x.text
  | .infinite isNegative => if isNegative then "-inf" else "inf"
  | .notANumber => "nan"
  | .text s => Text.quoted s
  | .list items => "[" ++ ", ".intercalate (shownItems items) ++ "]"
  | .record fields => "\x7b" ++ ", ".intercalate (shownFields fields) ++ "\x7d"
  | .moment t => t.shown

/-- The texts of the items of a list. -/
def shownItems : List Value → List String
  | [] => []
  | v :: rest => v.shown :: shownItems rest

/-- The texts of the fields of a record. -/
def shownFields : List (String × Value) → List String
  | [] => []
  | (name, v) :: rest => (Text.quoted name ++ ": " ++ v.shown) :: shownFields rest

end

/-- The text of a value by itself: a text is unchanged, and other values are written as inside a
message. -/
def plain : Value → String
  | .text s => s
  | other => other.shown

/-- Tells whether the value counts as true: it is not absent, false, zero or empty. -/
def isTruthy : Value → Bool
  | .null => false
  | .bool b => b
  | .int n => n != 0
  | .real x => x.mantissa != 0
  | .infinite _ => true
  | .notANumber => true
  | .text s => !s.isEmpty
  | .list items => !items.isEmpty
  | .record fields => !fields.isEmpty
  | .moment _ => true

/-- The largest exponent of two in the format. -/
def greatestExponent : Int := 971

/-- The number nearest to `± n * 10 ^ e`. A number beyond the format is infinite. Far outside its
range the power of ten is not computed. -/
def ofDecimal (isNegative : Bool) (n : Nat) (e : Int) : Value :=
  if n = 0 || e + n.log2 < -400 then .real ⟨isNegative, 0, -1074⟩
  else if 400 < e then .infinite isNegative
  else
    let x := Binary64.ofDecimal isNegative n e
    if x.exponent ≤ greatestExponent then .real x else .infinite isNegative

end Value

end BucketTree
