/-!
# Mismatches

Arguments may be of any type. A `Mismatch` is a demand that a value, or the arguments of a request,
do not meet.
-/

set_option autoImplicit false

namespace BucketTree

/-- An operator between two values. -/
inductive Operator where
  | less
  | greater
  | plus
  | bitAnd
deriving DecidableEq, Repr

/-- The demand on a value that its type does not meet. -/
inductive Mismatch where
  /-- To be an integer. -/
  | integer (typeName : String)
  /-- To be an integer or absent. -/
  | count (typeName : String)
  /-- To be a number, or a text that can be read as one. -/
  | number (typeName : String)
  /-- To be compared with another value. -/
  | order (operator : Operator) (left right : String)
  /-- To be combined with another value. -/
  | operands (operator : Operator) (left right : String)
  /-- To be joined to the end of a value of another type. -/
  | join (owner typeName : String)
  /-- To say how often a content is to be repeated. -/
  | repetition (typeName : String)
  /-- To be a place to cut a content at. -/
  | cut
  /-- To tell whether it holds an item. -/
  | membership (typeName : String)
  /-- To give its items in turn. -/
  | items (typeName : String)
  /-- To be looked up in a table. -/
  | lookup (typeName : String)
  /-- To have the operation of the given name. -/
  | operation (typeName name : String)
  /-- To be callable. -/
  | call (typeName : String)
  /-- A request has no argument of the given name. -/
  | unknownArgument (request name : String)
  /-- A request lacks the arguments of the given names. -/
  | missingArguments (request : String) (names : List String)
deriving DecidableEq, Repr

/-- The sign of an operator. -/
def Operator.sign : Operator → String
  | .less => "<"
  | .greater => ">"
  | .plus => "+"
  | .bitAnd => "&"

namespace Mismatch

/-- Names in a row, the last one after an "and". -/
def listed : List String → String
  | [] => ""
  | [a] => a
  | [a, b] => a ++ " and " ++ b
  | names => ", ".intercalate names.dropLast ++ ", and " ++ names.getLastD ""

/-- The name of the mismatch, as it shows in messages. -/
def typeName : Mismatch → String
  | .operation _ _ => "AttributeError"
  | _ => "TypeError"

/-- The words for a mismatch. -/
def text : Mismatch → String
  | .integer name => s!"'{name}' object cannot be interpreted as an integer"
  | .count name => s!"argument should be integer or None, not '{name}'"
  | .number name =>
      s!"int() argument must be a string, a bytes-like object or a real number, not '{name}'"
  | .order operator left right =>
      s!"'{operator.sign}' not supported between instances of '{left}' and '{right}'"
  | .operands operator left right =>
      s!"unsupported operand type(s) for {operator.sign}: '{left}' and '{right}'"
  | .join owner name =>
      "can only concatenate " ++ owner ++ " (not \"" ++ name ++ "\") to " ++ owner
  | .repetition name => s!"can't multiply sequence by non-int of type '{name}'"
  | .cut => "slice indices must be integers or None or have an __index__ method"
  | .membership name => s!"argument of type '{name}' is not iterable"
  | .items name => s!"'{name}' object is not iterable"
  | .lookup name => s!"unhashable type: '{name}'"
  | .operation owner name => s!"'{owner}' object has no attribute '{name}'"
  | .call name => s!"'{name}' object is not callable"
  | .unknownArgument request name =>
      request ++ "() got an unexpected keyword argument '" ++ name ++ "'"
  | .missingArguments request names =>
      let plural := if names.length = 1 then "" else "s"
      request ++ "() missing " ++ toString names.length ++ " required positional argument" ++
        plural ++ ": " ++ listed (names.map fun name => "'" ++ name ++ "'")

end Mismatch

end BucketTree
