import BucketTree.Text.Digit

/-!
# Written integers

The grammar of an integer in base ten: blanks, an optional sign, decimal digits of any script
with single underscores between them, blanks. `readInteger` tells a text outside the grammar
from one with more digits than are accepted.
-/

set_option autoImplicit false

namespace BucketTree.Text

/-- The reason for which a text is no integer. -/
inductive IntegerFault where
  /-- The text does not follow the grammar. -/
  | malformed (text : String)
  /-- The text has `digits` digits, more than `digitLimit`. -/
  | tooLong (digits : Nat)

/-- The largest number of digits in an integer. -/
def digitLimit : Nat := 4300

/-- The digits at the start of a text, with single underscores between them, and the rest.
There is no answer when the run is empty or an underscore has no digit on each side. -/
def digitRun : List Char → Option (List Nat × List Char)
  | [] => none
  | c :: rest =>
      match digitValue? c with
      | none => none
      | some d =>
          match rest with
          | '_' :: more => (digitRun more).map fun (ds, left) => (d :: ds, left)
          | next :: more =>
              if (digitValue? next).isSome then
                (digitRun (next :: more)).map fun (ds, left) => (d :: ds, left)
              else some ([d], next :: more)
          | [] => some ([d], [])

/-- The number with the given decimal digits, the leading one first. -/
def ofDigits (digits : List Nat) : Nat := digits.foldl (fun n d => 10 * n + d) 0

/-- Reads an integer in base ten. -/
def readInteger (text : String) : Except IntegerFault Int :=
  let body := text.toList.dropWhile isBlank
  let (negative, unsigned) :=
    match body with
    | '-' :: rest => (true, rest)
    | '+' :: rest => (false, rest)
    | _ => (false, body)
  match digitRun unsigned with
  | none => .error (.malformed text)
  | some (digits, rest) =>
      if digitLimit < digits.length then .error (.tooLong digits.length)
      else if rest.all isBlank then
        .ok (if negative then -(ofDigits digits : Int) else ofDigits digits)
      else .error (.malformed text)

end BucketTree.Text
