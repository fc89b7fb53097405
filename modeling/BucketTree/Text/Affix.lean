/-!
# Parts of a text

Prefixes, suffixes, occurrences and cuts of texts, each defined through the list of
characters so that the list lemmas apply. Positions and lengths count characters.
-/

set_option autoImplicit false

namespace BucketTree.Text

/-- Tells that `s` starts with `head`. -/
def beginsWith (s head : String) : Bool := head.toList.isPrefixOf s.toList

/-- Tells that `s` ends with `tail`. -/
def endsWith (s tail : String) : Bool := tail.toList.isSuffixOf s.toList

/-- Tells that `part` occurs somewhere in the text, the empty part everywhere. -/
def occursIn (part : List Char) : List Char → Bool
  | [] => part.isEmpty
  | c :: rest => part.isPrefixOf (c :: rest) || occursIn part rest

/-- Tells that `part` occurs somewhere in `s`. -/
def contains (s part : String) : Bool := occursIn part.toList s.toList

/-- The text `s` without its first `n` characters. -/
def dropFirst (n : Nat) (s : String) : String := String.ofList (s.toList.drop n)

/-- The text `s` without its last `n` characters. -/
def dropLast (n : Nat) (s : String) : String :=
  String.ofList (s.toList.take (s.toList.length - n))

/-- The text up to the end of the first occurrence of `mark`, if there is one. -/
def through? (mark : List Char) : List Char → Option (List Char)
  | [] => if mark.isEmpty then some [] else none
  | c :: rest =>
      if mark.isPrefixOf (c :: rest) then some mark else (through? mark rest).map (c :: ·)

/-- The text `s` without the characters `c` at its end. -/
def trimEnd (c : Char) (s : String) : String :=
  String.ofList (s.toList.reverse.dropWhile (· == c)).reverse

/-- The text `s` without the characters `c` at its start and at its end. -/
def trim (c : Char) (s : String) : String :=
  trimEnd c (String.ofList (s.toList.dropWhile (· == c)))

end BucketTree.Text
