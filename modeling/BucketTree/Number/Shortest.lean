import BucketTree.Number.Binary64

/-!
# Shortest decimal text

The decimal text of a binary number: the fewest digits that read back as the same number and,
of the texts of that length, the nearest one. Numbers from a ten-thousandth to below ten to the
sixteenth are written positionally, with at least one digit after the point; all others have an
exponent of at least two digits.
-/

set_option autoImplicit false

namespace BucketTree.Binary64

/-- Digits `d` and point position `k` of the value `0.d * 10 ^ k`. -/
structure Decimal where
  digits : List Char
  point : Int

/-- The least `k` from `start` on with `num / den < 10 ^ k`; `fuel` bounds the search. -/
def pointFrom (num den : Nat) : Nat → Int → Int
  | 0, k => k
  | fuel + 1, k =>
      let below : Bool :=
        if 0 ≤ k then num < den * tenTo k.toNat else num * tenTo (-k).toNat < den
      if below then k else pointFrom num den fuel (k + 1)

/-- A decimal with `count` digits that reads back as `m * 2 ^ e`, if there is one. The bounds
of the interval around the number are counted in quarters of its last place, and belong to
the interval iff `m` is even. -/
def decimalWith? (m : Nat) (e point : Int) (count : Nat) : Option Nat :=
  let unit := e - 2
  let grid := point - count
  -- a grid point `c` and a position `x` are compared as `c * scaleGrid` and `x * scaleUnit`
  let scaleGrid := (if 0 ≤ grid then tenTo grid.toNat else 1) *
    (if unit < 0 then twoTo (-unit).toNat else 1)
  let scaleUnit := (if 0 ≤ unit then twoTo unit.toNat else 1) *
    (if grid < 0 then tenTo (-grid).toNat else 1)
  let value := 4 * m * scaleUnit
  let low := (4 * m - (if m = twoTo 52 && e > -1074 then 1 else 2)) * scaleUnit
  let high := (4 * m + 2) * scaleUnit
  let inside : Nat → Bool := fun c =>
    let x := c * scaleGrid
    if m % 2 = 0 then low ≤ x && x ≤ high else low < x && x < high
  let c := value / scaleGrid
  match inside c, inside (c + 1) with
  | true, true =>
      let below := value - c * scaleGrid
      let above := (c + 1) * scaleGrid - value
      some (if below < above || (below = above && c % 2 = 0) then c else c + 1)
  | true, false => some c
  | false, true => some (c + 1)
  | false, false => none

/-- The shortest decimal of a positive number. -/
def shortest (m : Nat) (e : Int) : Decimal :=
  let (num, den) := if 0 ≤ e then (m * twoTo e.toNat, 1) else (m, twoTo (-e).toNat)
  let start : Int := ((num.log2 : Int) - den.log2) * 3 / 10 - 2
  let point := pointFrom num den (num.log2 + den.log2 + 8) start
  match (List.range 17).findSome? fun n =>
      (decimalWith? m e point (n + 1)).map fun c => (c, n + 1) with
  | some (c, count) =>
      let all := Nat.toDigits 10 c
      ⟨(all.reverse.dropWhile (· == '0')).reverse, point + all.length - count⟩
  | none => ⟨['0'], 1⟩

/-- The text of a decimal. -/
def Decimal.text (d : Decimal) : List Char :=
  let k := d.point
  if -4 < k && k ≤ 0 then '0' :: '.' :: (List.replicate (-k).toNat '0' ++ d.digits)
  else if 0 < k && k ≤ 16 then
    let n := k.toNat
    let whole := d.digits.take n
    let fraction := d.digits.drop n
    whole ++ List.replicate (n - whole.length) '0' ++
      '.' :: (if fraction.isEmpty then ['0'] else fraction)
  else
    let power := k - 1
    let digits := Nat.toDigits 10 power.natAbs
    let mantissa :=
      match d.digits with
      | first :: next :: more => first :: '.' :: next :: more
      | few => few
    mantissa ++ 'e' :: (if power < 0 then '-' else '+') ::
      (if digits.length < 2 then '0' :: digits else digits)

/-- The text of a number; zero is written with its sign. -/
def text (x : Binary64) : String :=
  let size := if x.mantissa = 0 then ['0', '.', '0'] else (shortest x.mantissa x.exponent).text
  String.ofList (if x.negative then '-' :: size else size)

end BucketTree.Binary64
