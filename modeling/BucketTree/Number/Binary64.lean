/-!
# Binary floating-point numbers

Binary numbers with 53 significant bits, as exact dyadic values. `Binary64.nearest` rounds a
quotient of integers to the nearest such number, a tie going to the even neighbour. The least
exponent is that of the 64-bit format; exponents are not bounded above.
-/

set_option autoImplicit false

namespace BucketTree

/-- The number `± mantissa * 2 ^ exponent`. -/
structure Binary64 where
  negative : Bool
  mantissa : Nat
  exponent : Int
deriving DecidableEq, Repr

namespace Binary64

/-- Two to the power `n`. -/
def twoTo (n : Nat) : Nat := Nat.pow 2 n

/-- Ten to the power `n`. -/
def tenTo (n : Nat) : Nat := Nat.pow 10 n

/-- The quotient `n / d` rounded to an integer, a tie going to the even one. -/
def roundHalfEven (n d : Nat) : Nat :=
  let below := n / d
  let rest := n % d
  if 2 * rest < d then below
  else if d < 2 * rest then below + 1
  else below + below % 2

/-- Numerator and denominator of `n / d / 2 ^ e`. -/
def scaleDown (n d : Nat) (e : Int) : Nat × Nat :=
  if 0 ≤ e then (n, d * twoTo e.toNat) else (n * twoTo (-e).toNat, d)

/-- The exponent at which `n / d` has 53 bits before the point, or the least exponent when
that one is larger. -/
def exponentOf (n d : Nat) : Int :=
  let guess : Int := (n.log2 : Int) - d.log2 - 52
  let (a, b) := scaleDown n d guess
  max (if a / b < twoTo 52 then guess - 1 else guess) (-1074)

/-- The number nearest to `n / d`. -/
def nearestNat (n d : Nat) : Nat × Int :=
  if n = 0 then (0, -1074)
  else
    let e := exponentOf n d
    let (a, b) := scaleDown n d e
    let m := roundHalfEven a b
    if m = twoTo 53 then (twoTo 52, e + 1) else (m, e)

/-- The number nearest to `n / d`. -/
def nearest (n : Int) (d : Nat) : Binary64 :=
  let (m, e) := nearestNat n.natAbs d
  ⟨n < 0, m, e⟩

/-- The integer part of the number. -/
def truncate (x : Binary64) : Int :=
  let size : Nat :=
    if 0 ≤ x.exponent then x.mantissa * twoTo x.exponent.toNat
    else x.mantissa / twoTo (-x.exponent).toNat
  if x.negative then -(size : Int) else size

/-- The fractional part of the number. -/
def fraction (x : Binary64) : Binary64 :=
  if 0 ≤ x.exponent then ⟨x.negative, 0, -1074⟩
  else ⟨x.negative, x.mantissa % twoTo (-x.exponent).toNat, x.exponent⟩

/-- The nearest integer, a tie going to the even one. -/
def round (x : Binary64) : Int :=
  let size : Nat :=
    if 0 ≤ x.exponent then x.mantissa * twoTo x.exponent.toNat
    else roundHalfEven x.mantissa (twoTo (-x.exponent).toNat)
  if x.negative then -(size : Int) else size

/-- The mantissa with the sign of the number. -/
def signed (x : Binary64) : Int := if x.negative then -(x.mantissa : Int) else x.mantissa

/-- The number lies below an integer. -/
def isBelow (bound : Int) (x : Binary64) : Bool :=
  if 0 ≤ x.exponent then x.signed * twoTo x.exponent.toNat < bound
  else x.signed < bound * twoTo (-x.exponent).toNat

/-- The number lies above an integer. -/
def isAbove (bound : Int) (x : Binary64) : Bool :=
  if 0 ≤ x.exponent then bound < x.signed * twoTo x.exponent.toNat
  else bound * twoTo (-x.exponent).toNat < x.signed

/-- The number nearest to `x + k`. -/
def plus (x : Binary64) (k : Int) : Binary64 :=
  if 0 ≤ x.exponent then nearest (x.signed * twoTo x.exponent.toNat + k) 1
  else
    let unit := twoTo (-x.exponent).toNat
    nearest (x.signed + k * unit) unit

/-- The number nearest to `x * k`. -/
def times (x : Binary64) (k : Nat) : Binary64 :=
  let (m, e) :=
    if 0 ≤ x.exponent then nearestNat (x.mantissa * k * twoTo x.exponent.toNat) 1
    else nearestNat (x.mantissa * k) (twoTo (-x.exponent).toNat)
  ⟨x.negative, m, e⟩

/-- The number nearest to `n * 10 ^ e`. -/
def ofDecimal (negative : Bool) (n : Nat) (e : Int) : Binary64 :=
  let (m, b) :=
    if 0 ≤ e then nearestNat (n * tenTo e.toNat) 1 else nearestNat n (tenTo (-e).toNat)
  ⟨negative, m, b⟩

end Binary64

end BucketTree
