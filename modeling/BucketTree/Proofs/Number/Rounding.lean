import BucketTree.Number.Binary64
import Mathlib.Algebra.Order.Archimedean.Basic
import Mathlib.Algebra.Order.Field.Power
import Mathlib.Algebra.Order.Field.Rat
import Mathlib.Tactic.FieldSimp
import Mathlib.Tactic.Linarith
import Mathlib.Tactic.NormNum
import Mathlib.Tactic.Positivity
import Mathlib.Tactic.Ring

/-!
# Rounding to binary numbers

`Binary64.nearest` and `Binary64.times` give the number of the 64-bit format nearest to the exact
rational result, with ties to even (`Binary64.IsNearest`). This rounding is monotone
(`IsNearest.mono`), and in the normal range its error is at most the result divided by 2^53
(`IsRounded`).
-/

set_option autoImplicit false

namespace BucketTree

namespace Binary64

/-! ## Rounding to integers -/

@[simp]
theorem twoTo_eq (n : Nat) : twoTo n = 2 ^ n := rfl

/-- The error of rounding a quotient is at most one half, with ties to even. -/
theorem roundHalfEven_half (n : Nat) {d : Nat} (hd : 0 < d) :
    |(roundHalfEven n d : ℚ) - n / d| ≤ 1 / 2 ∧
      (|(roundHalfEven n d : ℚ) - n / d| = 1 / 2 → Even (roundHalfEven n d)) := by
  have hpos : (0 : ℚ) < d := by exact_mod_cast hd
  have hquotient : (n : ℚ) / d = (n / d : Nat) + (n % d : Nat) / d := by
    rw [div_eq_iff hpos.ne', add_mul, div_mul_cancel₀ _ hpos.ne', mul_comm]
    exact_mod_cast (Nat.div_add_mod n d).symm
  have hrest : (0 : ℚ) ≤ (n % d : Nat) / d := by positivity
  rw [hquotient]
  unfold roundHalfEven
  dsimp only
  split
  next hbelow =>
    -- the rest is less than one half
    have hless : ((n % d : Nat) : ℚ) / d < 1 / 2 := by
      rw [div_lt_div_iff₀ hpos two_pos]
      exact_mod_cast by omega
    have habs : |((n / d : Nat) : ℚ) - ((n / d : Nat) + (n % d : Nat) / d)| =
        (n % d : Nat) / d := by
      rw [sub_add_cancel_left, abs_neg, abs_of_nonneg hrest]
    rw [habs]
    exact ⟨hless.le, fun h => absurd h hless.ne⟩
  next hbelow =>
    split
    next habove =>
      have hmore : (1 : ℚ) / 2 < ((n % d : Nat) : ℚ) / d := by
        rw [div_lt_div_iff₀ two_pos hpos]
        exact_mod_cast by omega
      have hone : ((n % d : Nat) : ℚ) / d < 1 := by
        rw [div_lt_one hpos]
        exact_mod_cast Nat.mod_lt n hd
      have habs : |((n / d + 1 : Nat) : ℚ) - ((n / d : Nat) + (n % d : Nat) / d)| =
          1 - (n % d : Nat) / d := by
        rw [Nat.cast_add, Nat.cast_one, add_sub_add_left_eq_sub, abs_of_pos (sub_pos.2 hone)]
      rw [habs]
      exact ⟨by linarith, fun h => by linarith⟩
    next habove =>
      -- a tie: the even one of the two is `below + below % 2`
      have hhalf : ((n % d : Nat) : ℚ) / d = 1 / 2 := by
        rw [div_eq_div_iff hpos.ne' two_ne_zero]
        exact_mod_cast by omega
      have heven : Even (n / d + n / d % 2) := by
        rw [Nat.even_iff]
        omega
      refine ⟨?_, fun _ => heven⟩
      rw [hhalf, Nat.cast_add, add_sub_add_left_eq_sub]
      obtain hmod | hmod := Nat.mod_two_eq_zero_or_one (n / d)
      · rw [hmod]
        norm_num [abs_of_pos]
      · rw [hmod]
        norm_num

/-- Rounding a quotient gives the nearest integer, with ties to even. -/
theorem roundHalfEven_nearest (n : Nat) {d : Nat} (hd : 0 < d) (k : Int) :
    |(roundHalfEven n d : ℚ) - n / d| ≤ |(k : ℚ) - n / d| ∧
      (k ≠ roundHalfEven n d → |(k : ℚ) - n / d| = |(roundHalfEven n d : ℚ) - n / d| →
        Even (roundHalfEven n d)) := by
  obtain ⟨hhalf, heven⟩ := roundHalfEven_half n hd
  by_cases hk : k = roundHalfEven n d
  · subst hk
    exact ⟨le_of_eq rfl, fun hne => absurd rfl hne⟩
  · -- another integer is at least one away
    have hone : (1 : ℚ) ≤ |(k : ℚ) - roundHalfEven n d| := by
      exact_mod_cast Int.one_le_abs (sub_ne_zero.2 hk)
    have htriangle : |(k : ℚ) - roundHalfEven n d| ≤
        |(k : ℚ) - n / d| + |(roundHalfEven n d : ℚ) - n / d| := by
      rw [abs_sub_comm (roundHalfEven n d : ℚ)]
      exact abs_sub_le _ _ _
    refine ⟨by linarith, fun _ htie => heven ?_⟩
    linarith

/-! ## Exponents -/

/-- The function `scaleDown` divides by a power of two. -/
theorem scaleDown_eq (n : Nat) {d : Nat} (hd : 0 < d) (e : Int) :
    0 < (scaleDown n d e).2 ∧
      ((scaleDown n d e).1 : ℚ) / (scaleDown n d e).2 = n / d / 2 ^ e := by
  unfold scaleDown
  split
  next he =>
    lift e to Nat using he
    refine ⟨Nat.mul_pos hd (Nat.two_pow_pos _), ?_⟩
    simp [div_div]
  next he =>
    obtain ⟨k, rfl⟩ : ∃ k : Nat, e = -k := ⟨(-e).toNat, by omega⟩
    refine ⟨hd, ?_⟩
    simp
    ring

/-- Bounds on a quotient by powers of two, from the bit lengths of its parts. -/
theorem log2_div_bounds {n d : Nat} (hn : 0 < n) (hd : 0 < d) :
    (2 : ℚ) ^ ((n.log2 : Int) - d.log2 - 1) < n / d ∧
      (n : ℚ) / d < 2 ^ ((n.log2 : Int) - d.log2 + 1) := by
  have hpos : (0 : ℚ) < d := by exact_mod_cast hd
  have hnlow : (2 : ℚ) ^ n.log2 ≤ n := by exact_mod_cast Nat.log2_self_le hn.ne'
  have hnhigh : (n : ℚ) < 2 ^ (n.log2 + 1) := by exact_mod_cast Nat.lt_log2_self
  have hdlow : (2 : ℚ) ^ d.log2 ≤ d := by exact_mod_cast Nat.log2_self_le hd.ne'
  have hdhigh : (d : ℚ) < 2 ^ (d.log2 + 1) := by exact_mod_cast Nat.lt_log2_self
  constructor
  · rw [lt_div_iff₀ hpos]
    calc (2 : ℚ) ^ ((n.log2 : Int) - d.log2 - 1) * d
        < 2 ^ ((n.log2 : Int) - d.log2 - 1) * 2 ^ (d.log2 + 1) := by gcongr
      _ = 2 ^ n.log2 := by
          rw [← zpow_natCast, ← zpow_natCast, ← zpow_add₀ two_ne_zero]
          congr 1
          push_cast
          ring
      _ ≤ n := hnlow
  · rw [div_lt_iff₀ hpos]
    calc (n : ℚ) < 2 ^ (n.log2 + 1) := hnhigh
      _ = 2 ^ ((n.log2 : Int) - d.log2 + 1) * 2 ^ d.log2 := by
          rw [← zpow_natCast, ← zpow_natCast, ← zpow_add₀ two_ne_zero]
          congr 1
          push_cast
          ring
      _ ≤ 2 ^ ((n.log2 : Int) - d.log2 + 1) * d := by gcongr

/-- At its exponent a quotient has 53 bits before the point, or fewer at the least exponent. -/
theorem exponentOf_bounds {n d : Nat} (hn : 0 < n) (hd : 0 < d) :
    -1074 ≤ exponentOf n d ∧ (n : ℚ) / d < 2 ^ 53 * 2 ^ exponentOf n d ∧
      (exponentOf n d = -1074 ∨ 2 ^ 52 * (2 : ℚ) ^ exponentOf n d ≤ n / d) := by
  obtain ⟨hlow, hhigh⟩ := log2_div_bounds hn hd
  set guess : Int := (n.log2 : Int) - d.log2 - 52 with hguess
  obtain ⟨hb, hscaled⟩ := scaleDown_eq n hd guess
  have hunit : (0 : ℚ) < 2 ^ guess := by positivity
  -- the quotient at the guess has 52 bits before the point or 53
  have hlow : 2 ^ 51 * (2 : ℚ) ^ guess < n / d := by
    rw [← zpow_natCast, ← zpow_add₀ two_ne_zero]
    convert hlow using 2
    omega
  have hhigh : (n : ℚ) / d < 2 ^ 53 * 2 ^ guess := by
    rw [← zpow_natCast, ← zpow_add₀ two_ne_zero]
    convert hhigh using 2
    omega
  have hsplit : (scaleDown n d guess).1 / (scaleDown n d guess).2 < 2 ^ 52 ↔
      (n : ℚ) / d < 2 ^ 52 * 2 ^ guess := by
    rw [Nat.div_lt_iff_lt_mul hb, ← div_lt_iff₀ hunit, ← hscaled,
      div_lt_iff₀ (by exact_mod_cast hb)]
    exact_mod_cast Iff.rfl
  have hmax : exponentOf n d =
      max (if (scaleDown n d guess).1 / (scaleDown n d guess).2 < 2 ^ 52 then guess - 1 else guess)
        (-1074) := rfl
  obtain ⟨exact, hexponent, hbelow, habove⟩ : ∃ exact : Int, exponentOf n d = max exact (-1074) ∧
      2 ^ 52 * (2 : ℚ) ^ exact ≤ n / d ∧ (n : ℚ) / d < 2 ^ 53 * 2 ^ exact := by
    by_cases hbits : (scaleDown n d guess).1 / (scaleDown n d guess).2 < 2 ^ 52
    · refine ⟨guess - 1, by rw [hmax, if_pos hbits], ?_, ?_⟩
      · rw [zpow_sub_one₀ two_ne_zero]
        linarith
      · rw [zpow_sub_one₀ two_ne_zero]
        linarith [hsplit.1 hbits]
    · refine ⟨guess, by rw [hmax, if_neg hbits], ?_, hhigh⟩
      exact not_lt.1 fun h => hbits (hsplit.2 h)
  rw [hexponent]
  obtain hmax | hmax := le_total (-1074) exact
  · rw [max_eq_left hmax]
    exact ⟨hmax, habove, Or.inr hbelow⟩
  · rw [max_eq_right hmax]
    have hunits : (2 : ℚ) ^ exact ≤ 2 ^ (-1074 : Int) := zpow_le_zpow_right₀ one_le_two hmax
    exact ⟨le_rfl, by linarith, Or.inl rfl⟩

/-! ## Rounding magnitudes -/

/-- The value of a mantissa and an exponent. -/
def size (m : Nat) (e : Int) : ℚ := m * 2 ^ e

/-- The value with the larger exponent is larger, when its mantissa has all of its bits. -/
theorem size_lt_of_exponent_lt {m m' : Nat} {e e' : Int} (hm : m < 2 ^ 53) (hm' : 2 ^ 52 ≤ m')
    (h : e < e') : size m e < size m' e' := by
  have hpower : (2 : ℚ) ^ (e + 1) ≤ 2 ^ e' := zpow_le_zpow_right₀ one_le_two (by omega)
  have hunit : (0 : ℚ) < 2 ^ e := by positivity
  have hmantissa : (m : ℚ) < 2 ^ 53 := by exact_mod_cast hm
  have hmantissa' : (2 ^ 52 : ℚ) ≤ m' := by exact_mod_cast hm'
  calc size m e < 2 ^ 53 * 2 ^ e := mul_lt_mul_of_pos_right hmantissa hunit
    _ = 2 ^ 52 * 2 ^ (e + 1) := by
        rw [zpow_add_one₀ two_ne_zero]
        ring
    _ ≤ size m' e' := mul_le_mul hmantissa' hpower (by positivity) (by positivity)

/-- The mantissa and exponent of the format nearest to `q`, with ties to even. -/
structure RoundsTo (q : ℚ) (m : Nat) (e : Int) : Prop where
  mantissa : m < 2 ^ 53
  exponent : -1074 ≤ e
  /-- The mantissa has 53 bits, except at the least exponent. -/
  bits : e = -1074 ∨ 2 ^ 52 ≤ m
  nearest : ∀ (m' : Nat) (e' : Int), m' < 2 ^ 53 → -1074 ≤ e' → |size m e - q| ≤ |size m' e' - q|
  even : ∀ (m' : Nat) (e' : Int), m' < 2 ^ 53 → -1074 ≤ e' → size m' e' ≠ size m e →
    |size m' e' - q| = |size m e - q| → Even m
  /-- In the normal range the relative error is at most 2^-53. -/
  error : (2 : ℚ) ^ (-1022 : Int) ≤ q → |size m e - q| ≤ q / 2 ^ 53

/-- The nearest multiple of a power of two is nearest in the format, when `q` has 53 bits before the
point at that power. -/
theorem nearest_of_multiples {q : ℚ} {e : Int} {r : Nat}
    (hr : ∀ k : Int, |(r : ℚ) - q / 2 ^ e| ≤ |(k : ℚ) - q / 2 ^ e| ∧
      (k ≠ r → |(k : ℚ) - q / 2 ^ e| = |(r : ℚ) - q / 2 ^ e| → Even r))
    (he : e = -1074 ∨ 2 ^ 52 * (2 : ℚ) ^ e ≤ q) {m : Nat} {e' : Int} (hm : m < 2 ^ 53)
    (he' : -1074 ≤ e') :
    |size r e - q| ≤ |size m e' - q| ∧
      (size m e' ≠ size r e → |size m e' - q| = |size r e - q| → Even r) := by
  have hunit : (0 : ℚ) < 2 ^ e := by positivity
  have hscale (k : ℚ) : |k * 2 ^ e - q| = |k - q / 2 ^ e| * 2 ^ e := by
    rw [← abs_of_pos hunit, ← abs_mul, abs_of_pos hunit, sub_mul, div_mul_cancel₀ _ hunit.ne']
  obtain hle | hlt := le_or_gt e e'
  · -- the other number is a multiple of the power too
    obtain ⟨k, rfl⟩ := Int.le.dest hle
    have hsize : size m (e + k) = ((m * 2 ^ k : Nat) : Int) * 2 ^ e := by
      rw [size, zpow_add₀ two_ne_zero]
      push_cast
      rw [zpow_natCast]
      ring
    obtain ⟨hnear, heven⟩ := hr ((m * 2 ^ k : Nat) : Int)
    rw [hsize, size, hscale, hscale]
    refine ⟨mul_le_mul_of_nonneg_right hnear hunit.le, fun hne htie => heven ?_ ?_⟩
    · intro heq
      exact hne (by rw [heq]; push_cast; rfl)
    · exact mul_right_cancel₀ hunit.ne' htie
  · -- the other number lies below the least multiple with 53 bits, and that one is nearer
    have hlow : 2 ^ 52 * (2 : ℚ) ^ e ≤ q := he.resolve_left (by omega)
    have hsize : size m e' < 2 ^ 52 * 2 ^ e := by
      have hleast : size (2 ^ 52) e = 2 ^ 52 * 2 ^ e := by
        unfold size
        norm_num
      rw [← hleast]
      exact size_lt_of_exponent_lt hm le_rfl hlt
    have hnear : |size r e - q| ≤ q - 2 ^ 52 * 2 ^ e := by
      obtain ⟨hnear, -⟩ := hr ((2 ^ 52 : Nat) : Int)
      have hmultiple := mul_le_mul_of_nonneg_right hnear hunit.le
      have hleast : (((2 ^ 52 : Nat) : Int) : ℚ) = 2 ^ 52 := by norm_num
      rw [hleast, ← hscale, ← hscale, abs_sub_comm ((2 : ℚ) ^ 52 * 2 ^ e),
        abs_of_nonneg (sub_nonneg.2 hlow)] at hmultiple
      exact hmultiple
    have hfar : |size m e' - q| = q - size m e' := by
      rw [abs_sub_comm, abs_of_pos (by linarith)]
    have hfar : |size r e - q| < |size m e' - q| := by linarith
    exact ⟨hfar.le, fun _ htie => absurd htie hfar.ne'⟩

theorem roundsTo_zero : RoundsTo 0 0 (-1074) := by
  have hzero : size 0 (-1074) = 0 := by simp [size]
  refine ⟨by norm_num, le_rfl, Or.inl rfl, fun m' e' _ _ => ?_, fun _ _ _ _ _ _ => Even.zero, ?_⟩
  · rw [hzero, sub_zero, abs_zero]
    exact abs_nonneg _
  · rw [hzero]
    norm_num

/-- Rounding to an integer is monotone with respect to integers. -/
theorem le_of_half {t : ℚ} {k r : Nat} (h : |(r : ℚ) - t| ≤ 1 / 2) :
    ((k : ℚ) ≤ t → k ≤ r) ∧ (t ≤ k → r ≤ k) := by
  obtain ⟨hlow, hhigh⟩ := abs_le.1 h
  constructor
  · intro hk
    have hless : (k : ℚ) < r + 1 := by linarith
    exact Nat.lt_succ_iff.1 (by exact_mod_cast hless)
  · intro hk
    have hless : (r : ℚ) < k + 1 := by linarith
    exact Nat.lt_succ_iff.1 (by exact_mod_cast hless)

/-- The function `nearestNat` rounds a quotient of natural numbers. -/
theorem roundsTo_nearestNat (n : Nat) {d : Nat} (hd : 0 < d) :
    RoundsTo ((n : ℚ) / d) (nearestNat n d).1 (nearestNat n d).2 := by
  obtain rfl | hn := Nat.eq_zero_or_pos n
  · simpa [nearestNat] using roundsTo_zero
  obtain ⟨hleast, habove, hgrid⟩ := exponentOf_bounds hn hd
  obtain ⟨hb, hscaled⟩ := scaleDown_eq n hd (exponentOf n d)
  have hinteger := roundHalfEven_nearest (scaleDown n d (exponentOf n d)).1 hb
  have hhalf := (roundHalfEven_half (scaleDown n d (exponentOf n d)).1 hb).1
  have hnearestNat : nearestNat n d =
      if roundHalfEven (scaleDown n d (exponentOf n d)).1 (scaleDown n d (exponentOf n d)).2 =
        2 ^ 53
      then (2 ^ 52, exponentOf n d + 1)
      else (roundHalfEven (scaleDown n d (exponentOf n d)).1 (scaleDown n d (exponentOf n d)).2,
        exponentOf n d) := if_neg hn.ne'
  rw [hscaled] at hinteger hhalf
  generalize exponentOf n d = e at *
  generalize roundHalfEven (scaleDown n d e).1 (scaleDown n d e).2 = r at *
  have hunit : (0 : ℚ) < 2 ^ e := by positivity
  have hupper : r ≤ 2 ^ 53 := (le_of_half hhalf).2 (by
    rw [div_le_iff₀ hunit]
    exact_mod_cast habove.le)
  have hlower : e = -1074 ∨ 2 ^ 52 ≤ r := hgrid.imp_right fun h => (le_of_half hhalf).1 (by
    rw [le_div_iff₀ hunit]
    exact_mod_cast h)
  have herror (hq : (2 : ℚ) ^ (-1022 : Int) ≤ n / d) : |size r e - n / d| ≤ n / d / 2 ^ 53 := by
    have hbits : 2 ^ 52 * (2 : ℚ) ^ e ≤ n / d := by
      obtain rfl | h := hgrid
      · refine le_trans (le_of_eq ?_) hq
        rw [← zpow_natCast, ← zpow_add₀ two_ne_zero]
        congr 1
      · exact h
    have hsize : size r e - n / d = (r - n / d / 2 ^ e) * 2 ^ e := by
      rw [size, sub_mul, div_mul_cancel₀ _ hunit.ne']
    rw [hsize, abs_mul, abs_of_pos hunit, le_div_iff₀ (by norm_num)]
    calc |(r : ℚ) - n / d / 2 ^ e| * 2 ^ e * 2 ^ 53 ≤ 1 / 2 * 2 ^ e * 2 ^ 53 := by gcongr
      _ = 2 ^ 52 * 2 ^ e := by ring
      _ ≤ n / d := hbits
  have hnearest (m : Nat) (e' : Int) (hm : m < 2 ^ 53) (he' : -1074 ≤ e') :=
    nearest_of_multiples hinteger hgrid hm he'
  rw [hnearestNat]
  split
  next hcarry =>
    -- the mantissa has a bit too many, so the last one, which is zero, is dropped
    have hsize : size (2 ^ 52) (e + 1) = size r e := by
      rw [hcarry, size, size, zpow_add_one₀ two_ne_zero]
      push_cast
      ring
    have heven : Even (2 ^ 52 : Nat) := by decide
    refine ⟨by norm_num, by omega, Or.inr le_rfl, ?_, fun _ _ _ _ _ _ => heven, ?_⟩
    · rw [hsize]
      exact fun m e' hm he' => (hnearest m e' hm he').1
    · rwa [hsize]
  next hcarry =>
    exact ⟨lt_of_le_of_ne hupper hcarry, hleast, hlower,
      fun m e' hm he' => (hnearest m e' hm he').1, fun m e' hm he' => (hnearest m e' hm he').2,
      herror⟩

/-! ## Rounding numbers -/

/-- The rational value of a number of the format. -/
def value (x : Binary64) : ℚ := x.signed * 2 ^ x.exponent

/-- The number is a finite number of the format. -/
structure IsFinite (x : Binary64) : Prop where
  mantissa : x.mantissa < 2 ^ 53
  least : -1074 ≤ x.exponent
  greatest : x.exponent ≤ 971

/-- The number of the format nearest to `q`, with ties to even. -/
structure IsNearest (q : ℚ) (x : Binary64) : Prop where
  finite : x.IsFinite
  nearest : ∀ y : Binary64, y.IsFinite → |x.value - q| ≤ |y.value - q|
  even : ∀ y : Binary64, y.IsFinite → y.value ≠ x.value → |y.value - q| = |x.value - q| →
    Even x.mantissa

variable {q q' : ℚ} {x x' : Binary64}

theorem value_positive {x : Binary64} (h : x.negative = false) :
    x.value = size x.mantissa x.exponent := by
  simp [value, signed, size, h]

theorem value_negative {x : Binary64} (h : x.negative = true) :
    x.value = -size x.mantissa x.exponent := by
  simp [value, signed, size, h]

theorem size_nonneg (m : Nat) (e : Int) : 0 ≤ size m e := by
  unfold size
  positivity

theorem abs_value (x : Binary64) : |x.value| = size x.mantissa x.exponent := by
  cases hx : x.negative with
  | false => rw [value_positive hx, abs_of_nonneg (size_nonneg _ _)]
  | true => rw [value_negative hx, abs_neg, abs_of_nonneg (size_nonneg _ _)]

/-- Rounding is monotone. -/
theorem IsNearest.mono (h : IsNearest q x) (h' : IsNearest q' x') (hlt : q < q') :
    x.value ≤ x'.value := by
  by_contra hswap
  rw [not_le] at hswap
  -- `q` lies on the upper half between the two, and `q'` on the lower half
  have hupper : x'.value + x.value ≤ 2 * q := by
    by_contra hless
    have hnear : |x'.value - q| < x.value - q := abs_lt.2 ⟨by linarith, by linarith⟩
    linarith [h.nearest x' h'.finite, le_abs_self (x.value - q)]
  have hlower : 2 * q' ≤ x'.value + x.value := by
    by_contra hless
    have hnear : |x.value - q'| < q' - x'.value := abs_lt.2 ⟨by linarith, by linarith⟩
    linarith [h'.nearest x h.finite, neg_abs_le (x'.value - q')]
  linarith

/-- The number with the opposite sign. -/
def neg (x : Binary64) : Binary64 := { x with negative := !x.negative }

theorem value_neg (x : Binary64) : x.neg.value = -x.value := by
  cases hx : x.negative with
  | false => rw [value_positive hx, value_negative (by simp [neg, hx])]; rfl
  | true => rw [value_negative hx, value_positive (by simp [neg, hx]), neg_neg]; rfl

theorem IsFinite.neg (h : x.IsFinite) : x.neg.IsFinite := ⟨h.mantissa, h.least, h.greatest⟩

theorem neg_neg (x : Binary64) : x.neg.neg = x := by
  simp [neg]

theorem IsNearest.neg (h : IsNearest q x) : IsNearest (-q) x.neg := by
  have hflip (y : Binary64) : |y.neg.value - -q| = |y.value - q| := by
    rw [value_neg, ← neg_sub', abs_neg]
  refine ⟨h.finite.neg, fun y hy => ?_, fun y hy hne htie => h.even y.neg hy.neg (fun heq => ?_) ?_⟩
  · rw [hflip, ← y.neg_neg, hflip]
    exact h.nearest y.neg hy.neg
  · rw [← y.neg_neg, value_neg, value_neg x, heq] at hne
    exact hne rfl
  · rw [← y.neg_neg, hflip, hflip] at htie
    exact htie

namespace RoundsTo

variable {m : Nat} {e : Int}

/-- Since zero is in the format, the rounded value is at most twice `q`. -/
theorem size_le (h : RoundsTo q m e) (hq : 0 ≤ q) : size m e ≤ 2 * q := by
  have hzero := h.nearest 0 (-1074) (by norm_num) le_rfl
  have hsize : size 0 (-1074) = 0 := by simp [size]
  rw [hsize, zero_sub, abs_neg, abs_of_nonneg hq] at hzero
  linarith [le_abs_self (size m e - q)]

/-- A value well within the range of the format is rounded to a finite number. -/
theorem exponent_le (h : RoundsTo q m e) (hq : 0 ≤ q) (hbound : q < 2 ^ 100) : e ≤ 971 := by
  by_contra hlarge
  have hbits : (2 ^ 52 : ℚ) ≤ m := by
    exact_mod_cast h.bits.resolve_left (by omega)
  have hpower : (2 : ℚ) ^ 100 ≤ 2 ^ e := by
    rw [← zpow_natCast]
    exact zpow_le_zpow_right₀ one_le_two (by omega)
  have hsize : (2 ^ 52 : ℚ) * 2 ^ 100 ≤ size m e :=
    mul_le_mul hbits hpower (by positivity) (by positivity)
  linarith [h.size_le hq]

/-- The nearest non-negative value is nearest among the signed ones. -/
theorem isNearest (h : RoundsTo q m e) (hq : 0 ≤ q) (hbound : q < 2 ^ 100) :
    IsNearest q ⟨false, m, e⟩ := by
  have hvalue : value ⟨false, m, e⟩ = size m e := value_positive rfl
  have hsigned (y : Binary64) : |(size y.mantissa y.exponent) - q| ≤ |y.value - q| := by
    have habs := abs_abs_sub_abs_le y.value q
    rwa [abs_value, abs_of_nonneg hq] at habs
  refine ⟨⟨h.mantissa, h.exponent, h.exponent_le hq hbound⟩, fun y hy => ?_,
    fun y hy hne htie => ?_⟩
  · rw [hvalue]
    exact (h.nearest _ _ hy.mantissa hy.least).trans (hsigned y)
  · rw [hvalue] at hne htie
    have hother : |size y.mantissa y.exponent - q| = |size m e - q| :=
      le_antisymm ((hsigned y).trans htie.le) (h.nearest _ _ hy.mantissa hy.least)
    refine h.even _ _ hy.mantissa hy.least (fun hsame => hne ?_) hother
    -- the two have one size, so they could differ in the sign only, and then one is nearer
    cases hsign : y.negative with
    | false => rw [value_positive hsign, hsame]
    | true =>
        rw [value_negative hsign, hsame] at hne htie
        have hsize : 0 < size m e := by
          refine lt_of_le_of_ne (size_nonneg m e) fun hzero => hne ?_
          rw [← hzero, neg_zero]
        rw [← neg_add', abs_neg, abs_of_nonneg (by linarith)] at htie
        obtain hle | hle := abs_cases (size m e - q) <;> linarith [h.size_le hq]

end RoundsTo

/-- The number that `q` is rounded to: the nearest one, in its normal form and with a bound on the
error. -/
structure IsRounded (q : ℚ) (x : Binary64) : Prop extends IsNearest q x where
  bits : x.exponent = -1074 ∨ 2 ^ 52 ≤ x.mantissa
  error : (2 : ℚ) ^ (-1022 : Int) ≤ |q| → |x.value - q| ≤ |q| / 2 ^ 53

theorem IsRounded.neg (h : IsRounded q x) : IsRounded (-q) x.neg := by
  refine ⟨h.toIsNearest.neg, h.bits, fun hq => ?_⟩
  rw [abs_neg] at hq ⊢
  rw [value_neg, ← neg_sub', abs_neg]
  exact h.error hq

/-- Rounding commutes with the sign. -/
theorem RoundsTo.isRounded {m : Nat} {e : Int} (h : RoundsTo q m e) (hq : 0 ≤ q)
    (hbound : q < 2 ^ 100) (negative : Bool) :
    IsRounded (if negative then -q else q) ⟨negative, m, e⟩ := by
  have hpositive : IsRounded q ⟨false, m, e⟩ := by
    refine ⟨h.isNearest hq hbound, h.bits, ?_⟩
    rw [abs_of_nonneg hq, value_positive rfl]
    exact h.error
  cases negative with
  | false => exact hpositive
  | true => exact hpositive.neg

/-- The function `nearest` rounds a quotient of integers. -/
theorem isRounded_nearest (n : Int) {d : Nat} (hd : 0 < d) (hbound : |(n : ℚ) / d| < 2 ^ 100) :
    IsRounded (n / d) (nearest n d) := by
  have hsize : (n.natAbs : ℚ) / d = |(n : ℚ) / d| := by
    rw [abs_div, Nat.abs_cast, Nat.cast_natAbs, Int.cast_abs]
  have hsign : (if decide (n < 0) then -|(n : ℚ) / d| else |(n : ℚ) / d|) = n / d := by
    have hpos : (0 : ℚ) < d := by exact_mod_cast hd
    by_cases hn : n < 0
    · have hneg : (n : ℚ) / d ≤ 0 :=
        div_nonpos_of_nonpos_of_nonneg (by exact_mod_cast hn.le) hpos.le
      simp [hn, abs_of_nonpos hneg]
    · have hnonneg : (0 : ℚ) ≤ n / d := div_nonneg (by exact_mod_cast not_lt.1 hn) hpos.le
      simp [hn, abs_of_nonneg hnonneg]
  have hrounds := roundsTo_nearestNat n.natAbs hd
  rw [hsize] at hrounds
  rw [← hsign]
  exact hrounds.isRounded (abs_nonneg _) hbound (decide (n < 0))

/-- The function `times` rounds a quotient of natural numbers and keeps the sign. -/
theorem times_eq (x : Binary64) (k : Nat) : ∃ n d : Nat, 0 < d ∧
    (n : ℚ) / d = size x.mantissa x.exponent * k ∧
    x.times k = ⟨x.negative, (nearestNat n d).1, (nearestNat n d).2⟩ := by
  obtain ⟨negative, m, e⟩ := x
  obtain he | he := le_or_gt 0 e
  · refine ⟨m * k * twoTo e.toNat, 1, Nat.one_pos, ?_, by simp [times, he]⟩
    lift e to Nat using he
    simp [size]
    ring
  · refine ⟨m * k, twoTo (-e).toNat, Nat.two_pow_pos _, ?_, by simp [times, not_le.2 he]⟩
    obtain ⟨k, rfl⟩ : ∃ k : Nat, e = -k := ⟨(-e).toNat, by omega⟩
    simp [size]
    ring

/-- The function `times` rounds the exact multiple. -/
theorem isRounded_times (x : Binary64) (k : Nat) (hbound : |x.value * k| < 2 ^ 100) :
    IsRounded (x.value * k) (x.times k) := by
  obtain ⟨n, d, hd, hsize, htimes⟩ := x.times_eq k
  have hrounds := roundsTo_nearestNat n hd
  have hnonneg : 0 ≤ size x.mantissa x.exponent * k := mul_nonneg (size_nonneg _ _) (by positivity)
  have hsign : (if x.negative then -(size x.mantissa x.exponent * k)
      else size x.mantissa x.exponent * k) = x.value * k := by
    cases hx : x.negative with
    | false => simp [value_positive hx]
    | true => simp [value_negative hx]
  rw [abs_mul, abs_value, Nat.abs_cast] at hbound
  rw [hsize] at hrounds
  rw [← hsign, htimes]
  exact hrounds.isRounded hnonneg hbound x.negative

/-- Rounded numbers of equal value have the same mantissa and exponent. -/
theorem IsRounded.eq_of_value_eq (h : IsRounded q x) (h' : IsRounded q' x')
    (heq : x.value = x'.value) : x.mantissa = x'.mantissa ∧ x.exponent = x'.exponent := by
  have hsize : size x.mantissa x.exponent = size x'.mantissa x'.exponent := by
    rw [← abs_value, ← abs_value, heq]
  obtain hlt | hexponent | hgt := lt_trichotomy x.exponent x'.exponent
  · have hbits := h'.bits.resolve_left (by have := h.finite.least; omega)
    exact absurd hsize (size_lt_of_exponent_lt h.finite.mantissa hbits hlt).ne
  · rw [size, size, hexponent] at hsize
    exact ⟨by exact_mod_cast mul_right_cancel₀ (by positivity) hsize, hexponent⟩
  · have hbits := h.bits.resolve_left (by have := h'.finite.least; omega)
    exact absurd hsize (size_lt_of_exponent_lt h'.finite.mantissa hbits hgt).ne'

/-- Since zero is in the format, the rounded value is at most twice `q` in size. -/
theorem IsNearest.abs_value_le (h : IsNearest q x) : |x.value| ≤ 2 * |q| := by
  have hfinite : IsFinite ⟨false, 0, 0⟩ := ⟨by norm_num, by norm_num, by norm_num⟩
  have hzero := h.nearest _ hfinite
  have hvalue : value ⟨false, 0, 0⟩ = 0 := by simp [value, signed]
  rw [hvalue, zero_sub, abs_neg] at hzero
  linarith [abs_sub_abs_le_abs_sub x.value q]

/-- Zero is rounded to zero. -/
theorem IsNearest.value_eq_zero (h : IsNearest 0 x) : x.value = 0 := by
  have hle := h.abs_value_le
  rw [abs_zero, mul_zero] at hle
  exact abs_nonpos_iff.1 hle

/-- The bound on the error for zero and for all rationals that are not too small. -/
theorem IsRounded.abs_sub_le (h : IsRounded q x) (hq : q ≠ 0 → 1 / 2 ^ 20 ≤ |q|) :
    |x.value - q| ≤ |q| / 2 ^ 53 := by
  obtain rfl | hne := eq_or_ne q 0
  · rw [h.value_eq_zero]
    norm_num
  · refine h.error (le_trans ?_ (hq hne))
    have hpower : (2 : ℚ) ^ (-1022 : Int) ≤ 2 ^ (-20 : Int) :=
      zpow_le_zpow_right₀ one_le_two (by norm_num)
    norm_num at hpower ⊢
    exact hpower

/-- The sign of a non-zero number. -/
theorem negative_eq (h : x.value ≠ 0) : x.negative = decide (x.value < 0) := by
  have hsize := size_nonneg x.mantissa x.exponent
  cases hx : x.negative with
  | false =>
      rw [value_positive hx]
      exact (decide_eq_false (not_lt.2 hsize)).symm
  | true =>
      rw [value_negative hx] at h ⊢
      exact (decide_eq_true (lt_of_le_of_ne (neg_nonpos.2 hsize) h)).symm

/-- Rounded numbers of equal value have multiples of equal value. -/
theorem IsRounded.value_times_eq (h : IsRounded q x) (h' : IsRounded q' x')
    (heq : x.value = x'.value) {k : Nat} (hbound : |x.value * k| < 2 ^ 100) :
    (x.times k).value = (x'.times k).value := by
  by_cases hzero : x.value = 0
  · have htimes := isRounded_times x k hbound
    have htimes' := isRounded_times x' k (heq ▸ hbound)
    rw [← heq] at htimes'
    rw [hzero, zero_mul] at htimes htimes'
    rw [htimes.value_eq_zero, htimes'.value_eq_zero]
  · obtain ⟨hmantissa, hexponent⟩ := h.eq_of_value_eq h' heq
    have hsign : x.negative = x'.negative := by
      rw [negative_eq hzero, negative_eq (heq ▸ hzero), heq]
    have hsame : x = x' := by
      obtain ⟨negative, m, e⟩ := x
      obtain ⟨negative', m', e'⟩ := x'
      dsimp only at hmantissa hexponent hsign
      rw [hmantissa, hexponent, hsign]
    rw [hsame]

/-! ## Truncation -/

/-- Truncating a non-negative value gives its floor. -/
theorem floor_size (m : Nat) (e : Int) :
    ((if 0 ≤ e then m * twoTo e.toNat else m / twoTo (-e).toNat : Nat) : Int) = ⌊size m e⌋ := by
  unfold size
  split
  next he =>
    lift e to Nat using he
    rw [zpow_natCast]
    exact_mod_cast (Int.floor_natCast (m * 2 ^ e)).symm
  next he =>
    obtain ⟨k, rfl⟩ : ∃ k : Nat, e = -k := ⟨(-e).toNat, by omega⟩
    rw [zpow_neg, zpow_natCast, ← div_eq_mul_inv]
    have hfloor := Rat.floor_intCast_div_natCast m (2 ^ k)
    push_cast at hfloor
    rw [hfloor]
    simp

/-- A rational truncated towards zero. -/
def towardZero (q : ℚ) : Int := if 0 ≤ q then ⌊q⌋ else ⌈q⌉

theorem towardZero_of_nonneg (h : 0 ≤ q) : towardZero q = ⌊q⌋ := if_pos h

theorem towardZero_neg (q : ℚ) : towardZero (-q) = -towardZero q := by
  unfold towardZero
  obtain hneg | rfl | hpos := lt_trichotomy q 0
  · rw [if_pos (by linarith), if_neg (not_le.2 hneg), Int.floor_neg]
  · simp
  · rw [if_neg (by linarith), if_pos hpos.le, Int.ceil_neg]

/-- The function `truncate` truncates towards zero. -/
theorem truncate_eq (x : Binary64) : x.truncate = towardZero x.value := by
  have hfloor := floor_size x.mantissa x.exponent
  have hsize := size_nonneg x.mantissa x.exponent
  cases hx : x.negative with
  | false =>
      rw [value_positive hx, towardZero_of_nonneg hsize, ← hfloor]
      simp [truncate, hx]
  | true =>
      rw [value_negative hx, towardZero_neg, towardZero_of_nonneg hsize, ← hfloor]
      simp [truncate, hx]

theorem towardZero_mono (h : q ≤ q') : towardZero q ≤ towardZero q' := by
  unfold towardZero
  split
  next hq =>
    rw [if_pos (hq.trans h)]
    exact Int.floor_mono h
  next hq =>
    split
    next hq' =>
      have hceil : ⌈q⌉ ≤ 0 := Int.ceil_le.2 (by push_cast; linarith)
      exact hceil.trans (Int.floor_nonneg.2 hq')
    next hq' => exact Int.ceil_mono h

/-- Truncation of `q + 1` exceeds that of `q` by at most one. -/
theorem towardZero_add_one_le (q : ℚ) : towardZero (q + 1) ≤ towardZero q + 1 := by
  unfold towardZero
  split
  next hone =>
    rw [Int.floor_add_one]
    split
    next => exact le_rfl
    next => exact add_le_add_left (Int.floor_le_ceil q) 1
  next hone => rw [if_neg (by linarith), Int.ceil_add_one]

/-- Rationals at most one apart have truncations at most one apart. -/
theorem abs_towardZero_sub_le (h : |q - q'| ≤ 1) : |towardZero q - towardZero q'| ≤ 1 := by
  obtain ⟨hlow, hhigh⟩ := abs_le.1 h
  have hupper : towardZero q ≤ towardZero q' + 1 :=
    (towardZero_mono (by linarith)).trans (towardZero_add_one_le q')
  have hlower : towardZero q' ≤ towardZero q + 1 :=
    (towardZero_mono (by linarith)).trans (towardZero_add_one_le q)
  exact abs_le.2 ⟨by omega, by omega⟩

theorem towardZero_le {k : Int} (hk : 0 ≤ k) (h : q < k + 1) : towardZero q ≤ k := by
  unfold towardZero
  split
  next => exact Int.lt_add_one_iff.1 (Int.floor_lt.2 (by exact_mod_cast h))
  next hq => exact (Int.ceil_le.2 (by push_cast; linarith)).trans hk

/-- Truncating a quotient is integer division towards zero. -/
theorem towardZero_div (n : Int) (d : Nat) : towardZero ((n : ℚ) / d) = n.tdiv d := by
  have hnat (k : Nat) : towardZero ((k : ℚ) / d) = (k : Int).tdiv d := by
    rw [towardZero_of_nonneg (by positivity), Int.tdiv_eq_ediv_of_nonneg (Int.natCast_nonneg k)]
    have hfloor := Rat.floor_intCast_div_natCast (k : Int) d
    rwa [Int.cast_natCast] at hfloor
  obtain ⟨k, rfl | rfl⟩ := n.eq_nat_or_neg
  · rw [Int.cast_natCast, hnat]
  · rw [Int.cast_neg, Int.cast_natCast, neg_div, towardZero_neg, Int.neg_tdiv, hnat]

end Binary64

end BucketTree
