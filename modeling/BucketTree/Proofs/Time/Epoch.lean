import BucketTree.Proofs.Mount.Opening
import BucketTree.Proofs.Number.Rounding
import BucketTree.Time.Parts

/-!
# Modification times in milliseconds

A modification time is converted to milliseconds with two roundings, both exact roundings of the
64-bit format (`EpochMillis`). So the conversion is monotone. The milliseconds differ from those of
the moment by at most one, and for moments from the epoch on they are not later while they are less
than 2^42.
-/

set_option autoImplicit false

namespace BucketTree

open Binary64 (IsNearest IsRounded towardZero)

/-! ## Moments of the calendar -/

namespace Moment

/-- The moment is in the range of the calendar, with an offset of less than a day. -/
structure InCalendar (t : Moment) : Prop where
  first : firstMicros ≤ t.wall
  last : t.wall ≤ lastMicros
  offset : ∀ micros, t.offset = some micros → -dayMicros < micros ∧ micros < dayMicros

/-- A valid date lies between the first and the last moment of the calendar. -/
theorem micros_bounds {date : Calendar} (h : rangeFault? date = none) :
    firstMicros ≤ date.micros ∧ date.micros ≤ lastMicros := by
  obtain ⟨year, month, day, hour, minute, second, microsecond⟩ := date
  have hmonth : Calendar.daysIn year month ≤ 31 ∧
      (month = 2 → Calendar.daysIn year month ≤ 29) := by
    unfold Calendar.daysIn
    split <;> split <;> omega
  have hdiv (n : Int) {d : Int} (hd : 0 ≤ d) : n.fdiv d = n / d := Int.fdiv_eq_ediv_of_nonneg n hd
  unfold rangeFault? at h
  repeat' split at h
  all_goals try cases h
  simp only [Bool.or_eq_true, decide_eq_true_eq, not_or, not_lt] at *
  have hdays : -719162 ≤ Calendar.daysTo year month day ∧
      Calendar.daysTo year month day ≤ 2932896 := by
    simp only [Calendar.daysTo, hdiv _ (by decide : (0 : Int) ≤ 400),
      hdiv _ (by decide : (0 : Int) ≤ 100), hdiv _ (by decide : (0 : Int) ≤ 5),
      hdiv _ (by decide : (0 : Int) ≤ 4)]
    split <;> split <;> omega
  simp only [Calendar.micros, firstMicros, lastMicros]
  omega

/-- An accepted offset is less than a day. -/
theorem offset_bounds {v : Value} {micros : Int} (h : offsetOf v = .ok (some micros)) :
    -dayMicros < micros ∧ micros < dayMicros := by
  simp only [offsetOf, bind, Except.bind, pure, Except.pure, throw, throwThe,
    MonadExceptOf.throw] at h
  repeat' split at h
  all_goals cases h
  assumption

/-- A date made of parts is valid. -/
theorem rangeFault?_of_dateOf {parts : List Value} {date : Calendar}
    (h : dateOf parts = .ok date) : rangeFault? date = none := by
  simp only [dateOf, bind, Except.bind, pure, Except.pure, throw, throwThe,
    MonadExceptOf.throw] at h
  -- each part that is missing or wrong ends the reading, and only the last branch has a date
  repeat' split at h
  all_goals cases h
  assumption

/-- A moment made of parts is in the calendar. -/
theorem inCalendar_of_ofParts {parts : List Value} {t : Moment} (h : ofParts parts = .ok t) :
    t.InCalendar := by
  simp only [ofParts, bind, Except.bind, pure, Except.pure] at h
  repeat' split at h
  all_goals cases h
  next last _ _ _ hoffset _ _ hdate =>
    obtain ⟨hfirst, hlast⟩ := micros_bounds (rangeFault?_of_dateOf hdate)
    refine ⟨hfirst, hlast, ?_⟩
    rintro micros rfl
    exact offset_bounds hoffset

/-- A time at which a store keeps objects is in the calendar. -/
theorem inCalendar_of_clockFault? {micros : Int} (h : clockFault? micros = none) :
    InCalendar ⟨micros, some 0⟩ := by
  unfold clockFault? at h
  obtain ⟨-, h⟩ := Option.or_eq_none_iff.1 h
  split at h
  next => cases h
  next hrange =>
    rw [Bool.or_eq_true, not_or, decide_eq_true_iff, decide_eq_true_iff, not_lt, not_lt] at hrange
    refine ⟨hrange.1, hrange.2, ?_⟩
    rintro _ ⟨⟩
    exact ⟨by decide, by decide⟩

theorem InCalendar.abs_epochMicros_lt {t : Moment} (h : t.InCalendar) :
    |(t.epochMicros : ℚ)| < 2 ^ 58 := by
  have hoffset : -dayMicros < t.offset.getD 0 ∧ t.offset.getD 0 < dayMicros := by
    cases ht : t.offset with
    | none => exact ⟨by decide, by decide⟩
    | some micros => exact h.offset micros ht
  have hfirst := h.first
  have hlast := h.last
  have hbound : |t.epochMicros| < 2 ^ 58 := by
    rw [abs_lt]
    unfold epochMicros
    unfold dayMicros at hoffset
    unfold firstMicros at hfirst
    unfold lastMicros at hlast
    omega
  exact_mod_cast hbound

end Moment

/-! ## Two roundings -/

/-- The milliseconds reported for a number of microseconds: the seconds are rounded, the product
with a thousand is rounded, and the result is truncated. They differ from the exact milliseconds by
at most one, and for moments from the epoch on they are not later while they are less than 2^42. -/
structure IsMillisOf (u millis : Int) : Prop where
  rounded : ∃ seconds product : Binary64, IsNearest (u / 1000000) seconds ∧
    IsNearest (seconds.value * 1000) product ∧ millis = towardZero product.value
  near : |millis - u.tdiv 1000| ≤ 1
  early : 0 ≤ u → u < 2 ^ 42 * 1000 → millis ≤ u.tdiv 1000

variable {u u' : Int}

theorem isRounded_epochSeconds (hu : |(u : ℚ)| < 2 ^ 58) :
    IsRounded (u / 1000000) (epochSeconds u) := by
  refine Binary64.isRounded_nearest u (by norm_num) ?_
  rw [abs_div, div_lt_iff₀ (by norm_num)]
  norm_num at hu ⊢
  linarith

theorem abs_epochSeconds_lt (hu : |(u : ℚ)| < 2 ^ 58) :
    |(epochSeconds u).value * (1000 : Nat)| < 2 ^ 100 := by
  have hvalue := (isRounded_epochSeconds hu).abs_value_le
  rw [abs_div, abs_of_pos (by norm_num : (0 : ℚ) < 1000000)] at hvalue
  rw [abs_mul, Nat.abs_cast]
  norm_num at hu ⊢
  linarith

theorem isRounded_epochMillis (hu : |(u : ℚ)| < 2 ^ 58) :
    IsRounded ((epochSeconds u).value * (1000 : Nat)) ((epochSeconds u).times 1000) :=
  Binary64.isRounded_times _ 1000 (abs_epochSeconds_lt hu)

theorem epochMillis_eq (u : Int) :
    epochMillis u = towardZero ((epochSeconds u).times 1000).value :=
  Binary64.truncate_eq _

/-- The conversion is monotone. -/
theorem epochMillis_mono (hu : |(u : ℚ)| < 2 ^ 58) (hu' : |(u' : ℚ)| < 2 ^ 58) (h : u ≤ u') :
    epochMillis u ≤ epochMillis u' := by
  obtain rfl | hlt := h.eq_or_lt
  · exact le_rfl
  have hseconds := isRounded_epochSeconds hu
  have hseconds' := isRounded_epochSeconds hu'
  have hvalue : (epochSeconds u).value ≤ (epochSeconds u').value := by
    refine hseconds.mono hseconds'.toIsNearest ?_
    have hcast : (u : ℚ) < u' := by exact_mod_cast hlt
    linarith
  rw [epochMillis_eq, epochMillis_eq]
  refine Binary64.towardZero_mono ?_
  obtain heq | hless := hvalue.eq_or_lt
  · -- one number of seconds gives one number of milliseconds
    exact (hseconds.value_times_eq hseconds' heq (abs_epochSeconds_lt hu)).le
  · refine (isRounded_epochMillis hu).mono (isRounded_epochMillis hu').toIsNearest ?_
    exact mul_lt_mul_of_pos_right hless (by norm_num)

/-- A non-zero number of microseconds is not too small for the bound on the error. -/
theorem one_le_abs_div (hu : u ≠ 0) : 1 ≤ 1000000 * |(u : ℚ) / 1000000| := by
  have hone : (1 : ℚ) ≤ |(u : ℚ)| := by exact_mod_cast Int.one_le_abs hu
  rwa [abs_div, abs_of_pos (by norm_num : (0 : ℚ) < 1000000), mul_div_cancel₀ _ (by norm_num)]

theorem abs_epochSeconds_sub_le (hu : |(u : ℚ)| < 2 ^ 58) :
    |(epochSeconds u).value - u / 1000000| ≤ |(u : ℚ) / 1000000| / 2 ^ 53 := by
  refine (isRounded_epochSeconds hu).abs_sub_le fun hne => ?_
  have hlarge := one_le_abs_div (u := u) (by rintro rfl; simp at hne)
  norm_num at hlarge ⊢
  linarith

theorem abs_times_sub_le (hu : |(u : ℚ)| < 2 ^ 58) :
    |((epochSeconds u).times 1000).value - (epochSeconds u).value * (1000 : Nat)| ≤
      |(epochSeconds u).value * (1000 : Nat)| / 2 ^ 53 := by
  have hseconds := abs_epochSeconds_sub_le hu
  refine (isRounded_epochMillis hu).abs_sub_le fun hne => ?_
  have hlarge := one_le_abs_div (u := u) (by
    rintro rfl
    rw [Int.cast_zero, zero_div, abs_zero, zero_div, sub_zero] at hseconds
    exact hne (by rw [abs_nonpos_iff.1 hseconds, zero_mul]))
  have hlow := abs_sub_abs_le_abs_sub ((u : ℚ) / 1000000) (epochSeconds u).value
  rw [abs_sub_comm] at hlow
  rw [abs_mul, Nat.abs_cast]
  norm_num at hlarge hseconds ⊢
  linarith

/-- The total error of the two roundings. -/
theorem abs_epochMillis_sub_le (hu : |(u : ℚ)| < 2 ^ 58) :
    |((epochSeconds u).times 1000).value - u / 1000| ≤
      |(u : ℚ) / 1000| * ((2 ^ 54 + 1) / 2 ^ 106) := by
  have hseconds := abs_epochSeconds_sub_le hu
  have hproduct := abs_times_sub_le hu
  generalize ((epochSeconds u).times 1000).value = product at *
  generalize (epochSeconds u).value = seconds at *
  have hscale (r : ℚ) : |r * (1000 : Nat)| = 1000 * |r| := by
    rw [abs_mul, Nat.abs_cast, mul_comm]
    norm_num
  have hmillis : (u : ℚ) / 1000 = u / 1000000 * (1000 : Nat) := by
    push_cast
    ring
  have hhigh : |seconds| ≤ |seconds - u / 1000000| + |(u : ℚ) / 1000000| := by
    linarith [abs_sub_abs_le_abs_sub seconds ((u : ℚ) / 1000000)]
  have hsum : |product - u / 1000| ≤
      |product - seconds * (1000 : Nat)| + 1000 * |seconds - u / 1000000| := by
    rw [hmillis, ← hscale, sub_mul]
    exact abs_sub_le _ _ _
  rw [hscale] at hproduct
  rw [hmillis, hscale, ← hmillis]
  norm_num at hseconds hproduct ⊢
  linarith

/-- Within the calendar the conversion satisfies `IsMillisOf`. -/
theorem isMillisOf_epochMillis (hu : |(u : ℚ)| < 2 ^ 58) : IsMillisOf u (epochMillis u) := by
  have herror := abs_epochMillis_sub_le hu
  have hthousand : (0 : ℚ) < 1000 := by norm_num
  have hexact : u.tdiv 1000 = towardZero ((u : ℚ) / 1000) :=
    (Binary64.towardZero_div u 1000).symm
  refine ⟨⟨epochSeconds u, (epochSeconds u).times 1000, (isRounded_epochSeconds hu).toIsNearest,
    (isRounded_epochMillis hu).toIsNearest, epochMillis_eq u⟩, ?_, fun hnonneg hearly => ?_⟩
  · rw [epochMillis_eq, hexact]
    refine Binary64.abs_towardZero_sub_le (herror.trans ?_)
    rw [abs_div, abs_of_pos hthousand]
    norm_num at hu ⊢
    linarith
  · rw [epochMillis_eq, Int.tdiv_eq_ediv_of_nonneg hnonneg]
    refine Binary64.towardZero_le (Int.ediv_nonneg hnonneg (by norm_num)) ?_
    -- a millisecond that is not full lacks a thousandth of it, and the error is less than that
    have hwhole : (u : ℚ) / 1000 ≤ (u / 1000 : Int) + 999 / 1000 := by
      have hrest : u ≤ 1000 * (u / 1000) + 999 := by omega
      have hcast : (u : ℚ) ≤ 1000 * (u / 1000 : Int) + 999 := by exact_mod_cast hrest
      linarith
    have hsize : (u : ℚ) / 1000 < 2 ^ 42 := by
      have hcast : (u : ℚ) < 2 ^ 42 * 1000 := by exact_mod_cast hearly
      rwa [div_lt_iff₀ hthousand]
    have hpos : (0 : ℚ) ≤ u / 1000 := div_nonneg (by exact_mod_cast hnonneg) hthousand.le
    rw [abs_of_nonneg hpos] at herror
    have hclose := (abs_le.1 herror).2
    norm_num at hclose hsize ⊢
    linarith

/-- A moment at a full millisecond that is reported as the millisecond before. -/
example : epochMillis 1082012070172000 = 1082012070171 := by decide +kernel

/-! ## Statuses -/

/-- The store answers a request for the metadata of an object with a size and a moment of the
calendar. -/
structure Served {σ : Type} (backend : Backend σ) (s s' : σ) (key : Key) (size : Nat) (t : Moment) :
    Prop where
  answer : ∃ length, backend.answer (.head key) s = (.ok (some ⟨length, .moment t⟩), s') ∧
    length.toInteger = .ok (size : Int)
  calendar : t.InCalendar

theorem Served.perform_statusOf {σ : Type} {backend : Backend σ} {s s' : σ} {key : Key} {size : Nat}
    {t : Moment} (h : Served backend s s' key size t) :
    (statusOf key).perform backend s =
      (some (.ok (some ⟨size, epochMillis t.epochMicros⟩)), s') := by
  obtain ⟨length, hanswer, hlength⟩ := h.answer
  have hhead : (Action.lift (Program.head key)).perform backend s =
      (some (.ok (.ok (some ⟨length, .moment t⟩))), s') := by
    show (some (Except.ok (backend.answer _ s).1), (backend.answer _ s).2) = _
    rw [hanswer]
  have hfinite : Metadata.isInfinite (some ⟨length, .moment t⟩) = false := by
    cases length <;> first | rfl | cases hlength
  have hmeasures : Metadata.measures? (some ⟨length, .moment t⟩) =
      some ((size : Int), epochMillis t.epochMicros) := by
    simp [Metadata.measures?, hlength, Except.toOption]
  have hstatus : Metadata.status key (some ⟨length, .moment t⟩) =
      .ok ⟨size, epochMillis t.epochMicros⟩ := by
    simp [Metadata.status, hfinite, hmeasures]
  unfold statusOf
  rw [Action.run_bind, hhead]
  dsimp only
  rw [hstatus]
  rfl

/-- The status of an object reports its modification time in milliseconds after two exact roundings:
off by at most one, not later than a moment from the epoch on while they are less than 2^42, and
monotone in the moment, for the metadata that any two stores serve. -/
theorem statusOf_millis {σ σ' : Type} {backend : Backend σ} {backend' : Backend σ'}
    {s₀ s₁ : σ} {s₀' s₁' : σ'} {key key' : Key} {size size' : Nat} {t t' : Moment}
    (h : Served backend s₀ s₁ key size t) (h' : Served backend' s₀' s₁' key' size' t') :
    ∃ millis millis' : Int,
      (statusOf key).perform backend s₀ = (some (.ok (some ⟨size, millis⟩)), s₁) ∧
      (statusOf key').perform backend' s₀' = (some (.ok (some ⟨size', millis'⟩)), s₁') ∧
      IsMillisOf t.epochMicros millis ∧ IsMillisOf t'.epochMicros millis' ∧
      (t.epochMicros ≤ t'.epochMicros → millis ≤ millis') ∧
      (millis < millis' → t.epochMicros < t'.epochMicros) := by
  have hlt := h.calendar.abs_epochMicros_lt
  have hlt' := h'.calendar.abs_epochMicros_lt
  refine ⟨_, _, h.perform_statusOf, h'.perform_statusOf, isMillisOf_epochMillis hlt,
    isMillisOf_epochMillis hlt', epochMillis_mono hlt hlt', fun hless => ?_⟩
  by_contra hswap
  exact absurd (epochMillis_mono hlt' hlt (not_lt.1 hswap)) (not_le.2 hless)

/-- A store with two objects, the second modified a millisecond after the first. -/
def twoAges : Memory :=
  ((Memory.empty ⟨1082012070172000, 1000⟩).storeObject "b" "f" [0] 0).storeObject "b" "g" [1] 0

theorem statusOf_millis_twoAges :
    ∃ memory memory' : Memory,
      Served (Memory.backend "b") twoAges memory "f" 1 ⟨1082012070172000, some 0⟩ ∧
      Served (Memory.backend "b") twoAges memory' "g" 1 ⟨1082012070173000, some 0⟩ ∧
      ∃ millis millis' : Int,
        (statusOf "f").perform (Memory.backend "b") twoAges =
          (some (.ok (some ⟨1, millis⟩)), memory) ∧
        (statusOf "g").perform (Memory.backend "b") twoAges =
          (some (.ok (some ⟨1, millis'⟩)), memory') ∧
        IsMillisOf 1082012070172000 millis ∧ millis ≤ millis' := by
  have hfirst : Served (Memory.backend "b") twoAges (twoAges.head "b" "f").2 "f" 1
      ⟨1082012070172000, some 0⟩ :=
    ⟨⟨.int 1, rfl, rfl⟩, Moment.inCalendar_of_clockFault? (by decide)⟩
  have hsecond : Served (Memory.backend "b") twoAges (twoAges.head "b" "g").2 "g" 1
      ⟨1082012070173000, some 0⟩ :=
    ⟨⟨.int 1, rfl, rfl⟩, Moment.inCalendar_of_clockFault? (by decide)⟩
  obtain ⟨millis, millis', hperform, hperform', hmillis, -, hle, -⟩ :=
    statusOf_millis hfirst hsecond
  exact ⟨_, _, hfirst, hsecond, millis, millis', hperform, hperform', hmillis, hle (by decide)⟩

end BucketTree
