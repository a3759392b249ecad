import PagePress.Proofs.Numeral.Rounding

namespace PagePress

namespace Binary64

def sign (x : Binary64) : ℚ := if x.negative then -1 else 1

def value (x : Binary64) : ℚ := x.sign * (x.mantissa * 2 ^ x.exponent)

theorem numerator_div_denominator (x : Binary64) :
    (x.numerator : ℚ) / x.denominator = x.mantissa * 2 ^ x.exponent := by
  rw [numerator, denominator]
  push_cast
  rw [mul_div_assoc, Numeral.pow_toNat_div]

theorem denominator_pos (x : Binary64) : (0 : ℚ) < x.denominator := by
  rw [denominator]
  positivity

theorem compare_value (x y : Binary64) : x.compare y = Ord.compare x.value y.value := by
  -- Both values, times both denominators.
  have whole : ∀ z w : Binary64,
      (((if z.negative then -((z.numerator * w.denominator : Nat) : Int)
        else (z.numerator * w.denominator : Nat)) : Int) : ℚ) =
        z.value * (z.denominator * w.denominator) := by
    intro z w
    have exact : (z.numerator : ℚ) = z.mantissa * 2 ^ z.exponent * z.denominator := by
      rw [← numerator_div_denominator, div_mul_cancel₀ _ z.denominator_pos.ne']
    rw [value, sign]
    split <;> push_cast <;> rw [exact] <;> ring
  have scale := mul_pos x.denominator_pos y.denominator_pos
  rw [compare, ← cmp_eq_compare, ← cmp_eq_compare,
    ← (Int.cast_strictMono : StrictMono ((↑·) : ℤ → ℚ)).cmp_map_eq, whole, whole,
    mul_comm (y.denominator : ℚ), cmp_mul_pos_right scale]

end Binary64

namespace Numeral

structure Nearest (q : ℚ) (x : Binary64) : Prop where
  least : ∀ y : Binary64, |q - x.value| ≤ |q - y.value|
  even : ∀ y : Binary64, |q - y.value| = |q - x.value| → y.value = x.value ∨ x.mantissa % 2 = 0

namespace Nearest

variable {p q : ℚ} {x y : Binary64}

-- A number on one side of the value is on that side of the nearest one.
theorem value_le (near : Nearest q x) (y : Binary64) (le : y.value ≤ q) : y.value ≤ x.value := by
  have closer := near.least y
  rw [abs_of_nonneg (sub_nonneg.mpr le)] at closer
  linarith [le_abs_self (q - x.value)]

theorem le_value (near : Nearest q x) (y : Binary64) (le : q ≤ y.value) : x.value ≤ y.value := by
  have closer := near.least y
  rw [abs_sub_comm q y.value, abs_of_nonneg (sub_nonneg.mpr le)] at closer
  linarith [neg_abs_le (q - x.value)]

theorem compare_eq (near : Nearest q x) (y : Binary64) (other : y.value ≠ x.value) :
    compare x.value y.value = compare q y.value := by
  rcases lt_or_gt_of_ne other with below | above
  · have above := lt_of_not_ge (mt (near.le_value y) (not_le.mpr below))
    rw [compare_gt_iff_gt.mpr below, compare_gt_iff_gt.mpr above]
  · have below := lt_of_not_ge (mt (near.value_le y) (not_le.mpr above))
    rw [compare_lt_iff_lt.mpr above, compare_lt_iff_lt.mpr below]

theorem compare_eq_right (near : Nearest q x) (y : Binary64) (other : y.value ≠ x.value) :
    compare y.value x.value = compare y.value q := by
  have flipped := congrArg Ordering.swap (near.compare_eq y other)
  rwa [← cmp_eq_compare, ← cmp_eq_compare, cmp_swap, cmp_swap, cmp_eq_compare, cmp_eq_compare]
    at flipped

theorem mono (first : Nearest p x) (second : Nearest q y) (less : p < q) : x.value ≤ y.value := by
  by_contra crossed
  rw [not_le] at crossed
  -- Each number is the nearer one to its own value, so the values lie crossed as well.
  have above : x.value + y.value ≤ 2 * p := by
    have closer := sq_le_sq.mpr (first.least y)
    nlinarith
  have below : 2 * q ≤ x.value + y.value := by
    have closer := sq_le_sq.mpr (second.least x)
    nlinarith
  linarith

end Nearest

section Rounding

theorem roundDiv_halves (num : Nat) {den : Nat} (pos : 0 < den) :
    |(num : ℚ) / den - roundDiv .even num den| ≤ 1 / 2 ∧
      (roundDiv .even num den % 2 = 0 ∨ |(num : ℚ) / den - roundDiv .even num den| < 1 / 2) := by
  have den_pos : (0 : ℚ) < den := by exact_mod_cast pos
  have split : den * (num / den) + num % den = num := Nat.div_add_mod num den
  have product : den * (num / den + 1) = den * (num / den) + den := Nat.mul_succ _ _
  have halves : 2 * (den * roundDiv .even num den) ≤ 2 * num + den ∧
      2 * num ≤ 2 * (den * roundDiv .even num den) + den ∧
      (roundDiv .even num den % 2 = 0 ∨ 2 * (den * roundDiv .even num den) < 2 * num + den ∧
        2 * num < 2 * (den * roundDiv .even num den) + den) := by
    have small : num % den < den := Nat.mod_lt num pos
    rw [roundDiv]
    split
    · omega
    · split
      · omega
      · split <;> omega
  generalize roundDiv .even num den = m at halves
  obtain ⟨low, high, tie⟩ := halves
  have low' : (2 : ℚ) * (den * m) ≤ 2 * num + den := by exact_mod_cast low
  have high' : (2 : ℚ) * num ≤ 2 * (den * m) + den := by exact_mod_cast high
  refine ⟨abs_le.mpr ⟨?_, ?_⟩, ?_⟩
  · rw [le_sub_iff_add_le, le_div_iff₀ den_pos]
    linarith
  · rw [sub_le_iff_le_add, div_le_iff₀ den_pos]
    linarith
  · rcases tie with even | ⟨above, below⟩
    · exact .inl even
    · have above' : (2 : ℚ) * (den * m) < 2 * num + den := by exact_mod_cast above
      have below' : (2 : ℚ) * num < 2 * (den * m) + den := by exact_mod_cast below
      refine .inr (abs_lt.mpr ⟨?_, ?_⟩)
      · rw [lt_sub_iff_add_lt, lt_div_iff₀ den_pos]
        linarith
      · rw [sub_lt_iff_lt_add, div_lt_iff₀ den_pos]
        linarith

theorem multiple_or_less (y : Binary64) {q : ℚ} {e : ℤ} (unit : UnitOf q e) :
    (∃ j : ℤ, y.value = j * 2 ^ e) ∨ |y.value| < 2 ^ (e + 52) ∧ 2 ^ (e + 52) ≤ q := by
  rcases le_or_gt e y.exponent with le | less
  · left
    obtain ⟨n, more⟩ := Int.le.dest le
    refine ⟨(if y.negative then -1 else 1) * (y.mantissa * 2 ^ n), ?_⟩
    rw [Binary64.value, Binary64.sign, ← more, two_zpow_add, zpow_natCast]
    split <;> push_cast <;> ring
  · right
    have least := y.inRange.2.1
    refine ⟨?_, unit.above.resolve_left (by omega)⟩
    have magnitude : |y.value| = y.mantissa * 2 ^ y.exponent := by
      have size : |y.sign| = 1 := by
        rw [Binary64.sign]
        split <;> simp
      rw [Binary64.value, abs_mul, size, one_mul, abs_of_nonneg (by positivity)]
    calc |y.value| = y.mantissa * 2 ^ y.exponent := magnitude
      _ < 2 ^ 53 * 2 ^ y.exponent := by
          gcongr
          exact_mod_cast y.inRange.1
      _ = 2 ^ (53 + y.exponent) := by rw [two_zpow_add]; norm_num
      _ ≤ 2 ^ (e + 52) := two_zpow_le (by omega)

theorem nearest_multiple {q v : ℚ} {e : ℤ} {m : Nat} (half : |q / 2 ^ e - m| ≤ 1 / 2)
    (other : (∃ j : ℤ, v = j * 2 ^ e) ∨ |v| < 2 ^ (e + 52) ∧ 2 ^ (e + 52) ≤ q) :
    |q - m * 2 ^ e| ≤ |q - v| ∧
      (|q - v| = |q - m * 2 ^ e| → v = m * 2 ^ e ∨ |q / 2 ^ e - m| = 1 / 2) := by
  have unit := two_zpow_pos e
  have scale : ∀ r : ℚ, |q - r * 2 ^ e| = |q / 2 ^ e - r| * 2 ^ e := by
    intro r
    rw [← abs_of_pos unit, ← abs_mul, abs_of_pos unit, sub_mul, div_mul_cancel₀ _ unit.ne']
  -- Another integer is at least a half away.
  have apart : ∀ j : ℤ, (j : ℚ) = m ∨ 1 / 2 ≤ |q / 2 ^ e - j| := by
    intro j
    refine or_iff_not_imp_left.mpr fun differ => ?_
    have whole : (1 : ℚ) ≤ |(m : ℚ) - j| := by
      have : (1 : ℤ) ≤ |(m : ℤ) - j| := Int.one_le_abs (sub_ne_zero.mpr fun same => differ (by
        exact_mod_cast same.symm))
      exact_mod_cast this
    have triangle := abs_sub_le (m : ℚ) (q / 2 ^ e) j
    rw [abs_sub_comm (m : ℚ) (q / 2 ^ e)] at triangle
    linarith
  rcases other with ⟨j, rfl⟩ | ⟨less, reached⟩
  · rw [scale, scale]
    rcases apart j with same | away
    · rw [same]
      exact ⟨le_rfl, fun _ => .inl rfl⟩
    · refine ⟨mul_le_mul_of_nonneg_right (half.trans away) unit.le, fun equal => .inr ?_⟩
      have equal := mul_right_cancel₀ unit.ne' equal
      exact le_antisymm half (equal ▸ away)
  · have corner : |q - m * 2 ^ e| ≤ |q - ((2 : ℤ) ^ 52 : ℤ) * 2 ^ e| := by
      rw [scale, scale]
      refine mul_le_mul_of_nonneg_right ?_ unit.le
      rcases apart (2 ^ 52) with same | away
      · rw [same]
      · exact half.trans away
    have power : (((2 : ℤ) ^ 52 : ℤ) : ℚ) * 2 ^ e = 2 ^ (e + 52) := by
      rw [two_zpow_add]
      norm_num [mul_comm]
    rw [power, abs_of_nonneg (sub_nonneg.mpr reached)] at corner
    have farther : |q - m * 2 ^ e| < |q - v| := by
      linarith [le_abs_self (q - v), le_abs_self v]
    exact ⟨farther.le, fun equal => absurd equal farther.ne'⟩

-- How a value went to a number: in its unit, to an integer no farther than a half.
structure GoesTo (q : ℚ) (x : Binary64) (e : ℤ) (m : Nat) : Prop where
  unit : UnitOf q e
  product : x.mantissa * (2 : ℚ) ^ x.exponent = m * 2 ^ e
  half : |q / 2 ^ e - m| ≤ 1 / 2
  tie : x.mantissa % 2 = 0 ∨ |q / 2 ^ e - m| < 1 / 2

-- Half a unit beyond the largest number; from here on there is no nearest one.
def overflow : ℚ := (2 ^ 54 - 1) * 2 ^ (970 : ℤ)

theorem lt_overflow {q : ℚ} (small : q ≤ 2 ^ (1023 : ℤ)) : q < overflow :=
  calc q ≤ 2 ^ (53 + 970 : ℤ) := small
    _ = 2 ^ (53 : ℤ) * 2 ^ (970 : ℤ) := two_zpow_add 53 970
    _ < overflow := mul_lt_mul_of_pos_right (by norm_num) (two_zpow_pos 970)

theorem overflow_lt : overflow < 2 ^ (1024 : ℤ) :=
  calc overflow < 2 ^ (54 : ℤ) * 2 ^ (970 : ℤ) :=
        mul_lt_mul_of_pos_right (by norm_num) (two_zpow_pos 970)
    _ = 2 ^ (54 + 970 : ℤ) := (two_zpow_add 54 970).symm

namespace UnitOf

variable {q : ℚ} {e : ℤ} {m : Nat}

theorem le_largest (unit : UnitOf q e) (small : q < overflow) : e ≤ 971 := by
  rcases unit.above with rfl | reached
  · norm_num
  · have less := (zpow_lt_zpow_iff_right₀ (by norm_num : (1 : ℚ) < 2)).mp
      (reached.trans_lt (small.trans overflow_lt))
    omega

theorem mantissa_le (unit : UnitOf q e) (half : |q / 2 ^ e - m| ≤ 1 / 2) : m ≤ 2 ^ 53 := by
  have less := unit.below
  rw [add_comm, two_zpow_add, ← div_lt_iff₀ (two_zpow_pos e)] at less
  have next : (m : ℚ) < 2 ^ 53 + 1 := by
    norm_num at less
    linarith [(abs_le.mp half).1]
  exact Nat.lt_succ_iff.mp (by exact_mod_cast next)

theorem le_mantissa (unit : UnitOf q e) (half : |q / 2 ^ e - m| ≤ 1 / 2) :
    2 ^ 52 ≤ m ∨ e = -1074 := by
  refine unit.above.symm.imp (fun reached => ?_) id
  rw [add_comm, two_zpow_add, ← le_div_iff₀ (two_zpow_pos e)] at reached
  have next : (2 ^ 52 : ℚ) < m + 1 := by
    norm_num at reached
    linarith [(abs_le.mp half).2]
  exact Nat.lt_succ_iff.mp (by exact_mod_cast next)

-- At the largest unit the value is no half below the next power of two.
theorem lt_largest_of_full (unit : UnitOf q e) (small : q < overflow)
    (half : |q / 2 ^ e - (2 ^ 53 : Nat)| ≤ 1 / 2) : e ≤ 970 := by
  by_contra last
  obtain rfl : e = 971 := by
    have largest := unit.le_largest small
    omega
  have double : (2 : ℚ) ^ (971 : ℤ) = 2 ^ (1 : ℤ) * 2 ^ (970 : ℤ) := two_zpow_add 1 970
  have near : q / 2 ^ (971 : ℤ) < 2 ^ 53 - 1 / 2 := by
    rw [div_lt_iff₀ (two_zpow_pos 971)]
    calc q < (2 ^ 54 - 1) * 2 ^ (970 : ℤ) := small
      _ = (2 ^ 53 - 1 / 2) * 2 ^ (971 : ℤ) := by rw [double]; ring
  have whole : ((2 ^ 53 : Nat) : ℚ) = 2 ^ 53 := by norm_num
  have above := (abs_le.mp half).1
  rw [whole] at above
  linarith only [above, near]

end UnitOf

theorem nearest?_goesTo {num den : Nat} (given : 0 < num) (pos : 0 < den) (negative : Bool)
    (small : (num : ℚ) / den < overflow) :
    ∃ x e m, Binary64.nearest? negative num den = some x ∧ x.negative = negative ∧
      GoesTo (num / den) x e m := by
  have unit := unitOf_unitExponent given pos
  have scaled_pos : 0 < (scaled num den (unitExponent num den)).2 := scaled_pos pos _
  have halves := roundDiv_halves (scaled num den (unitExponent num den)).1 scaled_pos
  rw [scaled_value] at halves
  simp only [Binary64.nearest?]
  generalize unitExponent num den = e at unit halves
  generalize roundDiv .even (scaled num den e).1 (scaled num den e).2 = m at halves
  obtain ⟨half, tie⟩ := halves
  have least := unit.least
  by_cases full : m = 2 ^ 53
  · subst full
    have room := unit.lt_largest_of_full small half
    have fits : ((2 : Nat) ^ 52 < 2 ^ 53 ∧ -1074 ≤ e + 1 ∧ e + 1 ≤ 971) ∧
        ((2 : Nat) ^ 52 ≤ 2 ^ 52 ∨ e + 1 = -1074) :=
      ⟨⟨by norm_num, by omega, by omega⟩, .inl le_rfl⟩
    refine ⟨⟨negative, 2 ^ 52, e + 1, fits.1, fits.2⟩, e, 2 ^ 53, ?_, rfl, unit, ?_, half,
      .inl (by norm_num)⟩
    · rw [if_pos rfl]
      exact dif_pos fits
    · rw [two_zpow_add]
      norm_num
      ring
  · have upper := unit.mantissa_le half
    have fits : (m < 2 ^ 53 ∧ -1074 ≤ e ∧ e ≤ 971) ∧ (2 ^ 52 ≤ m ∨ e = -1074) :=
      ⟨⟨by omega, least, unit.le_largest small⟩, unit.le_mantissa half⟩
    refine ⟨⟨negative, m, e, fits.1, fits.2⟩, e, m, ?_, rfl, unit, rfl, half, tie⟩
    rw [if_neg full]
    exact dif_pos fits

theorem GoesTo.nearest {q : ℚ} {x : Binary64} {e : ℤ} {m : Nat} (goes : GoesTo q x e m) :
    Nearest (x.sign * q) x := by
  have value : x.value = x.sign * (m * 2 ^ e) := by rw [Binary64.value, goes.product]
  -- The sign of the number moves to the other one.
  have mirrored : ∀ v w : ℚ, |x.sign * v - w| = |v - x.sign * w| := by
    intro v w
    rw [Binary64.sign]
    split
    · rw [← abs_neg]
      ring_nf
    · ring_nf
  have twice : ∀ w : ℚ, x.sign * (x.sign * w) = w := by
    intro w
    rw [Binary64.sign]
    split <;> ring
  have against : ∀ y : Binary64,
      |q - m * 2 ^ e| ≤ |q - x.sign * y.value| ∧ (|q - x.sign * y.value| = |q - m * 2 ^ e| →
        x.sign * y.value = m * 2 ^ e ∨ |q / 2 ^ e - m| = 1 / 2) := by
    intro y
    refine nearest_multiple goes.half ?_
    rw [Binary64.sign]
    split
    · refine (multiple_or_less y goes.unit).imp ?_ ?_
      · rintro ⟨j, same⟩
        exact ⟨-j, by rw [same]; push_cast; ring⟩
      · rw [neg_one_mul, abs_neg]
        exact id
    · rw [one_mul]
      exact multiple_or_less y goes.unit
  refine ⟨fun y => ?_, fun y equal => ?_⟩
  · rw [mirrored, mirrored, value, twice]
    exact (against y).1
  · rw [mirrored, mirrored, value, twice] at equal
    rcases (against y).2 equal with same | tied
    · exact .inl (by rw [value, ← same, twice])
    · exact .inr (goes.tie.resolve_right tied.not_lt)

theorem ofInt_goesTo {n : ℤ} (nonzero : n ≠ 0) (small : (n.natAbs : ℚ) < overflow) :
    (Binary64.ofInt n).negative = decide (n < 0) ∧
      ∃ e m, GoesTo n.natAbs (Binary64.ofInt n) e m := by
  rw [← div_one (n.natAbs : ℚ), ← Nat.cast_one] at small
  obtain ⟨x, e, m, found, negative, goes⟩ := nearest?_goesTo (Int.natAbs_pos.mpr nonzero)
    one_pos (decide (n < 0)) small
  rw [Nat.cast_one, div_one] at goes
  rw [Binary64.ofInt, found, Option.getD_some]
  exact ⟨negative, e, m, goes⟩

theorem ofInt_nearest {n : ℤ} (small : (n.natAbs : ℚ) < overflow) :
    Nearest n (Binary64.ofInt n) := by
  rcases eq_or_ne n 0 with rfl | nonzero
  · have zero : (Binary64.zero false).value = 0 := by simp [Binary64.value, Binary64.zero]
    have none : Binary64.nearest? (decide ((0 : ℤ) < 0)) (0 : ℤ).natAbs 1 = none := by decide
    rw [Binary64.ofInt, none, Option.getD_none]
    refine ⟨fun y => ?_, fun y equal => .inl ?_⟩
    · rw [zero]
      simp
    · rw [zero] at equal ⊢
      simpa using equal
  · obtain ⟨negative, e, m, goes⟩ := ofInt_goesTo nonzero small
    have signed : (Binary64.ofInt n).sign * n.natAbs = n := by
      rw [Binary64.sign, negative, Nat.cast_natAbs]
      rcases lt_or_ge n 0 with below | above
      · rw [abs_of_neg below, if_pos (decide_eq_true below)]
        push_cast
        ring
      · rw [abs_of_nonneg above, if_neg (by simpa using above), one_mul]
    have near := goes.nearest
    rwa [signed] at near

theorem natAbs_lt_overflow {n : ℤ} (fits : -2 ^ 63 ≤ n ∧ n < 2 ^ 64) :
    (n.natAbs : ℚ) < overflow := by
  have bound : n.natAbs ≤ 2 ^ 64 := by omega
  refine lt_overflow ?_
  calc (n.natAbs : ℚ) ≤ 2 ^ (64 : ℤ) := by exact_mod_cast bound
    _ ≤ 2 ^ (1023 : ℤ) := two_zpow_le (by norm_num)

end Rounding

end Numeral

end PagePress
