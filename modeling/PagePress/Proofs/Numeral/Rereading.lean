import PagePress.Json.Reader
import PagePress.Proofs.Numeral.Nearest
import PagePress.Proofs.Numeral.Shortest

namespace PagePress

namespace Binary64
open Numeral

def magnitude (x : Binary64) : ℚ := x.numerator / x.denominator

theorem magnitude_nonneg (x : Binary64) : 0 ≤ x.magnitude := by
  rw [magnitude]
  positivity

theorem magnitude_lt_overflow (x : Binary64) : x.magnitude < overflow := by
  have mantissa : (x.mantissa : ℚ) ≤ 2 ^ 53 - 1 := by
    rw [le_sub_iff_add_le]
    exact_mod_cast x.inRange.1
  rw [magnitude, numerator_div_denominator]
  calc (x.mantissa : ℚ) * 2 ^ x.exponent ≤ (2 ^ 53 - 1) * 2 ^ (971 : ℤ) :=
        mul_le_mul mantissa (two_zpow_le x.inRange.2.2) (two_zpow_pos _).le (by norm_num)
    _ = (2 ^ 54 - 2) * 2 ^ (970 : ℤ) := by rw [show (971 : ℤ) = 1 + 970 by rfl, two_zpow_add]; ring
    _ < overflow := mul_lt_mul_of_pos_right (by norm_num) (two_zpow_pos 970)

theorem numerator_pos {x : Binary64} (nonzero : x.isZero = false) : 0 < x.numerator :=
  Nat.mul_pos (mantissa_pos nonzero) (Nat.pow_pos (by decide))

theorem denominator_nat_pos (x : Binary64) : 0 < x.denominator := Nat.pow_pos (by decide)

theorem times?_some {x y : Binary64} (small : x.magnitude * y.magnitude < overflow) :
    (x.times? y).isSome = true := by
  rw [times?]
  split
  · rfl
  · rename_i nonzero
    obtain ⟨first, second⟩ := Bool.or_eq_false_iff.mp (Bool.eq_false_iff.mpr nonzero)
    obtain ⟨z, e, m, found, -⟩ := nearest?_goesTo
      (Nat.mul_pos (numerator_pos first) (numerator_pos second))
      (Nat.mul_pos x.denominator_nat_pos y.denominator_nat_pos) (x.negative != y.negative) (by
        push_cast
        rwa [← div_mul_div_comm])
    rw [found]
    rfl

theorem over?_some (x : Binary64) {y : Binary64} (large : 1 ≤ y.magnitude) :
    (x.over? y).isSome = true := by
  have given : y.isZero = false := by
    by_contra zero
    have none : y.mantissa = 0 := by simpa [isZero] using zero
    rw [magnitude, numerator, none] at large
    norm_num at large
  rw [over?]
  split
  · rfl
  · rename_i nonzero
    have small : ((x.numerator * y.denominator : Nat) : ℚ) / (x.denominator * y.numerator : Nat) <
        overflow := by
      push_cast
      rw [← div_mul_div_comm, ← inv_div (y.numerator : ℚ)]
      exact (mul_le_of_le_one_right x.magnitude_nonneg (inv_le_one_of_one_le₀ large)).trans_lt
        x.magnitude_lt_overflow
    obtain ⟨z, e, m, found, -⟩ := nearest?_goesTo
      (Nat.mul_pos (numerator_pos (Bool.eq_false_iff.mpr nonzero)) y.denominator_nat_pos)
      (Nat.mul_pos x.denominator_nat_pos (numerator_pos given)) (x.negative != y.negative) small
    rw [found]
    rfl

theorem value_of_positive {x : Binary64} (positive : x.negative = false) :
    x.value = x.magnitude := by
  rw [value, sign, positive, if_neg Bool.false_ne_true, one_mul, magnitude,
    numerator_div_denominator]

end Binary64

namespace Numeral

-- A value of one or more grows by half a unit at the most where it is rounded.
theorem GoesTo.le_grown {q : ℚ} {x : Binary64} {e : ℤ} {m : Nat} (goes : GoesTo q x e m)
    (large : 1 ≤ q) : x.magnitude ≤ q * (1 + 1 / 2 ^ 53) := by
  have power := two_zpow_pos e
  have reached : (2 : ℚ) ^ (52 : ℤ) * 2 ^ e ≤ q := by
    rw [← two_zpow_add, add_comm]
    rcases goes.unit.above with rfl | reached
    · exact (zpow_le_one_of_nonpos₀ (by norm_num) (by norm_num)).trans large
    · exact reached
  have near := (abs_le.mp goes.half).1
  have upper : (m : ℚ) * 2 ^ e ≤ q + 1 / 2 * 2 ^ e := by
    have scaled := mul_le_mul_of_nonneg_right
      (show (m : ℚ) ≤ q / 2 ^ e + 1 / 2 by linarith) power.le
    rwa [add_mul, div_mul_cancel₀ _ power.ne'] at scaled
  rw [Binary64.magnitude, Binary64.numerator_div_denominator, goes.product]
  norm_num at reached upper ⊢
  linarith

end Numeral

namespace Json
open Numeral

section TenPower

variable {k : Nat} (within : k ≤ maxTenPower)
include within

theorem ten_pow_lt_overflow : (((10 : ℤ) ^ k).natAbs : ℚ) < overflow := by
  have few : k ≤ 28 * 11 := within
  rw [Int.natAbs_pow]
  push_cast
  calc (10 : ℚ) ^ k ≤ 10 ^ (28 * 11) := pow_le_pow_right₀ (by norm_num) few
    _ = (10 ^ 28) ^ 11 := pow_mul _ _ _
    _ ≤ (101 / 100 * 2 ^ (93 : ℤ)) ^ 11 := by gcongr; norm_num
    _ = (101 / 100) ^ 11 * (2 ^ (53 : ℤ) * 2 ^ (970 : ℤ)) := by
        rw [mul_pow, ← two_zpow_add, ← zpow_natCast (2 ^ (93 : ℤ)), ← zpow_mul]
        rfl
    _ = (101 / 100) ^ 11 * 2 ^ (53 : ℤ) * 2 ^ (970 : ℤ) := (mul_assoc _ _ _).symm
    _ < overflow := mul_lt_mul_of_pos_right (by norm_num) (two_zpow_pos 970)

theorem tenPower_positive : (tenPower k).negative = false := by
  have sign := (ofInt_goesTo (pow_ne_zero k (by decide)) (ten_pow_lt_overflow within)).1
  rw [tenPower, sign]
  simp

theorem one_le_tenPower : 1 ≤ (tenPower k).magnitude := by
  have near := ofInt_nearest (ten_pow_lt_overflow within)
  have one : (⟨false, 2 ^ 52, -52, by decide, by decide⟩ : Binary64).value = 1 := by
    norm_num [Binary64.value, Binary64.sign]
  have reached := near.value_le ⟨false, 2 ^ 52, -52, by decide, by decide⟩ (by
    rw [one]
    exact_mod_cast Nat.one_le_pow k 10 (by decide))
  rwa [one, ← tenPower, Binary64.value_of_positive (tenPower_positive within)] at reached

theorem tenPower_le_grown : (tenPower k).magnitude ≤ 10 ^ k * (1 + 1 / 2 ^ 53) := by
  obtain ⟨-, e, m, goes⟩ := ofInt_goesTo (pow_ne_zero k (by decide)) (ten_pow_lt_overflow within)
  rw [Int.natAbs_pow] at goes
  push_cast at goes
  exact goes.le_grown (one_le_pow₀ (by norm_num))

end TenPower

theorem isSome_shifted?_of_neg (x : Binary64) (e : Int) (below : e < 0) :
    (shifted? x e).isSome = true := by
  induction x, e using shifted?.induct with
  | case1 x e near up => omega
  | case2 x e near down =>
    rw [shifted?, if_pos near, if_neg down]
    exact x.over?_some (one_le_tenPower near)
  | case3 x e far zero =>
    rw [shifted?, if_neg far, if_pos zero]
    rfl
  | case4 x e far nonzero up => omega
  | case5 x e far nonzero down ih =>
    obtain ⟨y, quotient⟩ := Option.isSome_iff_exists.mp
      (x.over?_some (one_le_tenPower (Nat.le_refl maxTenPower)))
    rw [shifted?, if_neg far, if_neg nonzero, if_neg down, quotient, Option.bind_some]
    refine ih y ?_
    simp only [maxTenPower] at far ⊢
    omega

-- Where rounding three times over, once for each factor and once for the product, leaves room.
theorem isSome_shifted?_of_room {digits k : Nat} (given : 0 < digits) (within : k ≤ maxTenPower)
    (room : (digits * 10 ^ k : ℚ) * ((1 + 1 / 2 ^ 53) * (1 + 1 / 2 ^ 53)) < overflow) :
    (shifted? (Binary64.ofInt digits) k).isSome = true := by
  have fits : (((digits : ℤ).natAbs : Nat) : ℚ) < overflow := by
    rw [Int.natAbs_natCast]
    refine lt_of_le_of_lt ?_ room
    rw [mul_assoc]
    refine le_mul_of_one_le_right (Nat.cast_nonneg digits) (one_le_mul_of_one_le_of_one_le ?_ ?_)
    · exact one_le_pow₀ (by norm_num)
    · norm_num
  obtain ⟨-, e, m, goes⟩ := ofInt_goesTo (show (digits : ℤ) ≠ 0 by omega) fits
  rw [Int.natAbs_natCast] at goes
  have first := goes.le_grown (by exact_mod_cast given)
  have second := tenPower_le_grown within
  rw [shifted?, Int.natAbs_natCast, if_pos within, if_pos (Int.natCast_nonneg k)]
  refine Binary64.times?_some (lt_of_le_of_lt ?_ room)
  calc (Binary64.ofInt digits).magnitude * (tenPower k).magnitude
      ≤ digits * (1 + 1 / 2 ^ 53) * (10 ^ k * (1 + 1 / 2 ^ 53)) :=
        mul_le_mul first second (Binary64.magnitude_nonneg _) (by positivity)
    _ = digits * 10 ^ k * ((1 + 1 / 2 ^ 53) * (1 + 1 / 2 ^ 53)) := by ring

theorem power_le_of_rounds {x : Binary64} {digits : Nat} {e : ℤ} (given : 0 < digits)
    (rounds : Rounds x (digits * 10 ^ e)) : e ≤ 308 := by
  by_contra more
  have first : (1 : ℚ) ≤ digits := by exact_mod_cast given
  have long : (10 : ℚ) ^ (309 : ℤ) ≤ digits * 10 ^ e :=
    calc (10 : ℚ) ^ (309 : ℤ) ≤ 10 ^ e := zpow_le_zpow_right₀ (by norm_num) (by omega)
      _ ≤ digits * 10 ^ e := le_mul_of_one_le_left (by positivity) first
  have short := rounds.lt.trans_le (two_zpow_le (show x.exponent + 53 ≤ 1024 by
    linarith [x.inRange.2.2]))
  have less : (2 : ℚ) ^ (1024 : ℤ) ≤ 10 ^ (309 : ℤ) :=
    calc (2 : ℚ) ^ (1024 : ℤ) ≤ 2 ^ (93 * 11 + 3 : ℤ) := two_zpow_le (by norm_num)
      _ = (2 ^ (93 : ℤ)) ^ (11 : ℤ) * 2 ^ (3 : ℤ) := by rw [two_zpow_add, zpow_mul]
      _ ≤ (10 ^ (28 : ℤ)) ^ (11 : ℤ) * 10 ^ (1 : ℤ) := by
          gcongr <;> norm_num
      _ = 10 ^ (309 : ℤ) := by rw [← zpow_mul, ← zpow_add₀ (by norm_num)]; rfl
  exact lt_irrefl _ ((long.trans_lt short).trans_le less)

-- All but the largest three numbers of either sign have room.
theorem room_of_rounds {x : Binary64} {value : ℚ} (rounds : Rounds x value)
    (room : x.exponent < 971 ∨ x.mantissa + 4 ≤ 2 ^ 53) :
    value * ((1 + 1 / 2 ^ 53) * (1 + 1 / 2 ^ 53)) < overflow := by
  have upper : value ≤ (x.mantissa + 1 / 2) * 2 ^ x.exponent := by
    have high := rounds.2.1
    rw [high_eq] at high
    rw [four_quarters]
    linarith
  have below : (x.mantissa + 1 / 2 : ℚ) * 2 ^ x.exponent ≤ (2 ^ 54 - 7) * 2 ^ (970 : ℤ) := by
    rcases room with small | few
    · have mantissa : (x.mantissa : ℚ) + 1 ≤ 2 ^ 53 := by exact_mod_cast x.inRange.1
      exact mul_le_mul (by linarith) (two_zpow_le (by omega)) (two_zpow_pos _).le (by norm_num)
    · have mantissa : (x.mantissa : ℚ) + 4 ≤ 2 ^ 53 := by exact_mod_cast few
      calc (x.mantissa + 1 / 2 : ℚ) * 2 ^ x.exponent
          ≤ (2 ^ 53 - 7 / 2) * 2 ^ (1 + 970 : ℤ) :=
            mul_le_mul (by linarith) (two_zpow_le x.inRange.2.2) (two_zpow_pos _).le (by norm_num)
        _ = (2 ^ 54 - 7) * 2 ^ (970 : ℤ) := by rw [two_zpow_add]; ring
  calc value * ((1 + 1 / 2 ^ 53) * (1 + 1 / 2 ^ 53))
      ≤ (2 ^ 54 - 7) * 2 ^ (970 : ℤ) * ((1 + 1 / 2 ^ 53) * (1 + 1 / 2 ^ 53)) :=
        mul_le_mul_of_nonneg_right (upper.trans below) (by norm_num)
    _ = (2 ^ 54 - 7) * ((1 + 1 / 2 ^ 53) * (1 + 1 / 2 ^ 53)) * 2 ^ (970 : ℤ) := by ring
    _ < overflow := mul_lt_mul_of_pos_right (by norm_num) (two_zpow_pos 970)

-- The largest three are written with these digits, and read without growing too large.
theorem largest_shifted? {x : Binary64} (unit : x.exponent = 971) (many : 2 ^ 53 < x.mantissa + 4) :
    ∃ digits, shortest .even x = ⟨digits, 292⟩ ∧
      (shifted? (Binary64.ofInt digits) 292).isSome = true := by
  have read : ∀ digits ∈ [17976931348623157, 17976931348623155, 17976931348623153],
      (shifted? (Binary64.ofInt digits) 292).isSome = true := by
    intro digits
    rw [shifted?, if_pos (show (292 : ℤ).natAbs ≤ maxTenPower by decide),
      if_pos (show (0 : ℤ) ≤ 292 by decide)]
    revert digits
    decide +kernel
  obtain ⟨negative, mantissa, exponent, inRange, normal⟩ := x
  obtain rfl : exponent = 971 := unit
  have few : mantissa = 2 ^ 53 - 1 ∨ mantissa = 2 ^ 53 - 2 ∨ mantissa = 2 ^ 53 - 3 := by
    have upper := inRange.1
    dsimp only at many
    omega
  clear many
  rcases few with rfl | rfl | rfl
  · refine ⟨17976931348623157, ?_, read _ (by decide)⟩
    revert negative inRange normal
    decide +kernel
  · refine ⟨17976931348623155, ?_, read _ (by decide)⟩
    revert negative inRange normal
    decide +kernel
  · refine ⟨17976931348623153, ?_, read _ (by decide)⟩
    revert negative inRange normal
    decide +kernel
theorem isSome_shifted?_shortest {x : Binary64} (nonzero : x.isZero = false) :
    (shifted? (Binary64.ofInt (shortest .even x).digits) (shortest .even x).exponent).isSome =
      true := by
  have rounds := shortest_rounds .even nonzero
  have given := digits_pos_of_rounds nonzero rounds
  have most := power_le_of_rounds given rounds
  rcases lt_or_ge (shortest .even x).exponent 0 with below | above
  · exact isSome_shifted?_of_neg _ _ below
  · by_cases room : x.exponent < 971 ∨ x.mantissa + 4 ≤ 2 ^ 53
    · obtain ⟨k, power⟩ := Int.eq_ofNat_of_zero_le above
      have fits := room_of_rounds rounds room
      rw [power] at most fits ⊢
      rw [zpow_natCast] at fits
      exact isSome_shifted?_of_room given (by simp only [maxTenPower]; omega) fits
    · obtain ⟨unit, many⟩ := not_or.mp room
      have last := x.inRange.2.2
      obtain ⟨digits, same, read⟩ := largest_shifted? (x := x) (by omega) (by omega)
      rwa [same]

end Json

end PagePress
