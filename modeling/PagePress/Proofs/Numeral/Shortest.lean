import Mathlib
import PagePress.Proofs.Numeral.Rounding

namespace PagePress.Numeral

-- From a bound on the n-th powers; five has room for what the estimate loses.
theorem ten_zpow_le_of {g k : ℤ} (n m c : ℕ) (some : n ≠ 0)
    (raised : ((10 : ℚ) ^ n) ^ g ≤ (2 ^ m) ^ g) (room : (2 : ℚ) ^ c ≤ 5 ^ n)
    (less : m * g ≤ c + n * k) : (10 : ℚ) ^ g ≤ 5 * 2 ^ k := by
  have power : ((10 : ℚ) ^ g) ^ n ≤ (5 * 2 ^ k) ^ n :=
    calc ((10 : ℚ) ^ g) ^ n = (10 ^ n) ^ g := by
          rw [← zpow_natCast, ← zpow_natCast, ← zpow_mul, ← zpow_mul, mul_comm]
      _ ≤ (2 ^ m) ^ g := raised
      _ = 2 ^ (m * g) := by rw [← zpow_natCast, ← zpow_mul]
      _ ≤ 2 ^ (c + n * k) := two_zpow_le less
      _ = 2 ^ c * (2 ^ k) ^ n := by
          rw [two_zpow_add, zpow_natCast, mul_comm (n : ℤ), zpow_mul, zpow_natCast]
      _ ≤ 5 ^ n * (2 ^ k) ^ n := by gcongr
      _ = (5 * 2 ^ k) ^ n := (mul_pow _ _ _).symm
  exact le_of_pow_le_pow_left₀ some (by positivity) power

-- 30103 / 100000 is so near to the logarithm of two that it loses nothing here.
theorem ten_zpow_le {g k : ℤ} (ratio : 100000 * g ≤ 30103 * k) (low : -10000 ≤ k)
    (high : k ≤ 10000) : (10 : ℚ) ^ g ≤ 5 * 2 ^ k := by
  rcases le_total 0 g with up | down
  · have raised : ((10 : ℚ) ^ 31) ^ g ≤ (2 ^ 103) ^ g :=
      zpow_le_zpow_left₀ up (by norm_num) (by norm_num)
    exact ten_zpow_le_of 31 103 71 (by decide) raised (by norm_num) (by omega)
  · have raised : ((10 : ℚ) ^ 28) ^ g ≤ (2 ^ 93) ^ g := by
      obtain ⟨n, rfl⟩ := Int.exists_eq_neg_ofNat down
      rw [zpow_neg, zpow_neg]
      exact inv_anti₀ (by positivity)
        (zpow_le_zpow_left₀ (by positivity) (by norm_num) (by norm_num))
    exact ten_zpow_le_of 28 93 65 (by decide) raised (by norm_num) (by omega)

theorem ten_zpow_le_div_iff {num den : Nat} (pos : 0 < den) (e : ℤ) :
    (10 : ℚ) ^ e ≤ num / den ↔ den * 10 ^ e.toNat ≤ num * 10 ^ (-e).toNat := by
  have den_pos : (0 : ℚ) < den := by exact_mod_cast pos
  rw [← pow_toNat_div, div_le_div_iff₀ (by positivity) den_pos, mul_comm]
  norm_cast

theorem leadingExponent_le {num den : Nat} (some : 0 < num) (pos : 0 < den)
    (short : num.log2 ≤ 5000) (long : den.log2 ≤ 5000) :
    (10 : ℚ) ^ leadingExponent num den ≤ num / den := by
  obtain ⟨low, -⟩ := log2_bounds some pos
  rw [leadingExponent]
  set guess : ℤ := (((num.log2 : ℤ) - den.log2) * 30103).fdiv 100000 with chosen
  dsimp only
  split
  · rename_i reached
    exact (ten_zpow_le_div_iff pos _).mpr (of_decide_eq_true reached)
  · split
    · rename_i reached
      exact (ten_zpow_le_div_iff pos _).mpr (of_decide_eq_true reached)
    · have ratio : 100000 * guess ≤ 30103 * ((num.log2 : ℤ) - den.log2) := by
        rw [chosen, Int.fdiv_eq_ediv_of_nonneg _ (by decide)]
        omega
      have bound := ten_zpow_le ratio (by omega) (by omega)
      have tenth : (10 : ℚ) ^ (guess - 1) = 10 ^ guess / 10 := by
        rw [zpow_sub_one₀ (by norm_num), div_eq_mul_inv]
      have half : (2 : ℚ) ^ ((num.log2 : ℤ) - den.log2 - 1) =
          2 ^ ((num.log2 : ℤ) - den.log2) / 2 := by
        rw [zpow_sub_one₀ (by norm_num), div_eq_mul_inv]
      rw [tenth]
      rw [half] at low
      linarith

theorem two_zpow_le_ten {a b : ℤ} (ratio : 30103 * a + 169897 ≤ 100000 * b) (low : -1600 ≤ a)
    (high : a ≤ 10000) : (2 : ℚ) ^ a ≤ 10 ^ b := by
  have of_raised : ∀ {n m : ℕ}, n ≠ 0 → ((2 : ℚ) ^ n) ^ a ≤ (10 ^ m) ^ a → m * a ≤ n * b →
      (2 : ℚ) ^ a ≤ 10 ^ b := by
    intro n m some raised less
    have power : ((2 : ℚ) ^ a) ^ n ≤ (10 ^ b) ^ n :=
      calc ((2 : ℚ) ^ a) ^ n = (2 ^ n) ^ a := by
            rw [← zpow_natCast, ← zpow_natCast, ← zpow_mul, ← zpow_mul, mul_comm]
        _ ≤ (10 ^ m) ^ a := raised
        _ = 10 ^ (m * a) := by rw [← zpow_natCast, ← zpow_mul]
        _ ≤ 10 ^ (n * b) := zpow_le_zpow_right₀ (by norm_num) less
        _ = (10 ^ b) ^ n := by rw [mul_comm (n : ℤ), zpow_mul, zpow_natCast]
    exact le_of_pow_le_pow_left₀ some (by positivity) power
  rcases le_total 0 a with up | down
  · exact of_raised (by decide : 93 ≠ 0)
      (zpow_le_zpow_left₀ up (by norm_num) (by norm_num : (2 : ℚ) ^ 93 ≤ 10 ^ 28)) (by omega)
  · refine of_raised (by decide : 10 ≠ 0) (m := 3) ?_ (by omega)
    obtain ⟨n, rfl⟩ := Int.exists_eq_neg_ofNat down
    rw [zpow_neg, zpow_neg]
    exact inv_anti₀ (by positivity) (zpow_le_zpow_left₀ (by positivity) (by norm_num) (by norm_num))

theorem lt_leadingExponent {num den : Nat} (some : 0 < num) (pos : 0 < den)
    (short : num.log2 ≤ 5000) (long : den.log2 ≤ 1500) :
    (num : ℚ) / den < 10 ^ (leadingExponent num den + 2) := by
  obtain ⟨-, high⟩ := log2_bounds some pos
  rw [leadingExponent]
  set guess : ℤ := (((num.log2 : ℤ) - den.log2) * 30103).fdiv 100000 with chosen
  have past : ∀ {e lead : ℤ}, ¬den * 10 ^ e.toNat ≤ num * 10 ^ (-e).toNat → e ≤ lead + 2 →
      (num : ℚ) / den < 10 ^ (lead + 2) := by
    intro e lead missed le
    have less := not_le.mp (mt (ten_zpow_le_div_iff pos e).mp missed)
    exact less.trans_le (zpow_le_zpow_right₀ (by norm_num) le)
  dsimp only
  split
  · refine high.trans_le (two_zpow_le_ten ?_ (by omega) (by omega))
    rw [chosen, Int.fdiv_eq_ediv_of_nonneg _ (by decide)]
    omega
  · rename_i next
    rw [decide_eq_true_eq] at next
    split
    · exact past next (by omega)
    · exact past next (by omega)

namespace Interval

variable {i : Interval} {tie : Tie} {num den d : Nat}

def inside (i : Interval) (num den d : Nat) : Bool :=
  if i.closed then decide (i.low * num ≤ d * den ∧ d * den ≤ i.high * num)
  else decide (i.low * num < d * den ∧ d * den < i.high * num)

theorem onGrid?_cases (i : Interval) (tie : Tie) (num den : Nat) :
    (∃ d, i.onGrid? tie num den = some d ∧ i.inside num den d = true) ∨
      i.onGrid? tie num den = none ∧ i.inside num den (i.value * num / den) = false ∧
        i.inside num den (i.value * num / den + 1) = false := by
  cases before : i.inside num den (i.value * num / den) <;>
    cases behind : i.inside num den (i.value * num / den + 1)
  · refine .inr ⟨?_, rfl, rfl⟩
    rw [inside] at before behind
    simp only [onGrid?, before, behind]
  · refine .inl ⟨_, ?_, behind⟩
    rw [inside] at before behind
    simp only [onGrid?, before, behind]
  · refine .inl ⟨_, ?_, before⟩
    rw [inside] at before behind
    simp only [onGrid?, before, behind]
  · have both : i.onGrid? tie num den = some (i.value * num / den) ∨
        i.onGrid? tie num den = some (i.value * num / den + 1) := by
      rw [inside] at before behind
      simp only [onGrid?, before, behind]
      grind
    rcases both with found | found
    · exact .inl ⟨_, found, before⟩
    · exact .inl ⟨_, found, behind⟩

theorem inside_of_onGrid? (found : i.onGrid? tie num den = some d) :
    i.inside num den d = true := by
  rcases onGrid?_cases i tie num den with ⟨c, same, within⟩ | ⟨none_found, -, -⟩
  · cases same.symm.trans found
    exact within
  · cases none_found.symm.trans found

theorem le_low_of_not_inside (outside : i.inside num den d = false)
    (before : d * den < i.high * num) : d * den ≤ i.low * num := by
  rw [inside] at outside
  split at outside
  · have := of_decide_eq_false outside
    omega
  · have := of_decide_eq_false outside
    omega

theorem high_le_of_not_inside (outside : i.inside num den d = false)
    (beyond : i.low * num < d * den) : i.high * num ≤ d * den := by
  rw [inside] at outside
  split at outside
  · have := of_decide_eq_false outside
    omega
  · have := of_decide_eq_false outside
    omega

theorem isSome_onGrid? (pos : 0 < den) (low : i.low < i.value) (high : i.value < i.high)
    (some : 0 < num) (fine : den < (i.high - i.low) * num) :
    (i.onGrid? tie num den).isSome = true := by
  rcases onGrid?_cases i tie num den with ⟨d, found, -⟩ | ⟨-, before, behind⟩
  · rw [found]
    rfl
  · have below : i.value * num / den * den ≤ i.value * num := Nat.div_mul_le_self _ _
    have above : i.value * num < (i.value * num / den + 1) * den :=
      Nat.lt_mul_of_div_lt (Nat.lt_succ_self _) pos
    have low_lt : i.low * num < i.value * num := Nat.mul_lt_mul_of_pos_right low some
    have lt_high : i.value * num < i.high * num := Nat.mul_lt_mul_of_pos_right high some
    have left := le_low_of_not_inside before (by omega)
    have right := high_le_of_not_inside behind (by omega)
    rw [Nat.sub_mul] at fine
    rw [Nat.add_one_mul] at right
    omega

end Interval

theorem trimmed_value (n : Nat) (d : Decimal) :
    ((d.trimmed n).digits : ℚ) * 10 ^ (d.trimmed n).exponent = d.digits * 10 ^ d.exponent := by
  induction n generalizing d with
  | zero => rfl
  | succ n ih =>
    rw [Decimal.trimmed]
    split
    · rename_i ends
      have parts : d.digits = 10 * (d.digits / 10) := by omega
      rw [ih, zpow_add_one₀ (by norm_num)]
      conv_rhs => rw [parts]
      push_cast
      ring
    · rfl

theorem trimmed_digits_le (n : Nat) (d : Decimal) : (d.trimmed n).digits ≤ d.digits := by
  induction n generalizing d with
  | zero => exact Nat.le_refl _
  | succ n ih =>
    rw [Decimal.trimmed]
    split
    · exact (ih _).trans (Nat.div_le_self _ _)
    · exact Nat.le_refl _

section Found

variable {x : Binary64} {e : ℤ} {d : Nat}

-- A quarter unit of a number in steps of 10 ^ e.
def stepsNum (x : Binary64) (e : ℤ) : Nat := 2 ^ (x.exponent - 2).toNat * 10 ^ (-e).toNat
def stepsDen (x : Binary64) (e : ℤ) : Nat := 2 ^ (-(x.exponent - 2)).toNat * 10 ^ e.toNat

theorem stepsDen_pos (x : Binary64) (e : ℤ) : 0 < stepsDen x e := by
  rw [stepsDen]
  positivity

theorem stepsNum_pos (x : Binary64) (e : ℤ) : 0 < stepsNum x e := by
  rw [stepsNum]
  positivity

theorem stepsNum_mul (x : Binary64) (e : ℤ) :
    (stepsNum x e : ℚ) * 10 ^ e = quarter x * stepsDen x e := by
  have flipped : (10 : ℚ) ^ (-e).toNat / 10 ^ e.toNat = 10 ^ (-e) := by
    have := pow_toNat_div 10 (-e)
    rwa [neg_neg] at this
  have den_pos : (0 : ℚ) < stepsDen x e := by exact_mod_cast stepsDen_pos x e
  have ratio : (stepsNum x e : ℚ) / stepsDen x e = quarter x / 10 ^ e := by
    rw [stepsNum, stepsDen]
    push_cast
    rw [mul_div_mul_comm, pow_toNat_div, flipped, zpow_neg, ← div_eq_mul_inv, quarter]
  rwa [div_eq_div_iff den_pos.ne' (by positivity)] at ratio

section Compare

variable (x : Binary64) (e : ℤ) (a d : Nat)

theorem unit_scaled : (a * stepsNum x e : ℚ) * 10 ^ e = a * quarter x * stepsDen x e := by
  rw [mul_assoc, stepsNum_mul, mul_assoc]

theorem point_scaled : (d * stepsDen x e : ℚ) * 10 ^ e = d * 10 ^ e * stepsDen x e :=
  mul_right_comm _ _ _

theorem steps_le_iff : a * stepsNum x e ≤ d * stepsDen x e ↔ a * quarter x ≤ d * 10 ^ e := by
  have den_pos : (0 : ℚ) < stepsDen x e := by exact_mod_cast stepsDen_pos x e
  have step : (0 : ℚ) < 10 ^ e := by positivity
  rw [← mul_le_mul_iff_left₀ den_pos, ← unit_scaled, ← point_scaled, mul_le_mul_iff_left₀ step]
  norm_cast

theorem steps_ge_iff : d * stepsDen x e ≤ a * stepsNum x e ↔ d * 10 ^ e ≤ a * quarter x := by
  have den_pos : (0 : ℚ) < stepsDen x e := by exact_mod_cast stepsDen_pos x e
  have step : (0 : ℚ) < 10 ^ e := by positivity
  rw [← mul_le_mul_iff_left₀ den_pos, ← unit_scaled, ← point_scaled, mul_le_mul_iff_left₀ step]
  norm_cast

end Compare

theorem rounds_of_inside (within : (Interval.of x).inside (stepsNum x e) (stepsDen x e) d = true) :
    Rounds x (d * 10 ^ e) := by
  rw [Interval.inside] at within
  split at within
  · rename_i closed
    obtain ⟨low, high⟩ := of_decide_eq_true within
    exact ⟨(steps_le_iff x e _ d).mp low, (steps_ge_iff x e _ d).mp high, .inl closed⟩
  · obtain ⟨low, high⟩ := of_decide_eq_true within
    have low' := lt_of_not_ge (mt (steps_ge_iff x e _ d).mpr (not_le_of_gt low))
    have high' := lt_of_not_ge (mt (steps_le_iff x e _ d).mpr (not_le_of_gt high))
    exact ⟨low'.le, high'.le, .inr ⟨low', high'⟩⟩

theorem numerator_div (x : Binary64) :
    (x.numerator : ℚ) / x.denominator = 4 * x.mantissa * quarter x := by
  rw [Binary64.numerator, Binary64.denominator]
  push_cast
  rw [mul_div_assoc, pow_toNat_div, four_quarters]
  ring

theorem leadingExponent_numerator (nonzero : x.isZero = false) :
    (10 : ℚ) ^ leadingExponent x.numerator x.denominator ≤ 4 * x.mantissa * quarter x ∧
      4 * x.mantissa * quarter x < 10 ^ (leadingExponent x.numerator x.denominator + 2) := by
  have given := mantissa_pos nonzero
  have num_pos : 0 < x.numerator := Nat.mul_pos given (Nat.pow_pos (by decide))
  have bound : x.numerator < 2 ^ 1024 :=
    calc x.numerator < 2 ^ 53 * 2 ^ x.exponent.toNat :=
          Nat.mul_lt_mul_of_pos_right x.inRange.1 (Nat.pow_pos (by decide))
      _ = 2 ^ (53 + x.exponent.toNat) := (Nat.pow_add _ _ _).symm
      _ ≤ 2 ^ 1024 := Nat.pow_le_pow_right (by decide) (by have := x.inRange.2.2; omega)
  have short : x.numerator.log2 < 1024 := (Nat.log2_lt (Nat.pos_iff_ne_zero.mp num_pos)).mpr bound
  have long : x.denominator.log2 ≤ 1074 := by
    rw [Binary64.denominator, Nat.log2_two_pow]
    have := x.inRange.2.1
    omega
  rw [← numerator_div]
  exact ⟨leadingExponent_le num_pos (Nat.pow_pos (by decide)) (by omega) (by omega),
    lt_leadingExponent num_pos (Nat.pow_pos (by decide)) (by omega) (by omega)⟩

-- Sixteen places behind the first digit, a step of the grid is less than the interval.
theorem width_gt (nonzero : x.isZero = false) :
    4 * x.mantissa < 10 ^ 16 * ((Interval.of x).high - (Interval.of x).low) := by
  have given := mantissa_pos nonzero
  have small := x.inRange.1
  simp only [Interval.of]
  split <;> omega

theorem step_lt_width (nonzero : x.isZero = false) :
    (10 : ℚ) ^ (leadingExponent x.numerator x.denominator - 16) <
      ((Interval.of x).high - (Interval.of x).low : Nat) * quarter x := by
  have lead := (leadingExponent_numerator nonzero).1
  have width : (4 * x.mantissa : ℚ) <
      10 ^ 16 * ((Interval.of x).high - (Interval.of x).low : Nat) := by
    exact_mod_cast width_gt nonzero
  have scale : (10 : ℚ) ^ leadingExponent x.numerator x.denominator =
      10 ^ (leadingExponent x.numerator x.denominator - 16) * 10 ^ 16 := by
    rw [← zpow_natCast, ← zpow_add₀ (by norm_num)]
    congr 1
    push_cast
    ring
  have product := mul_lt_mul_of_pos_right width (quarter_pos x)
  rw [scale] at lead
  linarith

theorem found_seventeen (tie : Tie) (nonzero : x.isZero = false) :
    ((Interval.of x).onGrid? tie
      (stepsNum x (leadingExponent x.numerator x.denominator - 16))
      (stepsDen x (leadingExponent x.numerator x.denominator - 16))).isSome = true := by
  have given := mantissa_pos nonzero
  have wide := step_lt_width nonzero
  apply Interval.isSome_onGrid? (stepsDen_pos x _)
  · simp only [Interval.of]
    split <;> omega
  · simp only [Interval.of]
    omega
  · exact stepsNum_pos x _
  · rw [← not_le, ← Nat.one_mul (stepsDen x _), steps_le_iff, not_le]
    simpa using wide

theorem shortest_found (tie : Tie) (nonzero : x.isZero = false) :
    ∃ n d : ℕ, n < 17 ∧ Rounds x (d * 10 ^ (leadingExponent x.numerator x.denominator - n)) ∧
      shortest tie x =
        (Decimal.mk d (leadingExponent x.numerator x.denominator - n)).trimmed 17 := by
  set lead := leadingExponent x.numerator x.denominator with first
  set found := (List.range 17).findSome? fun (n : Nat) =>
    ((Interval.of x).onGrid? tie (stepsNum x (lead - n)) (stepsDen x (lead - n))).map fun d =>
      Decimal.mk d (lead - n) with search
  have some_found : found.isSome = true := by
    rw [search, List.findSome?_isSome_iff]
    refine ⟨16, by decide, ?_⟩
    rw [Option.isSome_map]
    exact found_seventeen tie nonzero
  obtain ⟨decimal, same⟩ := Option.isSome_iff_exists.mp some_found
  obtain ⟨n, member, here⟩ := List.exists_of_findSome?_eq_some (search ▸ same)
  obtain ⟨d, grid, rfl⟩ := Option.map_eq_some_iff.mp here
  refine ⟨n, d, List.mem_range.mp member,
    rounds_of_inside (Interval.inside_of_onGrid? grid), ?_⟩
  change (found.getD ⟨0, 0⟩).trimmed 17 = _
  rw [same, Option.getD_some]

end Found

theorem shortest_rounds (tie : Tie) {x : Binary64} (nonzero : x.isZero = false) :
    Rounds x ((shortest tie x).digits * 10 ^ (shortest tie x).exponent) := by
  obtain ⟨n, d, -, rounds, same⟩ := shortest_found tie nonzero
  rwa [same, trimmed_value]

theorem shortest_digits_lt (tie : Tie) {x : Binary64} (nonzero : x.isZero = false) :
    (shortest tie x).digits < 2 ^ 64 := by
  obtain ⟨n, d, few, rounds, same⟩ := shortest_found tie nonzero
  set lead := leadingExponent x.numerator x.denominator with first
  have least : (1 : ℚ) ≤ x.mantissa := by exact_mod_cast mantissa_pos nonzero
  have step : (0 : ℚ) < 10 ^ (lead - n) := by positivity
  have product : (d * 10 ^ (lead - n) : ℚ) < 2 * 10 ^ (n + 2) * 10 ^ (lead - n) := by
    have high := rounds.2.1
    rw [high_eq] at high
    have double := mul_le_mul_of_nonneg_right
      (show (4 * x.mantissa + 2 : ℚ) ≤ 2 * (4 * x.mantissa) by linarith) (quarter_pos x).le
    have scale : (10 : ℚ) ^ (lead + 2) = 10 ^ (n + 2) * 10 ^ (lead - n) := by
      rw [← zpow_natCast, ← zpow_add₀ (by norm_num)]
      congr 1
      push_cast
      ring
    have lead := (leadingExponent_numerator nonzero).2
    rw [← first, scale] at lead
    linarith
  have short : d < 2 * 10 ^ (n + 2) := by exact_mod_cast lt_of_mul_lt_mul_right product step.le
  have most : 10 ^ (n + 2) ≤ 10 ^ 18 := Nat.pow_le_pow_right (by decide) (by omega)
  have fits : d < 2 ^ 64 := by omega
  rw [same]
  exact (trimmed_digits_le 17 _).trans_lt fits

theorem ofDecimal?_of_value (tie : Tie) {x : Binary64} (nonzero : x.isZero = false) {digits : Nat}
    {e : ℤ} (same : (digits : ℚ) * 10 ^ e =
      (shortest tie x).digits * 10 ^ (shortest tie x).exponent) :
    Binary64.ofDecimal? x.negative digits e = some x := by
  have rounds := shortest_rounds tie nonzero
  rw [← same] at rounds
  exact ofDecimal?_of_rounds nonzero rounds

end PagePress.Numeral
