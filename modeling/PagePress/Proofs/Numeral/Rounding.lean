import Mathlib
import PagePress.Numeral.Shortest

namespace PagePress.Numeral

theorem pow_toNat_div (b : ℚ) (e : ℤ) : b ^ e.toNat / b ^ (-e).toNat = b ^ e := by
  rcases le_total 0 e with up | down
  · obtain ⟨n, rfl⟩ := Int.eq_ofNat_of_zero_le up
    simp
  · obtain ⟨n, rfl⟩ := Int.exists_eq_neg_ofNat down
    simp

theorem two_zpow_pos (e : ℤ) : (0 : ℚ) < 2 ^ e := zpow_pos (by norm_num) e

theorem two_zpow_add (a b : ℤ) : (2 : ℚ) ^ (a + b) = 2 ^ a * 2 ^ b := zpow_add₀ (by norm_num) a b

theorem two_zpow_le {a b : ℤ} (le : a ≤ b) : (2 : ℚ) ^ a ≤ 2 ^ b :=
  zpow_le_zpow_right₀ (by norm_num) le

theorem scaled_value (num den : Nat) (e : ℤ) :
    ((scaled num den e).1 : ℚ) / (scaled num den e).2 = num / den / 2 ^ e := by
  have parts : ((scaled num den e).1 : ℚ) / (scaled num den e).2 =
      num / den * (2 ^ (-e).toNat / 2 ^ (- -e).toNat) := by
    simp only [scaled, neg_neg]
    push_cast
    rw [mul_div_mul_comm]
  rw [parts, pow_toNat_div, zpow_neg, ← div_eq_mul_inv]

theorem scaled_pos {num den : Nat} (pos : 0 < den) (e : ℤ) : 0 < (scaled num den e).2 :=
  Nat.mul_pos pos (Nat.pow_pos (by decide))

theorem log2_bounds {num den : Nat} (some : 0 < num) (pos : 0 < den) :
    (2 : ℚ) ^ ((num.log2 : ℤ) - den.log2 - 1) < num / den ∧
      (num : ℚ) / den < 2 ^ ((num.log2 : ℤ) - den.log2 + 1) := by
  have above : ∀ {n : Nat}, 0 < n → (2 : ℚ) ^ (n.log2 : ℤ) ≤ n := by
    intro n given
    rw [zpow_natCast]
    exact_mod_cast Nat.log2_self_le (Nat.pos_iff_ne_zero.mp given)
  have below : ∀ n : Nat, (n : ℚ) < 2 ^ ((n.log2 : ℤ) + 1) := by
    intro n
    have less : n < 2 ^ (n.log2 + 1) := Nat.lt_log2_self
    rw [← Nat.cast_succ, zpow_natCast]
    exact_mod_cast less
  have den_pos : (0 : ℚ) < den := by exact_mod_cast pos
  constructor
  · rw [lt_div_iff₀ den_pos]
    calc (2 : ℚ) ^ ((num.log2 : ℤ) - den.log2 - 1) * den
        < 2 ^ ((num.log2 : ℤ) - den.log2 - 1) * 2 ^ ((den.log2 : ℤ) + 1) :=
          mul_lt_mul_of_pos_left (below den) (two_zpow_pos _)
      _ = 2 ^ (num.log2 : ℤ) := by rw [← two_zpow_add]; congr 1; ring
      _ ≤ num := above some
  · rw [div_lt_iff₀ den_pos]
    calc (num : ℚ) < 2 ^ ((num.log2 : ℤ) + 1) := below num
      _ = 2 ^ ((num.log2 : ℤ) - den.log2 + 1) * 2 ^ (den.log2 : ℤ) := by
          rw [← two_zpow_add]; congr 1; ring
      _ ≤ 2 ^ ((num.log2 : ℤ) - den.log2 + 1) * den :=
          mul_le_mul_of_nonneg_left (above pos) (two_zpow_pos _).le

structure UnitOf (value : ℚ) (e : ℤ) : Prop where
  least : -1074 ≤ e
  below : value < 2 ^ (e + 53)
  above : e = -1074 ∨ 2 ^ (e + 52) ≤ value

theorem UnitOf.unique {value : ℚ} {a b : ℤ} (one : UnitOf value a) (two : UnitOf value b) :
    a = b := by
  have bounded : ∀ {a b : ℤ}, UnitOf value a → UnitOf value b → b ≤ a := by
    intro a b one two
    rcases two.above with rfl | above
    · exact one.least
    · have less : (2 : ℚ) ^ (b + 52) < 2 ^ (a + 53) := above.trans_lt one.below
      have order := (zpow_lt_zpow_iff_right₀ (by norm_num : (1 : ℚ) < 2)).mp less
      omega
  exact le_antisymm (bounded two one) (bounded one two)

theorem unitOf_unitExponent {num den : Nat} (some : 0 < num) (pos : 0 < den) :
    UnitOf (num / den) (unitExponent num den) := by
  obtain ⟨low, high⟩ := log2_bounds some pos
  rw [unitExponent]
  set guess : ℤ := max (-1074) ((num.log2 : ℤ) - den.log2 - 53) with chosen
  have scaled_lt : (scaled num den guess).1 / (scaled num den guess).2 < 2 ^ 53 ↔
      (num : ℚ) / den < 2 ^ (guess + 53) := by
    have den_pos : 0 < (scaled num den guess).2 := scaled_pos pos guess
    have units : (num : ℚ) / den / 2 ^ guess < 2 ^ 53 ↔ (num : ℚ) / den < 2 ^ (guess + 53) := by
      rw [div_lt_iff₀ (two_zpow_pos _), mul_comm, two_zpow_add]
      norm_cast
    rw [← units, ← scaled_value, div_lt_iff₀ (by exact_mod_cast den_pos),
      Nat.div_lt_iff_lt_mul den_pos]
    norm_cast
  dsimp only
  split
  · rename_i less
    refine ⟨by omega, scaled_lt.mp less, ?_⟩
    by_cases least : guess = -1074
    · exact .inl least
    · exact .inr ((two_zpow_le (by omega)).trans low.le)
  · rename_i more
    refine ⟨by omega, high.trans_le (two_zpow_le (by omega)), .inr ?_⟩
    have reached := not_lt.mp (mt scaled_lt.mpr more)
    rwa [show guess + 1 + 52 = guess + 53 by ring]

-- A quotient no farther than a half from an integer; where it is just that far, an even one. All
-- of it times twice the denominator.
theorem roundDiv_even_of_halves {num den m : Nat} (pos : 0 < den)
    (low : 2 * (den * m) ≤ 2 * num + den) (high : 2 * num ≤ 2 * (den * m) + den)
    (tie : m % 2 = 0 ∨ 2 * (den * m) < 2 * num + den ∧ 2 * num < 2 * (den * m) + den) :
    roundDiv .even num den = m := by
  have split : den * (num / den) + num % den = num := Nat.div_add_mod num den
  have small : num % den < den := Nat.mod_lt num pos
  -- The quotient cut off is `m` or the one before.
  have upper : num / den ≤ m := by
    by_contra more
    have := Nat.mul_le_mul_left den (Nat.succ_le_of_lt (Nat.lt_of_not_le more))
    rw [Nat.mul_succ] at this
    omega
  have lower : m ≤ num / den + 1 := by
    by_contra more
    have := Nat.mul_le_mul_left den (Nat.succ_le_of_lt (Nat.lt_of_not_le more))
    rw [Nat.mul_succ, Nat.mul_succ] at this
    omega
  rw [roundDiv]
  rcases Nat.lt_or_ge (num / den) m with before | reached
  · have next : m = num / den + 1 := by omega
    have product : den * m = den * (num / den) + den := by rw [next, Nat.mul_succ]
    rw [if_neg (by omega)]
    split
    · omega
    · rw [if_neg (by omega)]
      omega
  · have same : num / den = m := by omega
    rw [same] at split ⊢
    split
    · rfl
    · rw [if_neg (by omega), if_pos (by omega)]

theorem roundDiv_even {num den m : Nat} (pos : 0 < den) (low : (m : ℚ) - 1 / 2 ≤ num / den)
    (high : (num : ℚ) / den ≤ m + 1 / 2)
    (tie : m % 2 = 0 ∨ (m : ℚ) - 1 / 2 < num / den ∧ (num : ℚ) / den < m + 1 / 2) :
    roundDiv .even num den = m := by
  have den_pos : (0 : ℚ) < den := by exact_mod_cast pos
  rw [le_div_iff₀ den_pos] at low
  rw [div_le_iff₀ den_pos] at high
  have low' : (2 : ℚ) * (den * m) ≤ 2 * num + den := by linarith
  have high' : (2 : ℚ) * num ≤ 2 * (den * m) + den := by linarith
  refine roundDiv_even_of_halves pos (by exact_mod_cast low') (by exact_mod_cast high') ?_
  rcases tie with even | ⟨above, below⟩
  · exact .inl even
  · rw [lt_div_iff₀ den_pos] at above
    rw [div_lt_iff₀ den_pos] at below
    have above' : (2 : ℚ) * (den * m) < 2 * num + den := by linarith
    have below' : (2 : ℚ) * num < 2 * (den * m) + den := by linarith
    exact .inr ⟨by exact_mod_cast above', by exact_mod_cast below'⟩

def quarter (x : Binary64) : ℚ := 2 ^ (x.exponent - 2)

theorem quarter_pos (x : Binary64) : 0 < quarter x := two_zpow_pos _

-- The values that round to a number, up to the sign.
def Rounds (x : Binary64) (value : ℚ) : Prop :=
  let i := Interval.of x
  i.low * quarter x ≤ value ∧ value ≤ i.high * quarter x ∧
    (i.closed ∨ i.low * quarter x < value ∧ value < i.high * quarter x)

theorem mantissa_pos {x : Binary64} (nonzero : x.isZero = false) : 0 < x.mantissa := by
  rw [Binary64.isZero, beq_eq_false_iff_ne] at nonzero
  exact Nat.pos_of_ne_zero nonzero

theorem four_quarters (x : Binary64) : 2 ^ x.exponent = 4 * quarter x := by
  have split : (2 : ℚ) ^ x.exponent = 2 ^ (2 : ℤ) * 2 ^ (x.exponent - 2) := by
    rw [← two_zpow_add]
    congr 1
    ring
  rw [split, quarter]
  norm_num

theorem low_le (x : Binary64) : (4 * x.mantissa - 2 : ℚ) ≤ (Interval.of x).low := by
  rw [Interval.of]
  dsimp only
  split
  · rename_i least
    rw [least.1]
    norm_num
  · rw [sub_le_iff_le_add]
    norm_cast
    omega

theorem high_eq (x : Binary64) : ((Interval.of x).high : ℚ) = 4 * x.mantissa + 2 := by
  simp [Interval.of]

theorem even_of_closed {x : Binary64} (closed : (Interval.of x).closed = true) :
    x.mantissa % 2 = 0 := by simpa [Interval.of] using closed

theorem Rounds.least {x : Binary64} (nonzero : x.isZero = false) {value : ℚ}
    (rounds : Rounds x value) : 2 ^ (-1075 : ℤ) ≤ value := by
  have given : (1 : ℚ) ≤ x.mantissa := by exact_mod_cast mantissa_pos nonzero
  have two : (2 : ℚ) ≤ (Interval.of x).low := by linarith [low_le x]
  have unit : (2 : ℚ) ^ (-1076 : ℤ) ≤ quarter x := two_zpow_le (by linarith [x.inRange.2.1])
  calc (2 : ℚ) ^ (-1075 : ℤ) = 2 * 2 ^ (-1076 : ℤ) := by
        rw [← zpow_one_add₀ (by norm_num)]
        norm_num
    _ ≤ (Interval.of x).low * quarter x := by gcongr
    _ ≤ value := rounds.1

theorem Rounds.pos {x : Binary64} (nonzero : x.isZero = false) {value : ℚ}
    (rounds : Rounds x value) : 0 < value := (two_zpow_pos _).trans_le (rounds.least nonzero)

theorem Rounds.lt {x : Binary64} {value : ℚ} (rounds : Rounds x value) :
    value < 2 ^ (x.exponent + 53) := by
  have mantissa : (x.mantissa : ℚ) + 1 ≤ 2 ^ 53 := by exact_mod_cast x.inRange.1
  have some := quarter_pos x
  have below := rounds.2.1
  rw [high_eq] at below
  rw [two_zpow_add, four_quarters]
  norm_num at mantissa ⊢
  nlinarith

-- Below a power of two the unit is half as large.
theorem halved_of_lt {x : Binary64} {value : ℚ} (rounds : Rounds x value)
    (normal : x.exponent ≠ -1074) (less : value < 2 ^ (x.exponent + 52)) :
    x.mantissa = 2 ^ 52 ∧ (2 ^ 54 - 1) * quarter x ≤ value := by
  have some := quarter_pos x
  have low := rounds.1
  have exact : x.mantissa = 2 ^ 52 := by
    have least := x.normal.resolve_right normal
    by_contra other
    have more : (2 : ℚ) ^ 52 + 1 ≤ x.mantissa := by
      exact_mod_cast Nat.lt_of_le_of_ne least (Ne.symm other)
    have bound : (2 ^ 54 + 2 : ℚ) * quarter x ≤ (Interval.of x).low * quarter x := by
      have := low_le x
      gcongr
      linarith
    rw [two_zpow_add, four_quarters] at less
    norm_num at bound less
    linarith
  refine ⟨exact, ?_⟩
  have bound : ((Interval.of x).low : ℚ) = 2 ^ 54 - 1 := by
    rw [Interval.of, if_pos ⟨exact, normal⟩, exact]
    norm_num
  rwa [bound] at low

section Nearest

variable {x : Binary64} {num den : Nat} (pos : 0 < den) (rounds : Rounds x (num / den))
include pos rounds

theorem roundDiv_scaled :
    roundDiv .even (scaled num den x.exponent).1 (scaled num den x.exponent).2 = x.mantissa := by
  obtain ⟨low, high, ends⟩ := rounds
  have bound := low_le x
  have upper := high_eq x
  have unit := four_quarters x
  have some := quarter_pos x
  apply roundDiv_even (scaled_pos pos _)
  · rw [scaled_value, unit, le_div_iff₀ (by linarith)]
    nlinarith
  · rw [scaled_value, unit, div_le_iff₀ (by linarith)]
    nlinarith
  · rcases ends with closed | ⟨above, below⟩
    · exact .inl (even_of_closed closed)
    · refine .inr ⟨?_, ?_⟩
      · rw [scaled_value, unit, lt_div_iff₀ (by linarith)]
        nlinarith
      · rw [scaled_value, unit, div_lt_iff₀ (by linarith)]
        nlinarith

theorem roundDiv_halved (normal : x.exponent ≠ -1074)
    (less : (num : ℚ) / den < 2 ^ (x.exponent + 52)) :
    roundDiv .even (scaled num den (x.exponent - 1)).1 (scaled num den (x.exponent - 1)).2 =
      2 ^ 53 := by
  obtain ⟨-, low⟩ := halved_of_lt rounds normal less
  have some := quarter_pos x
  have unit : (2 : ℚ) ^ (x.exponent - 1) = 2 * quarter x := by
    have half := two_zpow_add (x.exponent - 1) 1
    rw [sub_add_cancel, four_quarters] at half
    norm_num at half
    linarith
  rw [two_zpow_add, four_quarters] at less
  apply roundDiv_even (scaled_pos pos _)
  · rw [scaled_value, unit, le_div_iff₀ (by linarith)]
    norm_num at low ⊢
    linarith
  · rw [scaled_value, unit, div_le_iff₀ (by linarith)]
    norm_num at less ⊢
    linarith
  · exact .inl (by norm_num)

theorem nearest?_of_rounds (nonzero : x.isZero = false) :
    Binary64.nearest? x.negative num den = some x := by
  have given : 0 < num := by
    have positive := rounds.pos nonzero
    by_contra none
    obtain rfl : num = 0 := by omega
    simp at positive
  have units := unitOf_unitExponent given pos
  by_cases whole : x.exponent = -1074 ∨ 2 ^ (x.exponent + 52) ≤ (num : ℚ) / den
  · have unit : unitExponent num den = x.exponent :=
      units.unique ⟨x.inRange.2.1, rounds.lt, whole⟩
    have digits := roundDiv_scaled pos rounds
    have small : x.mantissa ≠ 2 ^ 53 := by
      have := x.inRange.1
      omega
    have fits : (x.mantissa < 2 ^ 53 ∧ -1074 ≤ x.exponent ∧ x.exponent ≤ 971) ∧
        (2 ^ 52 ≤ x.mantissa ∨ x.exponent = -1074) := ⟨x.inRange, x.normal⟩
    simp only [Binary64.nearest?, unit]
    simp only [digits, if_neg small, dif_pos fits]
  · obtain ⟨normal, less⟩ := not_or.mp whole
    rw [not_le] at less
    obtain ⟨exact, low⟩ := halved_of_lt rounds normal less
    have half : UnitOf ((num : ℚ) / den) (x.exponent - 1) := by
      have := x.inRange.2.1
      refine ⟨by omega, ?_, .inr ?_⟩
      · rwa [show x.exponent - 1 + 53 = x.exponent + 52 by ring]
      · rw [show x.exponent - 1 + 52 = x.exponent + 51 by ring, two_zpow_add, four_quarters]
        have some := quarter_pos x
        norm_num at low ⊢
        linarith
    have unit : unitExponent num den = x.exponent - 1 := units.unique half
    have digits := roundDiv_halved pos rounds normal less
    have fits : ((2 : Nat) ^ 52 < 2 ^ 53 ∧ -1074 ≤ x.exponent ∧ x.exponent ≤ 971) ∧
        ((2 : Nat) ^ 52 ≤ 2 ^ 52 ∨ x.exponent = -1074) :=
      ⟨⟨by decide, x.inRange.2⟩, .inl (Nat.le_refl _)⟩
    simp only [Binary64.nearest?, unit]
    simp only [digits, if_pos, sub_add_cancel, dif_pos fits]
    obtain ⟨negative, mantissa, exponent, inRange, shape⟩ := x
    obtain rfl : mantissa = 2 ^ 52 := exact
    rfl

end Nearest

-- A number has fewer decimal digits than a third of its binary ones and one.
theorem lt_ten_pow (n : Nat) : n < 10 ^ (n.log2 / 3 + 1) :=
  calc n < 2 ^ (n.log2 + 1) := Nat.lt_log2_self
    _ ≤ 2 ^ (3 * (n.log2 / 3 + 1)) := Nat.pow_le_pow_right (by decide) (by omega)
    _ = (2 ^ 3) ^ (n.log2 / 3 + 1) := pow_mul _ _ _
    _ ≤ 10 ^ (n.log2 / 3 + 1) := Nat.pow_le_pow_left (by decide) _

theorem two_zpow_lt_ten : (2 : ℚ) ^ (1075 : ℤ) < 10 ^ (401 : ℤ) :=
  calc (2 : ℚ) ^ (1075 : ℤ) < 2 ^ (3 * 401 : ℤ) :=
        zpow_lt_zpow_right₀ (by norm_num) (by norm_num)
    _ = (2 ^ (3 : ℤ)) ^ (401 : ℤ) := zpow_mul _ _ _
    _ ≤ 10 ^ (401 : ℤ) := zpow_le_zpow_left₀ (by norm_num) (by norm_num) (by norm_num)

-- What rounds to a number has its first digit no farther from the point than 400 places.
theorem scale_le_of_rounds {x : Binary64} {digits width : Nat} {e : ℤ} (le : 10 ^ width ≤ digits)
    (rounds : Rounds x (digits * 10 ^ e)) : e + width ≤ 400 := by
  by_contra more
  have range := x.inRange.2.2
  have bound : (10 : ℚ) ^ (401 : ℤ) ≤ digits * 10 ^ e :=
    calc (10 : ℚ) ^ (401 : ℤ) ≤ 10 ^ ((width : ℤ) + e) :=
          zpow_le_zpow_right₀ (by norm_num) (by omega)
      _ = 10 ^ width * 10 ^ e := by rw [zpow_add₀ (by norm_num), zpow_natCast]
      _ ≤ digits * 10 ^ e := by
          gcongr
          exact_mod_cast le
  have below := rounds.lt.trans_le (two_zpow_le (show x.exponent + 53 ≤ 1075 by omega))
  exact lt_irrefl _ ((bound.trans_lt below).trans two_zpow_lt_ten)

theorem le_scale_of_rounds {x : Binary64} (nonzero : x.isZero = false) {digits width : Nat} {e : ℤ}
    (less : digits < 10 ^ width) (rounds : Rounds x (digits * 10 ^ e)) : -400 ≤ e + width := by
  by_contra far
  have tiny : (10 : ℚ) ^ (-401 : ℤ) < 2 ^ (-1075 : ℤ) := by
    rw [zpow_neg, zpow_neg]
    exact inv_strictAnti₀ (two_zpow_pos _) two_zpow_lt_ten
  have bound : (digits : ℚ) * 10 ^ e ≤ 10 ^ (-401 : ℤ) :=
    calc (digits : ℚ) * 10 ^ e ≤ 10 ^ width * 10 ^ e := by
          gcongr
          exact_mod_cast less.le
      _ = 10 ^ ((width : ℤ) + e) := by rw [zpow_add₀ (by norm_num), zpow_natCast]
      _ ≤ 10 ^ (-401 : ℤ) := zpow_le_zpow_right₀ (by norm_num) (by omega)
  exact lt_irrefl _ ((bound.trans_lt tiny).trans_le (rounds.least nonzero))

theorem digits_pos_of_rounds {x : Binary64} (nonzero : x.isZero = false) {digits : Nat} {e : ℤ}
    (rounds : Rounds x (digits * 10 ^ e)) : 0 < digits := by
  have positive := rounds.pos nonzero
  by_contra none
  obtain rfl : digits = 0 := by omega
  simp at positive

theorem ofDecimal?_of_rounds {x : Binary64} (nonzero : x.isZero = false) {digits : Nat} {e : ℤ}
    (rounds : Rounds x (digits * 10 ^ e)) : Binary64.ofDecimal? x.negative digits e = some x := by
  have given := digits_pos_of_rounds nonzero rounds
  have large := scale_le_of_rounds (show 10 ^ 0 ≤ digits by omega) rounds
  have small := le_scale_of_rounds nonzero (lt_ten_pow digits) rounds
  have value : ((digits * 10 ^ e.toNat : Nat) : ℚ) / (10 ^ (-e).toNat : Nat) =
      digits * 10 ^ e := by
    push_cast
    rw [mul_div_assoc, pow_toNat_div]
  rw [← value] at rounds
  rw [Binary64.ofDecimal?, if_neg (by omega), if_neg (by omega), if_neg (by omega)]
  exact nearest?_of_rounds (Nat.pow_pos (by decide)) rounds nonzero

end PagePress.Numeral
