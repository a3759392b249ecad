import PagePress.Proofs.Numeral.Nearest
import PagePress.Template.Builtin

namespace PagePress

namespace Number

def value : Number → ℚ
  | .int n _ => n
  | .float x => x.value

-- What a number counts as beside another.
def beside : Number → Number → ℚ
  | .int n _, .float _ => (Binary64.ofInt n).value
  | .int n _, .int _ _ => n
  | .float x, _ => x.value

-- An integer and the float that it goes to, where that is another value.
def Blurred : Number → Number → Prop
  | .int n _, .float x | .float x, .int n _ => x.value = (Binary64.ofInt n).value ∧ x.value ≠ n
  | .int _ _, .int _ _ | .float _, .float _ => False

-- Two integers with a float between them.
def Bridged : Number → Number → Number → Prop
  | .int m _, .float _, .int n _ => m ≠ n
  | _, _, _ => False

end Number

namespace Template
open Numeral

section Orderings

theorem compare_cast (m n : ℤ) : compare (m : ℚ) n = compare m n := by
  rw [← cmp_eq_compare, ← cmp_eq_compare,
    (Int.cast_strictMono : StrictMono ((↑·) : ℤ → ℚ)).cmp_map_eq]

theorem ofInt_neg_lt {m n : ℤ} (fits : -2 ^ 63 ≤ m ∧ m < 2 ^ 64) (fits' : -2 ^ 63 ≤ n ∧ n < 2 ^ 64)
    (negative : m < 0) (natural : 0 ≤ n) : (Binary64.ofInt m).value < (Binary64.ofInt n).value := by
  have unit : (Binary64.mk true (2 ^ 52) (-52) (by decide) (by decide)).value = -1 := by
    norm_num [Binary64.value, Binary64.sign]
  have none : (Binary64.zero false).value = 0 := by simp [Binary64.value, Binary64.zero]
  have below := (ofInt_nearest (natAbs_lt_overflow fits)).le_value
    ⟨true, 2 ^ 52, -52, by decide, by decide⟩ (by
    rw [unit]
    exact_mod_cast (by omega : m ≤ -1))
  have above := (ofInt_nearest (natAbs_lt_overflow fits')).value_le (.zero false) (by
    rw [none]
    exact_mod_cast natural)
  rw [unit] at below
  rw [none] at above
  linarith

theorem compareNumbers_int {m n : ℤ} (fits : -2 ^ 63 ≤ m ∧ m < 2 ^ 64)
    (fits' : -2 ^ 63 ≤ n ∧ n < 2 ^ 64) :
    compareNumbers (.int m fits) (.int n fits') = compare m n := by
  have naturals : 0 ≤ m → 0 ≤ n → compare m.toNat n.toNat = compare m n := by
    intro first second
    obtain ⟨k, rfl⟩ := Int.eq_ofNat_of_zero_le first
    obtain ⟨l, rfl⟩ := Int.eq_ofNat_of_zero_le second
    rw [Int.toNat_natCast, Int.toNat_natCast, ← cmp_eq_compare, ← cmp_eq_compare,
      Nat.strictMono_cast.cmp_map_eq]
  rw [compareNumbers, Number.signed?, Number.signed?, Number.unsigned?, Number.unsigned?]
  by_cases smallM : m < 2 ^ 63 <;> by_cases smallN : n < 2 ^ 63
  · rw [if_pos smallM, if_pos smallN]
  · rw [if_pos smallM, if_neg smallN, if_pos (by omega : 0 ≤ n)]
    by_cases natural : 0 ≤ m
    · rw [if_pos natural]
      exact naturals natural (by omega)
    · rw [if_neg natural]
      have less := ofInt_neg_lt fits fits' (by omega) (by omega)
      exact (Binary64.compare_value _ _).trans ((compare_lt_iff_lt.mpr less).trans
        (compare_lt_iff_lt.mpr (by omega)).symm)
  · rw [if_neg smallM, if_pos smallN, if_pos (by omega : 0 ≤ m)]
    by_cases natural : 0 ≤ n
    · rw [if_pos natural]
      exact naturals (by omega) natural
    · rw [if_neg natural]
      have less := ofInt_neg_lt fits' fits (by omega) (by omega)
      exact (Binary64.compare_value _ _).trans ((compare_gt_iff_gt.mpr less).trans
        (compare_gt_iff_gt.mpr (by omega)).symm)
  · rw [if_neg smallM, if_neg smallN, if_pos (by omega : 0 ≤ m), if_pos (by omega : 0 ≤ n)]
    exact naturals (by omega) (by omega)

theorem compareNumbers_beside (a b : Number) :
    compareNumbers a b = compare (a.beside b) (b.beside a) := by
  cases a with
  | float x => cases b <;> exact x.compare_value _
  | int m fits =>
    cases b with
    | float y =>
      have floats : compareNumbers (.int m fits) (.float y) = (Binary64.ofInt m).compare y := by
        rw [compareNumbers]
        cases (Number.int m fits).signed? <;> cases (Number.int m fits).unsigned? <;> rfl
      exact floats.trans ((Binary64.ofInt m).compare_value y)
    | int n fits' => exact (compareNumbers_int fits fits').trans (compare_cast m n).symm

end Orderings

section Laws

def verdicts : List (Builtin × (Ordering → Bool)) :=
  [(.eq, (· == .eq)), (.ne, (· != .eq)), (.lt, (· == .lt)), (.le, (· != .gt)), (.gt, (· == .gt)),
    (.ge, (· != .lt))]

def Says (builtin : Builtin) (a b : Number) : Prop :=
  builtin.call [.num a, .num b] = .ok (.bool true)

theorem call_verdict {builtin : Builtin} {holds : Ordering → Bool}
    (listed : (builtin, holds) ∈ verdicts) (a b : Number) :
    builtin.call [.num a, .num b] = .ok (.bool (holds (compareNumbers a b))) := by
  have equal : equal (.num a) (.num b) = .ok (compareNumbers a b == .eq) := rfl
  have ordering : ordering (.num a) (.num b) = .ok (compareNumbers a b) := rfl
  simp only [verdicts, List.mem_cons, List.not_mem_nil, or_false, Prod.mk.injEq] at listed
  rcases listed with ⟨rfl, rfl⟩ | ⟨rfl, rfl⟩ | ⟨rfl, rfl⟩ | ⟨rfl, rfl⟩ | ⟨rfl, rfl⟩ | ⟨rfl, rfl⟩
  · rw [Builtin.call, equalsAny, equal]
    cases compareNumbers a b <;> rfl
  all_goals rfl

theorem lt_listed : (Builtin.lt, (· == Ordering.lt)) ∈ verdicts := by simp [verdicts]

theorem eq_listed : (Builtin.eq, (· == Ordering.eq)) ∈ verdicts := by simp [verdicts]

theorem gt_listed : (Builtin.gt, (· == Ordering.gt)) ∈ verdicts := by simp [verdicts]

theorem says_iff {builtin : Builtin} {holds : Ordering → Bool}
    (listed : (builtin, holds) ∈ verdicts) (a b : Number) :
    Says builtin a b ↔ holds (compare (a.beside b) (b.beside a)) = true := by
  rw [Says, call_verdict listed, compareNumbers_beside]
  simp

theorem says_lt_iff (a b : Number) : Says .lt a b ↔ a.beside b < b.beside a := by
  rw [says_iff lt_listed, beq_iff_eq]
  exact compare_lt_iff_lt

theorem says_eq_iff (a b : Number) : Says .eq a b ↔ a.beside b = b.beside a := by
  rw [says_iff eq_listed, beq_iff_eq]
  exact compare_eq_iff_eq

theorem one_verdict (a b : Number) :
    ∃ one ∈ [Builtin.lt, .eq, .gt], ∀ builtin ∈ [Builtin.lt, .eq, .gt],
      builtin.call [.num a, .num b] = .ok (.bool (builtin = one)) := by
  have less := call_verdict lt_listed a b
  have equal := call_verdict eq_listed a b
  have greater := call_verdict gt_listed a b
  cases order : compareNumbers a b <;> rw [order] at less equal greater
  · exact ⟨.lt, by simp, by simp [less, equal, greater]⟩
  · exact ⟨.eq, by simp, by simp [less, equal, greater]⟩
  · exact ⟨.gt, by simp, by simp [less, equal, greater]⟩

theorem compareNumbers_exact {a b : Number} (clear : ¬ a.Blurred b) :
    compareNumbers a b = compare a.value b.value := by
  rw [compareNumbers_beside]
  cases a with
  | int m fits =>
    cases b with
    | int n _ => rfl
    | float y =>
      by_cases same : y.value = (Binary64.ofInt m).value
      · have exact : y.value = m := not_not.mp fun differ => clear ⟨same, differ⟩
        change compare (Binary64.ofInt m).value y.value = compare (m : ℚ) y.value
        rw [← same, exact]
      · exact (ofInt_nearest (natAbs_lt_overflow fits)).compare_eq y same
  | float x =>
    cases b with
    | float y => rfl
    | int n fits =>
      by_cases same : x.value = (Binary64.ofInt n).value
      · have exact : x.value = n := not_not.mp fun differ => clear ⟨same, differ⟩
        change compare x.value (Binary64.ofInt n).value = compare x.value (n : ℚ)
        rw [← same, exact]
      · exact (ofInt_nearest (natAbs_lt_overflow fits)).compare_eq_right x same

theorem compareNumbers_blurred {a b : Number} (blurred : a.Blurred b) :
    compareNumbers a b = .eq := by
  rw [compareNumbers_beside, compare_eq_iff_eq]
  cases a <;> cases b
  · exact blurred.elim
  · exact blurred.1.symm
  · exact blurred.1
  · exact blurred.elim

theorem ofInt_mono {m n : ℤ} (fits : -2 ^ 63 ≤ m ∧ m < 2 ^ 64) (fits' : -2 ^ 63 ≤ n ∧ n < 2 ^ 64)
    (less : (m : ℚ) < n) : (Binary64.ofInt m).value ≤ (Binary64.ofInt n).value :=
  (ofInt_nearest (natAbs_lt_overflow fits)).mono (ofInt_nearest (natAbs_lt_overflow fits')) less

-- Rounding keeps the order, if not strictly; that is enough as the float is on one side of both.
theorem beside_lt_trans {a b c : Number} (first : a.beside b < b.beside a)
    (second : b.beside c < c.beside b) : a.beside c < c.beside a := by
  cases a with
  | int m fits =>
    cases b with
    | int n fits' =>
      cases c with
      | int _ _ => exact first.trans second
      | float z => exact (ofInt_mono fits fits' first).trans_lt second
    | float y =>
      cases c with
      | float z => exact first.trans second
      | int n fits' =>
        change (m : ℚ) < n
        by_contra crossed
        have order := first.trans second
        rcases (not_lt.mp crossed).lt_or_eq with less | same
        · exact (ofInt_mono fits' fits less).not_gt order
        · obtain rfl : n = m := Int.cast_inj.mp same
          exact lt_irrefl _ order
  | float x =>
    cases b with
    | float y => cases c <;> exact first.trans second
    | int m fits =>
      cases c with
      | float z => exact first.trans second
      | int n fits' => exact first.trans_le (ofInt_mono fits fits' second)

theorem beside_eq_trans {a b c : Number} (first : a.beside b = b.beside a)
    (second : b.beside c = c.beside b) (direct : ¬ a.Bridged b c) : a.beside c = c.beside a := by
  cases a with
  | int m fits =>
    cases b with
    | int n fits' =>
      cases c with
      | int _ _ => exact first.trans second
      | float z =>
        obtain rfl : m = n := Int.cast_inj.mp first
        exact second
    | float y =>
      cases c with
      | float z => exact first.trans second
      | int n fits' => exact congrArg ((↑·) : ℤ → ℚ) (not_not.mp direct)
  | float x =>
    cases b with
    | float y => cases c <;> exact first.trans second
    | int m fits =>
      cases c with
      | float z => exact first.trans second
      | int n fits' =>
        obtain rfl : m = n := Int.cast_inj.mp second
        exact first

-- Where an integer meets the float it goes to the two are equal, and no other answer is inexact.
theorem numbers_compare (a b c : Number) :
    (∀ n fits, a = .int n fits → Nearest n (Binary64.ofInt n)) ∧
      (∀ builtin holds, (builtin, holds) ∈ verdicts →
        (¬ a.Blurred b → builtin.call [.num a, .num b] =
          .ok (.bool (holds (compare a.value b.value)))) ∧
        (a.Blurred b → builtin.call [.num a, .num b] = .ok (.bool (holds .eq)))) ∧
      (∃ one ∈ [Builtin.lt, .eq, .gt], ∀ builtin ∈ [Builtin.lt, .eq, .gt],
        builtin.call [.num a, .num b] = .ok (.bool (builtin = one))) ∧
      (Says .lt a b → Says .lt b c → Says .lt a c) ∧
      (Says .eq a b → Says .eq b c → ¬ a.Bridged b c → Says .eq a c) := by
  refine ⟨?_, fun builtin holds listed => ⟨fun clear => ?_, fun blurred => ?_⟩, ?_, ?_, ?_⟩
  · rintro n fits rfl
    exact ofInt_nearest (natAbs_lt_overflow fits)
  · rw [call_verdict listed, compareNumbers_exact clear]
  · rw [call_verdict listed, compareNumbers_blurred blurred]
  · exact one_verdict a b
  · rw [says_lt_iff, says_lt_iff, says_lt_iff]
    exact beside_lt_trans
  · rw [says_eq_iff, says_eq_iff, says_eq_iff]
    exact beside_eq_trans

-- The first integer that no float is, the one before, the float that both go to, and the next one.
def oddInt : Number := .int (2 ^ 53 + 1) (by decide)

def evenInt : Number := .int (2 ^ 53) (by decide)

def lowerFloat : Number := .float ⟨false, 2 ^ 52, 1, by decide, by decide⟩

def upperFloat : Number := .float ⟨false, 2 ^ 52 + 1, 1, by decide, by decide⟩

theorem numbers_compare_odd :
    let small : Number := .int 1 (by decide)
    (oddInt.Blurred lowerFloat ∧ Says .ge oddInt lowerFloat) ∧
      (¬ oddInt.Blurred upperFloat ∧ Says .lt oddInt upperFloat) ∧
      (Says .lt small oddInt ∧ Says .lt small upperFloat) ∧
      Says .eq lowerFloat evenInt ∧ Says .eq evenInt lowerFloat ∧
      Says .eq lowerFloat lowerFloat := by
  intro small
  have goes : Binary64.ofInt (2 ^ 53 + 1) = ⟨false, 2 ^ 52, 1, by decide, by decide⟩ := by decide
  have blurred : oddInt.Blurred lowerFloat := by
    refine ⟨by rw [goes], ?_⟩
    norm_num [Binary64.value, Binary64.sign]
  have clear : ¬ oddInt.Blurred upperFloat := by
    rintro ⟨met, -⟩
    rw [goes] at met
    norm_num [Binary64.value, Binary64.sign] at met
  have less : compare oddInt.value upperFloat.value = .lt := by
    rw [compare_lt_iff_lt]
    norm_num [Number.value, oddInt, upperFloat, Binary64.value, Binary64.sign]
  have listed : (Builtin.ge, (· != Ordering.lt)) ∈ verdicts := by simp [verdicts]
  have equal := ((numbers_compare oddInt lowerFloat lowerFloat).2.1 _ _ listed).2 blurred
  have below := ((numbers_compare oddInt upperFloat upperFloat).2.1 _ _ lt_listed).1 clear
  rw [less] at below
  have first : Says .lt small oddInt := by
    rw [says_lt_iff]
    norm_num [Number.beside, small, oddInt]
  have ascends := (numbers_compare small oddInt upperFloat).2.2.2.1 first below
  have back := (numbers_compare lowerFloat evenInt lowerFloat).2.2.2.2 rfl rfl id
  exact ⟨⟨blurred, equal⟩, ⟨clear, below⟩, ⟨first, ascends⟩, rfl, rfl, back⟩

-- Equality goes from one integer to the next by way of a float.
theorem eq_not_exact :
    oddInt.value ≠ lowerFloat.value ∧ Says .eq oddInt lowerFloat ∧ Says .eq lowerFloat evenInt ∧
      ¬ Says .eq oddInt evenInt := by
  refine ⟨?_, rfl, rfl, ?_⟩
  · norm_num [Number.value, oddInt, lowerFloat, Binary64.value, Binary64.sign]
  · rintro ⟨⟩

end Laws

end Template

end PagePress
