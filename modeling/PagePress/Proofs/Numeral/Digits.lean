import Mathlib
import PagePress.Numeral.Layout
import PagePress.Numeral.Read

namespace PagePress.Numeral

theorem digitsValue_decimalDigits (n : Nat) : digitsValue (decimalDigits n) = n :=
  Nat.ofDigitChars_toDigits (by decide) (by decide)

theorem isDigit_decimalDigits {n : Nat} {c : Char} (member : c ∈ decimalDigits n) :
    c.isDigit = true :=
  Nat.isDigit_of_mem_toDigits (by decide) (by decide) member

theorem isDigit_zeros {n : Nat} {c : Char} (member : c ∈ zeros n) : c.isDigit = true := by
  rw [List.eq_of_mem_replicate member]
  rfl

theorem length_decimalDigits_pos (n : Nat) : 0 < (decimalDigits n).length := Nat.length_toDigits_pos

theorem digitsValue_append (cs ds : List Char) :
    digitsValue (cs ++ ds) = Nat.ofDigitChars 10 ds (digitsValue cs) :=
  Nat.ofDigitChars_append 0

theorem digitsValue_zeros_append (n : Nat) (cs : List Char) :
    digitsValue (zeros n ++ cs) = digitsValue cs := by
  have none : digitsValue (zeros n) = 10 ^ n * 0 := Nat.ofDigitChars_replicate_zero
  rw [digitsValue_append, none]
  rfl

theorem digitsValue_append_zeros (cs : List Char) (n : Nat) :
    digitsValue (cs ++ zeros n) = digitsValue cs * 10 ^ n := by
  rw [digitsValue_append, zeros, Nat.ofDigitChars_replicate_zero, Nat.mul_comm]

theorem lt_ten_pow_length (n : Nat) : n < 10 ^ (decimalDigits n).length :=
  (Nat.length_toDigits_le_iff (by decide) (length_decimalDigits_pos n)).mp (Nat.le_refl _)

theorem ten_pow_length_le {n : Nat} (some : 0 < n) : 10 ^ ((decimalDigits n).length - 1) ≤ n := by
  rcases Nat.eq_zero_or_pos ((decimalDigits n).length - 1) with one | more
  · rw [one]
    omega
  · rw [← Nat.not_lt, ← Nat.length_toDigits_le_iff (by decide) more]
    have := length_decimalDigits_pos n
    rw [decimalDigits] at this ⊢
    omega

theorem decimalDigits_zero : decimalDigits 0 = ['0'] := Nat.toDigits_zero 10

theorem head_decimalDigits {n : Nat} (some : 0 < n) :
    ∃ c cs, decimalDigits n = c :: cs ∧ c ≠ '0' := by
  induction n using Nat.strong_induction_on with
  | _ n ih =>
    rw [decimalDigits, Nat.toDigits_eq_if (by decide)]
    split
    · rename_i one
      have other : ∀ n < 10, 0 < n → n.digitChar ≠ '0' := by decide
      exact ⟨_, _, rfl, other n one some⟩
    · obtain ⟨c, cs, first, nonzero⟩ := ih (n / 10) (by omega) (by omega)
      rw [decimalDigits] at first
      rw [first]
      exact ⟨c, _, rfl, nonzero⟩

def pointed : Option (List Char) → List Char
  | none => []
  | some digits => '.' :: digits

theorem withPoint_eq {digits : List Char} (nonempty : digits ≠ []) (places : Nat) :
    ∃ whole part, withPoint digits places = whole ++ pointed part ∧
      whole ++ part.getD [] = zeros (places + 1 - digits.length) ++ digits ∧
      (part.getD []).length = places ∧ (places = 0 ↔ part = none) ∧
      (whole = ['0'] ∨ whole <+: digits ∧ whole ≠ []) := by
  have length : (zeros (places + 1 - digits.length)).length = places + 1 - digits.length :=
    List.length_replicate
  have given := List.length_pos_of_ne_nil nonempty
  by_cases whole : places = 0
  · have full : zeros (places + 1 - digits.length) = [] := List.eq_nil_of_length_eq_zero (by omega)
    refine ⟨digits, none, ?_, ?_, whole.symm, by simp [whole], .inr ⟨List.prefix_rfl, nonempty⟩⟩
    · rw [withPoint, if_pos whole, pointed, List.append_nil]
    · rw [full, Option.getD_none, List.append_nil, List.nil_append]
  · rw [withPoint, if_neg whole]
    refine ⟨_, some _, rfl, List.take_append_drop _ _, ?_, by simp [whole], ?_⟩
    · simp only [Option.getD_some, List.length_drop, List.length_append, length]
      omega
    · rcases Nat.lt_or_ge places digits.length with long | short
      · have full : zeros (places + 1 - digits.length) = [] :=
          List.eq_nil_of_length_eq_zero (by omega)
        rw [full, List.nil_append]
        refine .inr ⟨List.take_prefix _ _, ?_⟩
        rw [ne_eq, List.take_eq_nil_iff, not_or]
        exact ⟨by omega, nonempty⟩
      · have cut : (zeros (places + 1 - digits.length) ++ digits).length - places = 1 := by
          rw [List.length_append, length]
          omega
        obtain ⟨n, missing⟩ : ∃ n, places + 1 - digits.length = n + 1 :=
          ⟨places - digits.length, by omega⟩
        rw [cut, missing, zeros, List.replicate_succ]
        exact .inl rfl

-- At least one digit; before the point, a zero stands first only where it stands alone.
structure Run (cs : List Char) : Prop where
  digits : ∀ c ∈ cs, c.isDigit = true
  nonempty : cs ≠ []

structure Whole (cs : List Char) : Prop extends Run cs where
  alone : cs.head? = some '0' → cs = ['0']

theorem whole_zero : Whole ['0'] := by
  refine ⟨⟨fun c member => ?_, List.cons_ne_nil _ _⟩, fun _ => rfl⟩
  rw [List.mem_singleton.mp member]
  rfl

theorem run_decimalDigits (n : Nat) : Run (decimalDigits n) :=
  ⟨fun _ member => isDigit_decimalDigits member,
    List.ne_nil_of_length_pos (length_decimalDigits_pos n)⟩

theorem whole_of_head {cs : List Char} (run : Run cs) {c : Char} {later : List Char}
    (first : cs = c :: later) (other : c ≠ '0') : Whole cs := by
  refine ⟨run, fun zero => ?_⟩
  rw [first] at zero
  exact absurd (Option.some.inj zero) other

theorem whole_decimalDigits (n : Nat) : Whole (decimalDigits n) := by
  rcases Nat.eq_zero_or_pos n with rfl | positive
  · exact ⟨run_decimalDigits 0, fun _ => decimalDigits_zero⟩
  · obtain ⟨c, cs, first, other⟩ := head_decimalDigits positive
    exact whole_of_head (run_decimalDigits n) first other

theorem withPoint_decimalDigits {n : Nat} (positive : 0 < n) (places : Nat) :
    ∃ whole part, withPoint (decimalDigits n) places = whole ++ pointed part ∧ Whole whole ∧
      (∀ digits ∈ part, Run digits) ∧ digitsValue (whole ++ part.getD []) = n ∧
      (part.getD []).length = places ∧ (places = 0 ↔ part = none) := by
  obtain ⟨whole, part, text, joined, length, present, shape⟩ :=
    withPoint_eq (run_decimalDigits n).nonempty places
  have digits : ∀ c ∈ whole ++ part.getD [], c.isDigit = true := by
    intro c member
    rw [joined, List.mem_append] at member
    rcases member with filled | own
    · exact isDigit_zeros filled
    · exact isDigit_decimalDigits own
  refine ⟨whole, part, text, ?_, ?_, ?_, length, present⟩
  · rcases shape with rfl | ⟨front, nonempty⟩
    · exact whole_zero
    · obtain ⟨c, cs, first, other⟩ := head_decimalDigits positive
      obtain ⟨d, later, spelled⟩ := List.exists_cons_of_ne_nil nonempty
      have same : d = c := by
        rw [spelled, first] at front
        exact (List.cons_prefix_cons.mp front).1
      exact whole_of_head ⟨fun c member => digits c (List.mem_append_left _ member), nonempty⟩
        spelled (same ▸ other)
  · rintro behind ⟨⟩
    refine ⟨fun c member => digits c (List.mem_append_right _ member), ?_⟩
    rintro rfl
    have whole_only : places = 0 := by rw [← length, Option.getD_some, List.length_nil]
    cases present.mp whole_only
  · rw [joined, digitsValue_zeros_append, digitsValue_decimalDigits]

theorem digitChar_of_isDigit {c : Char} (digit : c.isDigit = true) :
    c.toNat - '0'.toNat < 10 ∧ Nat.digitChar (c.toNat - '0'.toNat) = c := by
  have all : ∀ d < 10, Nat.digitChar d = Char.ofNat ('0'.toNat + d) := by decide
  have range : 48 ≤ c.toNat ∧ c.toNat ≤ 57 := by
    simp only [Char.isDigit, Bool.and_eq_true, decide_eq_true_eq, ge_iff_le] at digit
    exact digit
  have zero : '0'.toNat = 48 := rfl
  have small : c.toNat - '0'.toNat < 10 := by omega
  refine ⟨small, ?_⟩
  rw [all _ small, Nat.add_sub_cancel' (by omega), Char.ofNat_toNat]

theorem digitsValue_concat (cs : List Char) (c : Char) :
    digitsValue (cs ++ [c]) = 10 * digitsValue cs + (c.toNat - '0'.toNat) :=
  digitsValue_append cs [c]

theorem Whole.decimalDigits_digitsValue {cs : List Char} (whole : Whole cs) :
    decimalDigits (digitsValue cs) = cs := by
  induction cs using List.reverseRecOn with
  | nil => exact absurd rfl whole.nonempty
  | append_singleton ds d ih =>
    obtain ⟨small, same⟩ := digitChar_of_isDigit (whole.digits d (by simp))
    have last : Nat.toDigits 10 (d.toNat - '0'.toNat) = [d] := by
      rw [Nat.toDigits_of_lt_base small, same]
    rw [digitsValue_concat]
    by_cases alone : ds = []
    · subst alone
      simpa [decimalDigits, digitsValue] using last
    · have nonzero : ds.head? ≠ some '0' := by
        intro zero
        have whole := whole.alone (by rw [List.head?_append, zero]; rfl)
        simp [List.append_eq_singleton_iff, alone] at whole
      have front : decimalDigits (digitsValue ds) = ds :=
        ih ⟨⟨fun c member => whole.digits c (by simp [member]), alone⟩, fun zero =>
          absurd zero nonzero⟩
      have positive : 0 < digitsValue ds := by
        rcases Nat.eq_zero_or_pos (digitsValue ds) with zero | positive
        · rw [zero, decimalDigits_zero] at front
          exact absurd (by rw [← front]; rfl) nonzero
        · exact positive
      rw [decimalDigits, ← Nat.toDigits_append_toDigits (by decide) positive small, last]
      exact congrArg (· ++ [d]) front

end PagePress.Numeral
