import PagePress.Proofs.Template.Directives

namespace PagePress.Template

open Numeral

section Padding

def Spec.laid (spec : Spec) (numeric : Bool) (sign digits : List Char) : List Char :=
  let fill := spec.width.getD 0 - (sign ++ digits).length
  if spec.minus then sign ++ (digits ++ List.replicate fill ' ')
  else if spec.zero ∧ numeric then sign ++ (zeros fill ++ digits)
  else List.replicate fill ' ' ++ (sign ++ digits)

theorem pad_laid (spec : Spec) (numeric : Bool) {sign digits : List Char}
    (signed : sign ∈ [[], ['-'], ['+']]) (bare : '-' ∉ digits ∧ '+' ∉ digits) :
    spec.pad numeric (sign ++ digits) = spec.laid numeric sign digits := by
  rw [Spec.pad.eq_def, Spec.laid]
  dsimp only
  split
  · rw [List.append_assoc]
  · split
    · simp only [List.mem_cons, List.not_mem_nil, or_false] at signed
      rcases signed with rfl | rfl | rfl
      · rw [List.nil_append]
        split
        · exact absurd List.mem_cons_self bare.1
        · exact absurd List.mem_cons_self bare.2
        · rfl
      · rfl
      · rfl
    · rfl

theorem pad_text (spec : Spec) (body : List Char) :
    spec.pad false body = spec.laid false [] body := by
  rw [Spec.pad.eq_def, Spec.laid]
  simp

theorem mem_laid {spec : Spec} {numeric : Bool} {sign digits : List Char} {c : Char}
    (member : c ∈ spec.laid numeric sign digits) :
    c ∈ sign ∨ c ∈ digits ∨ c = '0' ∨ c = ' ' := by
  rw [Spec.laid] at member
  split at member
  · simp only [List.mem_append, List.mem_replicate] at member
    tauto
  · split at member
    · simp only [List.mem_append, zeros, List.mem_replicate] at member
      tauto
    · simp only [List.mem_append, List.mem_replicate] at member
      tauto

theorem mem_mismatch (verb : Char) (arg : Json) :
    '%' ∈ mismatch verb arg ∧ '!' ∈ mismatch verb arg :=
  ⟨.head _, .tail _ (.head _)⟩

end Padding

section Integers

inductive IntegerVerb where
  | decimal
  | hex
  | upperHex

namespace IntegerVerb

def letter : IntegerVerb → Char
  | .decimal => 'd'
  | .hex => 'x'
  | .upperHex => 'X'

-- Only decimals can show that a number is not negative.
def sign (verb : IntegerVerb) (spec : Spec) (n : Int) : List Char :=
  if n < 0 then ['-']
  else match verb with
    | .decimal => if spec.plus then ['+'] else []
    | .hex | .upperHex => []

def digits (verb : IntegerVerb) (n : Nat) : List Char :=
  match verb with
  | .decimal => decimalDigits n
  | .hex => Nat.toDigits 16 n
  | .upperHex => (Nat.toDigits 16 n).map Char.toUpper

theorem isVerb_letter (verb : IntegerVerb) : IsVerb verb.letter ∧ verb.letter ≠ '%' := by
  cases verb <;> decide

end IntegerVerb

theorem mem_toDigits {base n : Nat} (two : 1 < base) {c : Char} (member : c ∈ Nat.toDigits base n) :
    ∃ d < base, c = Nat.digitChar d := by
  induction n using Nat.strong_induction_on with
  | _ n ih =>
    rw [Nat.toDigits_eq_if two] at member
    split at member
    · rename_i one
      exact ⟨n, one, List.mem_singleton.mp member⟩
    · rename_i more
      rcases List.mem_append.mp member with high | low
      · exact ih (n / base) (Nat.div_lt_self (by omega) two) high
      · exact ⟨n % base, Nat.mod_lt n (by omega), List.mem_singleton.mp low⟩

theorem mem_digits (verb : IntegerVerb) {n : Nat} {c : Char} (member : c ∈ verb.digits n) :
    c ∉ ['-', '+', '%'] := by
  have hex : ∀ d < 16, Nat.digitChar d ∉ ['-', '+', '%'] ∧
      (Nat.digitChar d).toUpper ∉ ['-', '+', '%'] := by decide
  cases verb with
  | decimal =>
    obtain ⟨d, less, rfl⟩ := mem_toDigits (by decide) member
    exact (hex d (by omega)).1
  | hex =>
    obtain ⟨d, less, rfl⟩ := mem_toDigits (by decide) member
    exact (hex d less).1
  | upperHex =>
    obtain ⟨e, lower, rfl⟩ := List.mem_map.mp member
    obtain ⟨d, less, rfl⟩ := mem_toDigits (by decide) lower
    exact (hex d less).2

theorem sign_mem (verb : IntegerVerb) (spec : Spec) (n : Int) :
    verb.sign spec n ∈ [[], ['-'], ['+']] := by
  rw [IntegerVerb.sign.eq_def]
  split
  · simp
  · cases verb
    · dsimp only
      split <;> simp
    · simp
    · simp

theorem sign_intText (spec : Spec) (n : Int) (arg : Number) :
    spec.sign (.num arg) (intText n) =
      IntegerVerb.decimal.sign spec n ++ IntegerVerb.decimal.digits n.natAbs := by
  rw [Spec.sign, intText, IntegerVerb.sign.eq_def, IntegerVerb.digits.eq_def]
  dsimp only
  split
  · simp
  · have bare : (decimalDigits n.natAbs).head? ≠ some '-' := by
      intro first
      exact mem_digits .decimal (List.mem_of_mem_head? first) (by simp)
    simp only [bare, ne_eq, not_false_eq_true, and_true]
    split <;> rfl

theorem hexText_eq (spec : Spec) (n : Int) :
    hexText n = IntegerVerb.hex.sign spec n ++ IntegerVerb.hex.digits n.natAbs := by
  rw [hexText, IntegerVerb.sign.eq_def, IntegerVerb.digits.eq_def]
  dsimp only
  split <;> rfl

theorem upperChars_hexText (spec : Spec) (n : Int) :
    upperChars (hexText n) =
      IntegerVerb.upperHex.sign spec n ++ IntegerVerb.upperHex.digits n.natAbs := by
  rw [hexText, IntegerVerb.sign.eq_def, IntegerVerb.digits.eq_def]
  dsimp only
  split <;> rfl

theorem argumentText_letter (verb : IntegerVerb) (spec : Spec) (arg : Number) :
    argumentText verb.letter spec (.num arg) =
      match arg.signed? with
      | some n => spec.laid true (verb.sign spec n) (verb.digits n.natAbs)
      | none => mismatch verb.letter (.num arg) := by
  have bare (n : Int) : '-' ∉ verb.digits n.natAbs ∧ '+' ∉ verb.digits n.natAbs :=
    ⟨fun member => mem_digits verb member (by simp), fun member => mem_digits verb member (by simp)⟩
  have laid (n : Int) := pad_laid spec true (sign_mem verb spec n) (bare n)
  have shape : argumentText verb.letter spec (.num arg) =
      match arg.signed? with
      | some n => spec.pad true (verb.sign spec n ++ verb.digits n.natAbs)
      | none => mismatch verb.letter (.num arg) := by
    cases verb with
    | decimal =>
      simp only [← sign_intText spec _ arg]
      rfl
    | hex =>
      simp only [← hexText_eq spec]
      rfl
    | upperHex =>
      simp only [← upperChars_hexText spec]
      rfl
  simp only [shape, laid]

theorem laid_ne_mismatch (verb : IntegerVerb) (spec : Spec) (n : Int) (letter : Char) (arg : Json) :
    spec.laid true (verb.sign spec n) (verb.digits n.natAbs) ≠ mismatch letter arg := by
  intro same
  have member := (mem_mismatch letter arg).1
  rw [← same] at member
  rcases mem_laid member with sign | digit | zero | blank
  · have signed := sign_mem verb spec n
    simp only [List.mem_cons, List.not_mem_nil, or_false] at signed
    rcases signed with none | minus | plus
    · simp [none] at sign
    · simp [minus] at sign
    · simp [plus] at sign
  · exact mem_digits verb digit (by simp)
  · cases zero
  · cases blank

theorem printf_integer (slot : Slot) (verb : IntegerVerb) (n : Int)
    (fits : -2 ^ 63 ≤ n ∧ n < 2 ^ 64) :
    let arg : Json := .num (.int n fits)
    let spec := slot.shape.spec
    let written := spec.laid true (verb.sign spec n) (verb.digits n.natAbs)
    Builtin.print.call [arg] =
        .ok (ofChars ((if n < 0 then ['-'] else []) ++ decimalDigits n.natAbs)) ∧
      slot.call verb.letter arg =
        .ok (slot.showing (if n < 2 ^ 63 then written else mismatch verb.letter arg)) ∧
      (slot.call verb.letter arg = .ok (slot.showing written) ↔ n < 2 ^ 63) := by
  intro arg spec written
  have text : argumentText verb.letter spec arg =
      if n < 2 ^ 63 then written else mismatch verb.letter arg := by
    rw [argumentText_letter, Number.signed?]
    by_cases small : n < 2 ^ 63
    · rw [if_pos small, if_pos small]
    · rw [if_neg small, if_neg small]
  have few : exceedsPlaces verb.letter spec arg = false := by cases verb <;> rfl
  have call := slot.call_eq verb.isVerb_letter.1 verb.isVerb_letter.2 few
  rw [text] at call
  refine ⟨?_, call, ?_⟩
  · change Except.ok (ofChars (intText n)) = _
    rw [intText]
    split <;> rfl
  · rw [call, Except.ok.injEq, Slot.showing_inj]
    split
    · rename_i small
      exact iff_of_true rfl small
    · rename_i large
      exact iff_of_false (laid_ne_mismatch verb spec n verb.letter arg).symm large

def paddedSlot : Slot where
  before := ['n', '=']
  taken := []
  shape := ⟨['+', '0'], some 6, none, by simp [isFlag], by simp, nofun⟩
  after := []
  later := []
  takes := .text (by decide)
  head := ['n', '=']
  tail := []
  head_printed := sprintf_text (by decide) []
  tail_printed := sprintf_text (by decide) []

theorem printf_padded :
    (-2 ^ 63 ≤ (-42 : Int) ∧ (-42 : Int) < 2 ^ 64) ∧
      paddedSlot.call 'd' (.num (.int (-42) (by decide))) = .ok (.str "n=-00042") := by
  have written := (printf_integer paddedSlot .decimal (-42) (by decide)).2.1
  exact ⟨by decide, written.trans (by cbv)⟩

theorem printf_largest_refused :
    Builtin.print.call [.num (.int (2 ^ 64 - 1) (by decide))] =
        .ok (.str "18446744073709551615") ∧
      Builtin.printf.call [.str "%d", .num (.int (2 ^ 64 - 1) (by decide))] =
        .ok (.str "%!d(int=18446744073709551615)") := by
  refine ⟨rfl, ?_⟩
  cbv

end Integers

section Characters

def scalar? : Number → Option Char
  | .int n _ => if 0 ≤ n ∧ n.toNat.isValidChar then some (Char.ofNat n.toNat) else none
  | .float _ => none

def charText (spec : Spec) (n : Number) : List Char :=
  match scalar? n with
  | some c => spec.laid false [] [c]
  | none => mismatch 'c' (.num n)

def lowest : Number → Char
  | .int n _ => Char.ofNat (n.toNat % 2 ^ 32)
  | .float _ => Char.ofNat 0

def Wraps : Number → Prop
  | .int n _ => 2 ^ 32 ≤ n ∧ (n.toNat % 2 ^ 32).isValidChar
  | .float _ => False

instance : (n : Number) → Decidable (Wraps n)
  | .int n _ => inferInstanceAs (Decidable (2 ^ 32 ≤ n ∧ (n.toNat % 2 ^ 32).isValidChar))
  | .float _ => .isFalse id

theorem not_isValidChar {u : Nat} (large : 2 ^ 32 ≤ u) : ¬ u.isValidChar := by
  rintro (low | ⟨-, high⟩)
  · omega
  · omega

theorem charText_of_wraps {n : Number} (wraps : Wraps n) (spec : Spec) :
    charText spec n = mismatch 'c' (.num n) := by
  cases n with
  | int n fits =>
    have large : ¬ n.toNat.isValidChar := not_isValidChar (by have := wraps.1; omega)
    rw [charText, scalar?, if_neg (fun both => large both.2)]
  | float x => exact wraps.elim

theorem argumentText_int_char (spec : Spec) {n : Int} (fits : -2 ^ 63 ≤ n ∧ n < 2 ^ 64) :
    argumentText 'c' spec (.num (.int n fits)) =
      if 0 ≤ n ∧ (n.toNat % 2 ^ 32).isValidChar then
        spec.laid false [] [Char.ofNat (n.toNat % 2 ^ 32)]
      else mismatch 'c' (.num (.int n fits)) := by
  by_cases natural : 0 ≤ n
  · have whole : (Number.int n fits).unsigned? = some n.toNat := by
      simp [Number.unsigned?, natural]
    simp only [argumentText, whole, Option.map_some, natural, true_and, pad_text]
  · have signed : (Number.int n fits).unsigned? = none := by simp [Number.unsigned?, natural]
    simp only [argumentText, signed, Option.map_none, natural, false_and, if_false]

theorem argumentText_char (spec : Spec) (n : Number) :
    argumentText 'c' spec (.num n) =
      if Wraps n then spec.laid false [] [lowest n] else charText spec n := by
  cases n with
  | float x => rfl
  | int n fits =>
    rw [argumentText_int_char]
    by_cases wraps : Wraps (.int n fits)
    · have natural : 0 ≤ n := by have := wraps.1; omega
      rw [if_pos wraps, if_pos ⟨natural, wraps.2⟩]
      rfl
    · rw [if_neg wraps, charText, scalar?]
      rcases lt_or_ge n (2 ^ 32) with small | large
      · by_cases natural : 0 ≤ n
        · have all : n.toNat % 2 ^ 32 = n.toNat := Nat.mod_eq_of_lt (by omega)
          rw [all]
          split <;> rfl
        · rw [if_neg (fun both => natural both.1), if_neg (fun both => natural both.1)]
      · have wide : ¬ n.toNat.isValidChar := not_isValidChar (by omega)
        have other : ¬ (n.toNat % 2 ^ 32).isValidChar := fun valid => wraps ⟨large, valid⟩
        rw [if_neg (fun both => other both.2), if_neg (fun both => wide both.2)]

-- A character is no complaint, even a padded one: that has two characters that are no blanks.
theorem char_ne_mismatch (spec : Spec) (c : Char) (arg : Json) :
    spec.laid false [] [c] ≠ mismatch 'c' arg := by
  intro same
  have only {d : Char} (member : d ∈ mismatch 'c' arg) (other : d ≠ ' ' ∧ d ≠ '0') : d = c := by
    rw [← same] at member
    rcases mem_laid member with sign | digit | zero | blank
    · cases sign
    · exact List.mem_singleton.mp digit
    · exact absurd zero other.2
    · exact absurd blank other.1
  obtain ⟨percent, mark⟩ := mem_mismatch 'c' arg
  cases (only percent (by decide)).trans (only mark (by decide)).symm

theorem printf_char (slot : Slot) (n : Number) :
    let spec := slot.shape.spec
    slot.call 'c' (.num n) =
        .ok (slot.showing
          (if Wraps n then spec.laid false [] [lowest n] else charText spec n)) ∧
      (slot.call 'c' (.num n) = .ok (slot.showing (charText spec n)) ↔ ¬ Wraps n) := by
  intro spec
  have stops : IsVerb 'c' := by decide
  have few : exceedsPlaces 'c' spec (.num n) = false := rfl
  have call := slot.call_eq stops (by decide) few
  rw [argumentText_char] at call
  refine ⟨call, ?_⟩
  rw [call, Except.ok.injEq, Slot.showing_inj]
  split
  · rename_i wraps
    rw [charText_of_wraps wraps]
    exact iff_of_false (char_ne_mismatch _ _ _) (not_not.mpr wraps)
  · rename_i straight
    exact iff_of_true rfl straight

theorem printf_wrapped_character :
    scalar? (.int (2 ^ 32 + 65) (by decide)) = none ∧
      Builtin.printf.call [.str "%c", .num (.int (2 ^ 32 + 65) (by decide))] = .ok (.str "A") := by
  refine ⟨rfl, ?_⟩
  cbv

end Characters

end PagePress.Template
