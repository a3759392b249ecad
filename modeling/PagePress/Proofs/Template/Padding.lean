import PagePress.Proofs.Template.Canonical
import PagePress.Proofs.Template.Verbs

namespace PagePress.Template

open Numeral

def HasForm (verb : Char) (arg : Json) : Prop :=
  match verb, arg with
  | 'v', _ | 's', _ => True
  | 'q', .str _ | 't', .bool _ => True
  | 'd', .num n | 'x', .num n | 'X', .num n => n.signed?.isSome
  | 'x', .str _ | 'X', .str _ => True
  | 'c', .num n => ∃ u, n.unsigned? = some u ∧ (u % 2 ^ 32).isValidChar
  | verb, .num _ => verb ∈ ['f', 'F', 'e', 'E', 'g', 'G']
  | _, _ => False

def isNumeric (verb : Char) (arg : Json) : Bool :=
  match verb, arg with
  | 'v', .num _ => true
  | verb, _ => verb ∈ ['d', 'x', 'X', 'f', 'F', 'e', 'E', 'g', 'G']

def leadingSign : List Char → List Char
  | '-' :: _ => ['-']
  | '+' :: _ => ['+']
  | _ => []

section Layout

def Spec.fill (spec : Spec) (body : List Char) : Nat := spec.width.getD 0 - body.length

def Spec.blanks (spec : Spec) (body : List Char) : List Char :=
  List.replicate (spec.fill body) ' '

inductive Filled (spec : Spec) (numeric : Bool) (body : List Char) : List Char → Prop where
  | behind (minus : spec.minus = true) : Filled spec numeric body (body ++ spec.blanks body)
  | between {sign rest : List Char} (minus : spec.minus = false) (zero : spec.zero = true)
      (number : numeric = true) (signed : sign = leadingSign body) (whole : body = sign ++ rest) :
      Filled spec numeric body (sign ++ (zeros (spec.fill body) ++ rest))
  | before (minus : spec.minus = false) (blank : spec.zero = false ∨ numeric = false) :
      Filled spec numeric body (spec.blanks body ++ body)

variable {spec : Spec} {numeric : Bool} {body : List Char}

theorem filled_pad (spec : Spec) (numeric : Bool) (body : List Char) :
    Filled spec numeric body (spec.pad numeric body) := by
  rw [Spec.pad.eq_def]
  cases minus : spec.minus with
  | true => exact .behind minus
  | false =>
    by_cases zero : spec.zero = true ∧ numeric = true
    · simp only [Bool.false_eq_true, if_false, if_pos zero]
      split
      · exact .between minus zero.1 zero.2 rfl rfl
      · exact .between minus zero.1 zero.2 rfl rfl
      · rename_i other other'
        have bare : [] = leadingSign body := by
          rw [leadingSign.eq_def]
          split
          · exact (other _ rfl).elim
          · exact (other' _ rfl).elim
          · rfl
        exact .between minus zero.1 zero.2 bare rfl
    · simp only [Bool.false_eq_true, if_false, if_neg zero]
      refine .before minus ?_
      rwa [not_and_or, Bool.not_eq_true, Bool.not_eq_true] at zero

theorem Filled.length {out : List Char} (filled : Filled spec numeric body out) :
    out.length = max (spec.width.getD 0) body.length := by
  have sum : spec.fill body + body.length = max (spec.width.getD 0) body.length :=
    Nat.sub_add_eq_max _ _
  cases filled with
  | behind => rw [List.length_append, Spec.blanks, List.length_replicate, Nat.add_comm, sum]
  | before => rw [List.length_append, Spec.blanks, List.length_replicate, sum]
  | between _ _ _ _ whole =>
    have parts := congrArg List.length whole
    rw [List.length_append] at parts
    rw [List.length_append, List.length_append, zeros, List.length_replicate]
    omega

theorem Filled.eq_body {out : List Char} (filled : Filled spec numeric body out)
    (full : spec.fill body = 0) : out = body := by
  cases filled with
  | behind => rw [Spec.blanks, full, List.replicate_zero, List.append_nil]
  | before => rw [Spec.blanks, full, List.replicate_zero, List.nil_append]
  | between _ _ _ _ whole => rw [full, zeros, List.replicate_zero, List.nil_append, ← whole]

theorem pad_none (spec : Spec) (numeric : Bool) (body : List Char) :
    { spec with width := none }.pad numeric body = body :=
  (filled_pad _ numeric body).eq_body (Nat.zero_sub _)

end Layout

section Verbs

variable {verb : Char} {arg : Json}

theorem argumentText_of_not_hasForm (missing : ¬HasForm verb arg) (spec : Spec) :
    argumentText verb spec arg = mismatch verb arg := by
  rw [HasForm.eq_def] at missing
  rw [argumentText.eq_def]
  split
  · exact (missing trivial).elim
  · exact (missing trivial).elim
  · exact (missing trivial).elim
  · exact (missing trivial).elim
  · exact (missing trivial).elim
  · rw [Option.not_isSome_iff_eq_none.mp missing]
  · rename_i n
    cases whole : n.unsigned? with
    | none => rfl
    | some u =>
      have other : ¬(u % 2 ^ 32).isValidChar := fun valid => missing ⟨u, whole, valid⟩
      rw [Option.map_some]
      exact if_neg other
  · rw [Option.not_isSome_iff_eq_none.mp missing]
  · rw [Option.not_isSome_iff_eq_none.mp missing]
  · exact (missing trivial).elim
  · exact (missing trivial).elim
  · apply if_neg
    intro float
    simp only [List.mem_cons, List.not_mem_nil, or_false] at float
    rcases float with rfl | rfl | rfl | rfl | rfl | rfl <;> simp at missing
  · rfl

variable {spec : Spec}

theorem argumentText_of_body {numeric : Bool} {body : List Char}
    (padded : argumentText verb spec arg = spec.pad numeric body)
    (unpadded : argumentText verb { spec with width := none } arg =
      { spec with width := none }.pad numeric body) :
    argumentText verb spec arg =
      spec.pad numeric (argumentText verb { spec with width := none } arg) := by
  rw [padded, unpadded, pad_none]

theorem argumentText_of_hasForm (form : HasForm verb arg) (spec : Spec) :
    argumentText verb spec arg =
      spec.pad (isNumeric verb arg) (argumentText verb { spec with width := none } arg) := by
  rw [HasForm.eq_def] at form
  split at form
  · cases arg <;> exact argumentText_of_body rfl rfl
  · exact argumentText_of_body rfl rfl
  · exact argumentText_of_body rfl rfl
  · exact argumentText_of_body rfl rfl
  · rename_i n
    obtain ⟨i, signed⟩ := Option.isSome_iff_exists.mp form
    have written (spec : Spec) : argumentText 'd' spec (.num n) =
        spec.pad true (spec.sign (.num n) (intText i)) := by
      simp only [argumentText, signed]
    exact argumentText_of_body (written spec) (written _)
  · rename_i n
    obtain ⟨i, signed⟩ := Option.isSome_iff_exists.mp form
    have written (spec : Spec) : argumentText 'x' spec (.num n) = spec.pad true (hexText i) := by
      simp only [argumentText, signed]
    exact argumentText_of_body (written spec) (written _)
  · rename_i n
    obtain ⟨i, signed⟩ := Option.isSome_iff_exists.mp form
    have written (spec : Spec) :
        argumentText 'X' spec (.num n) = spec.pad true (upperChars (hexText i)) := by
      simp only [argumentText, signed]
    exact argumentText_of_body (written spec) (written _)
  · exact argumentText_of_body rfl rfl
  · exact argumentText_of_body rfl rfl
  · rename_i n
    obtain ⟨u, whole, valid⟩ := form
    have written (spec : Spec) :
        argumentText 'c' spec (.num n) = spec.pad false [Char.ofNat (u % 2 ^ 32)] := by
      simp only [argumentText, whole, Option.map_some, if_pos valid]
    exact argumentText_of_body (written spec) (written _)
  · simp only [List.mem_cons, List.not_mem_nil, or_false] at form
    rcases form with rfl | rfl | rfl | rfl | rfl | rfl <;> exact argumentText_of_body rfl rfl
  · exact form.elim

end Verbs

section Reading

variable {base : Nat} {sign digits : List Char}

def integerOf? (base : Nat) (cs : List Char) : Option Int :=
  let (negative, digits) := splitSign cs
  (natural? base digits).map fun n : Nat => if negative then -(n : Int) else n

def signs : List (List Char) := [[], ['-'], ['+']]

def StartsDigit (cs : List Char) : Prop := ∃ c more, cs = c :: more ∧ c.isDigit = true

theorem StartsDigit.unsigned (begins : StartsDigit digits) : Unsigned digits := by
  obtain ⟨c, more, rfl, digit⟩ := begins
  rintro _ ⟨⟩
  exact not_isSign_of_isDigit digit

theorem StartsDigit.zeros_append (begins : StartsDigit digits) (k : Nat) :
    StartsDigit (zeros k ++ digits) := by
  cases k with
  | zero => exact begins
  | succ k => exact ⟨'0', _, rfl, rfl⟩

theorem unsigned_zeros_append (bare : Unsigned digits) (k : Nat) :
    Unsigned (zeros k ++ digits) := by
  cases k with
  | zero => exact bare
  | succ k =>
    rintro c ⟨⟩
    exact not_isSign_of_isDigit rfl

theorem splitSign_append (signed : sign ∈ signs) (bare : Unsigned digits) :
    splitSign (sign ++ digits) = (decide (sign = ['-']), digits) := by
  rw [signs] at signed
  fin_cases signed
  · exact splitSign_unsigned bare
  · rfl
  · rfl

theorem leadingSign_append (signed : sign ∈ signs) (bare : Unsigned digits) :
    leadingSign (sign ++ digits) = sign := by
  rw [signs] at signed
  fin_cases signed
  · rw [List.nil_append, leadingSign.eq_def]
    split
    · exact absurd (.inr rfl) (bare '-' rfl)
    · exact absurd (.inl rfl) (bare '+' rfl)
    · rfl
  · rfl
  · rfl

theorem Filled.eq_between {spec : Spec} {out : List Char}
    (filled : Filled spec true (sign ++ digits) out) (minus : spec.minus = false)
    (zero : spec.zero = true) (signed : sign ∈ signs) (bare : Unsigned digits) :
    out = sign ++ (zeros (spec.fill (sign ++ digits)) ++ digits) := by
  cases filled with
  | behind behind => simp [minus] at behind
  | before _ blank => simp [zero] at blank
  | between _ _ _ own whole =>
    rw [leadingSign_append signed bare] at own
    subst own
    rw [List.append_cancel_left whole]

theorem natural?_zeros_append (positive : 0 < base) (some : digits ≠ []) (k : Nat) :
    natural? base (zeros k ++ digits) = natural? base digits := by
  have zero : digitOf? base '0' = .some 0 := if_pos positive
  rw [natural?, natural?, if_neg some, if_neg (List.append_ne_nil_of_right_ne_nil _ some)]
  induction k with
  | zero => rfl
  | succ k ih =>
    rw [zeros, List.replicate_succ, List.cons_append, List.foldlM_cons, zero]
    exact ih

theorem integerOf?_zeros_append (positive : 0 < base) (signed : sign ∈ signs)
    (bare : Unsigned digits) (some : digits ≠ []) (k : Nat) :
    integerOf? base (sign ++ (zeros k ++ digits)) = integerOf? base (sign ++ digits) := by
  rw [integerOf?, integerOf?, splitSign_append signed (unsigned_zeros_append bare k),
    splitSign_append signed bare]
  dsimp only
  rw [natural?_zeros_append positive some]

theorem StartsDigit.not_named (begins : StartsDigit digits) :
    String.ofList (digits.map Char.toLower) ≠ "inf" ∧
      String.ofList (digits.map Char.toLower) ≠ "infinity" ∧
      String.ofList (digits.map Char.toLower) ≠ "nan" := by
  obtain ⟨c, more, rfl, digit⟩ := begins
  exact ⟨Literal.not_name digit (by simp), Literal.not_name digit (by simp),
    Literal.not_name digit (by simp)⟩

theorem decimal64?_zeros_append (signed : sign ∈ signs) (begins : StartsDigit digits) (k : Nat) :
    decimal64? (String.ofList (sign ++ (zeros k ++ digits))) =
      decimal64? (String.ofList (sign ++ digits)) := by
  have run : ∀ c ∈ zeros k, c.isDigit = true := fun c => isDigit_zeros
  obtain ⟨inf, infinity, nan⟩ := begins.not_named
  obtain ⟨inf', infinity', nan'⟩ := (begins.zeros_append k).not_named
  have bare := begins.unsigned
  obtain ⟨c, more, rfl, digit⟩ := begins
  rw [decimal64?, decimal64?, String.toList_ofList, String.toList_ofList,
    splitSign_append signed (unsigned_zeros_append bare k), splitSign_append signed bare]
  -- Past the names, both are cut at the same place, and the digits before it have one value.
  simp only [List.takeWhile_append_of_pos run, List.dropWhile_append_of_pos run,
    List.takeWhile_cons_of_pos digit, List.append_assoc, digitsValue_zeros_append,
    List.append_eq_nil_iff, reduceCtorEq, and_false, false_and, if_false]

end Reading

section Integers

def integerVerb? : Char → Option IntegerVerb
  | 'd' | 'v' => some .decimal
  | 'x' => some .hex
  | 'X' => some .upperHex
  | _ => none

namespace IntegerVerb

def base : IntegerVerb → Nat
  | .decimal => 10
  | .hex | .upperHex => 16

variable (written : IntegerVerb)

def letterCase : IntegerVerb → Char → Char
  | .decimal | .hex => id
  | .upperHex => Char.toUpper

theorem digits_eq (n : Nat) :
    written.digits n = (Nat.toDigits written.base n).map written.letterCase := by
  cases written
  · exact (List.map_id _).symm
  · exact (List.map_id _).symm
  · rfl

theorem digitOf?_letterCase (written : IntegerVerb) : ∀ d < written.base,
    digitOf? written.base (written.letterCase d.digitChar) = some d := by
  cases written <;> decide

theorem one_lt_base : 1 < written.base := by
  cases written <;> decide

theorem digits_nonempty (n : Nat) : written.digits n ≠ [] := by
  rw [digits_eq, ne_eq, List.map_eq_nil_iff]
  exact List.ne_nil_of_length_pos Nat.length_toDigits_pos

theorem unsigned_digits (n : Nat) : Unsigned (written.digits n) := by
  intro c first sign
  have other := mem_digits written (List.mem_of_mem_head? first)
  rcases sign with rfl | rfl
  · exact other (by simp)
  · exact other (by simp)

theorem natural?_digits (n : Nat) : natural? written.base (written.digits n) = some n := by
  have base := written.one_lt_base
  rw [natural?, if_neg (written.digits_nonempty n), digits_eq]
  induction n using Nat.strong_induction_on with
  | _ n ih =>
    rw [Nat.toDigits_eq_if base]
    split
    · rename_i one
      simp [written.digitOf?_letterCase n one]
    · have last := written.digitOf?_letterCase (n % written.base) (Nat.mod_lt n (by omega))
      rw [List.map_append, List.foldlM_append, ih _ (Nat.div_lt_self (by omega) base)]
      simp [last, Nat.div_add_mod]

theorem integerOf?_digits (spec : Spec) (n : Int) :
    integerOf? written.base (written.sign spec n ++ written.digits n.natAbs) = some n := by
  rw [integerOf?, splitSign_append (sign_mem written spec n) (written.unsigned_digits _)]
  dsimp only
  rw [written.natural?_digits, Option.map_some]
  have negative : written.sign spec n = ['-'] ↔ n < 0 := by
    rw [sign.eq_def]
    by_cases below : n < 0
    · simp [below]
    · cases written
      · cases spec.plus <;> simp [below]
      · simp [below]
      · simp [below]
  simp only [negative, decide_eq_true_eq]
  congr 1
  split <;> omega

end IntegerVerb

theorem argumentText_integer {verb : Char} {written : IntegerVerb} {n : Int}
    {fits : -2 ^ 63 ≤ n ∧ n < 2 ^ 64} (known : integerVerb? verb = some written)
    (form : HasForm verb (.num (.int n fits))) (spec : Spec) :
    argumentText verb { spec with width := none } (.num (.int n fits)) =
      written.sign spec n ++ written.digits n.natAbs := by
  have unpadded (written : IntegerVerb) :
      { spec with width := none }.laid true (written.sign spec n) (written.digits n.natAbs) =
        written.sign spec n ++ written.digits n.natAbs := by
    have bare : '-' ∉ written.digits n.natAbs ∧ '+' ∉ written.digits n.natAbs :=
      ⟨fun member => mem_digits written member (by simp),
        fun member => mem_digits written member (by simp)⟩
    rw [← pad_laid _ true (sign_mem written spec n) bare, pad_none]
  have lettered (written : IntegerVerb) (form : HasForm written.letter (.num (.int n fits))) :
      argumentText written.letter { spec with width := none } (.num (.int n fits)) =
        written.sign spec n ++ written.digits n.natAbs := by
    have small : (Number.int n fits).signed?.isSome := by
      cases written <;> exact form
    rw [Number.signed?] at small
    have signed : (Number.int n fits).signed? = some n :=
      if_pos (Option.isSome_ite.mp small)
    rw [argumentText_letter, signed]
    exact unpadded written
  rw [integerVerb?.eq_def] at known
  split at known
  · cases known
    exact lettered .decimal form
  · cases known
    change { spec with width := none }.pad true
      ({ spec with width := none }.sign (.num (.int n fits)) (intText n)) = _
    rw [pad_none, sign_intText]
    rfl
  · cases known
    exact lettered .hex form
  · cases known
    exact lettered .upperHex form
  · cases known

end Integers

section Decimals

def SignedText (signs : List (List Char)) (cs : List Char) : Prop :=
  ∃ sign ∈ signs, ∃ digits, cs = sign ++ digits ∧ StartsDigit digits

def bareSigns : List (List Char) := [[], ['-']]

variable {cs digits : List Char} {x : Binary64}

theorem StartsDigit.append (begins : StartsDigit cs) (ds : List Char) : StartsDigit (cs ++ ds) := by
  obtain ⟨c, more, rfl, digit⟩ := begins
  exact ⟨c, more ++ ds, rfl, digit⟩

theorem startsDigit_of_run (run : Numeral.Run cs) : StartsDigit cs := by
  obtain ⟨c, more, rfl⟩ := List.exists_cons_of_ne_nil run.nonempty
  exact ⟨c, more, rfl, run.digits c (.head _)⟩

theorem run_decimalDigits_append_zeros (n k : Nat) :
    Numeral.Run (decimalDigits n ++ zeros k) where
  digits c member := by
    rcases List.mem_append.mp member with digit | zero
    · exact isDigit_decimalDigits digit
    · exact isDigit_zeros zero
  nonempty := List.append_ne_nil_of_left_ne_nil (run_decimalDigits n).nonempty _

theorem startsDigit_withPoint (run : Numeral.Run digits) (places : Nat) :
    StartsDigit (withPoint digits places) := by
  obtain ⟨whole, part, text, -, -, -, shape⟩ := withPoint_eq run.nonempty places
  rw [text]
  refine StartsDigit.append ?_ _
  rcases shape with rfl | ⟨front, nonempty⟩
  · exact ⟨'0', [], rfl, rfl⟩
  · exact startsDigit_of_run ⟨fun c member => run.digits c (front.subset member), nonempty⟩

theorem startsDigit_withExponent (width : Nat) (run : Numeral.Run digits) (scale : Int) :
    StartsDigit (withExponent width digits scale) := by
  rw [withExponent, List.append_assoc]
  exact (startsDigit_withPoint run _).append _

theorem signedText_signed (begins : StartsDigit cs) : SignedText bareSigns (signed x cs) := by
  rw [signed]
  split
  · exact ⟨['-'], by simp [bareSigns], cs, rfl, begins⟩
  · exact ⟨[], by simp [bareSigns], cs, rfl, begins⟩

theorem signedText_intText (n : Int) : SignedText bareSigns (intText n) := by
  have begins := startsDigit_of_run (run_decimalDigits n.natAbs)
  rw [intText]
  split
  · exact ⟨['-'], by simp [bareSigns], _, rfl, begins⟩
  · exact ⟨[], by simp [bareSigns], _, rfl, begins⟩

theorem signedText_plain (x : Binary64) : SignedText bareSigns (plain x) := by
  refine signedText_signed ?_
  split
  · exact ⟨'0', [], rfl, rfl⟩
  · exact startsDigit_withPoint (run_decimalDigits_append_zeros _ _) _

theorem signedText_fixed (x : Binary64) (places : Nat) : SignedText bareSigns (fixed x places) :=
  signedText_signed (startsDigit_withPoint (run_decimalDigits_append_zeros _ _) _)

theorem signedText_exponential (width : Nat) (x : Binary64) (places : Nat) :
    SignedText bareSigns (exponential width x places) := by
  rw [exponential]
  dsimp only
  split
  · have run : Numeral.Run (zeros (places + 1)) :=
      ⟨fun _ => isDigit_zeros, List.cons_ne_nil _ _⟩
    exact signedText_signed (startsDigit_withExponent width run 0)
  · exact signedText_signed (startsDigit_withExponent width (run_decimalDigits_append_zeros _ _) _)

theorem signedText_valueText (x : Binary64) : SignedText bareSigns (valueText x) := by
  rw [valueText]
  dsimp only
  split
  · exact signedText_plain x
  · split
    · exact signedText_plain x
    · exact signedText_signed (startsDigit_withExponent 2 (run_decimalDigits _) _)

theorem signedText_numberText (n : Number) : SignedText bareSigns (numberText n) := by
  cases n with
  | int n => exact signedText_intText n
  | float x => exact signedText_valueText x

theorem toUpper_digit {c : Char} (digit : c.isDigit = true) : c.toUpper = c := by
  simp only [Char.isDigit, Bool.and_eq_true, decide_eq_true_eq] at digit
  rw [Char.toUpper, dif_neg]
  rintro ⟨large, -⟩
  exact absurd (UInt32.le_trans large digit.2) (by decide)

theorem SignedText.upperChars (written : SignedText bareSigns cs) :
    SignedText bareSigns (upperChars cs) := by
  obtain ⟨sign, signed, digits, rfl, c, more, rfl, digit⟩ := written
  refine ⟨sign, signed, (c :: more).map Char.toUpper, ?_, c, more.map Char.toUpper, ?_, digit⟩
  · rw [bareSigns] at signed
    fin_cases signed <;> rfl
  · rw [List.map_cons, toUpper_digit digit]

theorem signedText_floatText (verb : Char) (precision : Option Nat) (x : Binary64) :
    SignedText bareSigns (floatText verb precision x) := by
  rw [floatText.eq_def]
  dsimp only
  split
  · exact signedText_fixed x _
  · exact signedText_fixed x _
  · exact signedText_exponential 2 x _
  · exact (signedText_exponential 2 x _).upperChars
  · exact (signedText_valueText x).upperChars
  · exact signedText_valueText x

-- The flag shows a sign only where there is none.
theorem SignedText.sign (written : SignedText bareSigns cs) (spec : Spec) (n : Number) :
    SignedText signs (spec.sign (.num n) cs) := by
  obtain ⟨sign, signed, digits, rfl, begins⟩ := written
  rw [bareSigns] at signed
  rw [Spec.sign]
  split
  · rename_i plus
    fin_cases signed
    · exact ⟨['+'], by simp [signs], digits, rfl, begins⟩
    · exact absurd rfl plus.2
  · exact ⟨sign, List.Sublist.subset (by simp [signs]) signed, digits, rfl, begins⟩

def decimalVerbs : List Char := ['d', 'v', 'f', 'F', 'e', 'E', 'g', 'G']

theorem argumentText_decimal {verb : Char} {n : Number} (decimal : verb ∈ decimalVerbs)
    (form : HasForm verb (.num n)) (spec : Spec) :
    SignedText signs (argumentText verb { spec with width := none } (.num n)) := by
  have unpadded {cs : List Char} (written : SignedText bareSigns cs)
      (padded : argumentText verb { spec with width := none } (.num n) =
        { spec with width := none }.pad true ({ spec with width := none }.sign (.num n) cs)) :
      SignedText signs (argumentText verb { spec with width := none } (.num n)) := by
    rw [padded, pad_none]
    exact written.sign _ n
  simp only [decimalVerbs, List.mem_cons, List.not_mem_nil, or_false] at decimal
  rcases decimal with rfl | rfl | rfl | rfl | rfl | rfl | rfl | rfl
  · obtain ⟨i, signed⟩ := Option.isSome_iff_exists.mp form
    exact unpadded (signedText_intText i) (by simp only [argumentText, signed])
  · exact unpadded (signedText_numberText n) rfl
  all_goals exact unpadded (signedText_floatText _ _ _) rfl

end Decimals

section Whole

structure FilledUp (verb : Char) (spec : Spec) (arg : Json) (body out : List Char) : Prop where
  length : out.length = max (spec.width.getD 0) body.length
  filled : Filled spec (isNumeric verb arg) body out
  -- Behind zeros, an integer is read back, and a float is read as it is without them.
  integer : ∀ (n : Int) (fits : -2 ^ 63 ≤ n ∧ n < 2 ^ 64) (written : IntegerVerb),
    arg = .num (.int n fits) → integerVerb? verb = some written →
      spec.minus = false → spec.zero = true → integerOf? written.base out = some n
  decimal : ∀ n : Number, arg = .num n → verb ∈ decimalVerbs →
    spec.minus = false → spec.zero = true →
      decimal64? (String.ofList out) = decimal64? (String.ofList body)

theorem isNumeric_of_integerVerb {verb : Char} {written : IntegerVerb}
    (known : integerVerb? verb = some written) (n : Number) :
    isNumeric verb (.num n) = true := by
  rw [integerVerb?.eq_def] at known
  split at known
  · rfl
  · rfl
  · rfl
  · rfl
  · cases known

theorem isNumeric_of_decimalVerb {verb : Char} (decimal : verb ∈ decimalVerbs) (n : Number) :
    isNumeric verb (.num n) = true := by
  rw [decimalVerbs] at decimal
  fin_cases decimal <;> rfl

theorem formatVerb_of_few {verb : Char} {spec : Spec} {arg : Json}
    (few : exceedsPlaces verb spec arg = false) :
    formatVerb verb spec arg = some (argumentText verb spec arg) :=
  if_neg (Bool.eq_false_iff.mp few)

-- Only numbers have places, and each verb that shows them has a form for every number.
theorem exceedsPlaces_of_not_hasForm {verb : Char} {arg : Json} (missing : ¬HasForm verb arg)
    (spec : Spec) : exceedsPlaces verb spec arg = false := by
  by_contra many
  rw [Bool.not_eq_false, exceedsPlaces, Bool.and_eq_true, Bool.and_eq_true,
    List.contains_eq_mem, decide_eq_true_eq] at many
  obtain ⟨⟨shown, number⟩, -⟩ := many
  cases arg with
  | num n =>
    simp only [List.mem_cons, List.not_mem_nil, or_false] at shown
    rcases shown with rfl | rfl | rfl | rfl <;> exact missing (by simp [HasForm])
  | _ => cases number

theorem argumentText_filledUp {verb : Char} {arg : Json} (form : HasForm verb arg) (spec : Spec) :
    FilledUp verb spec arg (argumentText verb { spec with width := none } arg)
      (argumentText verb spec arg) := by
  have filled := filled_pad spec (isNumeric verb arg)
    (argumentText verb { spec with width := none } arg)
  rw [← argumentText_of_hasForm form spec] at filled
  refine ⟨filled.length, filled, ?_, ?_⟩
  · rintro n fits written rfl known minus zero
    rw [isNumeric_of_integerVerb known, argumentText_integer known form] at filled
    have signed : written.sign spec n ∈ signs := sign_mem written spec n
    have bare := written.unsigned_digits n.natAbs
    rw [filled.eq_between minus zero signed bare,
      integerOf?_zeros_append (by have := written.one_lt_base; omega) signed bare
        (written.digits_nonempty _), written.integerOf?_digits]
  · rintro n rfl decimal minus zero
    obtain ⟨sign, signed, digits, body, begins⟩ := argumentText_decimal decimal form spec
    rw [isNumeric_of_decimalVerb decimal, body] at filled
    rw [filled.eq_between minus zero signed begins.unsigned, body,
      decimal64?_zeros_append signed begins]

-- A width changes nothing of what is written but the fill, and nothing at all of a complaint. A
-- number with more places than can be counted is not written.
theorem formatVerb_filledUp (verb : Char) (spec : Spec) (arg : Json) :
    (¬HasForm verb arg → formatVerb verb spec arg = some (mismatch verb arg)) ∧
      (HasForm verb arg →
        (exceedsPlaces verb spec arg = true → formatVerb verb spec arg = none) ∧
          (exceedsPlaces verb spec arg = false → ∃ body out,
            formatVerb verb { spec with width := none } arg = some body ∧
              formatVerb verb spec arg = some out ∧ FilledUp verb spec arg body out)) := by
  refine ⟨fun missing => ?_, fun form => ⟨fun many => if_pos many, fun few => ?_⟩⟩
  · have few := exceedsPlaces_of_not_hasForm missing spec
    rw [formatVerb_of_few few, argumentText_of_not_hasForm missing spec]
  · exact ⟨_, _, formatVerb_of_few few, formatVerb_of_few few, argumentText_filledUp form spec⟩

theorem formatVerb_filledUp_negative :
    let spec : Spec := { zero := true, width := some 6 }
    let arg : Json := .num (.int (-42) (by decide))
    HasForm 'd' arg ∧ exceedsPlaces 'd' spec arg = false ∧
      ∃ out, formatVerb 'd' spec arg = some out ∧ out = "-00042".toList ∧
        integerOf? 10 out = some (-42) := by
  intro spec arg
  have form : HasForm 'd' arg := rfl
  obtain ⟨body, out, -, written, filled⟩ := ((formatVerb_filledUp 'd' spec arg).2 form).2 rfl
  have text : some out = some "-00042".toList := written.symm.trans (by decide)
  exact ⟨form, rfl, out, written, Option.some.inj text,
    filled.integer (-42) _ .decimal rfl rfl rfl rfl⟩

-- %.65536f
theorem formatVerb_places_panic :
    HasForm 'f' (.num (.int 1 (by decide))) ∧
      formatVerb 'f' { precision := some 65536 } (.num (.int 1 (by decide))) = none :=
  ⟨by simp [HasForm], rfl⟩

-- Characters are counted, not their bytes.
example : formatVerb 's' { width := some 4 } (.str "né") = some "  né".toList := by decide

end Whole

end PagePress.Template
