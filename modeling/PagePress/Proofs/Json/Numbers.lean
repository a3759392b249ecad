import PagePress.Proofs.Json.RoundTrip
import PagePress.Proofs.Numeral.Digits
import PagePress.Proofs.Numeral.Rereading

namespace PagePress.Json
open Text Chain Numeral

theorem encode_ascii {c : Char} (ascii : c.toNat < 0x80) :
    String.utf8EncodeChar c = [UInt8.ofNat c.toNat] := by
  have shown : c.val.toNat = c.toNat := rfl
  simp [String.utf8EncodeChar, shown, Nat.le_of_lt_succ ascii]

theorem ascii_of_isDigit {c : Char} (digit : c.isDigit = true) : c.toNat < 0x80 := by
  have bound : c.toNat ≤ '9'.toNat := by
    simp only [Char.isDigit, Bool.and_eq_true, decide_eq_true_eq] at digit
    exact digit.2
  exact Nat.lt_of_le_of_lt bound (by decide)

def EndsDigits (rest : Bytes) : Prop := ∀ b ∈ rest.head?, isDigit b = false

theorem splitDigits_stop {rest : Bytes} (stop : EndsDigits rest) :
    splitDigits rest = ([], rest) := by
  cases rest with
  | nil => rfl
  | cons b t =>
    have other : isDigit b = false := stop b rfl
    simp [splitDigits, other]

theorem splitDigits_digits {cs : List Char} (digits : ∀ c ∈ cs, c.isDigit = true) {rest : Bytes}
    (stop : EndsDigits rest) : splitDigits (utf8Chars cs ++ rest) = (cs, rest) := by
  induction cs with
  | nil => exact splitDigits_stop stop
  | cons c later ih =>
    obtain ⟨first, others⟩ := List.forall_mem_cons.mp digits
    have ascii := ascii_of_isDigit first
    have tail := ih others
    have byte : isDigit (UInt8.ofNat c.toNat) = true := by rwa [isDigit, letter_ofNat ascii]
    rw [splitDigits, Prod.mk.injEq] at tail ⊢
    rw [utf8Chars_cons, encode_ascii ascii, List.cons_append, List.nil_append, List.cons_append,
      List.takeWhile_cons, List.dropWhile_cons, if_pos byte, if_pos byte, List.map_cons,
      letter_ofNat ascii, tail.1]
    exact ⟨rfl, tail.2⟩

theorem readWhole_whole {cs : List Char} (whole : Whole cs) {rest : Bytes}
    (stop : EndsDigits rest) : Reads (readWhole (utf8Chars cs ++ rest)) cs rest := by
  cases cs with
  | nil => exact absurd rfl whole.nonempty
  | cons c later =>
    obtain ⟨first, others⟩ := List.forall_mem_cons.mp whole.digits
    have ascii := ascii_of_isDigit first
    have shown := letter_ofNat ascii
    rw [utf8Chars_cons, encode_ascii ascii, List.cons_append, List.nil_append, List.cons_append]
    refine ⟨by simp only [List.length_cons, List.length_append]; omega, ?_⟩
    by_cases zero : c = '0'
    · obtain ⟨rfl, rfl⟩ := List.cons.inj (whole.alone (congrArg some zero))
      have ended : rest.head?.any isDigit = false := by
        cases rest with
        | nil => rfl
        | cons b t => exact stop b rfl
      rw [readWhole, if_pos shown, if_neg]
      · rfl
      · rw [utf8Chars_nil, List.nil_append, ended]
        decide
    · have digit : isDigit (UInt8.ofNat c.toNat) = true := by rwa [isDigit, shown]
      simp [readWhole, shown, zero, digit, splitDigits_digits others stop]

theorem readPart_point {cs : List Char} (run : Run cs) {rest : Bytes} (stop : EndsDigits rest) :
    Reads (readPart ('.'.toUInt8 :: (utf8Chars cs ++ rest))) (some cs) rest := by
  have mark : letter '.'.toUInt8 = '.' := by decide
  have cut := splitDigits_digits run.digits stop
  refine ⟨by simp only [List.length_cons, List.length_append]; omega, ?_⟩
  rw [readPart, if_pos mark]
  split
  · rename_i empty _
    rw [cut] at empty
    cases empty
    exact absurd rfl run.nonempty
  · rename_i found _
    rw [cut] at found
    cases found
    rfl

theorem readPart_none {rest : Bytes} (other : ∀ b ∈ rest.head?, letter b ≠ '.') :
    Reads (readPart rest) none rest := by
  refine ⟨Nat.lt_succ_self _, ?_⟩
  cases rest with
  | nil => rfl
  | cons b t => rw [readPart, if_neg (other b rfl)]

theorem le_ofDigitChars (cs : List Char) (n : Nat) : n ≤ Nat.ofDigitChars 10 cs n := by
  induction cs generalizing n with
  | nil => exact Nat.le_refl _
  | cons c later ih =>
    rw [Nat.ofDigitChars_cons]
    exact Nat.le_trans (by omega) (ih _)

theorem pastMaxPower?_none {cs : List Char} {n : Nat}
    (small : Nat.ofDigitChars 10 cs n ≤ maxPower) : pastMaxPower? n cs = none := by
  induction cs generalizing n with
  | nil => rfl
  | cons c later ih =>
    rw [Nat.ofDigitChars_cons] at small
    have digit : digitsValue [c] = c.toNat - '0'.toNat := by simp [digitsValue]
    have within := Nat.le_trans (le_ofDigitChars later _) small
    rw [pastMaxPower?, digit, if_neg (Nat.not_lt.mpr within)]
    exact ih small

def signChar (negative : Bool) : Char := if negative then '-' else '+'

theorem readPower_of {b : UInt8} {r body rest : Bytes} {negative limited : Bool} {cs : List Char}
    (mark : letter b = 'e') (sign : (r.head?.map letter == some '-') = negative)
    (behind : (if negative || r.head?.map letter == some '+' then r.drop 1 else r) = body)
    (run : Run cs) (cut : splitDigits body = (cs, rest)) (within : pastMaxPower? 0 cs = none) :
    Reads (readPower limited (b :: r))
      (some (if negative then -(digitsValue cs : Int) else digitsValue cs)) rest := by
  subst sign
  subst behind
  have shorter := splitDigits_le
    (if (r.head?.map letter == some '-') || r.head?.map letter == some '+' then r.drop 1 else r)
  have le : (if (r.head?.map letter == some '-') || r.head?.map letter == some '+' then r.drop 1
      else r).length ≤ r.length := by
    split <;> simp
  rw [cut] at shorter
  dsimp only at shorter
  refine ⟨by simp only [List.length_cons]; omega, ?_⟩
  rw [readPower, if_pos (.inl mark)]
  dsimp only
  split
  · rename_i empty
    rw [empty] at cut
    cases cut
    exact absurd rfl run.nonempty
  · split
    · rename_i none_found _
      rw [cut] at none_found
      cases none_found
      exact absurd rfl run.nonempty
    · rename_i found _
      rw [cut] at found
      cases found
      simp only [within, ite_self]

theorem readPower_power {cs : List Char} (run : Run cs) (small : digitsValue cs ≤ maxPower)
    (negative limited : Bool) {rest : Bytes} (stop : EndsDigits rest) :
    Reads (readPower limited ('e'.toUInt8 :: (signChar negative).toUInt8 :: (utf8Chars cs ++ rest)))
      (some (if negative then -(digitsValue cs : Int) else digitsValue cs)) rest := by
  have cut := splitDigits_digits run.digits stop
  have within : pastMaxPower? 0 cs = none := pastMaxPower?_none small
  have sign : letter (signChar negative).toUInt8 = signChar negative := by
    cases negative <;> decide
  apply readPower_of (by decide) _ _ run cut within
  · rw [List.head?_cons, Option.map_some, sign]
    cases negative <;> rfl
  · rw [List.head?_cons, Option.map_some, sign]
    cases negative <;> rfl

theorem readPower_none (limited : Bool) {rest : Bytes}
    (other : ∀ b ∈ rest.head?, letter b ≠ 'e' ∧ letter b ≠ 'E') :
    Reads (readPower limited rest) none rest := by
  refine ⟨Nat.lt_succ_self _, ?_⟩
  cases rest with
  | nil => rfl
  | cons b t =>
    obtain ⟨small, capital⟩ := other b rfl
    simp [readPower, small, capital]

theorem readNumber_of {s body r t rest : Bytes} {negative : Bool} {whole : List Char}
    {part : Option (List Char)} {power : Option Int} {n : Number}
    (sign : (s.head?.map letter == some '-') = negative)
    (behind : (if negative then s.drop 1 else s) = body) (readW : Reads (readWhole body) whole r)
    (readP : Reads (readPart r) part t) (readE : ∀ limited, Reads (readPower limited t) power rest)
    (number : numberOf? negative whole part power = some n) : Reads (readNumber s) n rest := by
  subst sign
  subst behind
  obtain ⟨shortW, readW⟩ := readW
  obtain ⟨shortP, readP⟩ := readP
  obtain ⟨shortE, readE⟩ := readE ((whole ++ part.getD []).any (· ≠ '0'))
  have le := pastSign_le s
  refine ⟨by omega, ?_⟩
  rw [readNumber]
  simp only [readW, readP, readE, ok_bind, number]

-- What may follow a number goes on with none of its parts.
theorem stop_of_endsNumber {rest : Bytes} (ends : EndsNumber rest) {b : UInt8}
    (first : b ∈ rest.head?) :
    isDigit b = false ∧ letter b ≠ '.' ∧ letter b ≠ 'e' ∧ letter b ≠ 'E' := by
  rw [isDigit]
  rcases ends b first with comma | bracket | brace
  · rw [comma]
    decide
  · rw [bracket]
    decide
  · rw [brace]
    decide

-- A number as it is spelled. A power always has its sign.
structure Spelling where
  negative : Bool
  whole : List Char
  part : Option (List Char)
  power : Option (Bool × List Char)
  wholeDigits : Whole whole
  partDigits : ∀ digits ∈ part, Run digits
  powerDigits : ∀ p ∈ power, Run p.2 ∧ digitsValue p.2 ≤ maxPower

namespace Spelling

variable (s : Spelling)

def signChars : List Char := if s.negative then ['-'] else []

def partChars : List Char := pointed s.part

def powerChars : List Char :=
  match s.power with
  | none => []
  | some (negative, digits) => 'e' :: signChar negative :: digits

def chars : List Char := s.signChars ++ (s.whole ++ (s.partChars ++ s.powerChars))

def power? : Option Int :=
  s.power.map fun p => if p.1 then -(digitsValue p.2 : Int) else digitsValue p.2

def number? : Option Number := numberOf? s.negative s.whole s.part s.power?

variable {rest : Bytes} (ends : EndsNumber rest)
include ends

theorem readPower_spelled (limited : Bool) :
    Reads (readPower limited (utf8Chars s.powerChars ++ rest)) s.power? rest := by
  cases spelled : s.power with
  | none =>
    have none_read : s.power? = none := by rw [power?, spelled, Option.map_none]
    rw [powerChars, spelled, none_read]
    refine readPower_none limited fun b first => ?_
    exact (stop_of_endsNumber ends first).2.2
  | some p =>
    obtain ⟨run, small⟩ := s.powerDigits p spelled
    have e : String.utf8EncodeChar 'e' = ['e'.toUInt8] := by decide
    have sign : String.utf8EncodeChar (signChar p.1) = [(signChar p.1).toUInt8] := by
      cases p.1 <;> decide
    have read := readPower_power run small p.1 limited
      (fun b first => (stop_of_endsNumber ends first).1)
    rw [powerChars, power?, spelled, utf8Chars_cons, utf8Chars_cons, e, sign]
    exact read

theorem stop_powerChars {b : UInt8} (first : b ∈ (utf8Chars s.powerChars ++ rest).head?) :
    isDigit b = false ∧ letter b ≠ '.' := by
  cases spelled : s.power with
  | none =>
    rw [powerChars, spelled] at first
    obtain ⟨digit, point, -⟩ := stop_of_endsNumber ends first
    exact ⟨digit, point⟩
  | some p =>
    have e : String.utf8EncodeChar 'e' = ['e'.toUInt8] := by decide
    rw [powerChars, spelled, utf8Chars_cons, e] at first
    cases first
    decide

theorem readPart_spelled :
    Reads (readPart (utf8Chars s.partChars ++ (utf8Chars s.powerChars ++ rest))) s.part
      (utf8Chars s.powerChars ++ rest) := by
  cases spelled : s.part with
  | none =>
    rw [partChars, spelled]
    exact readPart_none fun b first => (s.stop_powerChars ends first).2
  | some digits =>
    have point : String.utf8EncodeChar '.' = ['.'.toUInt8] := by decide
    rw [partChars, spelled, pointed, utf8Chars_cons, point]
    exact readPart_point (s.partDigits digits spelled)
      fun b first => (s.stop_powerChars ends first).1

theorem stop_partChars :
    EndsDigits (utf8Chars s.partChars ++ (utf8Chars s.powerChars ++ rest)) := by
  intro b first
  cases spelled : s.part with
  | none =>
    rw [partChars, spelled] at first
    exact (s.stop_powerChars ends first).1
  | some digits =>
    have point : String.utf8EncodeChar '.' = ['.'.toUInt8] := by decide
    rw [partChars, spelled, pointed, utf8Chars_cons, point] at first
    cases first
    decide

omit ends in
theorem whole_start : ∃ b t, utf8Chars s.whole = b :: t ∧ (letter b).isDigit = true := by
  obtain ⟨c, later, spelled⟩ := List.exists_cons_of_ne_nil s.wholeDigits.nonempty
  have digit : c.isDigit = true :=
    s.wholeDigits.digits c (by rw [spelled]; exact List.mem_cons_self)
  have ascii := ascii_of_isDigit digit
  refine ⟨UInt8.ofNat c.toNat, utf8Chars later, ?_, ?_⟩
  · rw [spelled, utf8Chars_cons, encode_ascii ascii]
    rfl
  · rwa [letter_ofNat ascii]

theorem reads {n : Number} (number : s.number? = some n) :
    Reads (readNumber (utf8Chars s.chars ++ rest)) n rest := by
  have whole := readWhole_whole s.wholeDigits (s.stop_partChars ends)
  have part := s.readPart_spelled ends
  have power := s.readPower_spelled ends
  rw [chars, utf8Chars_append, utf8Chars_append, utf8Chars_append, List.append_assoc,
    List.append_assoc, List.append_assoc]
  refine readNumber_of ?_ ?_ whole part power number
  · cases sign : s.negative with
    | true =>
      have minus : utf8Chars ['-'] = ['-'.toUInt8] := by decide
      have mark : letter '-'.toUInt8 = '-' := by decide
      rw [signChars, sign, if_pos rfl, minus, List.cons_append, List.head?_cons, Option.map_some,
        mark]
      rfl
    | false =>
      obtain ⟨b, t, first, digit⟩ := s.whole_start
      have other : letter b ≠ '-' := by
        intro same
        rw [same] at digit
        revert digit
        decide
      rw [signChars, sign, first]
      simp [other]
  · rw [signChars]
    cases s.negative <;> rfl

end Spelling

theorem reread_of_spelling {n m : Number} (s : Spelling) (text : n.jsonText = s.chars)
    (number : s.number? = some m) : n.reread = m := by
  have reads : Reads (readNumber (utf8Chars s.chars ++ [])) m [] :=
    s.reads (by simp [EndsNumber]) number
  rw [List.append_nil, ← text] at reads
  obtain ⟨shorter, read⟩ := reads
  rw [Number.reread, read]

theorem legible_of_spelling {n m : Number} (s : Spelling) (text : n.jsonText = s.chars)
    (number : s.number? = some m) : LegibleNumber n := by
  obtain ⟨b, t, first, digit⟩ := s.whole_start
  have start : ∃ b body, utf8Chars n.jsonText = b :: body ∧
      (letter b = '-' ∨ (letter b).isDigit) := by
    rw [text, Spelling.chars, Spelling.signChars, utf8Chars_append, utf8Chars_append, first]
    cases s.negative with
    | true => exact ⟨'-'.toUInt8, _, rfl, .inl (by decide)⟩
    | false => exact ⟨b, _, rfl, .inr digit⟩
  obtain ⟨c, body, spelled, begins⟩ := start
  refine ⟨c, body, spelled, begins, ?_⟩
  intro rest ends
  rw [← spelled, text, reread_of_spelling s text number]
  exact s.reads ends number

theorem signed_natAbs (i : Int) : (if i < 0 then -(i.natAbs : Int) else i.natAbs) = i := by omega

theorem spelling_int (n : Int) (fits : -2 ^ 63 ≤ n ∧ n < 2 ^ 64) :
    ∃ s : Spelling, (Number.int n fits).jsonText = s.chars ∧ s.number? = some (.int n fits) := by
  let s : Spelling :=
    { negative := decide (n < 0), whole := decimalDigits n.natAbs, part := none, power := none
      wholeDigits := whole_decimalDigits _, partDigits := by simp, powerDigits := by simp }
  have value := digitsValue_decimalDigits n.natAbs
  refine ⟨s, ?_, ?_⟩
  · by_cases below : n < 0 <;>
      simp [Number.jsonText, intText, s, Spelling.chars, Spelling.signChars, Spelling.partChars,
        Spelling.powerChars, pointed, below]
  · have same := signed_natAbs n
    have plain : ¬((none : Option (List Char)).isSome ∨ (none : Option Int).isSome) := by simp
    rw [Spelling.number?, Spelling.power?, numberOf?, Option.map_none, if_neg plain, integerOf?,
      value]
    by_cases below : n < 0
    · have found : Number.ofInt? (-(n.natAbs : Int)) = some (.int n fits) := by
        rw [if_pos below] at same
        rw [same, Number.ofInt?, dif_pos fits]
      simp only [s, below, decide_true, if_pos, if_neg (show n.natAbs ≠ 0 by omega), found]
      rfl
    · have found : Number.ofInt? (n.natAbs : Int) = some (.int n fits) := by
        rw [if_neg below] at same
        rw [same, Number.ofInt?, dif_pos fits]
      simp only [s, below, decide_false, Bool.false_eq_true, if_false, found]
      rfl

theorem takeDigits_all {cs : List Char} {n : Nat} (small : Nat.ofDigitChars 10 cs n < 2 ^ 64) :
    takeDigits n cs = (Nat.ofDigitChars 10 cs n, []) := by
  induction cs generalizing n with
  | nil => rfl
  | cons c later ih =>
    rw [Nat.ofDigitChars_cons] at small ⊢
    have digit : digitsValue [c] = c.toNat - '0'.toNat := by simp [digitsValue]
    have within := (le_ofDigitChars later _).trans_lt small
    rw [takeDigits, digit, if_pos within]
    exact ih small

theorem floatOf?_of_lt {whole part : List Char} (small : digitsValue (whole ++ part) < 2 ^ 64)
    (negative : Bool) (power : Int) :
    floatOf? negative whole part power =
      (shifted? (Binary64.ofInt (digitsValue (whole ++ part))) (power - part.length)).map
        (·.withSign negative) := by
  have value : digitsValue (whole ++ part) = Nat.ofDigitChars 10 part (digitsValue whole) :=
    List.foldl_append
  rw [value] at small ⊢
  have first : takeDigits 0 whole = (digitsValue whole, []) :=
    takeDigits_all ((le_ofDigitChars part _).trans_lt small)
  rw [floatOf?, first]
  dsimp only
  rw [takeDigits_all small]
  simp

theorem number?_float (s : Spelling) (floats : s.part ≠ none ∨ s.power ≠ none) {digits : Nat}
    {e : Int} (value : digitsValue (s.whole ++ s.part.getD []) = digits) (small : digits < 2 ^ 64)
    (place : s.power?.getD 0 - (s.part.getD []).length = e) {x : Binary64}
    (found : shifted? (Binary64.ofInt digits) e = some x) :
    s.number? = some (.float (x.withSign s.negative)) := by
  have marked : s.part.isSome ∨ s.power?.isSome := by
    rw [Spelling.power?, Option.isSome_map]
    exact floats.imp Option.isSome_iff_ne_none.mpr Option.isSome_iff_ne_none.mpr
  rw [Spelling.number?, numberOf?, if_pos marked, floatOf?_of_lt (by rwa [value]), value, place,
    found]
  rfl

theorem eq_zero_of_isZero {x : Binary64} (zero : x.isZero = true) : x = .zero x.negative := by
  obtain ⟨negative, mantissa, exponent, inRange, normal⟩ := x
  obtain rfl : mantissa = 0 := by simpa [Binary64.isZero] using zero
  rcases normal with large | least
  · exact absurd large (by norm_num)
  · obtain rfl := least
    rfl

theorem spelling_zero (negative : Bool) :
    ∃ s : Spelling, (Number.float (.zero negative)).jsonText = s.chars ∧
      s.number? = some (.float (.zero negative)) := by
  let s : Spelling :=
    { negative, whole := ['0'], part := some ['0'], power := none
      wholeDigits := whole_zero, partDigits := by rintro _ ⟨⟩; exact whole_zero.toRun
      powerDigits := by simp }
  have found : shifted? (Binary64.ofInt 0) (-1) = some (.zero false) := by
    rw [shifted?]
    decide +kernel
  exact ⟨s, by cases negative <;> rfl,
    number?_float s (.inl (by simp [s])) rfl (show 0 < 2 ^ 64 by decide) rfl found⟩

theorem signed_eq (s : Spelling) {x : Binary64} (same : s.negative = x.negative)
    (cs : List Char) : signed x cs = s.signChars ++ cs := by
  rw [signed, Spelling.signChars, same]
  cases x.negative <;> rfl

section Nonzero

def Spells (s : Spelling) (x : Binary64) : Prop :=
  (Number.float x).jsonText = s.chars ∧
    ∃ y : Binary64, y.negative = x.negative ∧ s.number? = some (.float y)

variable {x : Binary64} (nonzero : x.isZero = false)
include nonzero

theorem spelling_whole (integral : 0 ≤ (shortest .even x).exponent)
    (scale : -5 ≤ (shortest .even x).scale ∧ (shortest .even x).scale < 16) :
    ∃ s, Spells s x := by
  set d := shortest .even x with printed
  have positive : 0 < d.digits := digits_pos_of_rounds nonzero (shortest_rounds .even nonzero)
  obtain ⟨c, cs, first, other⟩ := head_decimalDigits positive
  have run : Run (decimalDigits d.digits ++ zeros d.exponent.toNat) := by
    refine ⟨fun c member => ?_, by rw [first]; simp⟩
    rcases List.mem_append.mp member with own | filled
    · exact isDigit_decimalDigits own
    · exact isDigit_zeros filled
  let s : Spelling :=
    { negative := x.negative, whole := decimalDigits d.digits ++ zeros d.exponent.toNat
      part := some ['0'], power := none
      wholeDigits := whole_of_head run (by rw [first, List.cons_append]) other
      partDigits := by rintro _ ⟨⟩; exact whole_zero.toRun
      powerDigits := by simp }
  refine ⟨s, ?_, ?_⟩
  · have none_behind : (-d.exponent).toNat = 0 := by omega
    rw [Number.jsonText, Numeral.jsonText, signed_eq s rfl]
    simp only [nonzero, Bool.false_eq_true, if_false, ← printed, if_pos scale, positional,
      withPoint, if_pos none_behind, if_neg (not_lt.mpr integral)]
    rfl
  · have value : digitsValue (s.whole ++ s.part.getD []) =
        d.digits * 10 ^ d.exponent.toNat * 10 ^ 1 := by
      change digitsValue (decimalDigits d.digits ++ zeros d.exponent.toNat ++ zeros 1) = _
      rw [digitsValue_append_zeros, digitsValue_append_zeros, digitsValue_decimalDigits]
    have small : d.digits * 10 ^ d.exponent.toNat * 10 ^ 1 < 2 ^ 64 := by
      have places : (decimalDigits d.digits).length + d.exponent.toNat + 1 ≤ 17 := by
        have shown := scale.2
        rw [Decimal.scale] at shown
        omega
      calc d.digits * 10 ^ d.exponent.toNat * 10 ^ 1
          < 10 ^ (decimalDigits d.digits).length * 10 ^ d.exponent.toNat * 10 ^ 1 := by
            gcongr
            exact lt_ten_pow_length d.digits
        _ = 10 ^ ((decimalDigits d.digits).length + d.exponent.toNat + 1) := by
            rw [← Nat.pow_add, ← Nat.pow_add]
        _ ≤ 10 ^ 17 := Nat.pow_le_pow_right (by decide) places
        _ < 2 ^ 64 := by norm_num
    obtain ⟨y, found⟩ := Option.isSome_iff_exists.mp (isSome_shifted?_of_neg
      (Binary64.ofInt (d.digits * 10 ^ d.exponent.toNat * 10 ^ 1 : Nat)) (-1) (by decide))
    exact ⟨y.withSign x.negative, rfl, number?_float s (.inl (by simp [s])) value small rfl found⟩

theorem spelling_pointed (fraction : (shortest .even x).exponent < 0)
    (scale : -5 ≤ (shortest .even x).scale ∧ (shortest .even x).scale < 16) :
    ∃ s, Spells s x := by
  have small := shortest_digits_lt .even nonzero
  obtain ⟨y, found⟩ := Option.isSome_iff_exists.mp (isSome_shifted?_shortest nonzero)
  set d := shortest .even x with printed
  have positive : 0 < d.digits := digits_pos_of_rounds nonzero (shortest_rounds .even nonzero)
  obtain ⟨whole, part, text, wholeDigits, partDigits, value, places, present⟩ :=
    withPoint_decimalDigits positive (-d.exponent).toNat
  let s : Spelling :=
    { negative := x.negative, whole, part, power := none
      wholeDigits, partDigits, powerDigits := by simp }
  refine ⟨s, ?_, y.withSign x.negative, rfl, number?_float s (.inl ?_) value small ?_ found⟩
  · have none_filled : zeros d.exponent.toNat = [] := by
      rw [show d.exponent.toNat = 0 by omega]
      rfl
    rw [Number.jsonText, Numeral.jsonText, signed_eq s rfl]
    simp only [nonzero, Bool.false_eq_true, if_false, ← printed, if_pos scale, positional,
      if_pos fraction, none_filled, List.append_nil, text]
    simp [s, Spelling.chars, Spelling.partChars, Spelling.powerChars]
  · intro no_part
    have := present.mpr no_part
    omega
  · change 0 - ((part.getD []).length : Int) = d.exponent
    omega

theorem spelling_power
    (scale : ¬(-5 ≤ (shortest .even x).scale ∧ (shortest .even x).scale < 16)) :
    ∃ s, Spells s x := by
  have long := shortest_digits_lt .even nonzero
  obtain ⟨y, found⟩ := Option.isSome_iff_exists.mp (isSome_shifted?_shortest nonzero)
  set d := shortest .even x with printed
  have rounds : Rounds x (d.digits * 10 ^ d.exponent) := shortest_rounds .even nonzero
  have positive : 0 < d.digits := digits_pos_of_rounds nonzero rounds
  obtain ⟨whole, part, text, wholeDigits, partDigits, value, places, -⟩ :=
    withPoint_decimalDigits positive ((decimalDigits d.digits).length - 1)
  have small : d.scale.natAbs ≤ maxPower := by
    have most := scale_le_of_rounds (ten_pow_length_le positive) rounds
    have least := le_scale_of_rounds nonzero (lt_ten_pow_length d.digits) rounds
    have given := length_decimalDigits_pos d.digits
    rw [Decimal.scale, maxPower]
    omega
  let s : Spelling :=
    { negative := x.negative, whole, part
      power := some (decide (d.scale < 0), decimalDigits d.scale.natAbs)
      wholeDigits, partDigits
      powerDigits := by
        rintro _ ⟨⟩
        exact ⟨run_decimalDigits _, by rwa [digitsValue_decimalDigits]⟩ }
  refine ⟨s, ?_, y.withSign x.negative, rfl,
    number?_float s (.inr (by simp [s])) value long ?_ found⟩
  · have unpadded : zeros (1 - (decimalDigits d.scale.natAbs).length) = [] := by
      have := length_decimalDigits_pos d.scale.natAbs
      rw [show 1 - (decimalDigits d.scale.natAbs).length = 0 by omega]
      rfl
    have sign : (if d.scale < 0 then '-' else '+') = signChar (decide (d.scale < 0)) := by
      by_cases below : d.scale < 0 <;> simp [signChar, below]
    rw [Number.jsonText, Numeral.jsonText, signed_eq s rfl]
    simp only [nonzero, Bool.false_eq_true, if_false, ← printed, if_neg scale, withExponent,
      unpadded, text, sign, List.append_assoc, List.cons_append, List.nil_append]
    rfl
  · have given := length_decimalDigits_pos d.digits
    have power : s.power?.getD 0 = d.scale := by
      simp only [Spelling.power?, s, Option.map_some, Option.getD_some, digitsValue_decimalDigits,
        decide_eq_true_eq]
      exact signed_natAbs d.scale
    rw [power, Decimal.scale]
    change _ - ((part.getD []).length : Int) = d.exponent
    omega

end Nonzero

theorem spelling_float (x : Binary64) : ∃ s, Spells s x := by
  cases zero : x.isZero with
  | true =>
    rw [eq_zero_of_isZero zero]
    obtain ⟨s, text, number⟩ := spelling_zero x.negative
    exact ⟨s, text, _, rfl, number⟩
  | false =>
    by_cases scale : -5 ≤ (shortest .even x).scale ∧ (shortest .even x).scale < 16
    · rcases lt_or_ge (shortest .even x).exponent 0 with fraction | integral
      · exact spelling_pointed zero fraction scale
      · exact spelling_whole zero integral scale
    · exact spelling_power zero scale

theorem legible_number (n : Number) : LegibleNumber n := by
  cases n with
  | int value fits =>
    obtain ⟨s, text, number⟩ := spelling_int value fits
    exact legible_of_spelling s text number
  | float x =>
    obtain ⟨s, text, y, -, number⟩ := spelling_float x
    exact legible_of_spelling s text number

@[simp] theorem reread_int (n : Int) (fits : -2 ^ 63 ≤ n ∧ n < 2 ^ 64) :
    (Number.int n fits).reread = .int n fits := by
  obtain ⟨s, text, number⟩ := spelling_int n fits
  exact reread_of_spelling s text number

theorem reread_float (x : Binary64) :
    ∃ y : Binary64, y.negative = x.negative ∧ (Number.float x).reread = .float y := by
  obtain ⟨s, text, y, sign, number⟩ := spelling_float x
  exact ⟨y, sign, reread_of_spelling s text number⟩

end PagePress.Json
