import PagePress.Proofs.Template.Canonical
import PagePress.Proofs.Template.Lexemes

namespace PagePress.Template

open Text Numeral

section Scanning

-- A number literal begins here: with a digit, a point before one, or a sign before either.
def BeginsNumber : Bytes → Prop
  | [] => False
  | b :: r =>
    let next := r.head?.map letter
    (letter b).isDigit = true ∨ (letter b = '.' ∧ next.any Char.isDigit = true) ∨
      (IsSign (letter b) ∧ (next.any fun n => n.isDigit || n == '.') = true)

def literalAt : Bytes → String
  | [] => ""
  | b :: r => String.ofList (takeNumber (some (letter b)) [letter b] r).1

variable {b : UInt8} {r : Bytes}

theorem ascii_of_beginsNumber (begins : BeginsNumber (b :: r)) : (letter b).toNat < 0x80 := by
  rcases begins with digit | ⟨point, -⟩ | ⟨sign | sign, -⟩
  · exact Json.ascii_of_isDigit digit
  · rw [point]
    decide
  · rw [sign]
    decide
  · rw [sign]
    decide

theorem literalAt_cons (b : UInt8) (r : Bytes) :
    ∃ more, (literalAt (b :: r)).toList = letter b :: more ∧ SignsPlaced (letter b :: more) ∧
      ∀ c, r.head?.map letter = some c → Literal.belongs (some (letter b)) c = true →
        more.head? = some c := by
  obtain ⟨more, taken, placed⟩ := takeNumber_signs (letter b) [letter b] r
  refine ⟨more, by rw [literalAt, String.toList_ofList, taken]; rfl, placed, ?_⟩
  intro c first belongs
  cases r with
  | nil => cases first
  | cons d r =>
    obtain rfl := Option.some.inj first
    obtain ⟨later, again, -⟩ := takeNumber_signs (letter d) [letter d, letter b] r
    rw [takeNumber, if_pos belongs, again] at taken
    simp at taken
    rw [← taken]
    rfl

theorem scanLexeme_number (begins : BeginsNumber (b :: r)) :
    scanLexeme (b :: r) = (scanNumber b r).map some := by
  have seen := decodeFirst?_letter (r := r) (ascii_of_beginsNumber begins)
  rcases begins with digit | ⟨point, next⟩ | ⟨sign, next⟩
  · have other : letter b ∉ marks := by
      intro mark
      generalize letter b = c at digit mark
      fin_cases mark <;> cases digit
    have unsigned := not_isSign_of_isDigit digit
    rw [scanLexeme_other seen other, if_neg (fun signed => unsigned signed.1), if_pos digit]
  · rw [point] at seen
    rw [scanLexeme.eq_def]
    split
    · rename_i none
      cases seen.symm.trans none
    · rename_i seen'
      obtain ⟨rfl, rfl⟩ := Prod.mk.inj (Option.some.inj (seen.symm.trans seen'))
      exact if_pos next
  · have other : letter b ∉ marks := by
      rcases sign with same | same
      · rw [same]
        decide
      · rw [same]
        decide
    rw [scanLexeme_other seen other, if_pos ⟨sign, next⟩]

theorem scanQuote_ne_badNumber (bound : Nat) (before : List Char) (s : Bytes)
    (less : s.length < bound) (literal : String) :
    scanQuote bound before s less ≠ .error (.badNumber literal) := by
  rw [scanQuote.eq_def]
  split
  · rintro ⟨⟩
  · have shorter := decodeFirst?_shorter ‹_›
    dsimp only
    split
    · rintro ⟨⟩
    · split
      · rintro ⟨⟩
      · split
        · split
          · rintro ⟨⟩
          · have shorter := decodeFirst?_shorter ‹decodeFirst? _ = some (_, _)›
            split
            · exact scanQuote_ne_badNumber _ _ _ _ literal
            · rintro ⟨⟩
        · exact scanQuote_ne_badNumber _ _ _ _ literal
termination_by s.length
decreasing_by
  all_goals omega

theorem scanRaw_ne_badNumber (bound : Nat) (before : List Char) (s : Bytes)
    (less : s.length < bound) (literal : String) :
    scanRaw bound before s less ≠ .error (.badNumber literal) := by
  rw [scanRaw.eq_def]
  split
  · rintro ⟨⟩
  · have shorter := decodeFirst?_shorter ‹_›
    dsimp only
    split
    · rintro ⟨⟩
    · exact scanRaw_ne_badNumber _ _ _ _ literal
termination_by s.length

theorem closeChar_ne_badNumber {bound : Nat} {c : Char} {lines : Nat} {s : Bytes}
    {less : s.length < bound} (literal : String) :
    closeChar bound c lines s less ≠ .error (.badNumber literal) := by
  rw [closeChar.eq_def]
  split
  · split <;> rintro ⟨⟩
  · rintro ⟨⟩

theorem scanChar_ne_badNumber {bound : Nat} {s : Bytes} {less : s.length < bound}
    (literal : String) : scanChar bound s less ≠ .error (.badNumber literal) := by
  rw [scanChar.eq_def]
  split
  · rintro ⟨⟩
  · dsimp only
    split
    · split
      · rintro ⟨⟩
      · split
        · exact closeChar_ne_badNumber literal
        · rintro ⟨⟩
    · exact closeChar_ne_badNumber literal

def OfNumber {bound : Nat} : Except LexFault (Option (Scan bound)) → Prop
  | .ok (some p) => ∃ literal, p.lexeme = .number literal
  | .ok none => False
  | .error fault => ∃ literal, fault = .badNumber literal

theorem not_ofNumber_bind {bound : Nat} {x : Except LexFault (Scan bound)}
    (lexeme : ∀ p, x = .ok p → ∀ literal, p.lexeme ≠ .number literal)
    (fault : ∀ literal, x ≠ .error (.badNumber literal)) :
    ¬OfNumber (x.bind fun p => .ok (some p)) := by
  cases x with
  | ok p =>
    rintro ⟨literal, isNumber⟩
    exact lexeme p rfl literal isNumber
  | error e =>
    rintro ⟨literal, rfl⟩
    exact fault literal rfl

theorem beginsNumber_of_mark {c : Char} {u : Bytes} (seen : decodeFirst? (b :: u) = some (c, r))
    (marked : c ∈ marks) (number : OfNumber (scanLexeme (b :: u))) : BeginsNumber (b :: u) := by
  rw [scanLexeme.eq_def] at number
  split at number
  · exact number.elim
  · rename_i c' r' seen'
    obtain ⟨rfl, rfl⟩ := Prod.mk.inj (Option.some.inj (seen.symm.trans seen'))
    dsimp only at number
    split at number
    · obtain ⟨_, ⟨⟩⟩ := number
    · obtain ⟨_, ⟨⟩⟩ := number
    · obtain ⟨_, ⟨⟩⟩ := number
    · obtain ⟨_, ⟨⟩⟩ := number
    · obtain ⟨_, ⟨⟩⟩ := number
    · split at number
      · split at number
        · obtain ⟨_, ⟨⟩⟩ := number
        · obtain ⟨_, ⟨⟩⟩ := number
      · obtain ⟨_, ⟨⟩⟩ := number
    · refine absurd number (not_ofNumber_bind ?_ (scanQuote_ne_badNumber _ _ _ _))
      intro p found literal isNumber
      obtain ⟨value, isStr⟩ := scanQuote_str _ _ _ _ found
      cases isStr.symm.trans isNumber
    · refine absurd number (not_ofNumber_bind ?_ (scanRaw_ne_badNumber _ _ _ _))
      intro p found literal isNumber
      obtain ⟨value, isStr⟩ := scanRaw_str _ _ _ _ found
      cases isStr.symm.trans isNumber
    · refine absurd number (not_ofNumber_bind ?_ scanChar_ne_badNumber)
      intro p found literal isNumber
      obtain ⟨value, isChar⟩ := scanChar_char found
      cases isChar.symm.trans isNumber
    · obtain ⟨_, ⟨⟩⟩ := number
    · obtain ⟨first, rfl⟩ := decodeFirst?_ascii seen (by decide)
      split at number
      · rename_i digit
        exact .inr (.inl ⟨first, digit⟩)
      · split at number
        · obtain ⟨_, ⟨⟩⟩ := number
        · obtain ⟨_, ⟨⟩⟩ := number
    · rename_i pipe left right comma assign colon quote raw char dollar dot
      simp only [marks, List.mem_cons, List.not_mem_nil, or_false] at marked
      rcases marked with rfl | rfl | rfl | rfl | rfl | rfl | rfl | rfl | rfl | rfl | rfl
      exacts [(pipe _ rfl .rfl).elim, (left _ rfl .rfl).elim, (right _ rfl .rfl).elim,
        (comma _ rfl .rfl).elim, (assign _ rfl .rfl).elim, (colon _ rfl .rfl).elim,
        (quote _ rfl .rfl).elim, (raw _ rfl .rfl).elim, (char _ rfl .rfl).elim,
        (dollar _ rfl .rfl).elim, (dot _ rfl .rfl).elim]

theorem beginsNumber_of_other {c : Char} {u : Bytes} (seen : decodeFirst? (b :: u) = some (c, r))
    (other : c ∉ marks) (number : OfNumber (scanLexeme (b :: u))) : BeginsNumber (b :: u) := by
  rw [scanLexeme_other seen other] at number
  split at number
  · rename_i signed
    have ascii : c.toNat < 0x80 := by
      rcases signed.1 with rfl | rfl
      · decide
      · decide
    obtain ⟨rfl, rfl⟩ := decodeFirst?_ascii seen ascii
    exact .inr (.inr signed)
  · split at number
    · rename_i digit
      obtain ⟨rfl, rfl⟩ := decodeFirst?_ascii seen (Json.ascii_of_isDigit digit)
      exact .inl digit
    · split at number
      · obtain ⟨_, ⟨⟩⟩ := number
      · obtain ⟨_, ⟨⟩⟩ := number

theorem beginsNumber_of_ofNumber {s : Bytes} (number : OfNumber (scanLexeme s)) :
    BeginsNumber s := by
  obtain _ | ⟨b, u⟩ := s
  · exact number.elim
  cases seen : decodeFirst? (b :: u) with
  | none =>
    rw [scanLexeme.eq_def] at number
    split at number
    · exact number.elim
    · rename_i seen'
      cases seen.symm.trans seen'
  | some first =>
    by_cases marked : first.1 ∈ marks
    · exact beginsNumber_of_mark seen marked number
    · exact beginsNumber_of_other seen marked number

end Scanning

section Decimals

theorem mem_splitSign {cs : List Char} {c : Char} (member : c ∈ cs) :
    IsSign c ∨ c ∈ (splitSign cs).2 := by
  rw [splitSign.eq_def]
  split
  · exact (List.mem_cons.mp member).imp_left .inr
  · exact (List.mem_cons.mp member).imp_left .inl
  · exact .inr member

theorem no_underscore_of_exponentPart? {cs : List Char} {e : Int}
    (read : exponentPart? cs = some e) : '_' ∉ cs := by
  cases cs with
  | nil => exact List.not_mem_nil
  | cons mark r =>
    intro member
    rw [exponentPart?] at read
    obtain ⟨⟨letter, -, digits⟩, -⟩ := Option.ite_none_right_eq_some.mp read
    rcases List.mem_cons.mp member with rfl | behind
    · simp at letter
    · rcases mem_splitSign behind with sign | digit
      · simp [IsSign] at sign
      · cases List.all_eq_true.mp digits _ digit

def IsName (body : List Char) : Prop :=
  String.ofList (body.map Char.toLower) ∈ ["inf", "infinity", "nan"]

-- What is read as a decimal: a name, or digits, perhaps with a point, and an exponent.
theorem decimal64?_cases {literal : String} {x : Decimal64} (read : decimal64? literal = some x) :
    IsName (splitSign literal.toList).2 ∨
      ∃ digits rest e, (splitSign literal.toList).2 = digits ++ rest ∧
        (∀ c ∈ digits, c.isDigit = true ∨ c = '.') ∧ exponentPart? rest = some e ∧ x ≠ .nan := by
  rw [decimal64?] at read
  generalize splitSign literal.toList = parts at read
  obtain ⟨negative, body⟩ := parts
  have whole := List.takeWhile_append_dropWhile (p := Char.isDigit) (l := body)
  have digits {cs : List Char} {c : Char} (member : c ∈ cs.takeWhile Char.isDigit) :
      c.isDigit = true ∨ c = '.' := .inl (List.mem_takeWhile_imp member)
  dsimp only at read
  split at read
  · rename_i named
    exact .inl (by simp [IsName, named])
  · rename_i named
    exact .inl (by simp [IsName, named])
  · rename_i named
    exact .inl (by simp [IsName, named])
  · right
    generalize body.dropWhile Char.isDigit = rest at read whole
    dsimp only
    split at read
    · rename_i r
      dsimp only at read
      obtain ⟨-, found⟩ := Option.ite_none_left_eq_some.mp read
      obtain ⟨e, power, done⟩ := Option.bind_eq_some_iff.mp found
      refine ⟨body.takeWhile Char.isDigit ++ '.' :: r.takeWhile Char.isDigit,
        r.dropWhile Char.isDigit, e, ?_, ?_, power, ?_⟩
      · rw [List.append_assoc, List.cons_append, List.takeWhile_append_dropWhile, whole]
      · intro c member
        rcases List.mem_append.mp member with before | behind
        · exact digits before
        · rcases List.mem_cons.mp behind with point | after
          · exact .inr point
          · exact digits after
      · rintro rfl
        split at done <;> cases done
    · dsimp only at read
      obtain ⟨-, found⟩ := Option.ite_none_left_eq_some.mp read
      obtain ⟨e, power, done⟩ := Option.bind_eq_some_iff.mp found
      refine ⟨body.takeWhile Char.isDigit, rest, e, whole.symm, fun _ => digits, power, ?_⟩
      rintro rfl
      split at done <;> cases done

theorem no_underscore_of_decimal64? {literal : String} {x : Decimal64}
    (read : decimal64? literal = some x) : '_' ∉ literal.toList := by
  intro member
  rcases mem_splitSign member with sign | member
  · simp [IsSign] at sign
  rcases decimal64?_cases read with named | ⟨digits, rest, e, body, made, power, -⟩
  · have lower := List.mem_map_of_mem (f := Char.toLower) member
    have listed : ((splitSign literal.toList).2.map Char.toLower) ∈
        ["inf".toList, "infinity".toList, "nan".toList] := by
      simpa [IsName, ← String.toList_inj] using named
    generalize (splitSign literal.toList).2.map Char.toLower = cs at lower listed
    fin_cases listed <;> revert lower <;> decide
  · rw [body, List.mem_append] at member
    rcases member with digit | behind
    · rcases made _ digit with digit | point
      · cases digit
      · cases point
    · exact no_underscore_of_exponentPart? power behind

theorem not_isName {c : Char} {cs : List Char} (starts : c.isDigit = true ∨ c = '.') :
    ¬IsName (c :: cs) := by
  intro named
  rcases starts with digit | rfl
  · exact Literal.not_name digit named rfl
  · simp only [IsName, List.map_cons, List.mem_cons, List.not_mem_nil, or_false,
      ← String.toList_inj, String.toList_ofList] at named
    rcases named with same | same | same
    · cases congrArg List.head? same
    · cases congrArg List.head? same
    · cases congrArg List.head? same

end Decimals

section Fate

variable {s : Bytes} {literal : String} {scope : Scope}

def IsAccepted (s : Bytes) : Prop :=
  ∃ p, scanLexeme s = .ok (some p) ∧ p.lexeme = .number (literalAt s)

def Converts (scope : Scope) (literal : String) : Prop :=
  ∃ n, simpleTerm scope (.number literal) = .ok (.literal (.num n))

def Overflows (literal : String) : Prop :=
  Literal.integer? literal = none ∧ ∃ negative, decimal64? literal = some (.infinite negative)

theorem body_literalAt (begins : BeginsNumber s) :
    ∃ c cs, (splitSign (literalAt s).toList).2 = c :: cs ∧ (c.isDigit = true ∨ c = '.') := by
  obtain _ | ⟨b, r⟩ := s
  · exact begins.elim
  obtain ⟨more, taken, -, follows⟩ := literalAt_cons b r
  rw [taken]
  rcases begins with digit | ⟨point, -⟩ | ⟨sign, next⟩
  · rw [splitSign_unsigned fun c first => by
      obtain rfl := Option.some.inj first
      exact not_isSign_of_isDigit digit]
    exact ⟨_, _, rfl, .inl digit⟩
  · rw [point]
    exact ⟨_, _, rfl, .inr rfl⟩
  · cases first : r.head?.map letter with
    | none =>
      rw [first] at next
      cases next
    | some c =>
      rw [first, Option.any_some] at next
      have starts : c.isDigit = true ∨ c = '.' := by simpa using next
      have belongs : Literal.belongs (some (letter b)) c = true := by
        rcases starts with digit | rfl
        · simp [Literal.belongs, Char.isAlphanum, digit]
        · simp [Literal.belongs]
      obtain ⟨cs, rfl⟩ := List.head?_eq_some_iff.mp (follows c first belongs)
      refine ⟨c, cs, ?_, starts⟩
      rcases sign with plus | minus
      · rw [plus]
        rfl
      · rw [minus]
        rfl

theorem isCut_literalAt (begins : BeginsNumber s) : IsCut (literalAt s) := by
  obtain _ | ⟨b, r⟩ := s
  · exact begins.elim
  obtain ⟨more, taken, placed, -⟩ := literalAt_cons b r
  rwa [IsCut, taken]

theorem decimal64?_ne_nan (begins : BeginsNumber s) : decimal64? (literalAt s) ≠ some .nan := by
  intro read
  obtain ⟨c, cs, body, starts⟩ := body_literalAt begins
  rcases decimal64?_cases read with named | ⟨_, _, _, -, -, -, other⟩
  · rw [body] at named
    exact not_isName starts named
  · exact other rfl

theorem isAccepted_iff (begins : BeginsNumber s) :
    IsAccepted s ↔ Literal.isAccepted (literalAt s) = true := by
  obtain _ | ⟨b, r⟩ := s
  · exact begins.elim
  rw [IsAccepted, scanLexeme_number begins, scanNumber]
  change _ ↔ Literal.isAccepted (String.ofList (takeNumber (some (letter b)) [letter b] r).1) = true
  constructor
  · rintro ⟨p, found, -⟩
    split at found
    · assumption
    · cases found
  · intro accepted
    rw [if_pos accepted]
    exact ⟨_, rfl, rfl⟩

theorem scanLexeme_of_not_isAccepted (begins : BeginsNumber s) (refused : ¬IsAccepted s) :
    scanLexeme s = .error (.badNumber (literalAt s)) := by
  rw [isAccepted_iff begins] at refused
  obtain _ | ⟨b, r⟩ := s
  · exact begins.elim
  rw [scanLexeme_number begins, scanNumber, ← literalAt, if_neg refused]
  rfl

theorem beginsNumber_iff : BeginsNumber s ↔ OfNumber (scanLexeme s) := by
  refine ⟨fun begins => ?_, beginsNumber_of_ofNumber⟩
  by_cases accepted : IsAccepted s
  · obtain ⟨p, found, number⟩ := accepted
    rw [found]
    exact ⟨_, number⟩
  · rw [scanLexeme_of_not_isAccepted begins accepted]
    exact ⟨_, rfl⟩

theorem converts_iff : Converts scope literal ↔ ∃ n, Literal.value? literal = some n := by
  rw [Converts, simpleTerm]
  cases Literal.value? literal with
  | none => simp
  | some n => simp

theorem simpleTerm_of_not_converts (refused : ¬Converts scope literal) :
    simpleTerm scope (.number literal) = .error (.badNumber literal) := by
  rw [converts_iff, not_exists] at refused
  rw [simpleTerm]
  cases value : Literal.value? literal with
  | none => rfl
  | some n => exact absurd value (refused n)

theorem value?_integer {n : Int} (cut : IsCut literal) (whole : Literal.integer? literal = some n) :
    ∃ m, Literal.value? literal = some m := by
  obtain ⟨low, high⟩ := integer?_fits cut whole
  rw [Literal.value?, whole]
  exact ⟨_, dif_pos (by omega)⟩

def finite? : Decimal64 → Option Number
  | .finite x => some (.float x)
  | _ => none

theorem value?_decimal {x : Decimal64} (noInteger : Literal.integer? literal = none)
    (read : decimal64? literal = some x) : Literal.value? literal = finite? x := by
  rw [Literal.value?, noInteger, Literal.withoutUnderscores_eq (no_underscore_of_decimal64? read),
    String.ofList_toList]
  dsimp only
  rw [read]
  cases x <;> rfl

theorem converts_of_isAccepted (begins : BeginsNumber s) (accepted : IsAccepted s) :
    Converts scope (literalAt s) ∨ Overflows (literalAt s) := by
  rw [isAccepted_iff begins, Literal.isAccepted, Bool.or_eq_true] at accepted
  rw [converts_iff]
  cases whole : Literal.integer? (literalAt s) with
  | some n => exact .inl (value?_integer (isCut_literalAt begins) whole)
  | none =>
    obtain decimal | integer := accepted
    · obtain ⟨x, read⟩ := Option.isSome_iff_exists.mp decimal
      have value := value?_decimal whole read
      cases x with
      | finite y => exact .inl ⟨_, value⟩
      | infinite negative => exact .inr ⟨whole, negative, read⟩
      | nan => exact absurd read (decimal64?_ne_nan begins)
    · rw [whole] at integer
      cases integer

theorem not_converts_of_overflows (overflows : Overflows literal) : ¬Converts scope literal := by
  obtain ⟨noInteger, negative, read⟩ := overflows
  rw [converts_iff, value?_decimal noInteger read]
  rintro ⟨n, ⟨⟩⟩

theorem isAccepted_of_value {n : Number} (value : Literal.value? literal = some n)
    (plain : '_' ∉ literal.toList ∨ (Literal.integer? literal).isSome = true) :
    Literal.isAccepted literal = true := by
  rw [Literal.isAccepted, Bool.or_eq_true]
  rcases plain with plain | whole
  · rw [Literal.value?] at value
    split at value
    · rename_i whole
      exact .inr (by rw [whole]; rfl)
    · rw [Literal.withoutUnderscores_eq plain, String.ofList_toList] at value
      split at value
      · rename_i read
        exact .inl (by rw [read]; rfl)
      · cases value
  · exact .inr whole

-- Two readings of a literal, one for a check and one for the value. Which decimals with underscores
-- pass the check is left open.
structure Agreement (scope : Scope) (s : Bytes) : Prop where
  lexed : IsAccepted s ∨ scanLexeme s = .error (.badNumber (literalAt s))
  parsed : Converts scope (literalAt s) ∨
    simpleTerm scope (.number (literalAt s)) = .error (.badNumber (literalAt s))
  valued : IsAccepted s → Converts scope (literalAt s) ∨ Overflows (literalAt s)
  refused : Overflows (literalAt s) → IsAccepted s ∧ ¬Converts scope (literalAt s)
  checked : Converts scope (literalAt s) →
    '_' ∉ (literalAt s).toList ∨ (Literal.integer? (literalAt s)).isSome = true → IsAccepted s

theorem numbers_agree (scope : Scope) {s : Bytes} (begins : BeginsNumber s) :
    Agreement scope s where
  lexed := or_iff_not_imp_left.mpr (scanLexeme_of_not_isAccepted begins)
  parsed := or_iff_not_imp_left.mpr simpleTerm_of_not_converts
  valued := converts_of_isAccepted begins
  refused overflows := by
    refine ⟨?_, not_converts_of_overflows overflows⟩
    obtain ⟨-, negative, read⟩ := overflows
    rw [isAccepted_iff begins, Literal.isAccepted, read]
    rfl
  checked converts plain := by
    obtain ⟨n, value⟩ := converts_iff.mp converts
    exact (isAccepted_iff begins).mpr (isAccepted_of_value value plain)

theorem agreement_half : BeginsNumber (utf8 "1.5 ") ∧ Agreement [] (utf8 "1.5 ") :=
  ⟨.inl rfl, numbers_agree [] (.inl rfl)⟩

-- A decimal that is checked and has no value, and one that has a value and is refused.
theorem numbers_disagree :
    (BeginsNumber (utf8 "1e999") ∧ IsAccepted (utf8 "1e999") ∧
      ¬Converts [] (literalAt (utf8 "1e999"))) ∧
    (BeginsNumber (utf8 "1_000.5") ∧ ¬IsAccepted (utf8 "1_000.5") ∧
      Converts [] (literalAt (utf8 "1_000.5"))) := by
  have large : BeginsNumber (utf8 "1e999") := .inl rfl
  have split : BeginsNumber (utf8 "1_000.5") := .inl rfl
  have noValue : Literal.value? (literalAt (utf8 "1e999")) = none := by cbv
  have noToken : Literal.isAccepted (literalAt (utf8 "1_000.5")) = false := by cbv
  have value : (Literal.value? (literalAt (utf8 "1_000.5"))).isSome = true := by decide +kernel
  rw [isAccepted_iff large, isAccepted_iff split, converts_iff, converts_iff, noValue, noToken]
  refine ⟨⟨large, ?_, ?_⟩, ⟨split, Bool.false_ne_true, Option.isSome_iff_exists.mp value⟩⟩
  · cbv
  · rintro ⟨n, ⟨⟩⟩

end Fate

end PagePress.Template
