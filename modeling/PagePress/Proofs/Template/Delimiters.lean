import PagePress.Proofs.Template.Lexemes

namespace PagePress.Template

open Text Chain

theorem startsWith_append {marker : List Char} {s : Bytes} (t : Bytes)
    (long : marker.length ≤ s.length) : startsWith marker (s ++ t) = startsWith marker s := by
  rw [startsWith, startsWith, List.take_append_of_le_length long]

theorem length_of_startsWith {marker : List Char} {s : Bytes}
    (starts : startsWith marker s = true) : marker.length ≤ s.length := by
  have lengths := congrArg List.length (eq_of_beq starts)
  rw [List.length_map, List.length_take] at lengths
  omega

theorem startsWith_more {marker : List Char} {s : Bytes} (t : Bytes)
    (starts : startsWith marker s = true) : startsWith marker (s ++ t) = true := by
  rw [startsWith_append t (length_of_startsWith starts), starts]

theorem head_of_startsWith {c : Char} {marker : List Char} {s : Bytes}
    (starts : startsWith (c :: marker) s = true) : s.head?.map letter = some c := by
  cases s with
  | nil => cases starts
  | cons b r => exact congrArg List.head? (eq_of_beq starts)

theorem not_startsWith {c d : Char} {marker others : List Char} {s : Bytes}
    (starts : startsWith (c :: marker) s = true) (differ : c ≠ d) :
    ¬startsWith (d :: others) s = true := by
  intro other
  exact differ (Option.some.inj ((head_of_startsWith starts).symm.trans (head_of_startsWith other)))

def Token.unlined (t : Token) : Token := { t with line := 0 }

def tokensUnlined (ts : List Token) : List Token := ts.map Token.unlined

def Mark.unlined (mark : Mark) : Mark := { mark with tokens := tokensUnlined mark.tokens }

section Actions

def spacedAt (s : Bytes) : Bool := !(s.takeWhile isSpace).isEmpty

def lineBehind (line : Nat) (s : Bytes) : Nat := line + newlines (s.takeWhile isSpace)

def closedMark (trimsBefore trimsAfter : Bool) (line : Nat) (before : List Token) (s : Bytes) :
    Mark :=
  ⟨trimsBefore, trimsAfter, (⟨.closeAction, lineBehind line s, spacedAt s⟩ :: before).reverse⟩

def delimiter? (spaced : Bool) (r : Bytes) : Option (Bool × Nat) :=
  if spaced = true ∧ startsWith ['-', '}', '}'] r = true then some (true, 3)
  else if startsWith ['}', '}'] r = true then some (false, 2)
  else none

theorem delimiter?_cases {spaced trims : Bool} {r : Bytes} {width : Nat}
    (closes : delimiter? spaced r = some (trims, width)) :
    (spaced = true ∧ startsWith ['-', '}', '}'] r = true ∧ trims = true ∧ width = 3) ∨
      (startsWith ['}', '}'] r = true ∧ trims = false ∧ width = 2) := by
  rw [delimiter?] at closes
  split at closes
  · rename_i trimming
    cases closes
    exact .inl ⟨trimming.1, trimming.2, rfl, rfl⟩
  · split at closes
    · rename_i closing
      cases closes
      exact .inr ⟨closing, rfl, rfl⟩
    · cases closes

theorem delimiter?_width {spaced trims : Bool} {r : Bytes} {width : Nat}
    (closes : delimiter? spaced r = some (trims, width)) : 2 ≤ width ∧ width ≤ r.length := by
  obtain ⟨-, starts, -, rfl⟩ | ⟨starts, -, rfl⟩ := delimiter?_cases closes
  · exact ⟨Nat.le_succ 2, length_of_startsWith starts⟩
  · exact ⟨Nat.le_refl 2, length_of_startsWith starts⟩

section Steps

variable {bound : Nat} {trims : Bool} {line : Nat} {before : List Token} {s r : Bytes}
  {less : s.length < bound} {p : MarkScan bound}

theorem scanAction_closes (behind : s.dropWhile isSpace = r) {trimsAfter : Bool} {width : Nat}
    (closes : delimiter? (spacedAt s) r = some (trimsAfter, width))
    (short : (r.drop width).length < bound) :
    scanAction bound trims line before s less =
      .ok ⟨closedMark trims trimsAfter line before s, lineBehind line s, r.drop width, short⟩ := by
  have nonempty : ¬r.isEmpty = true := by
    intro empty
    have fits := delimiter?_width closes
    rw [List.isEmpty_iff.mp empty, List.length_nil] at fits
    omega
  subst behind
  rw [scanAction.eq_def]
  dsimp only
  rw [if_neg nonempty]
  obtain ⟨isSpaced, starts, rfl, rfl⟩ | ⟨starts, rfl, rfl⟩ := delimiter?_cases closes
  · rw [if_pos ⟨isSpaced, starts⟩]
    rfl
  · rw [if_neg (fun trimming => not_startsWith starts (by decide) trimming.2), if_pos starts]
    rfl

theorem scanAction_goes (behind : s.dropWhile isSpace = r) (nonempty : r ≠ [])
    (opens : delimiter? (spacedAt s) r = none) {q : Scan r.length}
    (scanned : scanLexeme r = .ok (some q)) (short : q.rest.length < bound) :
    scanAction bound trims line before s less =
      scanAction bound trims (lineBehind line s + q.lines)
        (⟨q.lexeme, lineBehind line s + q.lines, spacedAt s⟩ :: before) q.rest short := by
  subst behind
  rw [scanAction.eq_def]
  dsimp only
  rw [if_neg (fun empty => nonempty (List.isEmpty_iff.mp empty))]
  rw [delimiter?] at opens
  split at opens
  · cases opens
  · rename_i keeps
    split at opens
    · cases opens
    · rename_i goesOn
      rw [if_neg, if_neg goesOn, scanned]
      · rfl
      · exact keeps

theorem scanAction_cases (found : scanAction bound trims line before s less = .ok p) :
    ∃ r, s.dropWhile isSpace = r ∧ r ≠ [] ∧
      ((∃ trimsAfter width, delimiter? (spacedAt s) r = some (trimsAfter, width) ∧
          p.mark = closedMark trims trimsAfter line before s ∧ p.line = lineBehind line s ∧
          p.rest = r.drop width) ∨
        (delimiter? (spacedAt s) r = none ∧
          ∃ q : Scan r.length, scanLexeme r = .ok (some q) ∧ ∃ short,
            scanAction bound trims (lineBehind line s + q.lines)
              (⟨q.lexeme, lineBehind line s + q.lines, spacedAt s⟩ :: before) q.rest short =
                .ok p)) := by
  refine ⟨_, rfl, ?_⟩
  rw [scanAction.eq_def] at found
  dsimp only at found
  split at found
  · cases found
  · rename_i nonempty
    refine ⟨fun empty => nonempty (List.isEmpty_iff.mpr empty), ?_⟩
    split at found
    · rename_i trimming
      cases found
      exact .inl ⟨true, 3, if_pos trimming, rfl, rfl, rfl⟩
    · rename_i keeps
      split at found
      · rename_i closes
        cases found
        exact .inl ⟨false, 2, (if_neg keeps).trans (if_pos closes), rfl, rfl, rfl⟩
      · rename_i opens
        split at found
        · cases found
        · cases found
        · rename_i q scanned
          exact .inr ⟨(if_neg keeps).trans (if_neg opens), q, scanned, _, found⟩

end Steps

theorem isSpace_letter {b : UInt8} (blank : isSpace b = true) : letter b ∈ blankChars := by
  rw [isSpace] at blank
  split at blank
  case h_5 => cases blank
  all_goals
    rename_i same
    rw [same]
    decide

theorem ascii_of_isSpace {b : UInt8} (blank : isSpace b = true) : (letter b).toNat < 0x80 := by
  have listed := isSpace_letter blank
  generalize letter b = c at listed ⊢
  fin_cases listed <;> decide

theorem scanLexeme_begins {s : Bytes} {q : Scan s.length} (scanned : scanLexeme s = .ok (some q)) :
    decodeFirst? s ≠ none := by
  intro none
  rw [scanLexeme.eq_def] at scanned
  split at scanned
  · cases scanned
  · rename_i seen
    cases none.symm.trans seen

end Actions

section Strays

variable {s rest : Bytes} {lexeme : Lexeme}

-- Characters that no lexeme begins with. A dash begins numbers only.
def strays : List Char := [' ', '\t', '\r', '\n', '}', '/', '-']

theorem scanLexeme_stray {b : UInt8} {r : Bytes} (stray : letter b ∈ strays)
    (unsigned : letter b = '-' →
      (r.head?.map letter).any (fun n => n.isDigit || n == '.') = false) :
    scanLexeme (b :: r) = .error (.unexpected (letter b)) := by
  have plain {c : Char} (stray : c ∈ strays) : c.toNat < 0x80 ∧ c ∉ marks ∧ c ≠ '+' ∧
      c.isDigit = false ∧ (c.isAlpha || c == '_') = false := by
    fin_cases stray <;> decide
  obtain ⟨ascii, other, notPlus, noDigit, noLetter⟩ := plain stray
  have noWord : startsWord (letter b) = false := by rwa [startsWord, isAlphabetic, if_pos ascii]
  rw [scanLexeme_other (decodeFirst?_letter ascii) other, if_neg, noDigit, noWord]
  · rfl
  · rintro ⟨plus | minus, next⟩
    · exact notPlus plus
    · rw [unsigned minus] at next
      cases next

theorem Scans.not_stray {b : UInt8} {r : Bytes} (scans : Scans (b :: r) lexeme rest)
    (stray : letter b ∈ strays) :
    letter b = '-' ∧ (r.head?.map letter).any (fun n => n.isDigit || n == '.') = true := by
  obtain ⟨p, found, -⟩ := scans
  by_contra other
  rw [scanLexeme_stray stray fun minus => Bool.eq_false_iff.mpr fun next => other ⟨minus, next⟩]
    at found
  cases found

theorem Scans.nonempty (scans : Scans s lexeme rest) : s ≠ [] := by
  rintro rfl
  obtain ⟨p, found, -⟩ := scans
  exact scanLexeme_begins found rfl

theorem stray_of_isSpace {b : UInt8} (blank : isSpace b = true) :
    letter b ∈ strays ∧ letter b ≠ '-' := by
  have listed := isSpace_letter blank
  generalize letter b = c at listed ⊢
  fin_cases listed <;> decide

theorem Scans.not_isSpace {b : UInt8} {r : Bytes} (scans : Scans (b :: r) lexeme rest) :
    isSpace b = false := by
  rw [Bool.eq_false_iff]
  intro blank
  obtain ⟨stray, other⟩ := stray_of_isSpace blank
  exact other (scans.not_stray stray).1

theorem Scans.delimiter? (scans : Scans s lexeme rest) (spaced : Bool) :
    delimiter? spaced s = none := by
  obtain ⟨b, r, rfl⟩ := List.exists_cons_of_ne_nil scans.nonempty
  cases closes : Template.delimiter? spaced (b :: r) with
  | none => rfl
  | some found =>
    obtain ⟨trims, width⟩ := found
    obtain ⟨-, starts, -⟩ | ⟨starts, -⟩ := delimiter?_cases closes
    · have first : letter b = '-' := Option.some.inj (head_of_startsWith starts)
      have next := (scans.not_stray (by rw [first]; decide)).2
      obtain _ | ⟨d, r⟩ := r
      · cases next
      · have second : letter d = '}' :=
          (List.cons.inj (List.cons.inj (eq_of_beq starts)).2).1
        rw [List.head?_cons, Option.map_some, second] at next
        cases next
    · have first : letter b = '}' := Option.some.inj (head_of_startsWith starts)
      have dash := (scans.not_stray (by rw [first]; decide)).1
      rw [first] at dash
      cases dash

theorem opens_blank {b : UInt8} {r : Bytes} (blank : isSpace b = true) :
    asksTrim (b :: r) = false ∧ startsWith ['/', '*'] (b :: r) = false := by
  obtain ⟨stray, other⟩ := stray_of_isSpace blank
  constructor
  · rw [asksTrim, Bool.and_eq_false_imp]
    intro dash
    exact absurd (by simpa using dash) other
  · rw [Bool.eq_false_iff]
    intro starts
    have first : letter b = '/' := Option.some.inj (head_of_startsWith starts)
    rw [isSpace, first] at blank
    cases blank

-- Behind an opening delimiter a lexeme is no trim marker and no comment, nor are blanks before it.
theorem Scans.opens {blanks : Bytes} (blank : ∀ b ∈ blanks, isSpace b = true)
    (scans : Scans s lexeme rest) :
    asksTrim (blanks ++ s) = false ∧ startsWith ['/', '*'] (blanks ++ s) = false := by
  obtain _ | ⟨d, blanks⟩ := blanks
  · obtain ⟨b, r, rfl⟩ := List.exists_cons_of_ne_nil scans.nonempty
    rw [List.nil_append]
    constructor
    · rw [asksTrim, Bool.and_eq_false_imp]
      intro dash
      have dash : letter b = '-' := by simpa using dash
      have next := (scans.not_stray (by rw [dash]; decide)).2
      obtain _ | ⟨e, r⟩ := r
      · rfl
      · simp only [List.drop_succ_cons, List.drop_zero, List.head?_cons, Option.any_some]
        rw [Bool.eq_false_iff]
        intro blank
        have stray := (stray_of_isSpace blank).1
        rw [List.head?_cons, Option.map_some, Option.any_some] at next
        generalize letter e = c at next stray
        fin_cases stray <;> cases next
    · rw [Bool.eq_false_iff]
      intro starts
      have first : letter b = '/' := Option.some.inj (head_of_startsWith starts)
      have dash := (scans.not_stray (by rw [first]; decide)).1
      rw [first] at dash
      cases dash
  · exact opens_blank (blank d (.head _))

end Strays

section Blanks

variable {blanks s : Bytes}

theorem dropWhile_blanks (blank : ∀ b ∈ blanks, isSpace b = true)
    (stops : ∀ b ∈ s.head?, isSpace b = false) : (blanks ++ s).dropWhile isSpace = s := by
  rw [List.dropWhile_append_of_pos blank]
  cases s with
  | nil => rfl
  | cons b r => exact List.dropWhile_cons_of_neg (Bool.eq_false_iff.mp (stops b rfl))

theorem takeWhile_blanks (blank : ∀ b ∈ blanks, isSpace b = true)
    (stops : ∀ b ∈ s.head?, isSpace b = false) : (blanks ++ s).takeWhile isSpace = blanks := by
  rw [List.takeWhile_append_of_pos blank]
  cases s with
  | nil => simp
  | cons b r =>
    rw [List.takeWhile_cons_of_neg (Bool.eq_false_iff.mp (stops b rfl)), List.append_nil]

def closingBytes (trims : Bool) : Bytes := utf8Chars (if trims then ['-', '}', '}'] else ['}', '}'])

section Steps

variable {bound line : Nat} {trims trimsAfter : Bool} {before : List Token}
  {lexeme : Lexeme} {behind rest : Bytes}

theorem scanAction_lexeme (blank : ∀ b ∈ blanks, isSpace b = true)
    (scans : Scans (s ++ behind) lexeme behind)
    (less : (blanks ++ (s ++ behind)).length < bound) :
    ∃ short, scanAction bound trims line before (blanks ++ (s ++ behind)) less =
      scanAction bound trims (line + newlines (blanks ++ s))
        (⟨lexeme, line + newlines (blanks ++ s), !blanks.isEmpty⟩ :: before) behind short := by
  have stops : ∀ b ∈ (s ++ behind).head?, isSpace b = false := by
    intro b first
    obtain ⟨r, whole⟩ := List.head?_eq_some_iff.mp first
    rw [whole] at scans
    exact scans.not_isSpace
  have spaced : spacedAt (blanks ++ (s ++ behind)) = !blanks.isEmpty := by
    rw [spacedAt, takeWhile_blanks blank stops]
  have opens := scans.delimiter? (spacedAt (blanks ++ (s ++ behind)))
  have nonempty := scans.nonempty
  obtain ⟨q, found, lexeme, left⟩ := scans
  have short : q.rest.length < bound := by
    have := q.shorter
    rw [List.length_append] at less
    omega
  have lines : lineBehind line (blanks ++ (s ++ behind)) + q.lines =
      line + newlines (blanks ++ s) := by
    rw [lineBehind, takeWhile_blanks blank stops, scanLexeme_lines found left, newlines_append]
    omega
  have goesOn {r : Bytes} (same : q.rest = r) (l : Nat) (ts : List Token) : ∃ short',
      scanAction bound trims l ts q.rest short = scanAction bound trims l ts r short' := by
    subst same
    exact ⟨short, rfl⟩
  rw [scanAction_goes (dropWhile_blanks blank stops) nonempty opens found short, spaced, lexeme,
    lines]
  exact goesOn left _ _

theorem scanAction_close (blank : ∀ b ∈ blanks, isSpace b = true)
    (spaced : trimsAfter = true → blanks ≠ [])
    (less : (blanks ++ (closingBytes trimsAfter ++ rest)).length < bound) :
    ∃ p, scanAction bound trims line before (blanks ++ (closingBytes trimsAfter ++ rest)) less =
      .ok p ∧ p.mark = ⟨trims, trimsAfter,
        before.reverse ++ [⟨.closeAction, line + newlines blanks, !blanks.isEmpty⟩]⟩ ∧
      p.line = line + newlines blanks ∧ p.rest = rest := by
  have stops : ∀ b ∈ (closingBytes trimsAfter ++ rest).head?, isSpace b = false := by
    intro b first
    cases trimsAfter <;> cases first <;> rfl
  have isSpaced : spacedAt (blanks ++ (closingBytes trimsAfter ++ rest)) = !blanks.isEmpty := by
    rw [spacedAt, takeWhile_blanks blank stops]
  have lines : lineBehind line (blanks ++ (closingBytes trimsAfter ++ rest)) =
      line + newlines blanks := by
    rw [lineBehind, takeWhile_blanks blank stops]
  have closes : delimiter? (!blanks.isEmpty) (closingBytes trimsAfter ++ rest) =
      some (trimsAfter, (closingBytes trimsAfter).length) := by
    cases trimsAfter with
    | false =>
      have starts : startsWith ['}', '}'] (closingBytes false ++ rest) = true := rfl
      rw [delimiter?, if_neg (fun dash => not_startsWith starts (by decide) dash.2), if_pos starts]
      rfl
    | true =>
      have isSpaced : (!blanks.isEmpty) = true := by simpa using spaced rfl
      rw [delimiter?, if_pos ⟨isSpaced, rfl⟩]
      rfl
  have short : ((closingBytes trimsAfter ++ rest).drop (closingBytes trimsAfter).length).length <
      bound := by
    rw [List.drop_left]
    simp only [List.length_append] at less
    omega
  rw [scanAction_closes (dropWhile_blanks blank stops) (by rw [isSpaced]; exact closes) short,
    lines, closedMark, lines, isSpaced, List.reverse_cons]
  exact ⟨_, rfl, rfl, rfl, List.drop_left⟩

end Steps

end Blanks

end PagePress.Template
