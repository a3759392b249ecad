import PagePress.Proofs.Template.Delimiters

namespace PagePress.Template

open Text Chain

section Lines

def Token.down (n : Nat) (t : Token) : Token := { t with line := t.line + n }

def tokensDown (n : Nat) (ts : List Token) : List Token := ts.map (Token.down n)

def Mark.down (n : Nat) (mark : Mark) : Mark := { mark with tokens := tokensDown n mark.tokens }

@[simp] theorem tokensDown_cons (n : Nat) (t : Token) (ts : List Token) :
    tokensDown n (t :: ts) = t.down n :: tokensDown n ts := rfl

@[simp] theorem tokensDown_append (n : Nat) (ts us : List Token) :
    tokensDown n (ts ++ us) = tokensDown n ts ++ tokensDown n us := List.map_append

@[simp] theorem tokensDown_tokensDown (m n : Nat) (ts : List Token) :
    tokensDown m (tokensDown n ts) = tokensDown (n + m) ts := by
  simp [tokensDown, Token.down, Nat.add_assoc]

@[simp] theorem tokensUnlined_down (n : Nat) (ts : List Token) :
    tokensUnlined (tokensDown n ts) = tokensUnlined ts := by
  simp [tokensDown, tokensUnlined, Token.down, Token.unlined]

theorem Mark.unlined_down (n : Nat) (mark : Mark) : (mark.down n).unlined = mark.unlined := by
  rw [Mark.down, Mark.unlined, tokensUnlined_down, Mark.unlined]

end Lines

section Actions

inductive Inside (trims : Bool) : Bytes → List Token → Prop
  | close {blanks : Bytes} (blank : ∀ b ∈ blanks, isSpace b = true)
      (spaced : trims = true → blanks ≠ []) :
    Inside trims (blanks ++ closingBytes trims)
      [⟨.closeAction, newlines blanks, !blanks.isEmpty⟩]
  | lexeme {blanks behind : Bytes} {cs : List Char} {lexeme : Lexeme} {ts : List Token}
      (blank : ∀ b ∈ blanks, isSpace b = true) (dash : DashInside cs) (inner : lexeme.InAction)
      (reads : ∀ t, EndsLike behind t → Scans (utf8Chars cs ++ t) lexeme t)
      (later : Inside trims behind ts) :
    Inside trims (blanks ++ (utf8Chars cs ++ behind))
      (⟨lexeme, newlines (blanks ++ utf8Chars cs), !blanks.isEmpty⟩ ::
        tokensDown (newlines (blanks ++ utf8Chars cs)) ts)

variable {trims trimsAfter : Bool} {bytes : Bytes} {ts : List Token}

theorem begins_blanks {blanks s : Bytes} (blank : ∀ b ∈ blanks, isSpace b = true)
    (begins : decodeFirst? s ≠ none) : decodeFirst? (blanks ++ s) ≠ none := by
  cases blanks with
  | nil => exact begins
  | cons b r => exact decodeFirst?_of_head rfl (ascii_of_isSpace (blank b (.head r)))

theorem Inside.begins (inside : Inside trims bytes ts) : decodeFirst? bytes ≠ none := by
  cases inside with
  | close blank =>
    refine begins_blanks blank ?_
    cases trims <;> exact nofun
  | lexeme blank dash inner reads later =>
    obtain ⟨p, found, -⟩ := reads _ (.same _)
    exact begins_blanks blank (scanLexeme_begins found)

theorem Inside.scans (inside : Inside trimsAfter bytes ts) (bound : Nat) (trims : Bool)
    (line : Nat) (before : List Token) (rest : Bytes) (less : (bytes ++ rest).length < bound) :
    ∃ p, scanAction bound trims line before (bytes ++ rest) less = .ok p ∧
      p.mark = ⟨trims, trimsAfter, before.reverse ++ tokensDown line ts⟩ ∧
      p.line = line + newlines bytes ∧ p.rest = rest := by
  induction inside generalizing line before with
  | @close blanks blank spaced =>
    have flat : newlines (closingBytes trimsAfter) = 0 := by cases trimsAfter <;> rfl
    simp only [List.append_assoc] at less ⊢
    obtain ⟨p, found, mark, lines, left⟩ := scanAction_close blank spaced less
    refine ⟨p, found, ?_, ?_, left⟩
    · rw [mark, tokensDown, List.map_singleton, Token.down, Nat.add_comm]
    · rw [lines, newlines_append, flat, Nat.add_zero]
  | @lexeme blanks behind cs lexeme ts blank dash inner reads later ih =>
    simp only [List.append_assoc] at less ⊢
    obtain ⟨short, same⟩ := scanAction_lexeme blank (reads _ (.grown later.begins rest)) less
    obtain ⟨p, found, mark, lines, left⟩ := ih _ _ short
    refine ⟨p, same.trans found, ?_, ?_, left⟩
    · simp [mark, Token.down, Nat.add_comm line]
    · rw [lines, ← List.append_assoc, newlines_append _ behind, Nat.add_assoc]

theorem utf8Chars_letters {s : Bytes} (ascii : ∀ b ∈ s, (letter b).toNat < 0x80) :
    utf8Chars (s.map letter) = s := by
  induction s with
  | nil => rfl
  | cons b r ih =>
    obtain ⟨here, later⟩ := List.forall_mem_cons.mp ascii
    rw [List.map_cons, utf8Chars_cons, encode_letter here, ih later]
    rfl

theorem bytes_of_startsWith {cs : List Char} {s : Bytes} (starts : startsWith cs s = true)
    (ascii : ∀ c ∈ cs, c.toNat < 0x80) : s = utf8Chars cs ++ s.drop cs.length := by
  have same : (s.take cs.length).map letter = cs := eq_of_beq starts
  have taken : utf8Chars cs = s.take cs.length := by
    conv_lhs => rw [← same]
    refine utf8Chars_letters fun b member => ascii _ ?_
    rw [← same]
    exact List.mem_map_of_mem member
  rw [taken, List.take_append_drop]

theorem delimiter?_bytes {spaced : Bool} {r : Bytes} {width : Nat}
    (closes : delimiter? spaced r = some (trims, width)) :
    (trims = true → spaced = true) ∧ r = closingBytes trims ++ r.drop width := by
  obtain ⟨isSpaced, starts, rfl, rfl⟩ | ⟨starts, rfl, rfl⟩ := delimiter?_cases closes
  · exact ⟨fun _ => isSpaced, bytes_of_startsWith starts (by simp)⟩
  · exact ⟨nofun, bytes_of_startsWith starts (by simp)⟩

theorem scanAction_inside (bound : Nat) (trims : Bool) (line : Nat) (before : List Token)
    (s : Bytes) (less : s.length < bound) {p : MarkScan bound}
    (found : scanAction bound trims line before s less = .ok p) :
    ∃ trimsAfter bytes ts, Inside trimsAfter bytes ts ∧ s = bytes ++ p.rest := by
  have le := (List.dropWhile_sublist isSpace (l := s)).length_le
  have blank : ∀ b ∈ s.takeWhile isSpace, isSpace b = true := fun _ => List.mem_takeWhile_imp
  have cut : s.takeWhile isSpace ++ s.dropWhile isSpace = s := List.takeWhile_append_dropWhile
  obtain ⟨r, behind, -, ⟨trimsAfter, width, closes, -, -, rest⟩ | ⟨-, q, scanned, short, found⟩⟩ :=
    scanAction_cases found
  · obtain ⟨spaced, bytes⟩ := delimiter?_bytes closes
    refine ⟨trimsAfter, _, _, .close blank fun trims => ?_, ?_⟩
    · simpa [spacedAt] using spaced trims
    · rw [rest, List.append_assoc, ← bytes, ← behind, cut]
  · obtain ⟨cs, whole, dash, inner, reads⟩ := Scans.bytes ⟨q, scanned, rfl, rfl⟩
    have shorter := q.shorter
    obtain ⟨trimsAfter, bytes, ts, inside, left⟩ :=
      scanAction_inside bound trims _ _ q.rest short found
    refine ⟨trimsAfter, _, _, .lexeme blank dash inner (fun t ends => reads t ?_) inside, ?_⟩
    · rwa [left, EndsLike, front_append inside.begins]
    · rw [List.append_assoc, List.append_assoc, ← left, ← whole, ← behind, cut]
termination_by s.length
decreasing_by
  subst behind
  omega

theorem Inside.opens (inside : Inside trims bytes ts) (rest : Bytes) :
    asksTrim (bytes ++ rest) = false ∧ startsWith ['/', '*'] (bytes ++ rest) = false := by
  cases inside with
  | @close blanks blank spaced =>
    cases blanks with
    | nil =>
      cases trims with
      | false => exact ⟨rfl, rfl⟩
      | true => exact (spaced rfl rfl).elim
    | cons b r => exact opens_blank (blank b (.head r))
  | lexeme blank dash inner reads later =>
    rw [List.append_assoc, List.append_assoc]
    exact (reads _ (.grown later.begins rest)).opens blank

theorem utf8_blanks {blanks : Bytes} (blank : ∀ b ∈ blanks, isSpace b = true) :
    utf8Chars (blanks.map letter) = blanks :=
  utf8Chars_letters fun b member => ascii_of_isSpace (blank b member)

theorem Inside.utf8 (inside : Inside trims bytes ts) : ∃ cs, bytes = utf8Chars cs := by
  induction inside with
  | close blank =>
    rw [closingBytes, ← utf8_blanks blank, ← utf8Chars_append]
    exact ⟨_, rfl⟩
  | lexeme blank dash inner reads later ih =>
    obtain ⟨ds, rfl⟩ := ih
    rw [← utf8_blanks blank, ← utf8Chars_append, ← utf8Chars_append]
    exact ⟨_, rfl⟩

theorem Inside.not_text (inside : Inside trims bytes ts) :
    ∀ t ∈ ts, ∀ text, t.lexeme ≠ .text text := by
  induction inside with
  | close blank =>
    intro t member
    cases List.mem_singleton.mp member
    exact nofun
  | lexeme blank dash inner reads later ih =>
    intro t member
    obtain rfl | member := List.mem_cons.mp member
    · rintro text rfl
      cases inner
    · obtain ⟨u, inside, rfl⟩ := List.mem_map.mp member
      exact ih u inside

end Actions

section Comments

theorem newlines_cons (b : UInt8) (r : Bytes) :
    newlines (b :: r) = (if letter b = '\n' then 1 else 0) + newlines r := by
  have newline : (b == 10) = decide (letter b = '\n') := by
    rw [Bool.eq_iff_iff, beq_iff_eq, decide_eq_true_eq]
    exact ⟨fun same => congrArg letter same, fun same => letter_inj same⟩
  rw [newlines, newlines, List.count_cons, newline, Nat.add_comm]
  simp only [decide_eq_true_eq]

theorem pastComment_bytes {lines n : Nat} {s r : Bytes}
    (found : pastComment lines s = some (n, r)) :
    ∃ body, s = body ++ r ∧ 2 ≤ body.length ∧
      ∀ lines t, pastComment lines (body ++ t) = some (lines + newlines body, t) := by
  induction s generalizing lines with
  | nil => cases found
  | cons b u ih =>
    rw [pastComment] at found
    split at found
    · rename_i ends
      cases u with
      | nil => cases ends.2
      | cons d v =>
        cases found
        refine ⟨[b, d], rfl, Nat.le_refl 2, fun lines t => ?_⟩
        have second : letter d = '/' := Option.some.inj ends.2
        have flat : newlines [b, d] = 0 := by
          rw [newlines_cons, newlines_cons, ends.1, second]
          rfl
        rw [flat]
        exact if_pos ends
    · rename_i goesOn
      obtain ⟨body, rfl, long, again⟩ := ih found
      refine ⟨b :: body, rfl, Nat.le_succ_of_le long, fun lines t => ?_⟩
      obtain _ | ⟨d, v⟩ := body
      · cases long
      · have stays : ¬(letter b = '*' ∧ (d :: v ++ t).head?.map letter = some '/') := goesOn
        rw [List.cons_append, pastComment, if_neg stays, again, newlines_cons b]
        split <;> simp only [Option.some.injEq, Prod.mk.injEq, and_true] <;> omega

def commentClosing (trims : Bool) : Bytes :=
  utf8Chars (if trims then [' '] else []) ++ closingBytes trims

theorem scanComment_closes {trims trimsAfter : Bool} {line n : Nat} {s rest : Bytes}
    (past : pastComment 0 s = some (n, commentClosing trimsAfter ++ rest)) :
    ∃ p, scanComment trims line s = .ok p ∧ p.mark = ⟨trims, trimsAfter, []⟩ ∧
      p.line = line + n ∧ p.rest = rest := by
  rw [scanComment.eq_def]
  split
  · rename_i none
    cases past.symm.trans none
  · rename_i past'
    obtain ⟨rfl, rfl⟩ := Prod.mk.inj (Option.some.inj (past.symm.trans past'))
    cases trimsAfter with
    | false => exact ⟨_, rfl, rfl, rfl, rfl⟩
    | true => exact ⟨_, rfl, rfl, rfl, rfl⟩

theorem scanComment_bytes {trims : Bool} {line : Nat} {s : Bytes} {p : MarkScan (s.length + 1)}
    (found : scanComment trims line s = .ok p) :
    ∃ n trimsAfter, pastComment 0 s = some (n, commentClosing trimsAfter ++ p.rest) := by
  rw [scanComment.eq_def] at found
  split at found
  · cases found
  · rename_i n r past
    dsimp only at found
    split at found
    · rename_i closes
      cases found
      have bytes := bytes_of_startsWith closes (by simp)
      exact ⟨n, true, past.trans (congrArg (fun u => some (n, u)) bytes)⟩
    · split at found
      · rename_i closes
        cases found
        have bytes := bytes_of_startsWith closes (by simp)
        exact ⟨n, false, past.trans (congrArg (fun u => some (n, u)) bytes)⟩
      · cases found

end Comments

section Marks

def leftMarker (blank? : Option UInt8) : Bytes := blank?.elim [] fun b => [0x2D, b]

-- The bytes of an action or a comment, and what they are as a mark with the lines counted from the
-- first byte on.
inductive Forms : Bytes → Mark → Prop
  | action {blank? : Option UInt8} {trims : Bool} {bytes : Bytes} {ts : List Token}
      (blank : ∀ b ∈ blank?, isSpace b = true) (inside : Inside trims bytes ts) :
    Forms (leftMarker blank? ++ bytes) ⟨blank?.isSome, trims,
      ⟨.openAction, newlines (leftMarker blank?), false⟩ ::
        tokensDown (newlines (leftMarker blank?)) ts⟩
  | comment {blank? : Option UInt8} {body : Bytes} {trims : Bool}
      (blank : ∀ b ∈ blank?, isSpace b = true) (opens : startsWith ['/', '*'] body = true)
      (ends : ∀ lines t, pastComment lines (body ++ t) = some (lines + newlines body, t)) :
    Forms (leftMarker blank? ++ (body ++ commentClosing trims)) ⟨blank?.isSome, trims, []⟩

theorem leftMarker_cases {blank? : Option UInt8} {s : Bytes}
    (blank : ∀ b ∈ blank?, isSpace b = true) (other : asksTrim s = false) :
    asksTrim (leftMarker blank? ++ s) = blank?.isSome ∧
      marker (leftMarker blank? ++ s) = leftMarker blank? ∧
      pastMarker (leftMarker blank? ++ s) = s := by
  cases blank? with
  | none =>
    have same : leftMarker none ++ s = s := rfl
    rw [same, marker, pastMarker, other]
    exact ⟨rfl, rfl, rfl⟩
  | some b =>
    have asks : asksTrim (leftMarker (some b) ++ s) = true := blank b rfl
    rw [marker, pastMarker, asks]
    exact ⟨rfl, rfl, rfl⟩

theorem leftMarker_opens {blank? : Option UInt8} {s : Bytes}
    (blank : ∀ b ∈ blank?, isSpace b = true) (opens : startsWith ['/', '*'] s = true) :
    asksTrim (leftMarker blank? ++ s) = blank?.isSome ∧
      marker (leftMarker blank? ++ s) = leftMarker blank? ∧
      pastMarker (leftMarker blank? ++ s) = s := by
  refine leftMarker_cases blank ?_
  rw [asksTrim, head_of_startsWith opens]
  rfl

theorem scanMark_of_comment {line : Nat} {s u : Bytes} (behind : pastMarker s = u)
    (opens : startsWith ['/', '*'] u = true) {q : MarkScan (u.length + 1)}
    (found : scanComment (asksTrim s) (line + newlines (marker s)) u = .ok q) :
    ∃ p, scanMark line s = .ok p ∧ p.mark = q.mark ∧ p.line = q.line ∧ p.rest = q.rest := by
  subst behind
  rw [scanMark_comment opens, found]
  exact ⟨_, rfl, rfl, rfl, rfl⟩

theorem Forms.scans {bytes : Bytes} {mark : Mark} (forms : Forms bytes mark) (line : Nat)
    (rest : Bytes) :
    ∃ p, scanMark line (bytes ++ rest) = .ok p ∧ p.mark = mark.down line ∧
      p.line = line + newlines bytes ∧ p.rest = rest := by
  cases forms with
  | @action blank? trims bytes ts blank inside =>
    obtain ⟨plain, other⟩ := inside.opens rest
    obtain ⟨asks, front, behind⟩ := leftMarker_cases blank plain
    rw [List.append_assoc, scanMark_action (by rw [behind, other])]
    simp only [asks, front, behind]
    obtain ⟨p, found, mark, lines, left⟩ := inside.scans _ _ _ _ rest _
    refine ⟨p, found, ?_, ?_, left⟩
    · simp [mark, Mark.down, Token.down, Nat.add_comm line]
    · rw [lines, newlines_append, Nat.add_assoc]
  | @comment blank? body trims blank opens ends =>
    have opens := startsWith_more (commentClosing trims ++ rest) opens
    obtain ⟨asks, front, behind⟩ := leftMarker_opens blank opens
    obtain ⟨q, found, mark, lines, left⟩ :=
      scanComment_closes (ends 0 (commentClosing trims ++ rest))
    obtain ⟨p, found, sameMark, sameLine, sameRest⟩ :=
      scanMark_of_comment behind opens found
    have flat : newlines (commentClosing trims) = 0 := by cases trims <;> rfl
    rw [List.append_assoc, List.append_assoc]
    refine ⟨p, found, ?_, ?_, sameRest.trans left⟩
    · rw [sameMark, mark, asks]
      rfl
    · rw [sameLine, lines, front, newlines_append, newlines_append, flat]
      omega

theorem leftMarker_bytes (s : Bytes) :
    ∃ blank?, (∀ b ∈ blank?, isSpace b = true) ∧ s = leftMarker blank? ++ pastMarker s := by
  cases asks : asksTrim s with
  | false => exact ⟨none, nofun, by rw [pastMarker, asks]; rfl⟩
  | true =>
    rw [pastMarker, if_pos asks]
    obtain _ | ⟨b, _ | ⟨d, r⟩⟩ := s
    · cases asks
    · simp [asksTrim] at asks
    · have dash : letter b = '-' ∧ isSpace d = true := by simpa [asksTrim] using asks
      obtain rfl : b = 0x2D := letter_inj dash.1
      exact ⟨some d, fun _ same => Option.some.inj same ▸ dash.2, rfl⟩

theorem scanMark_bytes {line : Nat} {s : Bytes} {p : MarkScan (s.length + 1)}
    (found : scanMark line s = .ok p) : ∃ bytes mark, Forms bytes mark ∧ s = bytes ++ p.rest := by
  obtain ⟨blank?, blank, whole⟩ := leftMarker_bytes s
  cases opens : startsWith ['/', '*'] (pastMarker s) with
  | false =>
    rw [scanMark_action opens] at found
    obtain ⟨trims, bytes, ts, inside, left⟩ := scanAction_inside _ _ _ _ _ _ found
    refine ⟨_, _, .action blank inside, whole.trans ?_⟩
    rw [left, List.append_assoc]
  | true =>
    rw [scanMark_comment opens] at found
    obtain ⟨q, comment, done⟩ := bind_eq_ok.mp found
    cases done
    obtain ⟨n, trims, past⟩ := scanComment_bytes comment
    obtain ⟨body, left, long, again⟩ := pastComment_bytes past
    have fits : ['/', '*'].length ≤ body.length := long
    have starts : startsWith ['/', '*'] body = true := by
      rw [← opens, left, startsWith_append _ fits]
    refine ⟨leftMarker blank? ++ (body ++ commentClosing trims), _,
      .comment blank starts again, whole.trans ((congrArg _ left).trans ?_)⟩
    rw [List.append_assoc, List.append_assoc]

theorem scanMark_again {line : Nat} {s u : Bytes} {p : MarkScan (s.length + 1)}
    {q : MarkScan (u.length + 1)} (found : scanMark line s = .ok p)
    (found' : scanMark line u = .ok q) (same : s = u) :
    p.mark = q.mark ∧ p.line = q.line ∧ p.rest = q.rest := by
  subst same
  cases found.symm.trans found'
  exact ⟨rfl, rfl, rfl⟩

theorem scanMark_forms {line : Nat} {s : Bytes} {p : MarkScan (s.length + 1)}
    (found : scanMark line s = .ok p) :
    ∃ bytes mark, Forms bytes mark ∧ s = bytes ++ p.rest ∧ p.mark = mark.down line ∧
      p.line = line + newlines bytes := by
  obtain ⟨bytes, mark, forms, whole⟩ := scanMark_bytes found
  obtain ⟨q, again, sameMark, lines, -⟩ := forms.scans line p.rest
  obtain ⟨isMark, isLine, -⟩ := scanMark_again found again whole
  exact ⟨bytes, mark, forms, whole, isMark.trans sameMark, isLine.trans lines⟩

theorem Mark.down_zero (mark : Mark) : mark.down 0 = mark := by
  have same : Token.down 0 = id := rfl
  rw [Mark.down, tokensDown, same, List.map_id]

-- No mark is the beginning of another.
theorem Forms.unique {bytes bytes' r r' : Bytes} {mark mark' : Mark} (forms : Forms bytes mark)
    (forms' : Forms bytes' mark') (same : bytes ++ r = bytes' ++ r') :
    bytes = bytes' ∧ mark = mark' ∧ r = r' := by
  obtain ⟨p, found, isMark, -, left⟩ := forms.scans 0 r
  obtain ⟨q, found', isMark', -, left'⟩ := forms'.scans 0 r'
  obtain ⟨sameMark, -, sameRest⟩ := scanMark_again found found' same
  rw [isMark, isMark', Mark.down_zero, Mark.down_zero] at sameMark
  rw [left, left'] at sameRest
  rw [sameRest] at same
  exact ⟨List.append_cancel_right same, sameMark, sameRest⟩

theorem leftMarker_utf8 {blank? : Option UInt8} (blank : ∀ b ∈ blank?, isSpace b = true) :
    ∃ cs, leftMarker blank? = utf8Chars cs := by
  cases blank? with
  | none => exact ⟨[], rfl⟩
  | some b =>
    refine ⟨['-', letter b], ?_⟩
    rw [utf8Chars_cons, utf8Chars_cons, encode_letter (ascii_of_isSpace (blank b rfl))]
    rfl

theorem Forms.utf8 {bytes : Bytes} {mark : Mark} (forms : Forms bytes mark)
    (action : mark.tokens ≠ []) : ∃ cs, bytes = utf8Chars cs := by
  cases forms with
  | action blank inside =>
    obtain ⟨cs, marker⟩ := leftMarker_utf8 blank
    obtain ⟨ds, rfl⟩ := inside.utf8
    rw [marker, ← utf8Chars_append]
    exact ⟨_, rfl⟩
  | comment => exact (action rfl).elim

theorem Forms.not_text {bytes : Bytes} {mark : Mark} (forms : Forms bytes mark) :
    ∀ t ∈ mark.tokens, ∀ text, t.lexeme ≠ .text text := by
  intro t member
  cases forms with
  | action blank inside =>
    obtain rfl | member := List.mem_cons.mp member
    · exact nofun
    · obtain ⟨u, later, rfl⟩ := List.mem_map.mp member
      exact inside.not_text u later
  | comment => cases member

structure MarkScan.Grown (t : Bytes) {bound bound' : Nat} (p : MarkScan bound)
    (q : MarkScan bound') : Prop where
  mark : q.mark.unlined = p.mark.unlined
  rest : q.rest = p.rest ++ t

theorem scanMark_append {line : Nat} (line' : Nat) {s t u : Bytes} (whole : u = s ++ t)
    {p : MarkScan (s.length + 1)} (found : scanMark line s = .ok p) :
    ∃ q, scanMark line' u = .ok q ∧ p.Grown t q := by
  obtain ⟨bytes, mark, forms, left, isMark, -⟩ := scanMark_forms found
  obtain ⟨q, again, sameMark, -, rest⟩ := forms.scans line' (p.rest ++ t)
  obtain rfl : u = bytes ++ (p.rest ++ t) := by
    rw [whole, ← List.append_assoc, ← left]
  refine ⟨q, again, ?_, rest⟩
  rw [sameMark, isMark, Mark.unlined_down, Mark.unlined_down]

theorem scanMark_suffix {line : Nat} {s : Bytes} {p : MarkScan (s.length + 1)}
    (found : scanMark line s = .ok p) : p.rest <:+ s := by
  obtain ⟨bytes, mark, forms, left⟩ := scanMark_bytes found
  exact ⟨bytes, left.symm⟩

end Marks

end PagePress.Template
