import PagePress.Proofs.Json.Numbers
import PagePress.Proofs.Template.Literals
import PagePress.Proofs.Text.Utf8

namespace PagePress.Template

open Text Chain

section Ends

def front (s : Bytes) : Option Char := (decodeFirst? s).map Prod.fst

def blankChars : List Char := [' ', '\t', '\r', '\n']

-- The same character comes first, or a blank in its place.
def EndsLike (s t : Bytes) : Prop := front t = front s ∨ ∃ c ∈ blankChars, front t = some c

variable {s t : Bytes}

theorem EndsLike.same (s : Bytes) : EndsLike s s := .inl rfl

theorem EndsLike.trans {u : Bytes} (first : EndsLike s t) (second : EndsLike t u) :
    EndsLike s u := by
  obtain same | blank := second
  · rwa [EndsLike, same]
  · exact .inr blank

theorem EndsLike.all {P : Char → Prop} (ends : EndsLike s t) (blank : ∀ c ∈ blankChars, P c)
    (here : ∀ c ∈ front s, P c) : ∀ c ∈ front t, P c := by
  intro c first
  obtain same | ⟨d, isBlank, same⟩ := ends
  · exact here c (same ▸ first)
  · obtain rfl := Option.some.inj (same.symm.trans first)
    exact blank _ isBlank

theorem front_letter {b : UInt8} {r : Bytes} (ascii : (letter b).toNat < 0x80) :
    front (b :: r) = some (letter b) := by
  rw [front, decodeFirst?_letter ascii]
  rfl

theorem head_of_front {c : Char} (first : front s = some c) (ascii : c.toNat < 0x80) :
    s.head?.map letter = some c := by
  obtain ⟨⟨d, r⟩, seen, rfl⟩ := Option.map_eq_some_iff.mp first
  cases s with
  | nil => cases seen
  | cons b u => exact congrArg some (decodeFirst?_ascii seen ascii).1

theorem EndsLike.next {P : Char → Bool} (plain : ∀ c, P c = true → c.toNat < 0x80)
    (blank : ∀ c ∈ blankChars, P c = false) (ends : EndsLike s t)
    (here : (s.head?.map letter).any P = false) : (t.head?.map letter).any P = false := by
  have first : ∀ c ∈ front t, P c = false := by
    refine ends.all blank fun c found => Bool.eq_false_iff.mpr fun holds => ?_
    rw [head_of_front found (plain c holds), Option.any_some, holds] at here
    cases here
  cases t with
  | nil => rfl
  | cons b r =>
    refine Bool.eq_false_iff.mpr fun holds => ?_
    have fails := first (letter b) (front_letter (plain _ holds))
    rw [List.head?_cons, Option.map_some, Option.any_some, fails] at holds
    cases holds

theorem front_append {r : Bytes} (next : decodeFirst? r ≠ none) (t : Bytes) :
    front (r ++ t) = front r := by
  cases seen : decodeFirst? r with
  | none => exact (next seen).elim
  | some first =>
    rw [front, front, decodeFirst?_append seen t, seen]
    rfl

theorem EndsLike.grown {r : Bytes} (next : decodeFirst? r ≠ none) (t : Bytes) :
    EndsLike r (r ++ t) := .inl (front_append next t)

theorem head_utf8Chars {cs : List Char} (some : cs ≠ []) (s t : Bytes) :
    (utf8Chars cs ++ t).head? = (utf8Chars cs ++ s).head? := by
  cases cs with
  | nil => exact (some rfl).elim
  | cons c cs =>
    obtain ⟨b, r, whole⟩ :=
      List.exists_cons_of_ne_nil (String.utf8EncodeChar_ne_nil (c := c))
    rw [utf8Chars_cons, whole]
    rfl

end Ends

section Words

variable {before : List Char} {s : Bytes}

theorem not_isWordChar_blank : ∀ c ∈ blankChars, isWordChar c = false := by
  intro c blank
  fin_cases blank <;> rfl

theorem takeWord_stops (stops : ∀ c ∈ front s, isWordChar c = false) :
    takeWord before s = (before.reverse, s) := by
  unfold takeWord
  split
  · rename_i c r seen
    rw [stops c (by rw [front, seen]; rfl)]
    rfl
  · rfl

theorem takeWord_goes {c : Char} (word : isWordChar c = true) (cs : List Char) (t : Bytes) :
    takeWord before (utf8Chars (c :: cs) ++ t) = takeWord (c :: before) (utf8Chars cs ++ t) := by
  rw [takeWord.eq_def]
  split
  · rename_i d r seen
    obtain ⟨rfl, rfl⟩ := Prod.mk.inj (Option.some.inj (seen.symm.trans (decodeFirst?_utf8Chars ..)))
    exact if_pos word
  · rename_i none
    cases none.symm.trans (decodeFirst?_utf8Chars ..)

theorem takeWord_reads (before : List Char) (s : Bytes) :
    ∃ cs, s = utf8Chars cs ++ (takeWord before s).2 ∧
      (takeWord before s).1 = before.reverse ++ cs ∧ (∀ c ∈ cs, isWordChar c = true) ∧
      ∀ t, EndsLike (takeWord before s).2 t →
        takeWord before (utf8Chars cs ++ t) = ((takeWord before s).1, t) := by
  fun_induction takeWord before s with
  | case1 before s c r seen word ih =>
    obtain ⟨cs, whole, taken, words, again⟩ := ih
    refine ⟨c :: cs, ?_, ?_, List.forall_mem_cons.mpr ⟨word, words⟩, ?_⟩
    · rw [utf8Chars_cons, List.append_assoc, ← whole]
      exact decodeFirst?_sound seen
    · rw [taken, List.reverse_cons, List.append_assoc, List.singleton_append]
    · intro t ends
      rw [takeWord_goes word, again t ends]
  | case2 before s c r seen other =>
    refine ⟨[], rfl, (List.append_nil _).symm, List.forall_mem_nil _,
      fun t ends => takeWord_stops ?_⟩
    refine ends.all not_isWordChar_blank fun d first => ?_
    rw [front, seen] at first
    obtain rfl := Option.some.inj first
    exact Bool.eq_false_iff.mpr other
  | case3 before s none =>
    refine ⟨[], rfl, (List.append_nil _).symm, List.forall_mem_nil _,
      fun t ends => takeWord_stops ?_⟩
    refine ends.all not_isWordChar_blank fun d first => ?_
    rw [front, none] at first
    cases first

end Words

section Numbers

theorem ascii_of_isAlphanum {c : Char} (letters : c.isAlphanum = true) : c.toNat < 0x80 := by
  simp only [Char.isAlphanum, Char.isAlpha, Char.isUpper, Char.isLower, Char.isDigit,
    Bool.or_eq_true, Bool.and_eq_true, decide_eq_true_eq, UInt32.le_iff_toNat_le] at letters
  change c.val.toNat < _
  have largest : 'z'.val.toNat = 122 ∧ 'Z'.val.toNat = 90 ∧ '9'.val.toNat = 57 := by decide
  omega

theorem ascii_of_belongs {previous : Option Char} {c : Char}
    (belongs : Literal.belongs previous c = true) : c.toNat < 0x80 ∧ c ∉ blankChars := by
  constructor
  · simp only [Literal.belongs, Bool.or_eq_true, Bool.and_eq_true, beq_iff_eq] at belongs
    rcases belongs with ((letters | rfl) | rfl) | ⟨rfl | rfl, -⟩
    · exact ascii_of_isAlphanum letters
    all_goals decide
  · intro blank
    fin_cases blank <;> simp [Literal.belongs] at belongs

theorem not_belongs_blank {previous : Option Char} :
    ∀ c ∈ blankChars, Literal.belongs previous c = false :=
  fun _ blank => Bool.eq_false_iff.mpr fun belongs => (ascii_of_belongs belongs).2 blank

theorem takeNumber_stops {previous : Option Char} {before : List Char} {s : Bytes}
    (stops : ∀ c ∈ front s, Literal.belongs previous c = false) :
    takeNumber previous before s = (before.reverse, s) := by
  cases s with
  | nil => rfl
  | cons b r =>
    rw [takeNumber, if_neg]
    intro belongs
    rw [stops _ (front_letter (ascii_of_belongs belongs).1)] at belongs
    cases belongs

theorem takeNumber_reads (previous : Option Char) (before : List Char) (s : Bytes) :
    ∃ cs, s = utf8Chars cs ++ (takeNumber previous before s).2 ∧
      (takeNumber previous before s).1 = before.reverse ++ cs ∧ (∀ c ∈ cs, c ∉ blankChars) ∧
      (∀ c, s.head?.map letter = some c → Literal.belongs previous c = true →
        cs.head? = some c) ∧
      ∀ t, EndsLike (takeNumber previous before s).2 t →
        takeNumber previous before (utf8Chars cs ++ t) = ((takeNumber previous before s).1, t) := by
  induction s generalizing previous before with
  | nil =>
    exact ⟨[], rfl, (List.append_nil _).symm, nofun, nofun,
      fun t ends => takeNumber_stops (ends.all not_belongs_blank nofun)⟩
  | cons b r ih =>
    rw [takeNumber]
    split
    · rename_i belongs
      obtain ⟨ascii, other⟩ := ascii_of_belongs belongs
      obtain ⟨cs, whole, taken, plain, -, again⟩ := ih (some (letter b)) (letter b :: before)
      refine ⟨letter b :: cs, ?_, ?_, ?_, fun c first _ => first, ?_⟩
      · rw [utf8Chars_cons, encode_letter ascii, List.append_assoc, ← whole]
        rfl
      · rw [taken, List.reverse_cons, List.append_assoc, List.singleton_append]
      · exact List.forall_mem_cons.mpr ⟨other, plain⟩
      · intro t ends
        rw [utf8Chars_cons, encode_letter ascii, List.append_assoc, List.singleton_append,
          takeNumber, if_pos belongs, again t ends]
    · rename_i other
      refine ⟨[], rfl, (List.append_nil _).symm, nofun, ?_, fun t ends => ?_⟩
      · intro c first belongs
        obtain rfl := Option.some.inj first
        exact (other belongs).elim
      · refine takeNumber_stops (ends.all not_belongs_blank fun c first => ?_)
        rw [Bool.eq_false_iff]
        intro belongs
        obtain rfl := Option.some.inj (head_of_front first (ascii_of_belongs belongs).1)
        exact other belongs

end Numbers

section Quotes

variable {bound lines : Nat} {before cs : List Char} {c d e : Char} {s t : Bytes} {p : Scan bound}

def quoteMarks : List Char := ['"', '\n', '\\']

theorem scanQuote_closes (less : (utf8Chars ['"'] ++ t).length < bound) :
    scanQuote bound before (utf8Chars ['"'] ++ t) less =
      .ok ⟨.str (String.ofList before.reverse), 0, t, Nat.lt_of_succ_lt less⟩ := by
  unfold scanQuote
  rfl

theorem scanQuote_goes (plain : c ∉ quoteMarks)
    (less : (utf8Chars (c :: cs) ++ t).length < bound) :
    ∃ less', scanQuote bound before (utf8Chars (c :: cs) ++ t) less =
      scanQuote bound (c :: before) (utf8Chars cs ++ t) less' := by
  have seen := decodeFirst?_utf8Chars c cs t
  have shorter := decodeFirst?_shorter seen
  simp only [quoteMarks, List.mem_cons, List.not_mem_nil, or_false, not_or] at plain
  refine ⟨by omega, ?_⟩
  rw [scanQuote.eq_def]
  split
  · rename_i none
    cases none.symm.trans seen
  · rename_i seen'
    obtain ⟨rfl, rfl⟩ := Prod.mk.inj (Option.some.inj (seen'.symm.trans seen))
    dsimp only
    rw [if_neg plain.1, if_neg plain.2.1, if_neg plain.2.2]

theorem scanQuote_escapes (known : stringEscape? e = some d)
    (less : (utf8Chars ('\\' :: e :: cs) ++ t).length < bound) :
    ∃ less', scanQuote bound before (utf8Chars ('\\' :: e :: cs) ++ t) less =
      scanQuote bound (d :: before) (utf8Chars cs ++ t) less' := by
  have seen := decodeFirst?_utf8Chars '\\' (e :: cs) t
  have behind := decodeFirst?_utf8Chars e cs t
  have shorter := decodeFirst?_shorter seen
  have shorter' := decodeFirst?_shorter behind
  refine ⟨by omega, ?_⟩
  rw [scanQuote.eq_def]
  split
  · rename_i none
    cases none.symm.trans seen
  · rename_i seen'
    obtain ⟨rfl, rfl⟩ := Prod.mk.inj (Option.some.inj (seen'.symm.trans seen))
    dsimp only
    rw [if_neg (by decide), if_neg (by decide), if_pos rfl]
    split
    · rename_i none
      cases none.symm.trans behind
    · rename_i behind'
      obtain ⟨rfl, rfl⟩ := Prod.mk.inj (Option.some.inj (behind'.symm.trans behind))
      rw [known]

theorem ne_newline_of_escape (known : stringEscape? e = some d) : e ≠ '\n' := by
  rintro rfl
  cases known

theorem scanQuote_reads (bound : Nat) (before : List Char) (s : Bytes) (less : s.length < bound)
    {p : Scan bound} (found : scanQuote bound before s less = .ok p) :
    ∃ cs, s = utf8Chars (cs ++ ['"']) ++ p.rest ∧ p.lines = 0 ∧ '\n' ∉ cs ∧
      ∀ t bound' less', ∃ q, scanQuote bound' before (utf8Chars (cs ++ ['"']) ++ t) less' = .ok q ∧
        q.lexeme = p.lexeme ∧ q.rest = t := by
  rw [scanQuote.eq_def] at found
  split at found
  · cases found
  · rename_i c r seen
    have shorter := decodeFirst?_shorter seen
    have whole := decodeFirst?_sound seen
    dsimp only at found
    split at found
    · rename_i closes
      subst closes
      cases found
      exact ⟨[], whole, rfl, List.not_mem_nil, fun t bound' less' =>
        ⟨_, scanQuote_closes less', rfl, rfl⟩⟩
    · rename_i notQuote
      split at found
      · cases found
      · rename_i notEnd
        split at found
        · rename_i escape
          subst escape
          split at found
          · cases found
          · rename_i e u behind
            have shorter' := decodeFirst?_shorter behind
            have within := decodeFirst?_sound behind
            split at found
            · rename_i d known
              obtain ⟨cs, left, lines, plain, again⟩ := scanQuote_reads _ _ u _ found
              refine ⟨'\\' :: e :: cs, ?_, lines, ?_, ?_⟩
              · rw [whole, within, left]
                simp
              · simp [plain, (ne_newline_of_escape known).symm]
              · intro t bound' less'
                obtain ⟨less', same⟩ := scanQuote_escapes known less'
                obtain ⟨q, ends, lexeme, rest⟩ := again t bound' less'
                exact ⟨q, same.trans ends, lexeme, rest⟩
            · cases found
        · rename_i notEscape
          obtain ⟨cs, left, lines, plain, again⟩ := scanQuote_reads _ _ r _ found
          refine ⟨c :: cs, ?_, lines, ?_, ?_⟩
          · rw [whole, left]
            simp
          · simp [plain, Ne.symm notEnd]
          · intro t bound' less'
            have plain : c ∉ quoteMarks := by simp [quoteMarks, notQuote, notEnd, notEscape]
            obtain ⟨less', same⟩ := scanQuote_goes plain less'
            obtain ⟨q, ends, lexeme, rest⟩ := again t bound' less'
            exact ⟨q, same.trans ends, lexeme, rest⟩
termination_by s.length
decreasing_by
  all_goals omega

theorem scanRaw_closes (less : (utf8Chars ['\x60'] ++ t).length < bound) :
    scanRaw bound before (utf8Chars ['\x60'] ++ t) less =
      .ok ⟨.str (String.ofList before.reverse), before.count '\n', t, Nat.lt_of_succ_lt less⟩ := by
  unfold scanRaw
  rfl

theorem scanRaw_goes (plain : c ≠ '\x60')
    (less : (utf8Chars (c :: cs) ++ t).length < bound) :
    ∃ less', scanRaw bound before (utf8Chars (c :: cs) ++ t) less =
      scanRaw bound (c :: before) (utf8Chars cs ++ t) less' := by
  have seen := decodeFirst?_utf8Chars c cs t
  have shorter := decodeFirst?_shorter seen
  refine ⟨by omega, ?_⟩
  rw [scanRaw.eq_def]
  split
  · rename_i none
    cases none.symm.trans seen
  · rename_i seen'
    obtain ⟨rfl, rfl⟩ := Prod.mk.inj (Option.some.inj (seen'.symm.trans seen))
    exact if_neg plain

theorem scanRaw_reads (bound : Nat) (before : List Char) (s : Bytes) (less : s.length < bound)
    {p : Scan bound} (found : scanRaw bound before s less = .ok p) :
    ∃ cs, s = utf8Chars (cs ++ ['\x60']) ++ p.rest ∧
      p.lines = before.count '\n' + cs.count '\n' ∧
      ∀ t bound' less', ∃ q, scanRaw bound' before (utf8Chars (cs ++ ['\x60']) ++ t) less' = .ok q ∧
        q.lexeme = p.lexeme ∧ q.rest = t := by
  rw [scanRaw.eq_def] at found
  split at found
  · cases found
  · rename_i c r seen
    have shorter := decodeFirst?_shorter seen
    have whole := decodeFirst?_sound seen
    dsimp only at found
    split at found
    · rename_i closes
      subst closes
      cases found
      exact ⟨[], whole, rfl, fun t bound' less' => ⟨_, scanRaw_closes less', rfl, rfl⟩⟩
    · rename_i notQuote
      obtain ⟨cs, left, lines, again⟩ := scanRaw_reads _ _ r _ found
      refine ⟨c :: cs, ?_, ?_, ?_⟩
      · rw [whole, left]
        simp
      · rw [lines, List.count_cons, List.count_cons]
        omega
      · intro t bound' less'
        obtain ⟨less', same⟩ := scanRaw_goes notQuote less'
        obtain ⟨q, ends, lexeme, rest⟩ := again t bound' less'
        exact ⟨q, same.trans ends, lexeme, rest⟩
termination_by s.length

theorem closeChar_closes (less : (utf8Chars ['\''] ++ t).length < bound) :
    closeChar bound c lines (utf8Chars ['\''] ++ t) less =
      .ok ⟨.char c, lines, t, Nat.lt_of_succ_lt less⟩ := by
  unfold closeChar
  rfl

theorem closeChar_reads {less : s.length < bound} (found : closeChar bound c lines s less = .ok p) :
    s = utf8Chars ['\''] ++ p.rest ∧ p.lines = lines ∧ p.lexeme = .char c := by
  cases s with
  | nil => cases found
  | cons b r =>
    rw [closeChar] at found
    split at found
    · rename_i closes
      cases found
      refine ⟨?_, rfl, rfl⟩
      rw [utf8Chars_cons, ← closes, encode_letter (by rw [closes]; decide)]
      rfl
    · cases found

theorem scanChar_plain (plain : c ≠ '\\') (less : (utf8Chars [c, '\''] ++ t).length < bound) :
    ∃ q, scanChar bound (utf8Chars [c, '\''] ++ t) less = .ok q ∧ q.lexeme = .char c ∧
      q.rest = t := by
  have seen := decodeFirst?_utf8Chars c ['\''] t
  rw [scanChar.eq_def]
  split
  · rename_i none
    cases none.symm.trans seen
  · rename_i seen'
    obtain ⟨rfl, rfl⟩ := Prod.mk.inj (Option.some.inj (seen'.symm.trans seen))
    dsimp only
    rw [if_neg plain, closeChar_closes]
    exact ⟨_, rfl, rfl, rfl⟩

theorem scanChar_escapes (known : charEscape? e = some d)
    (less : (utf8Chars ['\\', e, '\''] ++ t).length < bound) :
    ∃ q, scanChar bound (utf8Chars ['\\', e, '\''] ++ t) less = .ok q ∧ q.lexeme = .char d ∧
      q.rest = t := by
  have seen := decodeFirst?_utf8Chars '\\' [e, '\''] t
  have behind := decodeFirst?_utf8Chars e ['\''] t
  rw [scanChar.eq_def]
  split
  · rename_i none
    cases none.symm.trans seen
  · rename_i seen'
    obtain ⟨rfl, rfl⟩ := Prod.mk.inj (Option.some.inj (seen'.symm.trans seen))
    dsimp only
    rw [if_pos rfl]
    split
    · rename_i none
      cases none.symm.trans behind
    · rename_i behind'
      obtain ⟨rfl, rfl⟩ := Prod.mk.inj (Option.some.inj (behind'.symm.trans behind))
      rw [known]
      dsimp only
      rw [closeChar_closes]
      exact ⟨_, rfl, rfl, rfl⟩

theorem scanChar_reads {less : s.length < bound} (found : scanChar bound s less = .ok p) :
    ∃ cs, s = utf8Chars (cs ++ ['\'']) ++ p.rest ∧ p.lines = cs.count '\n' ∧
      ∀ t bound' less', ∃ q, scanChar bound' (utf8Chars (cs ++ ['\'']) ++ t) less' = .ok q ∧
        q.lexeme = p.lexeme ∧ q.rest = t := by
  rw [scanChar.eq_def] at found
  split at found
  · cases found
  · rename_i c r seen
    have whole := decodeFirst?_sound seen
    dsimp only at found
    split at found
    · rename_i escape
      subst escape
      split at found
      · cases found
      · rename_i e u behind
        have within := decodeFirst?_sound behind
        split at found
        · rename_i d known
          have notEnd : e ≠ '\n' := by
            rintro rfl
            cases known
          obtain ⟨left, lines, lexeme⟩ := closeChar_reads found
          refine ⟨['\\', e], ?_, ?_, fun t bound' less' => ?_⟩
          · rw [whole, within, left]
            simp
          · simpa [notEnd] using lines
          · rw [lexeme]
            exact scanChar_escapes known less'
        · cases found
    · rename_i plain
      obtain ⟨left, lines, lexeme⟩ := closeChar_reads found
      refine ⟨[c], ?_, ?_, fun t bound' less' => ?_⟩
      · rw [whole, left]
        simp
      · simp only [lines, List.count_singleton, beq_iff_eq]
      · rw [lexeme]
        exact scanChar_plain plain less'

end Quotes
section Lexemes

def Scans (s : Bytes) (lexeme : Lexeme) (rest : Bytes) : Prop :=
  ∃ p, scanLexeme s = .ok (some p) ∧ p.lexeme = lexeme ∧ p.rest = rest

-- A dash at the end has another character before it, and no blank.
def DashInside (cs : List Char) : Prop :=
  ∀ ds, cs = ds ++ ['-'] → ∃ c ∈ ds.getLast?, c ∉ blankChars

variable {b : UInt8} {c : Char} {cs : List Char} {r s t u : Bytes} {lexeme : Lexeme}

theorem dashInside_last (last : cs.getLast? = some c) (other : c ≠ '-') : DashInside cs := by
  rintro ds rfl
  rw [List.getLast?_concat] at last
  exact (other (Option.some.inj last).symm).elim

theorem dashInside_number (placed : SignsPlaced (c :: cs))
    (accepted : Literal.isAccepted (String.ofList (c :: cs)) = true) : DashInside (c :: cs) := by
  intro ds whole
  rw [whole] at placed accepted
  rcases List.eq_nil_or_concat ds with rfl | ⟨es, d, rfl⟩
  · have refused : Literal.isAccepted "-" = false := by cbv
    exact absurd accepted (Bool.eq_false_iff.mp refused)
  · refine ⟨d, by simp, fun blank => ?_⟩
    rw [SignsPlaced, List.concat_eq_append, List.append_assoc] at placed
    have mark := (List.isChain_cons_cons.mp (List.isChain_append.mp placed).2.1).1 (.inr rfl)
    revert mark
    fin_cases blank <;> simp [IsExponentMark]

theorem scanNumber_reads {p : Scan (r.length + 1)} (found : scanNumber b r = .ok p) :
    ∃ cs, r = utf8Chars cs ++ p.rest ∧ p.lines = 0 ∧ (∀ c ∈ cs, c ∉ blankChars) ∧
      DashInside (letter b :: cs) ∧
      (∀ c, r.head?.map letter = some c → Literal.belongs (some (letter b)) c = true →
        cs.head? = some c) ∧
      ∀ t, EndsLike p.rest t → ∃ q, scanNumber b (utf8Chars cs ++ t) = .ok q ∧
        q.lexeme = p.lexeme ∧ q.rest = t := by
  obtain ⟨more, signs, placed⟩ := takeNumber_signs (letter b) [letter b] r
  obtain ⟨cs, whole, taken, plain, next, again⟩ := takeNumber_reads (some (letter b)) [letter b] r
  obtain rfl := List.append_cancel_left (taken.symm.trans signs)
  rw [scanNumber] at found
  split at found
  · rename_i accepted
    cases found
    refine ⟨cs, whole, rfl, plain, ?_, next, fun t ends => ?_⟩
    · rw [taken] at accepted
      exact dashInside_number placed accepted
    · have same := again t ends
      have literal := congrArg Prod.fst same
      have rest := congrArg Prod.snd same
      dsimp only at literal rest
      rw [← literal] at accepted
      exact ⟨_, if_pos accepted, by rw [literal], rest⟩
  · cases found

def marks : List Char := ['|', '(', ')', ',', '=', ':', '"', '\x60', '\'', '$', '.']

theorem scanLexeme_other {b : UInt8} {u r : Bytes} {c : Char}
    (seen : decodeFirst? (b :: u) = some (c, r)) (other : c ∉ marks) :
    scanLexeme (b :: u) =
      if (c = '+' ∨ c = '-') ∧ (r.head?.map letter).any fun n => n.isDigit || n == '.' then
        (scanNumber b u).map some
      else if c.isDigit then (scanNumber b u).map some
      else if startsWord c then
        .ok (some ⟨.word (String.ofList (takeWord [c] r).1), 0, (takeWord [c] r).2,
          Nat.lt_of_le_of_lt (takeWord_le _ r) (decodeFirst?_shorter seen)⟩)
      else .error (.unexpected c) := by
  rw [scanLexeme.eq_def]
  split
  · rename_i none
    cases seen.symm.trans none
  · rename_i c' r' seen'
    obtain ⟨rfl, rfl⟩ := Prod.mk.inj (Option.some.inj (seen.symm.trans seen'))
    dsimp only
    split
    all_goals first
      | exact absurd (by decide) other
      | rfl

-- The characters of a lexeme, which is read again wherever they end alike.
structure Reads (s : Bytes) {bound : Nat} (p : Scan bound) (cs : List Char) : Prop where
  whole : s = utf8Chars cs ++ p.rest
  lines : p.lines = cs.count '\n'
  dash : DashInside cs
  again : ∀ t, EndsLike p.rest t → Scans (utf8Chars cs ++ t) p.lexeme t

theorem reads_single (opens : ∀ r, ∃ short, scanLexeme (utf8Chars cs ++ r) =
      .ok (some ⟨lexeme, 0, r, short⟩)) (last : cs.getLast? = some c) (other : c ≠ '-')
    (flat : cs.count '\n' = 0) {p : Scan (utf8Chars cs ++ r).length}
    (found : scanLexeme (utf8Chars cs ++ r) = .ok (some p)) : Reads (utf8Chars cs ++ r) p cs := by
  obtain ⟨short, same⟩ := opens r
  obtain rfl := Option.some.inj (Except.ok.inj (same.symm.trans found))
  refine ⟨rfl, flat.symm, dashInside_last last other, fun t _ => ?_⟩
  obtain ⟨short, again⟩ := opens t
  exact ⟨_, again, rfl, rfl⟩

theorem reads_quoted
    {read : (bound : Nat) → (s : Bytes) → s.length < bound → Except LexFault (Scan bound)}
    {d : Char} {bound : Nat} {p : Scan bound}
    (opens : ∀ t, ∃ short, scanLexeme (utf8Chars [c] ++ t) =
      (read (utf8Chars [c] ++ t).length t short).map some)
    (other : d ≠ '-') (flat : c ≠ '\n' ∧ d ≠ '\n') (left : r = utf8Chars (cs ++ [d]) ++ p.rest)
    (lines : p.lines = cs.count '\n')
    (again : ∀ t bound' less', ∃ q, read bound' (utf8Chars (cs ++ [d]) ++ t) less' = .ok q ∧
      q.lexeme = p.lexeme ∧ q.rest = t) :
    Reads (utf8Chars [c] ++ r) p (c :: (cs ++ [d])) := by
  refine ⟨?_, ?_, dashInside_last (List.getLast?_concat (l := c :: cs)) other, fun t _ => ?_⟩
  · rw [left]
    simp
  · rw [lines]
    simp [flat.1, flat.2]
  · obtain ⟨short, starts⟩ := opens (utf8Chars (cs ++ [d]) ++ t)
    obtain ⟨q, ends, lexeme, rest⟩ := again t _ short
    have whole : utf8Chars (c :: (cs ++ [d])) ++ t =
        utf8Chars [c] ++ (utf8Chars (cs ++ [d]) ++ t) := by
      simp
    rw [whole]
    exact ⟨q, by rw [starts, ends]; rfl, lexeme, rest⟩

theorem plain_word (first : c ≠ '-' ∧ c ≠ '\n') (words : ∀ d ∈ cs, isWordChar d = true) :
    DashInside (c :: cs) ∧ (c :: cs).count '\n' = 0 := by
  have other {d : Char} (member : d ∈ c :: cs) : d ≠ '-' ∧ d ≠ '\n' := by
    obtain rfl | inside := List.mem_cons.mp member
    · exact first
    · constructor
      · rintro rfl
        cases words _ inside
      · rintro rfl
        cases words _ inside
  refine ⟨fun ds whole => ?_, List.count_eq_zero.mpr fun member => (other member).2 rfl⟩
  exact ((other (whole ▸ List.mem_append_right ds (.head _))).1 rfl).elim

-- A number is read again where the character behind its first one is asked about as well, if that
-- one belongs to it.
theorem reads_number {P : Char → Bool} (ascii : (letter b).toNat < 0x80) (flat : letter b ≠ '\n')
    (belongs : ∀ c, P c = true → Literal.belongs (some (letter b)) c = true)
    (opens : ∀ t, ((r.head?.map letter).any P = true → (t.head?.map letter).any P = true) →
      scanLexeme (b :: t) = (scanNumber b t).map some) {p : Scan (b :: r).length}
    (found : (scanNumber b r).map some = .ok (some p)) : ∃ cs, Reads (b :: r) p cs := by
  obtain ⟨cs, left, lines, plain, dash, next, again⟩ := scanNumber_reads (map_some_eq_ok found)
  have noNewline : '\n' ∉ letter b :: cs :=
    fun member => (List.mem_cons.mp member).elim (fun same => flat same.symm)
      fun inside => plain _ inside (by decide)
  refine ⟨letter b :: cs, ?_, ?_, dash, fun t ends => ?_⟩
  · rw [utf8Chars_cons, encode_letter ascii, List.append_assoc, ← left]
    rfl
  · rw [lines, List.count_eq_zero.mpr noNewline]
  · obtain ⟨q, same, lexeme, rest⟩ := again t ends
    have still : (r.head?.map letter).any P = true →
        ((utf8Chars cs ++ t).head?.map letter).any P = true := by
      intro asked
      obtain ⟨c, first, holds⟩ := (Option.any_eq_true ..).mp asked
      have goesOn : cs ≠ [] := by
        rintro rfl
        cases next c first (belongs c holds)
      have head := head_utf8Chars goesOn p.rest t
      rw [← left] at head
      rw [head, asked]
    rw [utf8Chars_cons, encode_letter ascii, List.append_assoc, List.singleton_append]
    exact ⟨q, by rw [opens _ still, same]; rfl, lexeme, rest⟩

theorem not_isDigit_blank : ∀ c ∈ blankChars, c.isDigit = false := by
  intro c blank
  fin_cases blank <;> rfl

theorem scanLexeme_reads_dot {p : Scan (utf8Chars ['.'] ++ r).length}
    (found : scanLexeme (utf8Chars ['.'] ++ r) = .ok (some p)) :
    ∃ cs, Reads (utf8Chars ['.'] ++ r) p cs := by
  have opens (t : Bytes) : scanLexeme (utf8Chars ['.'] ++ t) =
      if (t.head?.map letter).any Char.isDigit then (scanNumber 46 t).map some
      else if (takeWord [] t).1.isEmpty then .ok (some ⟨.dot, 0, t, Nat.lt_succ_self _⟩)
      else .ok (some ⟨.field (String.ofList (takeWord [] t).1), 0, (takeWord [] t).2,
        Nat.lt_succ_of_le (takeWord_le _ t)⟩) := rfl
  obtain ⟨cs, left, taken, words, again⟩ := takeWord_reads [] r
  rw [opens] at found
  split at found
  · rename_i digit
    refine reads_number (P := Char.isDigit) (by decide) (by decide) ?_ ?_ found
    · intro c digit
      simp [Literal.belongs, Char.isAlphanum, digit]
    · intro t same
      exact (opens t).trans (if_pos (same digit))
  · rename_i noDigit
    have noDigit := Bool.eq_false_iff.mpr noDigit
    cases cs with
    | nil =>
      rw [if_pos (by rw [taken]; rfl)] at found
      cases found
      refine ⟨['.'], rfl, rfl, dashInside_last rfl (by decide), fun t ends => ?_⟩
      have behind : (takeWord [] r).2 = r := left.symm
      rw [behind] at again
      have same : takeWord [] t = ((takeWord [] r).1, t) := again t ends
      have stays : (t.head?.map letter).any Char.isDigit = false :=
        ends.next (fun _ => Json.ascii_of_isDigit) not_isDigit_blank noDigit
      refine ⟨⟨.dot, 0, t, Nat.lt_succ_self _⟩, (opens t).trans ?_, rfl, rfl⟩
      rw [stays, if_neg Bool.false_ne_true]
      exact if_pos (by rw [same, taken]; rfl)
    | cons c cs =>
      rw [if_neg (by rw [taken]; exact Bool.false_ne_true)] at found
      cases found
      obtain ⟨dash, flat⟩ := plain_word (c := '.') (by decide) words
      refine ⟨'.' :: c :: cs, congrArg _ left, flat.symm, dash, fun t ends => ?_⟩
      have same := again t ends
      have head := head_utf8Chars (List.cons_ne_nil c cs) (takeWord [] r).2 t
      rw [← left] at head
      have starts := opens (utf8Chars (c :: cs) ++ t)
      rw [head, noDigit, if_neg Bool.false_ne_true,
        if_neg (by rw [same, taken]; exact Bool.false_ne_true)] at starts
      refine ⟨_, starts, ?_, congrArg Prod.snd same⟩
      exact congrArg (fun word => Lexeme.field (String.ofList word.1)) same

theorem scanLexeme_reads_mark (mark : c ∈ marks) {p : Scan (utf8Chars [c] ++ r).length}
    (found : scanLexeme (utf8Chars [c] ++ r) = .ok (some p)) :
    ∃ cs, Reads (utf8Chars [c] ++ r) p cs := by
  simp only [marks, List.mem_cons, List.not_mem_nil, or_false] at mark
  rcases mark with rfl | rfl | rfl | rfl | rfl | rfl | rfl | rfl | rfl | rfl | rfl
  · exact ⟨_, reads_single (fun r => ⟨_, rfl⟩) rfl (by decide) rfl found⟩
  · exact ⟨_, reads_single (fun r => ⟨_, rfl⟩) rfl (by decide) rfl found⟩
  · exact ⟨_, reads_single (fun r => ⟨_, rfl⟩) rfl (by decide) rfl found⟩
  · exact ⟨_, reads_single (fun r => ⟨_, rfl⟩) rfl (by decide) rfl found⟩
  · exact ⟨_, reads_single (fun r => ⟨_, rfl⟩) rfl (by decide) rfl found⟩
  · cases r with
    | nil => cases found
    | cons b u =>
      have declares : (if letter b = '=' then
          .ok (some ⟨.declare, 0, u, Nat.lt_succ_of_lt (Nat.lt_succ_self _)⟩)
        else .error .loneColon : Except LexFault (Option (Scan _))) = .ok (some p) := found
      split at declares
      · rename_i equals
        cases declares
        have whole : b :: u = utf8Chars ['='] ++ u := by
          rw [utf8Chars_cons, ← equals, encode_letter (by rw [equals]; decide)]
          rfl
        exact ⟨[':', '='], congrArg _ whole, rfl, dashInside_last rfl (by decide),
          fun t _ => ⟨_, rfl, rfl, rfl⟩⟩
      · cases declares
  · have quote : (scanQuote _ [] r (Nat.lt_succ_self _)).map some = .ok (some p) := found
    obtain ⟨cs, left, lines, plain, again⟩ := scanQuote_reads _ _ _ _ (map_some_eq_ok quote)
    refine ⟨_, reads_quoted (fun t => ⟨_, rfl⟩) (by decide) (by decide) left ?_ again⟩
    rw [lines, List.count_eq_zero.mpr plain]
  · have raw : (scanRaw _ [] r (Nat.lt_succ_self _)).map some = .ok (some p) := found
    obtain ⟨cs, left, lines, again⟩ := scanRaw_reads _ _ _ _ (map_some_eq_ok raw)
    refine ⟨_, reads_quoted (fun t => ⟨_, rfl⟩) (by decide) (by decide) left ?_ again⟩
    simpa using lines
  · have char : (scanChar _ r (Nat.lt_succ_self _)).map some = .ok (some p) := found
    obtain ⟨cs, left, lines, again⟩ := scanChar_reads (map_some_eq_ok char)
    exact ⟨_, reads_quoted (fun t => ⟨_, rfl⟩) (by decide) (by decide) left lines again⟩
  · obtain ⟨cs, left, taken, words, again⟩ := takeWord_reads [] r
    cases found
    obtain ⟨dash, flat⟩ := plain_word (c := '$') (by decide) words
    refine ⟨'$' :: cs, congrArg _ left, flat.symm, dash, fun t ends => ?_⟩
    have same := again t ends
    refine ⟨_, rfl, ?_, congrArg Prod.snd same⟩
    exact congrArg (fun word => Lexeme.var (String.ofList ('$' :: word.1))) same
  · exact scanLexeme_reads_dot found

theorem scanLexeme_word (seen : decodeFirst? s = some (c, r)) (other : c ∉ marks)
    (starts : startsWord c = true) (noDigit : ¬c.isDigit = true) :
    ∃ short, scanLexeme s = .ok (some ⟨.word (String.ofList (takeWord [c] r).1), 0,
      (takeWord [c] r).2, short⟩) := by
  have unsigned : ¬(c = '+' ∨ c = '-') := by
    rintro (rfl | rfl)
    · cases starts
    · cases starts
  cases s with
  | nil => cases seen
  | cons b u =>
    rw [scanLexeme_other seen other, if_neg (fun signed => unsigned signed.1), if_neg noDigit,
      if_pos starts]
    exact ⟨_, rfl⟩

theorem scanLexeme_reads_other {p : Scan (b :: u).length}
    (seen : decodeFirst? (b :: u) = some (c, r)) (other : c ∉ marks)
    (found : scanLexeme (b :: u) = .ok (some p)) : ∃ cs, Reads (b :: u) p cs := by
  rw [scanLexeme_other seen other] at found
  split at found
  · rename_i signed
    have ascii : c.toNat < 0x80 := by
      rcases signed.1 with rfl | rfl <;> decide
    obtain ⟨rfl, rfl⟩ := decodeFirst?_ascii seen ascii
    have flat : letter b ≠ '\n' := by
      rcases signed.1 with sign | sign <;> rw [sign] <;> decide
    refine reads_number (P := fun n => n.isDigit || n == '.') ascii flat ?_ ?_ found
    · intro d next
      rcases Bool.or_eq_true_iff.mp next with digit | point
      · simp [Literal.belongs, Char.isAlphanum, digit]
      · simp [Literal.belongs, beq_iff_eq.mp point]
    · intro t same
      rw [scanLexeme_other (decodeFirst?_letter ascii) other]
      exact if_pos ⟨signed.1, same signed.2⟩
  · rename_i unsigned
    split at found
    · rename_i digit
      obtain ⟨rfl, rfl⟩ := decodeFirst?_ascii seen (Json.ascii_of_isDigit digit)
      have flat : letter b ≠ '\n' := by
        intro same
        rw [same] at digit
        cases digit
      have unsigned : ¬(letter b = '+' ∨ letter b = '-') := by
        rintro (same | same) <;> rw [same] at digit <;> cases digit
      have none : ∀ c, false = true → Literal.belongs (some (letter b)) c = true := by
        intro c impossible
        cases impossible
      refine reads_number (P := fun _ => false) (Json.ascii_of_isDigit digit) flat none ?_ found
      intro t _
      rw [scanLexeme_other (decodeFirst?_letter (Json.ascii_of_isDigit digit)) other,
        if_neg (fun signed => unsigned signed.1), if_pos digit]
    · rename_i noDigit
      split at found
      · rename_i starts
        cases found
        have visible : c ≠ '-' ∧ c ≠ '\n' := by
          constructor <;> rintro rfl <;> cases starts
        obtain ⟨cs, left, taken, words, again⟩ := takeWord_reads [c] r
        obtain ⟨dash, flat⟩ := plain_word visible words
        refine ⟨c :: cs, ?_, flat.symm, dash, fun t ends => ?_⟩
        · rw [utf8Chars_cons, List.append_assoc, ← left]
          exact decodeFirst?_sound seen
        · obtain ⟨short, same⟩ :=
            scanLexeme_word (decodeFirst?_utf8Chars c cs t) other starts noDigit
          have word := again t ends
          refine ⟨_, same, ?_, congrArg Prod.snd word⟩
          exact congrArg (fun word => Lexeme.word (String.ofList word.1)) word
      · cases found

theorem scanLexeme_reads {p : Scan s.length} (found : scanLexeme s = .ok (some p)) :
    ∃ cs, Reads s p cs := by
  cases seen : decodeFirst? s with
  | none =>
    rw [scanLexeme.eq_def] at found
    split at found
    · cases found
    · rename_i seen'
      cases seen.symm.trans seen'
  | some first =>
    obtain ⟨c, r⟩ := first
    by_cases mark : c ∈ marks
    · obtain rfl : s = utf8Chars [c] ++ r := by simpa using decodeFirst?_sound seen
      exact scanLexeme_reads_mark mark found
    · obtain _ | ⟨b, u⟩ := s
      · cases seen
      · exact scanLexeme_reads_other seen mark found

theorem newlines_append (s t : Bytes) : newlines (s ++ t) = newlines s + newlines t :=
  List.count_append

theorem newlines_utf8Chars (cs : List Char) : newlines (utf8Chars cs) = cs.count '\n' := by
  induction cs with
  | nil => rfl
  | cons c cs ih =>
    rw [utf8Chars_cons, newlines_append, ih, List.count_cons, Nat.add_comm]
    by_cases same : c = '\n'
    · subst same
      rfl
    · rw [if_neg (by simpa using same)]
      refine congrArg _ (List.count_eq_zero.mpr fun member => ?_)
      by_cases ascii : c.toNat < 0x80
      · rw [Json.encode_ascii ascii, List.mem_singleton] at member
        have letters := letter_ofNat ascii
        rw [← member] at letters
        exact same letters.symm
      · exact absurd (le_of_mem_encode (by omega) member) (by decide)

theorem Scans.bytes {whole : Bytes} (scans : Scans whole lexeme r) :
    ∃ cs, whole = utf8Chars cs ++ r ∧ DashInside cs ∧ lexeme.InAction ∧
      ∀ t, EndsLike r t → Scans (utf8Chars cs ++ t) lexeme t := by
  obtain ⟨p, found, rfl, rfl⟩ := scans
  obtain ⟨cs, reads⟩ := scanLexeme_reads found
  exact ⟨cs, reads.whole, reads.dash, scanLexeme_inAction found, reads.again⟩

theorem scanLexeme_lines {p : Scan (s ++ r).length} (found : scanLexeme (s ++ r) = .ok (some p))
    (left : p.rest = r) : p.lines = newlines s := by
  obtain ⟨cs, reads⟩ := scanLexeme_reads found
  have whole := reads.whole
  rw [left] at whole
  rw [reads.lines, ← newlines_utf8Chars, List.append_cancel_right whole]

end Lexemes

end PagePress.Template
