import PagePress.Proofs.Template.Soundness
import PagePress.Template.Lexer

namespace PagePress.Template

open Chain Text Numeral

def IsSign (c : Char) : Prop := c = '+' ∨ c = '-'

def IsExponentMark (c : Char) : Prop := c = 'e' ∨ c = 'E' ∨ c = 'p' ∨ c = 'P'

def SignsPlaced (cs : List Char) : Prop := cs.IsChain fun a b => IsSign b → IsExponentMark a

theorem isExponentMark_of_belongs {a b : Char} (belongs : Literal.belongs (some a) b = true)
    (sign : IsSign b) : IsExponentMark a := by
  rcases sign with rfl | rfl
  · simpa [Literal.belongs, IsExponentMark, or_assoc] using belongs
  · simpa [Literal.belongs, IsExponentMark, or_assoc] using belongs

theorem takeNumber_signs (a : Char) (before : List Char) (r : Bytes) :
    ∃ more, (takeNumber (some a) before r).1 = before.reverse ++ more ∧
      SignsPlaced (a :: more) := by
  induction r generalizing a before with
  | nil => exact ⟨[], (List.append_nil _).symm, .singleton a⟩
  | cons b r ih =>
    rw [takeNumber]
    split
    · rename_i belongs
      obtain ⟨more, taken, placed⟩ := ih (letter b) (letter b :: before)
      exact ⟨letter b :: more, by simpa using taken,
        .cons_cons (isExponentMark_of_belongs belongs) placed⟩
    · exact ⟨[], (List.append_nil _).symm, .singleton a⟩

-- An underscore is no exponent mark, so no sign comes out from behind one.
theorem signsPlaced_filter_cons {a : Char} {cs : List Char} (placed : SignsPlaced (a :: cs)) :
    SignsPlaced (a :: Literal.withoutUnderscores cs) := by
  induction cs generalizing a with
  | nil => exact .singleton a
  | cons b cs ih =>
    obtain ⟨first, later⟩ := List.isChain_cons_cons.mp placed
    by_cases dropped : b = '_'
    · have skipped : SignsPlaced (a :: cs) := by
        cases cs with
        | nil => exact .singleton a
        | cons c cs =>
          subst dropped
          obtain ⟨apart, later⟩ := List.isChain_cons_cons.mp later
          refine .cons_cons (fun sign => ?_) later
          simpa [IsExponentMark] using apart sign
      rw [Literal.withoutUnderscores, List.filter_cons_of_neg (by simpa using dropped)]
      exact ih skipped
    · rw [Literal.withoutUnderscores, List.filter_cons_of_pos (by simpa using dropped)]
      exact .cons_cons first (ih later)

theorem signsPlaced_filter {cs : List Char} (placed : SignsPlaced cs) :
    SignsPlaced (Literal.withoutUnderscores cs) := by
  induction cs with
  | nil => exact .nil
  | cons a cs ih =>
    by_cases dropped : a = '_'
    · rw [Literal.withoutUnderscores, List.filter_cons_of_neg (by simpa using dropped)]
      exact ih placed.tail
    · rw [Literal.withoutUnderscores, List.filter_cons_of_pos (by simpa using dropped)]
      exact signsPlaced_filter_cons placed

-- No literal of a source has a sign behind its sign or its base mark.
def IsCut (literal : String) : Prop := SignsPlaced literal.toList

def NumbersCut (lexeme : Lexeme) : Prop := ∀ literal, lexeme = .number literal → IsCut literal

section Range

def Unsigned (cs : List Char) : Prop := ∀ c ∈ cs.head?, ¬IsSign c

theorem unsigned_behind {a : Char} {cs : List Char} (placed : SignsPlaced (a :: cs))
    (noMark : ¬IsExponentMark a) : Unsigned cs := by
  intro c first sign
  cases cs with
  | nil => cases first
  | cons b cs =>
    cases first
    exact noMark ((List.isChain_cons_cons.mp placed).1 sign)

theorem splitSign_unsigned {cs : List Char} (unsigned : Unsigned cs) :
    splitSign cs = (false, cs) := by
  rw [splitSign.eq_def]
  split
  · exact absurd (.inr rfl) (unsigned '-' rfl)
  · exact absurd (.inl rfl) (unsigned '+' rfl)
  · rfl

theorem splitSign_signs {cs : List Char} (placed : SignsPlaced cs) :
    Unsigned (splitSign cs).2 ∧ SignsPlaced (splitSign cs).2 := by
  rw [splitSign.eq_def]
  split
  · exact ⟨unsigned_behind placed (by simp [IsExponentMark]), placed.tail⟩
  · exact ⟨unsigned_behind placed (by simp [IsExponentMark]), placed.tail⟩
  · rename_i noMinus noPlus
    refine ⟨fun c first sign => ?_, placed⟩
    obtain ⟨r, rfl⟩ := List.head?_eq_some_iff.mp first
    rcases sign with rfl | rfl
    · exact noPlus r rfl
    · exact noMinus r rfl

theorem int64?_unsigned {base : Nat} {cs : List Char} {n : Int} (unsigned : Unsigned cs)
    (read : int64? base cs = some n) : 0 ≤ n ∧ n < 2 ^ 63 := by
  rw [int64?, splitSign_unsigned unsigned] at read
  obtain ⟨m, -, done⟩ := Option.bind_eq_some_iff.mp read
  simp only [Bool.false_eq_true, if_false] at done
  obtain ⟨fits, same⟩ := Option.ite_none_right_eq_some.mp done
  rw [← Option.some.inj same]
  exact ⟨Int.natCast_nonneg m, fits.2⟩

theorem integer?_fits {literal : String} {n : Int} (cut : IsCut literal)
    (read : Literal.integer? literal = some n) : -2 ^ 63 < n ∧ n < 2 ^ 63 := by
  obtain ⟨unsigned, placed⟩ := splitSign_signs (signsPlaced_filter cut)
  rw [Literal.integer?] at read
  generalize splitSign (Literal.withoutUnderscores literal.toList) = parts at *
  obtain ⟨negative, body⟩ := parts
  have fits {base : Nat} {cs : List Char} (unsigned : Unsigned cs)
      (read : (int64? base cs).bind (fun m => some (if negative then -m else m)) = some n) :
      -2 ^ 63 < n ∧ n < 2 ^ 63 := by
    obtain ⟨m, whole, done⟩ := Option.bind_eq_some_iff.mp read
    obtain ⟨low, high⟩ := int64?_unsigned unsigned whole
    rw [← Option.some.inj done]
    split <;> omega
  have behind {mark : Char} {r : List Char} (placed : SignsPlaced ('0' :: mark :: r))
      (noMark : ¬IsExponentMark mark) : Unsigned r := unsigned_behind placed.tail noMark
  dsimp only at read unsigned placed
  split at read
  · exact fits (behind placed (by simp [IsExponentMark])) read
  · exact fits (behind placed (by simp [IsExponentMark])) read
  · exact fits (behind placed (by simp [IsExponentMark])) read
  · exact fits (behind placed (by simp [IsExponentMark])) read
  · exact fits (behind placed (by simp [IsExponentMark])) read
  · exact fits (behind placed (by simp [IsExponentMark])) read
  · exact fits unsigned read

theorem isLiteral_of_cut {literal : String} {n : Number} (cut : IsCut literal)
    (read : Literal.value? literal = some n) : IsLiteral (.num n) := by
  rw [Literal.value?] at read
  split at read
  · rename_i m whole
    rw [Number.ofInt?] at read
    split at read
    · cases read
      exact integer?_fits cut whole
    · cases read
  · split at read
    · cases read
      trivial
    · cases read

end Range

section Lexemes

def Lexeme.InAction : Lexeme → Prop
  | .text _ | .openAction | .closeAction => False
  | .number literal => IsCut literal
  | _ => True

theorem scanNumber_inAction {b : UInt8} {r : Bytes} {p : Scan (r.length + 1)}
    (found : scanNumber b r = .ok p) : p.lexeme.InAction := by
  rw [scanNumber] at found
  split at found
  · cases found
    obtain ⟨more, taken, placed⟩ := takeNumber_signs (letter b) [letter b] r
    rw [Lexeme.InAction, IsCut, String.toList_ofList, taken]
    exact placed
  · cases found

theorem scanQuote_str (bound : Nat) (before : List Char) (s : Bytes) (less : s.length < bound)
    {p : Scan bound} (found : scanQuote bound before s less = .ok p) :
    ∃ value, p.lexeme = .str value := by
  rw [scanQuote.eq_def] at found
  split at found
  · cases found
  · have shorter := decodeFirst?_shorter ‹_›
    dsimp only at found
    split at found
    · cases found
      exact ⟨_, rfl⟩
    · split at found
      · cases found
      · split at found
        · split at found
          · cases found
          · have shorter := decodeFirst?_shorter ‹decodeFirst? _ = some (_, _)›
            split at found
            · exact scanQuote_str _ _ _ _ found
            · cases found
        · exact scanQuote_str _ _ _ _ found
termination_by s.length
decreasing_by
  all_goals omega

theorem scanRaw_str (bound : Nat) (before : List Char) (s : Bytes) (less : s.length < bound)
    {p : Scan bound} (found : scanRaw bound before s less = .ok p) :
    ∃ value, p.lexeme = .str value := by
  rw [scanRaw.eq_def] at found
  split at found
  · cases found
  · have shorter := decodeFirst?_shorter ‹_›
    dsimp only at found
    split at found
    · cases found
      exact ⟨_, rfl⟩
    · exact scanRaw_str _ _ _ _ found
termination_by s.length

theorem closeChar_char {bound : Nat} {c : Char} {lines : Nat} {s : Bytes} {less : s.length < bound}
    {p : Scan bound} (found : closeChar bound c lines s less = .ok p) : p.lexeme = .char c := by
  rw [closeChar.eq_def] at found
  split at found
  · split at found
    · cases found
      rfl
    · cases found
  · cases found

theorem scanChar_char {bound : Nat} {s : Bytes} {less : s.length < bound} {p : Scan bound}
    (found : scanChar bound s less = .ok p) : ∃ c, p.lexeme = .char c := by
  rw [scanChar.eq_def] at found
  split at found
  · cases found
  · dsimp only at found
    split at found
    · split at found
      · cases found
      · split at found
        · exact ⟨_, closeChar_char found⟩
        · cases found
    · exact ⟨_, closeChar_char found⟩

theorem map_some_eq_ok {ε α : Type} {x : Except ε α} {a : α}
    (found : x.map some = .ok (some a)) : x = .ok a := by
  cases x with
  | error e => cases found
  | ok b =>
    cases found
    rfl

theorem scanLexeme_inAction {s : Bytes} {p : Scan s.length} (found : scanLexeme s = .ok (some p)) :
    p.lexeme.InAction := by
  rw [scanLexeme.eq_def] at found
  split at found
  · cases found
  · dsimp only at found
    split at found
    · cases found
      trivial
    · cases found
      trivial
    · cases found
      trivial
    · cases found
      trivial
    · cases found
      trivial
    · split at found
      · split at found
        · cases found
          trivial
        · cases found
      · cases found
    · obtain ⟨q, quote, done⟩ := bind_eq_ok.mp found
      cases done
      obtain ⟨value, isStr⟩ := scanQuote_str _ _ _ _ quote
      rw [isStr]
      trivial
    · obtain ⟨q, raw, done⟩ := bind_eq_ok.mp found
      cases done
      obtain ⟨value, isStr⟩ := scanRaw_str _ _ _ _ raw
      rw [isStr]
      trivial
    · obtain ⟨q, char, done⟩ := bind_eq_ok.mp found
      cases done
      obtain ⟨value, isChar⟩ := scanChar_char char
      rw [isChar]
      trivial
    · cases found
      trivial
    · split at found
      · split at found
        · exact scanNumber_inAction (map_some_eq_ok found)
        · cases found
      · split at found
        · cases found
          trivial
        · cases found
          trivial
    · split at found
      · split at found
        · exact scanNumber_inAction (map_some_eq_ok found)
        · cases found
      · split at found
        · split at found
          · exact scanNumber_inAction (map_some_eq_ok found)
          · cases found
        · split at found
          · cases found
            trivial
          · cases found

theorem scanLexeme_cut {s : Bytes} {p : Scan s.length} (found : scanLexeme s = .ok (some p)) :
    NumbersCut p.lexeme := by
  have inside := scanLexeme_inAction found
  intro literal same
  rwa [same] at inside

end Lexemes

section Sources

def AllCut (ts : List Token) : Prop := ∀ t ∈ ts, NumbersCut t.lexeme

theorem scanAction_cut (bound : Nat) (trims : Bool) (line : Nat) (before : List Token) (s : Bytes)
    (less : s.length < bound) (cut : AllCut before) {p : MarkScan bound}
    (found : scanAction bound trims line before s less = .ok p) : AllCut p.mark.tokens := by
  have closed (line : Nat) (spaced : Bool) :
      AllCut (⟨.closeAction, line, spaced⟩ :: before).reverse := by
    intro t member
    rcases List.mem_cons.mp (List.mem_reverse.mp member) with rfl | member
    · exact nofun
    · exact cut t member
  rw [scanAction.eq_def] at found
  dsimp only at found
  split at found
  · cases found
  · split at found
    · cases found
      exact closed _ _
    · split at found
      · cases found
        exact closed _ _
      · split at found
        · cases found
        · cases found
        · rename_i q scanned
          have shorter := q.shorter
          have le : (s.dropWhile isSpace).length ≤ s.length :=
            (List.dropWhile_sublist isSpace).length_le
          refine scanAction_cut bound trims _ _ _ _ ?_ found
          exact List.forall_mem_cons.mpr ⟨scanLexeme_cut scanned, cut⟩
termination_by s.length

def asksTrim (s : Bytes) : Bool :=
  s.head?.map letter == some '-' && (s.drop 1).head?.any isSpace

def marker (s : Bytes) : Bytes := if asksTrim s then s.take 2 else []

def pastMarker (s : Bytes) : Bytes := if asksTrim s then s.drop 2 else s

theorem pastMarker_le (s : Bytes) : (pastMarker s).length ≤ s.length := by
  rw [pastMarker]
  split <;> simp

theorem scanMark_comment {line : Nat} {s : Bytes}
    (opens : startsWith ['/', '*'] (pastMarker s) = true) :
    scanMark line s =
      (scanComment (asksTrim s) (line + newlines (marker s)) (pastMarker s)).bind fun p =>
        .ok ⟨p.mark, p.line, p.rest, by have := p.within; have := pastMarker_le s; omega⟩ :=
  if_pos opens

theorem scanMark_action {line : Nat} {s : Bytes}
    (other : startsWith ['/', '*'] (pastMarker s) = false) :
    scanMark line s = scanAction (s.length + 1) (asksTrim s) (line + newlines (marker s))
      [⟨.openAction, line + newlines (marker s), false⟩] (pastMarker s)
      (by have := pastMarker_le s; omega) :=
  if_neg (Bool.eq_false_iff.mp other)

theorem scanMark_cut {line : Nat} {s : Bytes} {p : MarkScan (s.length + 1)}
    (found : scanMark line s = .ok p) : AllCut p.mark.tokens := by
  cases opens : startsWith ['/', '*'] (pastMarker s) with
  | true =>
    rw [scanMark_comment opens] at found
    obtain ⟨q, comment, done⟩ := bind_eq_ok.mp found
    cases done
    rw [scanComment.eq_def] at comment
    split at comment
    · cases comment
    · dsimp only at comment
      split at comment
      · cases comment
        exact fun _ member => absurd member List.not_mem_nil
      · split at comment
        · cases comment
          exact fun _ member => absurd member List.not_mem_nil
        · cases comment
  | false =>
    rw [scanMark_action opens] at found
    refine scanAction_cut _ _ _ _ _ _ ?_ found
    intro t member
    cases List.mem_singleton.mp member
    exact nofun

theorem scan_cut (line : Nat) (before : List Segment) (s : Bytes)
    (cut : ∀ segment ∈ before, AllCut segment.mark.tokens) {layout : Layout}
    (found : Layout.scan line before s = .ok layout) :
    ∀ segment ∈ layout.segments, AllCut segment.mark.tokens := by
  rw [Layout.scan.eq_def] at found
  split at found
  · cases found
    exact fun segment member => cut segment (List.mem_reverse.mp member)
  · have shorter := cutText_lt ‹_›
    dsimp only at found
    split at found
    · cases found
    · rename_i p scanned
      have within := p.within
      refine scan_cut _ _ _ ?_ found
      exact List.forall_mem_cons.mpr ⟨scanMark_cut scanned, cut⟩
termination_by s.length

theorem allCut_textTokens (line : Nat) (s : Bytes) : AllCut (textTokens line s) := by
  intro t member
  rw [textTokens] at member
  split at member
  · cases member
  · cases List.mem_singleton.mp member
    exact nofun

theorem allCut_append {ts us : List Token} (first : AllCut ts) (later : AllCut us) :
    AllCut (ts ++ us) := by
  intro t member
  rcases List.mem_append.mp member with here | there
  · exact first t here
  · exact later t there

theorem tokenize_cut {source : Bytes} {tokens : Tokens} (found : tokenize source = .ok tokens) :
    AllCut tokens.list := by
  obtain ⟨layout, scanned, done⟩ := bind_eq_ok.mp found
  cases done
  have cut := scan_cut 1 [] source (fun _ member => absurd member List.not_mem_nil) scanned
  refine allCut_append ?_ (allCut_textTokens _ _)
  intro t member
  obtain ⟨⟨trims, segment⟩, row, here⟩ := List.mem_flatMap.mp member
  exact allCut_append (allCut_textTokens _ _) (cut segment (List.of_mem_zip row).2) t here

theorem tokenize_ranged {source : Bytes} {tokens : Tokens}
    (found : tokenize source = .ok tokens) : Ranged tokens.list :=
  fun t member literal isNumber _ read =>
    isLiteral_of_cut (tokenize_cut found t member literal isNumber) read

end Sources

end PagePress.Template
