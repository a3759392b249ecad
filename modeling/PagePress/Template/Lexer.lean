import PagePress.Template.Fault
import PagePress.Template.Literal

namespace PagePress.Template
open Text

def isSpace (b : UInt8) : Bool :=
  match letter b with
  | ' ' | '\t' | '\r' | '\n' => true
  | _ => false

def newlines (s : Bytes) : Nat := s.count 10

structure Scan (bound : Nat) where
  lexeme : Lexeme
  lines : Nat
  rest : Bytes
  shorter : rest.length < bound

def isWordChar (c : Char) : Bool := isAlphanumeric c || c == '_'

def startsWord (c : Char) : Bool := isAlphabetic c || c == '_'

def takeWord (before : List Char) (s : Bytes) : List Char × Bytes :=
  match _ : decodeFirst? s with
  | some (c, r) => if isWordChar c then takeWord (c :: before) r else (before.reverse, s)
  | none => (before.reverse, s)
termination_by s.length
decreasing_by exact decodeFirst?_shorter ‹_›

theorem takeWord_le (before : List Char) (s : Bytes) :
    (takeWord before s).2.length ≤ s.length := by
  fun_induction takeWord before s with
  | case1 before s c r found _ ih =>
    exact Nat.le_of_lt (Nat.lt_of_le_of_lt ih (decodeFirst?_shorter found))
  | case2 => exact Nat.le_refl _
  | case3 => exact Nat.le_refl _

def takeNumber (previous : Option Char) (before : List Char) : Bytes → List Char × Bytes
  | [] => (before.reverse, [])
  | b :: r =>
    if Literal.belongs previous (letter b) then takeNumber (some (letter b)) (letter b :: before) r
    else (before.reverse, b :: r)

theorem takeNumber_le (previous : Option Char) (before : List Char) (s : Bytes) :
    (takeNumber previous before s).2.length ≤ s.length := by
  induction s generalizing previous before with
  | nil => exact Nat.le_refl _
  | cons b r ih =>
    unfold takeNumber
    split
    · exact Nat.le_succ_of_le (ih _ _)
    · exact Nat.le_refl _

def stringEscape? : Char → Option Char
  | 'n' => some '\n'
  | 't' => some '\t'
  | 'r' => some '\r'
  | '\\' => some '\\'
  | '"' => some '"'
  | '\'' => some '\''
  | '0' => some '\x00'
  | _ => none

def charEscape? : Char → Option Char
  | 'n' => some '\n'
  | 't' => some '\t'
  | '\\' => some '\\'
  | '\'' => some '\''
  | _ => none

-- Behind the opening quote. A string ends on its line.
def scanQuote (bound : Nat) (before : List Char) (s : Bytes) (less : s.length < bound) :
    Except LexFault (Scan bound) :=
  match _ : decodeFirst? s with
  | none => .error .unclosedQuote
  | some (c, r) =>
    have short := decodeFirst?_shorter ‹_›
    if c = '"' then .ok ⟨.str (String.ofList before.reverse), 0, r, by omega⟩
    else if c = '\n' then .error .unclosedQuote
    else if c = '\\' then
      match _ : decodeFirst? r with
      | none => .error .unclosedQuote
      | some (e, t) =>
        have shorter := decodeFirst?_shorter ‹decodeFirst? r = _›
        match stringEscape? e with
        | some d => scanQuote bound (d :: before) t (by omega)
        | none => .error (.unknownEscape e)
    else scanQuote bound (c :: before) r (by omega)
termination_by s.length

def scanRaw (bound : Nat) (before : List Char) (s : Bytes) (less : s.length < bound) :
    Except LexFault (Scan bound) :=
  match _ : decodeFirst? s with
  | none => .error .unclosedRaw
  | some (c, r) =>
    have short := decodeFirst?_shorter ‹_›
    if c = '\x60' then
      .ok ⟨.str (String.ofList before.reverse), before.count '\n', r, by omega⟩
    else scanRaw bound (c :: before) r (by omega)
termination_by s.length

def closeChar (bound : Nat) (c : Char) (lines : Nat) (s : Bytes) (less : s.length < bound) :
    Except LexFault (Scan bound) :=
  match s, less with
  | b :: r, less =>
    if letter b = '\'' then .ok ⟨.char c, lines, r, length_tail_lt less⟩
    else .error .unclosedChar
  | [], _ => .error .unclosedChar

def scanChar (bound : Nat) (s : Bytes) (less : s.length < bound) : Except LexFault (Scan bound) :=
  match _ : decodeFirst? s with
  | none => .error .unclosedChar
  | some (c, r) =>
    have short := decodeFirst?_shorter ‹_›
    if c = '\\' then
      match _ : decodeFirst? r with
      | none => .error .badChar
      | some (e, t) =>
        have shorter := decodeFirst?_shorter ‹decodeFirst? r = _›
        match charEscape? e with
        | some d => closeChar bound d 0 t (by omega)
        | none => .error .badChar
    else closeChar bound c (if c = '\n' then 1 else 0) r (by omega)

def scanNumber (b : UInt8) (r : Bytes) : Except LexFault (Scan (r.length + 1)) :=
  let cut := takeNumber (some (letter b)) [letter b] r
  let literal := String.ofList cut.1
  if Literal.isAccepted literal then
    .ok ⟨.number literal, 0, cut.2, Nat.lt_succ_of_le (takeNumber_le _ _ r)⟩
  else .error (.badNumber literal)

def scanLexeme (s : Bytes) : Except LexFault (Option (Scan s.length)) :=
  match _ : decodeFirst? s with
  | none => .ok none
  | some (c, r) =>
    have short := decodeFirst?_shorter ‹_›
    let next := r.head?.map letter
    let single (lexeme : Lexeme) : Except LexFault (Option (Scan s.length)) :=
      .ok (some ⟨lexeme, 0, r, short⟩)
    let number (_ : Unit) : Except LexFault (Option (Scan s.length)) :=
      match s with
      | b :: t => (scanNumber b t).map some
      | [] => .ok none
    match c with
    | '|' => single .pipe
    | '(' => single .leftParen
    | ')' => single .rightParen
    | ',' => single .comma
    | '=' => single .assign
    | ':' =>
      match r, short with
      | b :: t, short =>
        if letter b = '=' then .ok (some ⟨.declare, 0, t, length_tail_lt short⟩)
        else .error .loneColon
      | [], _ => .error .loneColon
    | '"' => do .ok (some (← scanQuote s.length [] r short))
    | '\x60' => do .ok (some (← scanRaw s.length [] r short))
    | '\'' => do .ok (some (← scanChar s.length r short))
    | '$' =>
      .ok (some ⟨.var (String.ofList ('$' :: (takeWord [] r).1)), 0, (takeWord [] r).2,
        Nat.lt_of_le_of_lt (takeWord_le _ r) short⟩)
    | '.' =>
      if next.any Char.isDigit then number ()
      else if (takeWord [] r).1.isEmpty then single .dot
      else
        .ok (some ⟨.field (String.ofList (takeWord [] r).1), 0, (takeWord [] r).2,
          Nat.lt_of_le_of_lt (takeWord_le _ r) short⟩)
    | c =>
      if (c = '+' ∨ c = '-') ∧ next.any fun n => n.isDigit || n == '.' then number ()
      else if c.isDigit then number ()
      else if startsWord c then
        .ok (some ⟨.word (String.ofList (takeWord [c] r).1), 0, (takeWord [c] r).2,
          Nat.lt_of_le_of_lt (takeWord_le _ r) short⟩)
      else .error (.unexpected c)

structure Mark where
  trimsBefore : Bool
  trimsAfter : Bool
  tokens : List Token
  deriving DecidableEq, Repr

structure MarkScan (bound : Nat) where
  mark : Mark
  line : Nat
  rest : Bytes
  within : rest.length < bound

def startsWith (marker : List Char) (s : Bytes) : Bool :=
  (s.take marker.length).map letter == marker

-- The lexemes of an action up to its closing delimiter; `before` holds its tokens, last one first.
-- Behind blanks a dash at the delimiter asks to trim the text that follows.
def scanAction (bound : Nat) (trimsBefore : Bool) (line : Nat) (before : List Token) (s : Bytes)
    (less : s.length < bound) : Except LexError (MarkScan bound) :=
  let blanks := s.takeWhile isSpace
  let r := s.dropWhile isSpace
  let line := line + newlines blanks
  let spaced := !blanks.isEmpty
  have le : r.length ≤ s.length := (List.dropWhile_sublist isSpace).length_le
  let close (trimsAfter : Bool) (width : Nat) : Except LexError (MarkScan bound) :=
    .ok ⟨⟨trimsBefore, trimsAfter, (⟨.closeAction, line, spaced⟩ :: before).reverse⟩, line,
      r.drop width, by simp only [List.length_drop]; omega⟩
  if r.isEmpty then .error ⟨line, .unclosedAction⟩
  else if spaced ∧ startsWith ['-', '}', '}'] r then close true 3
  else if startsWith ['}', '}'] r then close false 2
  else
    match scanLexeme r with
    | .error fault => .error ⟨line, fault⟩
    | .ok none => .error ⟨line, .invalidUtf8⟩
    | .ok (some p) =>
      have shorter := p.shorter
      scanAction bound trimsBefore (line + p.lines)
        (⟨p.lexeme, line + p.lines, spaced⟩ :: before) p.rest (by omega)
termination_by s.length

def pastComment (lines : Nat) : Bytes → Option (Nat × Bytes)
  | [] => none
  | b :: r =>
    if letter b = '*' ∧ r.head?.map letter = some '/' then some (lines, r.drop 1)
    else pastComment (if letter b = '\n' then lines + 1 else lines) r

theorem pastComment_le {lines n : Nat} {s r : Bytes} (found : pastComment lines s = some (n, r)) :
    r.length ≤ s.length := by
  induction s generalizing lines with
  | nil => cases found
  | cons b t ih =>
    unfold pastComment at found
    split at found
    · cases found; simp only [List.length_cons, List.length_drop]; omega
    · exact Nat.le_succ_of_le (ih found)

-- A comment, from its slash. Its delimiter follows at once, or behind one space and a dash.
def scanComment (trimsBefore : Bool) (line : Nat) (s : Bytes) :
    Except LexError (MarkScan (s.length + 1)) :=
  match _ : pastComment 0 s with
  | none => .error ⟨line, .unclosedComment⟩
  | some (lines, r) =>
    have le := pastComment_le ‹_›
    let close (trimsAfter : Bool) (width : Nat) : Except LexError (MarkScan (s.length + 1)) :=
      .ok ⟨⟨trimsBefore, trimsAfter, []⟩, line + lines, r.drop width,
        by simp only [List.length_drop]; omega⟩
    if startsWith [' ', '-', '}', '}'] r then close true 4
    else if startsWith ['}', '}'] r then close false 2
    else .error ⟨line + lines, .commentGoesOn⟩

def scanMark (line : Nat) (s : Bytes) : Except LexError (MarkScan (s.length + 1)) :=
  let trims := s.head?.map letter == some '-' && (s.drop 1).head?.any isSpace
  let marker := if trims then s.take 2 else []
  let r := if trims then s.drop 2 else s
  have le : r.length ≤ s.length := by simp only [r]; split <;> simp
  let line := line + newlines marker
  if startsWith ['/', '*'] r then do
    let p ← scanComment trims line r
    .ok ⟨p.mark, p.line, p.rest, by have := p.within; omega⟩
  else scanAction (s.length + 1) trims line [⟨.openAction, line, false⟩] r (by omega)

def cutText (before : Bytes) : Bytes → Bytes × Option Bytes
  | [] => (before.reverse, none)
  | b :: r =>
    if letter b = '{' ∧ r.head?.map letter = some '{' then (before.reverse, some (r.drop 1))
    else cutText (b :: before) r

theorem cutText_lt {before s text r : Bytes} (found : cutText before s = (text, some r)) :
    r.length < s.length := by
  induction s generalizing before with
  | nil => cases found
  | cons b t ih =>
    unfold cutText at found
    split at found
    · cases found; simp only [List.length_cons, List.length_drop]; omega
    · exact Nat.lt_succ_of_lt (ih found)

structure Segment where
  line : Nat
  text : Bytes
  mark : Mark
  deriving DecidableEq, Repr

structure Layout where
  segments : List Segment
  lastLine : Nat
  lastText : Bytes
  deriving DecidableEq, Repr

namespace Layout

def scan (line : Nat) (before : List Segment) (s : Bytes) : Except LexError Layout :=
  match _ : cutText [] s with
  | (text, none) => .ok ⟨before.reverse, line, text⟩
  | (text, some r) =>
    have shorter := cutText_lt ‹_›
    match scanMark (line + newlines text) r with
    | .error e => .error e
    | .ok p =>
      have within := p.within
      scan p.line (⟨line, text, p.mark⟩ :: before) p.rest
termination_by s.length

def ofBytes (s : Bytes) : Except LexError Layout := scan 1 [] s

def endLine (layout : Layout) : Nat := layout.lastLine + newlines layout.lastText

end Layout

def trimStart (s : Bytes) : Bytes := s.dropWhile isSpace

def trimEnd (s : Bytes) : Bytes := (s.reverse.dropWhile isSpace).reverse

def textTokens (line : Nat) (s : Bytes) : List Token :=
  if s.isEmpty then [] else [⟨.text s, line, false⟩]

def Segment.tokens (trimsStart : Bool) (segment : Segment) : List Token :=
  let text := if trimsStart then trimStart segment.text else segment.text
  let text := if segment.mark.trimsBefore then trimEnd text else text
  textTokens segment.line text ++ segment.mark.tokens

-- A trim reaches the adjacent text and no further, be that text empty.
def Layout.tokens (layout : Layout) : List Token :=
  let trims := layout.segments.map (·.mark.trimsAfter)
  let last := if trims.getLastD false then trimStart layout.lastText else layout.lastText
  ((false :: trims).zip layout.segments).flatMap (fun row => row.2.tokens row.1) ++
    textTokens layout.lastLine last

structure Tokens where
  list : List Token
  endLine : Nat
  deriving DecidableEq, Repr

def tokenize (s : Bytes) : Except LexError Tokens := do
  let layout ← Layout.ofBytes s
  .ok ⟨layout.tokens, layout.endLine⟩

end PagePress.Template
