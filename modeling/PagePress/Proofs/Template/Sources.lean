import PagePress.Proofs.Template.Acceptance
import PagePress.Proofs.Template.Appended

namespace PagePress.Template

open Text

section Lexemes

variable {s rest : Bytes} {lexeme : Lexeme}

theorem scans_number {b : UInt8} {r : Bytes} (begins : BeginsNumber (b :: r))
    (accepted : Literal.isAccepted (literalAt (b :: r)) = true) :
    Scans (b :: r) (.number (literalAt (b :: r)))
      (takeNumber (some (letter b)) [letter b] r).2 := by
  rw [Scans, scanLexeme_number begins, scanNumber, ← literalAt, if_pos accepted]
  exact ⟨_, rfl, rfl, rfl⟩

end Lexemes

section Actions

structure Written where
  blanks : Bytes
  bytes : Bytes
  lexeme : Lexeme

def Written.token (item : Written) : Token := ⟨item.lexeme, 0, !item.blanks.isEmpty⟩

def writtenBytes (items : List Written) (behind : Bytes) : Bytes :=
  items.foldr (fun item behind => item.blanks ++ (item.bytes ++ behind)) behind

def EndsLiteral (literal : String) (behind : Bytes) : Prop :=
  ∀ b ∈ behind.head?, Literal.belongs literal.toList.getLast? (letter b) = false

-- The lexemes of an action up to its end, each scanned in front of the next. One literal is only
-- asked to end where it stands.
inductive Lexes (literal : String) (closing : Bytes) : List Written → Prop
  | nil : Lexes literal closing []
  | literal {blanks : Bytes} {items : List Written} (blank : ∀ b ∈ blanks, isSpace b = true)
      (ends : EndsLiteral literal (writtenBytes items closing))
      (later : Lexes literal closing items) :
    Lexes literal closing (⟨blanks, utf8 literal, .number literal⟩ :: items)
  | other {item : Written} {items : List Written} (blank : ∀ b ∈ item.blanks, isSpace b = true)
      (scans : Scans (item.bytes ++ writtenBytes items closing) item.lexeme
        (writtenBytes items closing))
      (later : Lexes literal closing items) : Lexes literal closing (item :: items)

def IsLexed (literal : String) : Prop :=
  ∀ behind, EndsLiteral literal behind → Scans (utf8 literal ++ behind) (.number literal) behind

variable {literal : String} {blanks behind closing rest s : Bytes} {item : Written}
  {items : List Written}
  {bound line : Nat} {trims trimsAfter : Bool} {before : List Token}

theorem Lexes.first (lexes : Lexes literal closing (item :: items)) (lexed : IsLexed literal) :
    (∀ b ∈ item.blanks, isSpace b = true) ∧
      Scans (item.bytes ++ writtenBytes items closing) item.lexeme (writtenBytes items closing) ∧
      Lexes literal closing items := by
  cases lexes with
  | literal blank ends later => exact ⟨blank, lexed _ ends, later⟩
  | other blank scans later => exact ⟨blank, scans, later⟩

theorem scanAction_lexes (lexed : IsLexed literal) (blank : ∀ b ∈ blanks, isSpace b = true)
    (spaced : trimsAfter = true → blanks ≠ [])
    (lexes : Lexes literal (blanks ++ (closingBytes trimsAfter ++ rest)) items)
    (less : (writtenBytes items (blanks ++ (closingBytes trimsAfter ++ rest))).length < bound) :
    ∃ p, scanAction bound trims line before
        (writtenBytes items (blanks ++ (closingBytes trimsAfter ++ rest))) less = .ok p ∧
      p.mark.unlined = ⟨trims, trimsAfter, tokensUnlined before.reverse ++
        (items.map Written.token ++ [⟨.closeAction, 0, !blanks.isEmpty⟩])⟩ ∧ p.rest = rest := by
  induction items generalizing line before with
  | nil =>
    obtain ⟨p, found, mark, -, left⟩ := scanAction_close blank spaced less
    refine ⟨p, found, ?_, left⟩
    simp [mark, Mark.unlined, tokensUnlined, Token.unlined]
  | cons item items ih =>
    obtain ⟨ahead, scans, later⟩ := lexes.first lexed
    obtain ⟨short, same⟩ := scanAction_lexeme ahead scans less
    obtain ⟨p, found, mark, left⟩ := ih later short
    refine ⟨p, same.trans found, mark.trans ?_, left⟩
    simp [tokensUnlined, Token.unlined, Written.token]

end Actions

section Sources

structure Stretch where
  text : Bytes
  trimsBefore : Bool
  items : List Written
  blanks : Bytes
  trimsAfter : Bool

structure Source where
  stretches : List Stretch
  last : Bytes

variable {literal : String} {rest last : Bytes} {line : Nat} {stretch : Stretch}
  {stretches : List Stretch}

namespace Stretch

def closing (stretch : Stretch) (rest : Bytes) : Bytes :=
  stretch.blanks ++ (closingBytes stretch.trimsAfter ++ rest)

def inside (stretch : Stretch) (rest : Bytes) : Bytes :=
  utf8Chars (if stretch.trimsBefore then ['-', ' '] else []) ++
    writtenBytes stretch.items (stretch.closing rest)

def onto (stretch : Stretch) (rest : Bytes) : Bytes :=
  stretch.text ++ (utf8Chars ['{', '{'] ++ stretch.inside rest)

def mark (stretch : Stretch) : Mark :=
  ⟨stretch.trimsBefore, stretch.trimsAfter,
    ⟨.openAction, 0, false⟩ ::
      (stretch.items.map Written.token ++ [⟨.closeAction, 0, !stretch.blanks.isEmpty⟩])⟩

structure Laid (stretch : Stretch) (literal : String) (rest : Bytes) : Prop where
  uncut : (cutText [] stretch.text).2 = none
  apart : stretch.text.getLast?.map letter ≠ some '{'
  nonempty : stretch.items ≠ []
  blank : ∀ b ∈ stretch.blanks, isSpace b = true
  spaced : stretch.trimsAfter = true → stretch.blanks ≠ []
  lexes : Lexes literal (stretch.closing rest) stretch.items

end Stretch

inductive StretchesLaid (literal : String) (last : Bytes) : List Stretch → Prop
  | nil (uncut : (cutText [] last).2 = none) : StretchesLaid literal last []
  | cons {stretch : Stretch} {stretches : List Stretch}
      (first : stretch.Laid literal (stretches.foldr Stretch.onto last))
      (later : StretchesLaid literal last stretches) :
    StretchesLaid literal last (stretch :: stretches)

namespace Source

def bytes (source : Source) : Bytes := source.stretches.foldr Stretch.onto source.last

def layout (source : Source) : Layout :=
  ⟨source.stretches.map fun stretch => ⟨0, stretch.text, stretch.mark⟩, 0, source.last⟩

def tokens (source : Source) : List Token := source.layout.tokens

def Laid (source : Source) (literal : String) : Prop :=
  StretchesLaid literal source.last source.stretches

end Source

theorem scanMark_laid (lexed : IsLexed literal) (laid : stretch.Laid literal rest) :
    ∃ p, scanMark line (stretch.inside rest) = .ok p ∧ p.mark.unlined = stretch.mark ∧
      p.rest = rest := by
  obtain ⟨item, items, whole⟩ := List.exists_cons_of_ne_nil laid.nonempty
  have lexes := laid.lexes
  obtain ⟨untrimmed, uncommented⟩ : asksTrim (writtenBytes stretch.items (stretch.closing rest)) =
        false ∧
      startsWith ['/', '*'] (writtenBytes stretch.items (stretch.closing rest)) = false := by
    rw [whole] at lexes ⊢
    obtain ⟨blank, scans, -⟩ := lexes.first lexed
    exact scans.opens blank
  have marked : asksTrim (stretch.inside rest) = stretch.trimsBefore ∧
      pastMarker (stretch.inside rest) = writtenBytes stretch.items (stretch.closing rest) := by
    rw [pastMarker, Stretch.inside]
    cases stretch.trimsBefore with
    | false => exact ⟨untrimmed, if_neg (Bool.eq_false_iff.mp untrimmed)⟩
    | true => exact ⟨rfl, rfl⟩
  rw [scanMark_action (by rwa [marked.2])]
  simp only [marked.1, marked.2]
  obtain ⟨p, found, mark, left⟩ := scanAction_lexes lexed laid.blank laid.spaced lexes _
  exact ⟨p, found, mark, left⟩

theorem cutText_onto (laid : stretch.Laid literal rest) :
    cutText [] (stretch.onto rest) = (stretch.text, some (stretch.inside rest)) := by
  rw [Stretch.onto, cutText_behind laid.uncut fun both => laid.apart both.1]
  change (if _ then _ else _) = _
  rw [if_pos ⟨rfl, rfl⟩, List.append_nil, List.reverse_reverse]
  rfl

theorem scan_laid (line : Nat) (before : List Segment) (lexed : IsLexed literal)
    (laid : StretchesLaid literal last stretches) :
    ∃ layout, Layout.scan line before (stretches.foldr Stretch.onto last) = .ok layout ∧
      layout.unlined = ⟨segmentsUnlined before.reverse ++
        stretches.map (fun stretch => ⟨0, stretch.text, stretch.mark⟩), 0, last⟩ := by
  induction laid generalizing line before with
  | nil uncut =>
    have cut : cutText [] last = (last, none) := by
      rcases found : cutText [] last with ⟨text, behind⟩
      obtain rfl : behind = none := by simpa [found] using uncut
      rw [cutText_whole found]
      rfl
    exact ⟨_, scan_last cut, by rw [List.map_nil, List.append_nil]; rfl⟩
  | @cons stretch stretches first _ ih =>
    obtain ⟨p, scanned, mark, left⟩ := scanMark_laid lexed first
    obtain ⟨layout, found, same⟩ := ih _ _
    refine ⟨layout, ?_, same.trans ?_⟩
    · rw [List.foldr_cons, scan_mark (cutText_onto first) scanned, left]
      exact found
    · simp [segmentsUnlined, Segment.unlined, mark]

theorem tokenize_laid (lexed : IsLexed literal) {source : Source} (laid : source.Laid literal) :
    ∃ tokens, tokenize source.bytes = .ok tokens ∧
      tokensUnlined tokens.list = source.tokens := by
  obtain ⟨layout, found, same⟩ := scan_laid 1 [] lexed laid
  refine ⟨⟨layout.tokens, layout.endLine⟩, ?_, ?_⟩
  · rw [tokenize, Layout.ofBytes, Source.bytes, found]
    rfl
  · rw [tokens_unlined, same]
    rfl

theorem render_unlined {template other : Template} {options : Options} {values : Json} {out : Bytes}
    (fits : WellFormed template.nodes)
    (same : nodesUnlined other.nodes = nodesUnlined template.nodes)
    (rendered : template.render options values = .ok out) :
    other.render options values = .ok out := by
  obtain ⟨pieces, left, printed, rfl⟩ := prints_of_render fits rendered
  obtain ⟨_, again, -⟩ := printed.tracked
    (runNodes_tracks options same_carries values _ other.nodes same fun _ _ => trivial) rfl
  exact render_of_prints again

theorem compile_laid (name : String) (lexed : IsLexed literal) {source : Source}
    (laid : source.Laid literal) {nodes : List Node} (fits : WellFormed nodes)
    (spelled : SpellsNodes nodes source.tokens) :
    ∃ template, compile source.bytes name = .ok template ∧
      nodesUnlined template.nodes = nodesUnlined nodes ∧
      ∀ options values out, render ⟨name, nodes⟩ options values = .ok out →
        template.render options values = .ok out := by
  obtain ⟨tokens, scanned, alike⟩ := tokenize_laid lexed laid
  have alike : tokensUnlined tokens.list = tokensUnlined source.tokens := by
    rw [← alike, tokensUnlined, tokensUnlined, List.map_map]
    rfl
  obtain ⟨read, accepted, same⟩ := parse_complete tokens.endLine fits (spelled.relined alike)
  refine ⟨⟨name, read⟩, ?_, same, fun options values out => render_unlined fits same⟩
  rw [compile, scanned, Except.mapError, Chain.ok_bind, accepted]
  rfl

end Sources

end PagePress.Template
