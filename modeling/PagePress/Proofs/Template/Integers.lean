import PagePress.Proofs.Template.Passing
import PagePress.Proofs.Template.Sources

namespace PagePress.Template

open Text Numeral

section Spellings

def DigitOf (base : Nat) (c : Char) (d : Nat) : Prop :=
  d < base ∧ (c = d.digitChar ∨ c = d.digitChar.toUpper)

inductive SpellsDigits (base : Nat) : List Char → Nat → Prop
  | first {c : Char} {d : Nat} (digit : DigitOf base c d) : SpellsDigits base [c] d
  | digit {cs : List Char} {n d : Nat} {c : Char} (before : SpellsDigits base cs n)
      (digit : DigitOf base c d) : SpellsDigits base (cs ++ [c]) (base * n + d)
  | underscore {cs : List Char} {n : Nat} (before : SpellsDigits base cs n) :
    SpellsDigits base (cs ++ ['_']) n

def baseMarks : List (Nat × Char) := [(16, 'x'), (16, 'X'), (8, 'o'), (8, 'O'), (2, 'b'), (2, 'B')]

inductive SpellsNat : List Char → Nat → Prop
  | decimal {cs : List Char} {n : Nat} (digits : SpellsDigits 10 cs n) : SpellsNat cs n
  | marked {base n : Nat} {mark : Char} {cs : List Char} (underscores : Nat)
      (known : (base, mark) ∈ baseMarks) (digits : SpellsDigits base cs n) :
    SpellsNat ('0' :: mark :: (List.replicate underscores '_' ++ cs)) n

inductive SpellsInt : List Char → Int → Prop
  | plain {cs : List Char} {n : Nat} (whole : SpellsNat cs n) : SpellsInt cs n
  | plus {cs : List Char} {n : Nat} (whole : SpellsNat cs n) : SpellsInt ('+' :: cs) n
  | minus {cs : List Char} {n : Nat} (whole : SpellsNat cs n) : SpellsInt ('-' :: cs) (-n)

def bases : List Nat := [2, 8, 10, 16]

variable {base n d : Nat} {c : Char} {cs : List Char}

theorem mem_bases {mark : Char} (known : (base, mark) ∈ baseMarks) : base ∈ bases := by
  have all : ∀ row ∈ baseMarks, row.1 ∈ bases := by decide
  exact all _ known

theorem DigitOf.of_all {P : Char → Nat → Prop} (digit : DigitOf base c d)
    (all : ∀ d < base, P d.digitChar d ∧ P d.digitChar.toUpper d) : P c d := by
  obtain ⟨small, rfl | rfl⟩ := digit
  · exact (all d small).1
  · exact (all d small).2

theorem digitOf?_digitOf (known : base ∈ bases) (digit : DigitOf base c d) :
    digitOf? base c = some d := by
  have all : ∀ base ∈ bases, ∀ d < base,
      digitOf? base d.digitChar = some d ∧ digitOf? base d.digitChar.toUpper = some d := by decide
  exact digit.of_all (P := fun c d => digitOf? base c = some d) (all base known)

theorem isAlphanum_of_digitOf (known : base ∈ bases) (digit : DigitOf base c d) :
    c.isAlphanum = true := by
  have all : ∀ base ∈ bases, ∀ d < base,
      d.digitChar.isAlphanum = true ∧ d.digitChar.toUpper.isAlphanum = true := by decide
  exact digit.of_all (P := fun c _ => c.isAlphanum = true) (all base known)

theorem isDigit_of_digitOf (digit : DigitOf 10 c d) : c.isDigit = true := by
  have all : ∀ d < 10, d.digitChar.isDigit = true ∧ d.digitChar.toUpper.isDigit = true := by decide
  exact digit.of_all (P := fun c _ => c.isDigit = true) all

theorem SpellsDigits.head (digits : SpellsDigits base cs n) :
    ∃ c d more, cs = c :: more ∧ DigitOf base c d := by
  induction digits with
  | first digit => exact ⟨_, _, [], rfl, digit⟩
  | digit _ _ ih =>
    obtain ⟨c, d, more, rfl, digit⟩ := ih
    exact ⟨c, d, more ++ [_], rfl, digit⟩
  | underscore _ ih =>
    obtain ⟨c, d, more, rfl, digit⟩ := ih
    exact ⟨c, d, more ++ ['_'], rfl, digit⟩

theorem SpellsDigits.mem (digits : SpellsDigits base cs n) (member : c ∈ cs) :
    (∃ d, DigitOf base c d) ∨ c = '_' := by
  induction digits with
  | first digit =>
    rw [List.mem_singleton.mp member]
    exact .inl ⟨_, digit⟩
  | digit _ digit ih =>
    rcases List.mem_append.mp member with before | last
    · exact ih before
    · rw [List.mem_singleton.mp last]
      exact .inl ⟨_, digit⟩
  | underscore _ ih =>
    rcases List.mem_append.mp member with before | last
    · exact ih before
    · exact .inr (List.mem_singleton.mp last)

theorem spells_toDigits (known : base ∈ bases) (n : Nat) :
    SpellsDigits base (Nat.toDigits base n) n := by
  have several : ∀ base ∈ bases, 1 < base := by decide
  have large := several base known
  induction n using Nat.strong_induction_on with
  | _ n ih =>
    rw [Nat.toDigits_eq_if large]
    split
    · rename_i small
      exact .first ⟨small, .inl rfl⟩
    · have before := ih (n / base) (Nat.div_lt_self (by omega) large)
      have whole := before.digit ⟨Nat.mod_lt n (by omega), .inl rfl⟩
      rwa [Nat.div_add_mod] at whole

theorem spells_intText (n : Int) : SpellsInt (intText n) n := by
  have digits : SpellsNat (decimalDigits n.natAbs) n.natAbs :=
    .decimal (spells_toDigits (by decide) n.natAbs)
  rw [intText]
  split
  · have signed := SpellsInt.minus digits
    rwa [show -(n.natAbs : Int) = n by omega] at signed
  · have plain := SpellsInt.plain digits
    rwa [show (n.natAbs : Int) = n by omega] at plain

end Spellings

section Reading

open Literal

variable {base n d : Nat} {c : Char} {cs ds : List Char}

theorem withoutUnderscores_append :
    withoutUnderscores (cs ++ ds) = withoutUnderscores cs ++ withoutUnderscores ds :=
  List.filter_append cs ds

theorem withoutUnderscores_cons (other : c ≠ '_') :
    withoutUnderscores (c :: cs) = c :: withoutUnderscores cs :=
  List.filter_cons_of_pos (by simpa using other)

theorem withoutUnderscores_replicate (k : Nat) :
    withoutUnderscores (List.replicate k '_') = [] := by
  rw [withoutUnderscores, List.filter_replicate]
  rfl

theorem ne_underscore_of_digitOf (known : base ∈ bases) (digit : DigitOf base c d) : c ≠ '_' := by
  rintro rfl
  cases isAlphanum_of_digitOf known digit

theorem natural?_spelled (known : base ∈ bases) (digits : SpellsDigits base cs n) :
    natural? base (withoutUnderscores cs) = some n := by
  have read : (withoutUnderscores cs).foldlM
      (fun n c => (digitOf? base c).map (base * n + ·)) 0 = some n := by
    induction digits with
    | first digit =>
      rw [withoutUnderscores_cons (ne_underscore_of_digitOf known digit), List.foldlM_cons,
        digitOf?_digitOf known digit]
      simp [withoutUnderscores]
    | digit _ digit ih =>
      rw [withoutUnderscores_append, List.foldlM_append, ih,
        withoutUnderscores_cons (ne_underscore_of_digitOf known digit)]
      simp [withoutUnderscores, digitOf?_digitOf known digit]
    | underscore _ ih =>
      rw [withoutUnderscores_append, List.foldlM_append, ih]
      rfl
  obtain ⟨c, d, more, rfl, digit⟩ := digits.head
  rw [natural?, if_neg]
  · exact read
  · rw [withoutUnderscores_cons (ne_underscore_of_digitOf known digit)]
    exact List.cons_ne_nil _ _

theorem SpellsDigits.unsigned (known : base ∈ bases) (digits : SpellsDigits base cs n) :
    Unsigned (withoutUnderscores cs) := by
  obtain ⟨c, d, more, rfl, digit⟩ := digits.head
  rw [withoutUnderscores_cons (ne_underscore_of_digitOf known digit)]
  rintro _ ⟨⟩ (rfl | rfl)
  · cases isAlphanum_of_digitOf known digit
  · cases isAlphanum_of_digitOf known digit

theorem SpellsNat.unsigned (whole : SpellsNat cs n) : Unsigned (withoutUnderscores cs) := by
  cases whole with
  | decimal digits => exact digits.unsigned (by decide)
  | marked =>
    rw [withoutUnderscores_cons (by decide)]
    rintro _ ⟨⟩ (⟨⟨⟩⟩ | ⟨⟨⟩⟩)

theorem int64?_spelled (known : base ∈ bases) (digits : SpellsDigits base cs n) :
    int64? base (withoutUnderscores cs) = if n < 2 ^ 63 then some (n : Int) else none := by
  rw [int64?, splitSign_unsigned (digits.unsigned known)]
  dsimp only
  rw [natural?_spelled known digits, Option.bind_eq_bind, Option.bind_some,
    if_neg Bool.false_ne_true]
  exact if_congr (by omega) rfl rfl

theorem integer?_marked {literal : String} {negative : Bool} {mark : Char} {body : List Char}
    (known : (base, mark) ∈ baseMarks)
    (cut : splitSign (withoutUnderscores literal.toList) = (negative, '0' :: mark :: body)) :
    integer? literal = (int64? base body).map fun n => if negative then -n else n := by
  simp only [baseMarks, List.mem_cons, Prod.mk.injEq, List.not_mem_nil, or_false] at known
  rw [integer?, cut, Option.map_eq_bind]
  obtain ⟨rfl, rfl⟩ | ⟨rfl, rfl⟩ | ⟨rfl, rfl⟩ | ⟨rfl, rfl⟩ | ⟨rfl, rfl⟩ | ⟨rfl, rfl⟩ := known
  all_goals rfl

theorem integer?_of_spellsNat {literal : String} {negative : Bool} (whole : SpellsNat cs n)
    (cut : splitSign (withoutUnderscores literal.toList) = (negative, withoutUnderscores cs)) :
    integer? literal =
      if n < 2 ^ 63 then some (if negative then -(n : Int) else n) else none := by
  have signed (read : Option Int) (same : read = if n < 2 ^ 63 then some (n : Int) else none) :
      read.map (fun n => if negative then -n else n) =
        if n < 2 ^ 63 then some (if negative then -(n : Int) else n) else none := by
    rw [same, apply_ite (Option.map _)]
    rfl
  cases whole with
  | decimal digits =>
    have plain : ∀ c ∈ withoutUnderscores cs, c ∉ ['x', 'X', 'o', 'O', 'b', 'B'] := by
      intro c member mark
      obtain ⟨inside, other⟩ := List.mem_filter.mp member
      obtain ⟨d, digit⟩ | rfl := digits.mem inside
      · have digit := isDigit_of_digitOf digit
        fin_cases mark <;> cases digit
      · simp at other
    rw [integer?_plain cut plain]
    exact signed _ (int64?_spelled (by decide) digits)
  | @marked base n mark cs underscores known digits =>
    have other : mark ≠ '_' := by
      rintro rfl
      revert known
      simp [baseMarks]
    rw [withoutUnderscores_cons (by decide), withoutUnderscores_cons other,
      withoutUnderscores_append, withoutUnderscores_replicate, List.nil_append] at cut
    rw [integer?_marked known cut]
    exact signed _ (int64?_spelled (mem_bases known) digits)

-- The sign comes last: the magnitude must have 64 bits as well.
theorem integer?_spelled {literal : String} {n : Int} (spelled : SpellsInt literal.toList n) :
    integer? literal = if n.natAbs < 2 ^ 63 then some n else none := by
  generalize whole : literal.toList = cs at spelled
  cases spelled with
  | plain digits =>
    rw [integer?_of_spellsNat digits (by rw [whole, splitSign_unsigned digits.unsigned])]
    rfl
  | plus digits =>
    rw [integer?_of_spellsNat digits (by rw [whole, withoutUnderscores_cons (by decide)]; rfl)]
    rfl
  | minus digits =>
    rw [integer?_of_spellsNat digits (by rw [whole, withoutUnderscores_cons (by decide)]; rfl),
      Int.natAbs_neg]
    rfl

theorem value?_spelled {literal : String} {n : Int} (fits : -2 ^ 63 ≤ n ∧ n < 2 ^ 63)
    (spelled : SpellsInt literal.toList n) :
    value? literal = some (.int n ⟨fits.1, fits.2.trans (by decide)⟩) ↔ n ≠ -2 ^ 63 := by
  rw [value?, integer?_spelled spelled]
  by_cases small : n.natAbs < 2 ^ 63
  · rw [if_pos small]
    exact iff_of_true (dif_pos ⟨fits.1, fits.2.trans (by decide)⟩) (by omega)
  · rw [if_neg small]
    refine iff_of_false ?_ (by omega)
    dsimp only
    split <;> rintro ⟨⟩

end Reading

section Scanning

variable {base n : Nat} {cs more : List Char}

def IsFigure (c : Char) : Prop := c.isAlphanum = true ∨ c = '_'

theorem ascii_of_isFigure {c : Char} (figure : IsFigure c) : c.toNat < 0x80 := by
  rcases figure with letter | rfl
  · exact ascii_of_isAlphanum letter
  · decide

theorem belongs_figure (previous : Option Char) {c : Char} (figure : IsFigure c) :
    Literal.belongs previous c = true := by
  rcases figure with letter | rfl
  · simp [Literal.belongs, letter]
  · simp [Literal.belongs]

theorem SpellsDigits.figures (known : base ∈ bases) (digits : SpellsDigits base cs n) :
    ∀ c ∈ cs, IsFigure c := fun _ member =>
  (digits.mem member).imp_left fun ⟨_, found⟩ => isAlphanum_of_digitOf known found

theorem SpellsNat.figures (whole : SpellsNat cs n) :
    (∃ c more, cs = c :: more ∧ c.isDigit = true) ∧ ∀ c ∈ cs, IsFigure c := by
  cases whole with
  | decimal digits =>
    obtain ⟨c, d, more, rfl, digit⟩ := digits.head
    exact ⟨⟨c, more, rfl, isDigit_of_digitOf digit⟩, digits.figures (by decide)⟩
  | @marked base n mark cs underscores known digits =>
    have marks : ∀ row ∈ baseMarks, row.2.isAlphanum = true := by decide
    refine ⟨⟨_, _, rfl, rfl⟩, ?_⟩
    intro c member
    simp only [List.mem_cons, List.mem_append, List.mem_replicate] at member
    obtain rfl | rfl | ⟨-, rfl⟩ | digit := member
    · exact .inl rfl
    · exact .inl (marks _ known)
    · exact .inr rfl
    · exact digits.figures (mem_bases known) c digit

-- A digit, or a sign and a digit behind it.
def Leads (c : Char) (more : List Char) : Prop :=
  c.isDigit = true ∨ IsSign c ∧ ∃ d ∈ more.head?, d.isDigit = true

theorem Leads.ascii {c : Char} (leads : Leads c more) : c.toNat < 0x80 := by
  rcases leads with digit | ⟨rfl | rfl, -⟩
  · exact Json.ascii_of_isDigit digit
  · decide
  · decide

theorem Leads.beginsNumber {c : Char} (leads : Leads c more) (behind : Bytes) :
    BeginsNumber (UInt8.ofNat c.toNat :: (utf8Chars more ++ behind)) := by
  rw [BeginsNumber, letter_ofNat leads.ascii]
  rcases leads with digit | ⟨sign, d, first, digit⟩
  · exact .inl digit
  · obtain ⟨rest, rfl⟩ := List.head?_eq_some_iff.mp first
    have small := Json.ascii_of_isDigit digit
    refine .inr (.inr ⟨sign, ?_⟩)
    rw [utf8Chars_cons, Json.encode_ascii small, List.singleton_append, List.cons_append,
      List.head?_cons, Option.map_some, letter_ofNat small, Option.any_some, digit]
    rfl

theorem SpellsInt.figures {n : Int} (spelled : SpellsInt cs n) :
    ∃ c more, cs = c :: more ∧ (∀ e ∈ more, IsFigure e) ∧ Leads c more := by
  have signed {sign : Char} {cs : List Char} {n : Nat} (isSign : IsSign sign)
      (whole : SpellsNat cs n) :
      ∃ c more, sign :: cs = c :: more ∧ (∀ e ∈ more, IsFigure e) ∧ Leads c more := by
    obtain ⟨⟨c, more, rfl, digit⟩, figures⟩ := whole.figures
    exact ⟨sign, _, rfl, figures, .inr ⟨isSign, c, rfl, digit⟩⟩
  cases spelled with
  | plain whole =>
    obtain ⟨⟨c, more, rfl, digit⟩, figures⟩ := whole.figures
    exact ⟨c, more, rfl, fun e member => figures e (.tail _ member), .inl digit⟩
  | plus whole => exact signed (.inl rfl) whole
  | minus whole => exact signed (.inr rfl) whole

theorem takeNumber_figures {behind : Bytes} (figures : ∀ c ∈ more, IsFigure c) (previous : Char)
    (before : List Char)
    (ends : ∀ b ∈ behind.head?, Literal.belongs (previous :: more).getLast? (letter b) = false) :
    takeNumber (some previous) before (utf8Chars more ++ behind) =
      (before.reverse ++ more, behind) := by
  induction more generalizing previous before with
  | nil =>
    rw [utf8Chars_nil, List.nil_append, List.append_nil]
    cases behind with
    | nil => rfl
    | cons b r => exact if_neg (Bool.eq_false_iff.mp (ends b rfl))
  | cons c more ih =>
    obtain ⟨figure, later⟩ := List.forall_mem_cons.mp figures
    have ascii := ascii_of_isFigure figure
    rw [utf8Chars_cons, Json.encode_ascii ascii, List.singleton_append, List.cons_append,
      takeNumber, letter_ofNat ascii, if_pos (belongs_figure _ figure),
      ih later c (c :: before) (by simpa using ends)]
    simp

theorem isAccepted_of_spelled {literal : String} {n : Int} (fits : -2 ^ 63 < n ∧ n < 2 ^ 63)
    (spelled : SpellsInt literal.toList n) : Literal.isAccepted literal = true := by
  rw [Literal.isAccepted, integer?_spelled spelled, if_pos (by omega), Option.isSome_some,
    Bool.or_true]

theorem isLexed_of_spelled {literal : String} {n : Int} (fits : -2 ^ 63 < n ∧ n < 2 ^ 63)
    (spelled : SpellsInt literal.toList n) : IsLexed literal := by
  intro behind ends
  have accepted := isAccepted_of_spelled fits spelled
  obtain ⟨c, more, whole, figures, leads⟩ := spelled.figures
  have bytes : utf8 literal ++ behind = UInt8.ofNat c.toNat :: (utf8Chars more ++ behind) := by
    rw [utf8, whole, utf8Chars_cons, Json.encode_ascii leads.ascii]
    rfl
  have shown := letter_ofNat leads.ascii
  have taken := takeNumber_figures figures c [c] (by rwa [EndsLiteral, whole] at ends)
  have here : literalAt (UInt8.ofNat c.toNat :: (utf8Chars more ++ behind)) = literal := by
    rw [literalAt, shown, taken, List.reverse_singleton, List.singleton_append, ← whole,
      String.ofList_toList]
  have scans := scans_number (leads.beginsNumber behind) (by rwa [here])
  rwa [here, shown, taken, ← bytes] at scans

end Scanning

section Printing

variable {n : Int} {fits : -2 ^ 63 ≤ n ∧ n < 2 ^ 64}

theorem escapeHtml_intText : escapeHtml (intText n) = intText n := by
  have plain {c : Char} (member : c ∈ intText n) : htmlEscape c = [c] := by
    rw [htmlEscape.eq_def]
    split
    all_goals first
      | rfl
      | rcases mem_intText member with ⟨⟨⟩⟩ | ⟨⟨⟩⟩
  rw [escapeHtml, List.flatMap_congr fun c => plain, List.flatMap_singleton']

theorem printedText_int (options : Options) (pipe : Pipeline) :
    printedText options pipe (.num (.int n fits)) = intText n := by
  change (if _ then escapeHtml (intText n) else intText n) = _
  rw [escapeHtml_intText, ite_self]

def literalAction (value : Json) : Node := .action (.mk 0 [] false [.mk 0 [.literal value]])

theorem render_literalAction (name : String) (options : Options) (values : Json) :
    render ⟨name, [literalAction (.num (.int n fits))]⟩ options values =
      .ok (utf8Chars (intText n)) := by
  change Except.ok (utf8Chars (printedText options _ (.num (.int n fits))) ++ []) = _
  rw [List.append_nil, printedText_int]

end Printing

section Denoting

variable {literal : String} {n : Int} {before behind : Bytes}

structure Denotes (literal : String) (n : Number) : Prop where
  -- One lexeme in any action, and that one value in any place of a tree.
  lexed : IsLexed literal
  parsed : ∀ scope, simpleTerm scope (.number literal) = .ok (.literal (.num n))
  spelled : ∀ value, SpellsLiteral value (.number literal) ↔ value = .num n
  -- Any source with the literal in it, put together from its lexemes.
  compiled : ∀ (name : String) (source : Source) (nodes : List Node), source.Laid literal →
    WellFormed nodes → SpellsNodes nodes source.tokens →
      ∃ template, compile source.bytes name = .ok template ∧
        nodesUnlined template.nodes = nodesUnlined nodes ∧
        ∀ options values out, render ⟨name, nodes⟩ options values = .ok out →
          template.render options values = .ok out
  -- An action with the literal alone.
  printed : ∀ (name : String) (before behind : Bytes), (∀ b ∈ before, isSpace b = true) →
    (∀ b ∈ behind, isSpace b = true) →
      ∃ template, compile
          (utf8Chars ['{', '{'] ++ (before ++ (utf8 literal ++ (behind ++ utf8Chars ['}', '}']))))
          name = .ok template ∧
        ∀ options values, template.render options values = .ok (utf8Chars (numberText n))
  typed : typeName (.num n) = "int"
  -- In an action or a header it is the same as a field that has the number.
  passed : ∀ (options : Options) (fields : Fields) (key : String) (node : Node),
    Fields.get? fields key = some (.num n) →
      runNode options (.obj fields) (node.passed key n) = runNode options (.obj fields) node

theorem spellsLiteral_iff {number : Number} (value : Literal.value? literal = some number)
    (json : Json) : SpellsLiteral json (.number literal) ↔ json = .num number := by
  constructor
  · rintro ⟨⟩
    rename_i other
    rw [value] at other
    rw [Option.some.inj other]
  · rintro rfl
    exact .number value

def literalSource (literal : String) (before behind : Bytes) : Source :=
  ⟨[⟨[], false, [⟨before, utf8 literal, .number literal⟩], behind, false⟩], []⟩

theorem not_belongs_stray {c : Char} (stray : c ∈ strays) (other : c ≠ '-')
    (previous : Option Char) : Literal.belongs previous c = false := by
  fin_cases stray
  case «6» => exact absurd rfl other
  all_goals rfl

theorem laid_literalSource (first : ∀ b ∈ before, isSpace b = true)
    (last : ∀ b ∈ behind, isSpace b = true) :
    (literalSource literal before behind).Laid literal := by
  have ends : EndsLiteral literal (behind ++ (closingBytes false ++ [])) := by
    intro b here
    cases behind with
    | nil =>
      cases here
      exact not_belongs_stray (by decide) (by decide) _
    | cons d behind =>
      cases here
      obtain ⟨stray, other⟩ := stray_of_isSpace (last b (.head _))
      exact not_belongs_stray stray other _
  refine .cons ?_ (.nil rfl)
  exact {
    uncut := rfl
    apart := nofun
    nonempty := List.cons_ne_nil _ _
    blank := last
    spaced := nofun
    lexes := .literal first ends .nil }

theorem printed_of_lexed {fits : -2 ^ 63 ≤ n ∧ n < 2 ^ 64} (range : -2 ^ 63 < n ∧ n < 2 ^ 63)
    (lexed : IsLexed literal) (value : Literal.value? literal = some (.int n fits)) (name : String)
    (first : ∀ b ∈ before, isSpace b = true) (last : ∀ b ∈ behind, isSpace b = true) :
    ∃ template, compile
        (utf8Chars ['{', '{'] ++ (before ++ (utf8 literal ++ (behind ++ utf8Chars ['}', '}']))))
        name = .ok template ∧
      ∀ options values, template.render options values = .ok (utf8Chars (intText n)) := by
  have wellFormed : WellFormed [literalAction (.num (.int n fits))] := by
    simp only [WellFormed, literalAction, nodesWellFormed, Node.WellFormed, Pipeline.WellFormed,
      commandsWellFormed, Command.WellFormed, operandsWellFormed, Operand.WellFormed, IsLiteral,
      range]
    simp
  have tokens : (literalSource literal before behind).tokens =
      [⟨.openAction, 0, false⟩, ⟨.number literal, 0, !before.isEmpty⟩,
        ⟨.closeAction, 0, !behind.isEmpty⟩] := rfl
  have spelled : SpellsNodes [literalAction (.num (.int n fits))]
      [⟨.openAction, 0, false⟩, ⟨.number literal, 0, !before.isEmpty⟩,
        ⟨.closeAction, 0, !behind.isEmpty⟩] :=
    .cons (.action (.mk .none (.last (.cons (.literal (.number value)) not_glued_nil .nil)))) .nil
  have bytes : (literalSource literal before behind).bytes =
      utf8Chars ['{', '{'] ++ (before ++ (utf8 literal ++ (behind ++ utf8Chars ['}', '}']))) := by
    simp [Source.bytes, literalSource, Stretch.onto, Stretch.inside, Stretch.closing, closingBytes,
      writtenBytes]
  obtain ⟨template, compiled, -, renders⟩ :=
    compile_laid name lexed (laid_literalSource first last) wellFormed (tokens ▸ spelled)
  rw [bytes] at compiled
  exact ⟨template, compiled, fun options values =>
    renders options values _ (render_literalAction name options values)⟩

theorem integer_denotes (fits : -2 ^ 63 ≤ n ∧ n < 2 ^ 63) (spelled : SpellsInt literal.toList n) :
    Denotes literal (.int n ⟨fits.1, fits.2.trans (by decide)⟩) ↔ n ≠ -2 ^ 63 := by
  constructor
  · rintro denotes
    have number := (denotes.spelled _).mpr rfl
    cases number with
    | number value => exact (value?_spelled fits spelled).mp value
  · intro other
    have range : -2 ^ 63 < n ∧ n < 2 ^ 63 := by omega
    have value := (value?_spelled fits spelled).mpr other
    have lexed := isLexed_of_spelled range spelled
    exact {
      lexed := lexed
      parsed := fun scope => by rw [simpleTerm, value]
      spelled := spellsLiteral_iff value
      compiled := fun name _ _ laid wellFormed => compile_laid name lexed laid wellFormed
      printed := fun name _ _ => printed_of_lexed range lexed value name
      typed := rfl
      passed := fun options _ _ node held => runNode_passed options held node }

theorem denotes_hex :
    SpellsInt "-0x_7F".toList (-127) ∧ Denotes "-0x_7F" (.int (-127) (by decide)) := by
  have first : SpellsDigits 16 ['7'] 7 := .first ⟨by decide, .inl rfl⟩
  have digits : SpellsDigits 16 ['7', 'F'] 127 := first.digit (d := 15) ⟨by decide, .inr rfl⟩
  have spelled : SpellsInt "-0x_7F".toList (-127) := .minus (.marked 1 (by decide) digits)
  exact ⟨spelled, (integer_denotes ⟨by decide, by decide⟩ spelled).mpr (by decide)⟩

-- The least integer is read as a float.
theorem least_not_denoted :
    SpellsInt "-9223372036854775808".toList (-2 ^ 63) ∧
      ¬Denotes "-9223372036854775808" (.int (-2 ^ 63) (by decide)) ∧
      Literal.value? "-9223372036854775808" = some (.float (Binary64.ofInt (-2 ^ 63))) := by
  have shown : intText (-2 ^ 63) = "-9223372036854775808".toList := by decide
  have spelled := spells_intText (-2 ^ 63)
  rw [shown] at spelled
  have value : Literal.value? "-9223372036854775808" =
      some (.float (Binary64.ofInt (-2 ^ 63))) := by decide +kernel
  refine ⟨spelled, fun denotes => ?_, value⟩
  have number := (denotes.spelled _).mpr rfl
  cases number with
  | number other =>
    rw [value] at other
    cases other

end Denoting

end PagePress.Template
