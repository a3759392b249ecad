import PagePress.Proofs.Json.Numbers
import PagePress.Proofs.Template.Completeness
import PagePress.Proofs.Template.Literals

namespace PagePress

open Numeral Template

def Number.literal : Number → List Char
  | .int n _ => intText n
  | .float x =>
    let d := if x.isZero then ⟨0, 0⟩ else shortest .even x
    signed x (decimalDigits d.digits ++ 'e' :: intText d.exponent)

namespace Numeral

theorem not_isSign_of_isDigit {c : Char} (digit : c.isDigit = true) : ¬IsSign c := by
  rintro (rfl | rfl) <;> cases digit

theorem unsigned_of_digits {cs : List Char} (digits : ∀ c ∈ cs, c.isDigit = true) : Unsigned cs :=
  fun c first => not_isSign_of_isDigit (digits c (List.mem_of_mem_head? first))

theorem splitSign_intText (n : Int) :
    splitSign (intText n) = (decide (n < 0), decimalDigits n.natAbs) := by
  rw [intText]
  split
  · rename_i negative
    simp [splitSign, negative]
  · rename_i positive
    rw [splitSign_unsigned (unsigned_of_digits fun c => isDigit_decimalDigits)]
    simp [positive]

theorem mem_intText {n : Int} {c : Char} (member : c ∈ intText n) : c.isDigit = true ∨ c = '-' := by
  rw [intText] at member
  split at member
  · rcases List.mem_cons.mp member with rfl | digit
    · exact .inr rfl
    · exact .inl (isDigit_decimalDigits digit)
  · exact .inl (isDigit_decimalDigits member)

theorem digitOf?_digit {c : Char} (digit : c.isDigit = true) :
    digitOf? 10 c = some (c.toNat - '0'.toNat) := by
  have bound : c.toNat ≤ '9'.toNat := by
    simp only [Char.isDigit, Bool.and_eq_true, decide_eq_true_eq] at digit
    exact digit.2
  have small : c.toNat - '0'.toNat < 10 := by
    have nine : '9'.toNat = 57 := rfl
    have zero : '0'.toNat = 48 := rfl
    omega
  rw [digitOf?, if_pos digit]
  exact if_pos small

theorem natural?_digits {cs : List Char} (digits : ∀ c ∈ cs, c.isDigit = true) (some : cs ≠ []) :
    natural? 10 cs = .some (digitsValue cs) := by
  have fold (n : Nat) : cs.foldlM (fun n c => (digitOf? 10 c).map (10 * n + ·)) n =
      Option.some (cs.foldl (fun n c => 10 * n + (c.toNat - '0'.toNat)) n) := by
    clear some
    induction cs generalizing n with
    | nil => rfl
    | cons c cs ih =>
      obtain ⟨first, later⟩ := List.forall_mem_cons.mp digits
      rw [List.foldlM_cons, digitOf?_digit first]
      exact ih later _
  rw [natural?, if_neg some, fold]
  rfl

theorem natural?_none {cs : List Char} {c : Char} (member : c ∈ cs) (other : digitOf? 10 c = none) :
    natural? 10 cs = none := by
  have fold (n : Nat) : cs.foldlM (fun n c => (digitOf? 10 c).map (10 * n + ·)) n = none := by
    induction cs generalizing n with
    | nil => cases member
    | cons d cs ih =>
      rw [List.foldlM_cons]
      rcases List.mem_cons.mp member with rfl | later
      · rw [other]
        rfl
      · cases digitOf? 10 d with
        | none => rfl
        | some k => exact ih later _
  rw [natural?]
  split
  · rfl
  · exact fold 0

theorem int64?_digits {n : Nat} (small : n < 2 ^ 63) :
    int64? 10 (decimalDigits n) = some (n : Int) := by
  have digits (c : Char) : c ∈ decimalDigits n → c.isDigit = true := isDigit_decimalDigits
  rw [int64?, splitSign_unsigned (unsigned_of_digits digits)]
  dsimp only
  rw [natural?_digits digits (List.ne_nil_of_length_pos (length_decimalDigits_pos n)),
    digitsValue_decimalDigits, Option.bind_eq_bind, Option.bind_some, if_pos]
  · rfl
  · rw [if_neg (by decide)]
    omega

end Numeral

namespace Template.Literal

theorem integer?_plain {literal : String} {negative : Bool} {body : List Char}
    (cut : splitSign (withoutUnderscores literal.toList) = (negative, body))
    (plain : ∀ c ∈ body, c ∉ ['x', 'X', 'o', 'O', 'b', 'B']) :
    integer? literal = (int64? 10 body).map fun n => if negative then -n else n := by
  rw [integer?, cut]
  dsimp only
  split
  · exact absurd (by simp) (plain 'x' (by simp))
  · exact absurd (by simp) (plain 'X' (by simp))
  · exact absurd (by simp) (plain 'o' (by simp))
  · exact absurd (by simp) (plain 'O' (by simp))
  · exact absurd (by simp) (plain 'b' (by simp))
  · exact absurd (by simp) (plain 'B' (by simp))
  · cases int64? 10 body <;> rfl

theorem withoutUnderscores_eq {cs : List Char} (none : '_' ∉ cs) : withoutUnderscores cs = cs :=
  List.filter_eq_self.mpr fun c member => by
    simp only [ne_eq, decide_not, Bool.not_eq_eq_eq_not, Bool.not_true, decide_eq_false_iff_not]
    rintro rfl
    exact none member

theorem value?_int {n : Int} {fits : -2 ^ 63 ≤ n ∧ n < 2 ^ 64} (range : -2 ^ 63 < n ∧ n < 2 ^ 63) :
    value? (String.ofList (intText n)) = some (.int n fits) := by
  have noUnderscore : '_' ∉ intText n := by
    intro member
    rcases mem_intText member with digit | minus
    · cases digit
    · cases minus
  have plain : ∀ c ∈ decimalDigits n.natAbs, c ∉ ['x', 'X', 'o', 'O', 'b', 'B'] := by
    intro c member mark
    have digit := isDigit_decimalDigits member
    fin_cases mark <;> cases digit
  have whole : integer? (String.ofList (intText n)) = some n := by
    rw [integer?_plain (by rw [String.toList_ofList, withoutUnderscores_eq noUnderscore,
      splitSign_intText]) plain, int64?_digits (by omega)]
    simp only [Option.map_some, Option.some.injEq, decide_eq_true_eq]
    split <;> omega
  rw [value?, whole]
  exact dif_pos fits

theorem toLower_digit {c : Char} (digit : c.isDigit = true) : c.toLower = c := by
  simp only [Char.isDigit, Bool.and_eq_true, decide_eq_true_eq] at digit
  rw [Char.toLower, dif_neg]
  rintro ⟨large, -⟩
  exact absurd (UInt32.le_trans large digit.2) (by decide)

theorem not_name {c : Char} {cs : List Char} {name : String} (digit : c.isDigit = true)
    (named : name ∈ ["inf", "infinity", "nan"]) :
    String.ofList ((c :: cs).map Char.toLower) ≠ name := by
  intro same
  have first := congrArg (·.toList.head?) same
  simp only [String.toList_ofList, List.map_cons, List.head?_cons, toLower_digit digit] at first
  fin_cases named <;> cases first <;> cases digit

theorem decimal64?_digits {literal : String} {negative : Bool} {digits rest : List Char} {e : Int}
    {x : Binary64} (cut : splitSign literal.toList = (negative, digits ++ 'e' :: rest))
    (run : ∀ c ∈ digits, c.isDigit = true) (some : digits ≠ [])
    (power : exponentPart? ('e' :: rest) = .some e)
    (nearest : Binary64.ofDecimal? negative (digitsValue digits) e = .some x) :
    decimal64? literal = .some (.finite x) := by
  have whole : (digits ++ 'e' :: rest).takeWhile Char.isDigit = digits := by
    rw [List.takeWhile_append_of_pos run, List.takeWhile_cons_of_neg (by decide), List.append_nil]
  have behind : (digits ++ 'e' :: rest).dropWhile Char.isDigit = 'e' :: rest := by
    rw [List.dropWhile_append_of_pos run, List.dropWhile_cons_of_neg (by decide)]
  obtain ⟨c, later, rfl⟩ := List.exists_cons_of_ne_nil some
  have first := run c (.head _)
  rw [decimal64?, cut]
  dsimp only
  split
  · exact absurd ‹_› (not_name first (by simp))
  · exact absurd ‹_› (not_name first (by simp))
  · exact absurd ‹_› (not_name first (by simp))
  · rw [whole, behind, if_neg (fun both => some both.1)]
    split
    · rename_i point
      cases point
    · simp only [power, List.append_nil, List.length_nil, Nat.cast_zero, Int.sub_zero,
        Option.bind_eq_bind, Option.bind_some, nearest]
      rfl

theorem exponentPart?_intText (e : Int) : exponentPart? ('e' :: intText e) = some e := by
  have digits : (decimalDigits e.natAbs).all Char.isDigit = true :=
    List.all_eq_true.mpr fun c => isDigit_decimalDigits
  rw [exponentPart?, splitSign_intText]
  dsimp only
  rw [if_pos ⟨.inl rfl, List.ne_nil_of_length_pos (length_decimalDigits_pos _), digits⟩,
    digitsValue_decimalDigits]
  have value : (if decide (e < 0) = true then -(e.natAbs : Int) else e.natAbs) = e := by
    simp only [decide_eq_true_eq]
    split <;> omega
  rw [value]

theorem splitSign_signed {x : Binary64} {cs : List Char} (unsigned : Unsigned cs) :
    splitSign (signed x cs) = (x.negative, cs) := by
  rw [signed]
  split
  · rename_i negative
    rw [negative]
    rfl
  · rename_i positive
    rw [splitSign_unsigned unsigned, Bool.eq_false_iff.mpr positive]

theorem value?_float (x : Binary64) :
    value? (String.ofList (Number.float x).literal) = some (.float x) := by
  obtain ⟨d, nearest, shown⟩ : ∃ d : Decimal,
      Binary64.ofDecimal? x.negative d.digits d.exponent = some x ∧
        (Number.float x).literal =
          signed x (decimalDigits d.digits ++ 'e' :: intText d.exponent) := by
    refine ⟨if x.isZero then ⟨0, 0⟩ else shortest .even x, ?_, rfl⟩
    split
    · rename_i zero
      exact congrArg some (Json.eq_zero_of_isZero zero).symm
    · rename_i nonzero
      exact ofDecimal?_of_value .even (Bool.eq_false_iff.mpr nonzero) rfl
  have run (c : Char) : c ∈ decimalDigits d.digits → c.isDigit = true := isDigit_decimalDigits
  have some := List.ne_nil_of_length_pos (length_decimalDigits_pos d.digits)
  have made {c : Char} (member : c ∈ decimalDigits d.digits ++ 'e' :: intText d.exponent) :
      c.isDigit = true ∨ c = 'e' ∨ c = '-' := by
    rcases List.mem_append.mp member with digit | behind
    · exact .inl (run c digit)
    · rcases List.mem_cons.mp behind with rfl | power
      · exact .inr (.inl rfl)
      · exact (mem_intText power).imp_right .inr
  have plain : ∀ c ∈ decimalDigits d.digits ++ 'e' :: intText d.exponent,
      c ∉ ['x', 'X', 'o', 'O', 'b', 'B'] := by
    intro c member mark
    rcases made member with digit | rfl | rfl
    · fin_cases mark <;> cases digit
    · revert mark
      decide
    · revert mark
      decide
  have unsigned : Unsigned (decimalDigits d.digits ++ 'e' :: intText d.exponent) := by
    obtain ⟨c, cs, first⟩ := List.exists_cons_of_ne_nil some
    rw [first] at run ⊢
    rintro _ ⟨⟩
    exact not_isSign_of_isDigit (run c (.head _))
  have noUnderscore : '_' ∉ (Number.float x).literal := by
    intro member
    have other {c : Char} (member : c ∈ decimalDigits d.digits ++ 'e' :: intText d.exponent) :
        c ≠ '_' := by
      rintro rfl
      rcases made member with digit | mark | minus
      · cases digit
      · cases mark
      · cases minus
    rw [shown, signed] at member
    split at member
    · rcases List.mem_cons.mp member with minus | later
      · cases minus
      · exact other later rfl
    · exact other member rfl
  have cut : splitSign (withoutUnderscores (String.ofList (Number.float x).literal).toList) =
      (x.negative, decimalDigits d.digits ++ 'e' :: intText d.exponent) := by
    rw [String.toList_ofList, withoutUnderscores_eq noUnderscore, shown, splitSign_signed unsigned]
  have noInteger : integer? (String.ofList (Number.float x).literal) = none := by
    rw [integer?_plain cut plain, int64?, splitSign_unsigned unsigned]
    dsimp only
    rw [natural?_none (List.mem_append_right _ (.head _)) rfl]
    rfl
  rw [value?, noInteger]
  dsimp only
  have whole : Binary64.ofDecimal? x.negative (digitsValue (decimalDigits d.digits)) d.exponent =
      .some x := by rw [digitsValue_decimalDigits, nearest]
  rw [decimal64?_digits (by rwa [String.toList_ofList]) run some (exponentPart?_intText d.exponent)
    whole]

end Template.Literal

namespace Template

theorem value?_literal {n : Number} (range : IsLiteral (.num n)) :
    Literal.value? (String.ofList n.literal) = some n := by
  cases n with
  | int n fits => exact Literal.value?_int range
  | float x => exact Literal.value?_float x

section Tokens

variable (spell : Number → String)

def literalLexeme : Json → Lexeme
  | .null => .word "nil"
  | .bool true => .word "true"
  | .bool false => .word "false"
  | .num n => .number (spell n)
  | .str value => .str value
  -- No literal has such a value.
  | .arr _ | .obj _ => .dot

def apart (lexeme : Lexeme) : Token := ⟨lexeme, 0, true⟩

def joined (lexeme : Lexeme) : Token := ⟨lexeme, 0, false⟩

def fieldTokens (path : List String) : List Token := path.map fun name => joined (.field name)

def nameTokens (assigns : Bool) : List String → List Token
  | [] => []
  | [name] => [apart (.var name), apart (binder assigns)]
  | first :: second :: _ =>
    [apart (.var first), joined .comma, apart (.var second), apart (binder assigns)]

def markTokens (word : String) : List Token :=
  [joined .openAction, joined (.word word), joined .closeAction]

-- Every operand behind a blank, and every branch with an end mark of its own.
mutual
def Operand.tokens : Operand → List Token
  | .dot => [apart .dot]
  | .field [] => []
  | .field (name :: path) => apart (.field name) :: fieldTokens path
  | .var name path => apart (.var name) :: fieldTokens path
  | .chain inner path => inner.tokens ++ fieldTokens path
  | .group pipe => apart .leftParen :: pipe.tokens .parentheses
  | .function builtin => [apart (.word builtin.name)]
  | .literal value => [apart (literalLexeme spell value)]

def operandsTokens : List Operand → List Token
  | [] => []
  | operand :: rest => operand.tokens ++ operandsTokens rest

def Command.tokens : Command → List Token
  | .mk _ operands => operandsTokens operands

def commandsTokens (place : Place) : List Command → List Token
  | [] => [apart (closer place)]
  | [command] => command.tokens ++ [apart (closer place)]
  | command :: rest => command.tokens ++ apart .pipe :: commandsTokens place rest

def Pipeline.tokens (place : Place) : Pipeline → List Token
  | .mk _ names assigns commands => nameTokens assigns names ++ commandsTokens place commands
end

mutual
def Node.tokens : Node → List Token
  | .text bytes => [joined (.text bytes)]
  | .action pipe => joined .openAction :: pipe.tokens spell .command
  | .branch kind _ pipe body otherwise =>
    joined .openAction :: joined (.word kind.keyword) ::
      (pipe.tokens spell kind.header ++ (nodesTokens body ++ otherwiseTokens otherwise))
  | .breakRange => markTokens "break"
  | .continueRange => markTokens "continue"

def nodesTokens : List Node → List Token
  | [] => []
  | node :: rest => node.tokens ++ nodesTokens rest

def otherwiseTokens : Option (List Node) → List Token
  | none => markTokens "end"
  | some nodes => markTokens "else" ++ (nodesTokens nodes ++ markTokens "end")
end

end Tokens

section Canonical

def IsSpelling (spell : Number → String) : Prop :=
  ∀ n, IsLiteral (.num n) → Literal.value? (spell n) = some n

variable {spell : Number → String}

theorem spells_literalLexeme (reads : IsSpelling spell) {value : Json} (literal : IsLiteral value) :
    SpellsLiteral value (literalLexeme spell value) := by
  cases value with
  | null => exact .null
  | bool b =>
    cases b
    · exact .fails
    · exact .holds
  | num n => exact .number (reads n literal)
  | str value => exact .str
  | arr items => cases literal
  | obj fields => cases literal

theorem spells_fieldTokens (path : List String) : SpellsFields path (fieldTokens path) := by
  induction path with
  | nil => exact .nil
  | cons name path ih => exact .cons ⟨rfl, rfl⟩ ih

theorem spells_nameTokens {names : List String} {assigns : Bool} (few : names.length ≤ 2)
    (unnamed : assigns = true → names ≠ []) :
    SpellsNames names assigns (nameTokens assigns names) := by
  rcases names with _ | ⟨first, _ | ⟨second, _ | ⟨third, names⟩⟩⟩
  · cases assigns
    · exact .none
    · exact absurd rfl (unnamed rfl)
  · exact .one
  · exact .two
  · simp at few

theorem Operand.tokens_apart (spell : Number → String) {room : Nat} {scope : Scope} :
    (operand : Operand) → operand.WellFormed room scope →
      ∃ lexeme r, operand.tokens spell = apart lexeme :: r
  | .dot, _ => ⟨_, _, rfl⟩
  | .field [], fits => absurd rfl fits
  | .field (_ :: _), _ => ⟨_, _, rfl⟩
  | .var _ _, _ => ⟨_, _, rfl⟩
  | .chain (.group _) _, _ => ⟨_, _, rfl⟩
  | .group _, _ => ⟨_, _, rfl⟩
  | .function _, _ => ⟨_, _, rfl⟩
  | .literal _, _ => ⟨_, _, rfl⟩

-- No operand begins with a field of the one before it.
theorem not_glued_operandsTokens {room : Nat} {scope : Scope} {operands : List Operand}
    (fits : operandsWellFormed room scope operands) : ¬Glued (operandsTokens spell operands) := by
  cases operands with
  | nil => exact not_glued_nil
  | cons operand rest =>
    obtain ⟨lexeme, r, starts⟩ := operand.tokens_apart spell fits.1
    rw [operandsTokens, starts]
    rintro ⟨t, member, joined, -⟩
    cases member
    cases joined

theorem mostNames_le (place : Place) : place.mostNames ≤ 2 := by
  cases place <;> decide

mutual
theorem spells_operand (reads : IsSpelling spell) {room : Nat} {scope : Scope} :
    (operand : Operand) → operand.WellFormed room scope →
      SpellsOperand operand (operand.tokens spell)
  | .dot, _ => .dot
  | .field [], fits => absurd rfl fits
  | .field (_ :: path), _ => .field (spells_fieldTokens path)
  | .var _ path, _ => .var (spells_fieldTokens path)
  | .chain (.group pipe) path, fits =>
    .chain (spells_pipeline reads pipe fits.2.2) fits.1 (spells_fieldTokens path)
  | .group pipe, fits => .group (spells_pipeline reads pipe fits.2)
  | .function _, _ => .function
  | .literal _, fits => .literal (spells_literalLexeme reads fits)

theorem spells_operands (reads : IsSpelling spell) {room : Nat} {scope : Scope} :
    (operands : List Operand) → operandsWellFormed room scope operands →
      SpellsOperands operands (operandsTokens spell operands)
  | [], _ => .nil
  | operand :: rest, fits =>
    .cons (spells_operand reads operand fits.1) (not_glued_operandsTokens fits.2)
      (spells_operands reads rest fits.2)

theorem spells_commands (reads : IsSpelling spell) {room : Nat} {place : Place} {scope : Scope} :
    (commands : List Command) → commands ≠ [] → commandsWellFormed room scope commands →
      SpellsCommands place commands (commandsTokens spell place commands)
  | [], nonempty, _ => absurd rfl nonempty
  | [.mk _ operands], _, fits => .last (spells_operands reads operands fits.1.2.2)
  | .mk _ operands :: second :: rest, _, fits =>
    .piped (spells_operands reads operands fits.1.2.2)
      (spells_commands reads (second :: rest) (List.cons_ne_nil _ _) fits.2)

theorem spells_pipeline (reads : IsSpelling spell) {room : Nat} {place : Place} {scope : Scope} :
    (pipe : Pipeline) → pipe.WellFormed room place scope →
      SpellsPipeline place pipe (pipe.tokens spell place)
  | .mk _ _ _ commands, fits =>
    .mk (spells_nameTokens (fits.1.trans (mostNames_le place)) fun named => (fits.2.1 named).1)
      (spells_commands reads commands fits.2.2.1 fits.2.2.2)
end

mutual
theorem spells_node (reads : IsSpelling spell) {room : Nat} {inRange : Bool} {scope : Scope} :
    (node : Node) → node.WellFormed room inRange scope → SpellsNode node (node.tokens spell)
  | .text _, _ => .text
  | .action pipe, fits => .action (spells_pipeline reads pipe fits)
  | .branch _ _ pipe body otherwise, fits =>
    .branch (.mk (spells_pipeline reads pipe fits.2.1) (spells_nodes reads body fits.2.2.1)
      (spells_otherwise reads otherwise fits.2.2.2))
  | .breakRange, _ => .breakRange rfl
  | .continueRange, _ => .continueRange rfl

theorem spells_nodes (reads : IsSpelling spell) {room : Nat} {inRange : Bool} {scope : Scope} :
    (nodes : List Node) → nodesWellFormed room inRange scope nodes →
      SpellsNodes nodes (nodesTokens spell nodes)
  | [], _ => .nil
  | node :: rest, fits => .cons (spells_node reads node fits.1) (spells_nodes reads rest fits.2)

theorem spells_otherwise (reads : IsSpelling spell) {room : Nat} {inRange : Bool} {scope : Scope}
    {kind : BranchKind} : (otherwise : Option (List Node)) →
      otherwiseWellFormed room inRange scope otherwise →
        SpellsElse kind otherwise (otherwiseTokens spell otherwise)
  | none, _ => .none rfl
  | some nodes, fits => .plain rfl (spells_nodes reads nodes fits) rfl
end

theorem isSpelling_literal : IsSpelling fun n => String.ofList n.literal :=
  fun _ range => value?_literal range

theorem parse_inverts (endLine : Nat) :
    (∀ (spell : Number → String) (nodes : List Node), IsSpelling spell → WellFormed nodes →
      ∃ read, parse endLine (nodesTokens spell nodes) = .ok read ∧
        nodesUnlined read = nodesUnlined nodes) ∧
    (∀ (nodes : List Node) (ts : List Token), WellFormed nodes → SpellsNodes nodes ts →
      ∃ read, parse endLine ts = .ok read ∧ nodesUnlined read = nodesUnlined nodes) ∧
    (∀ (source : Bytes) (tokens : Tokens) (read : List Node), tokenize source = .ok tokens →
      parse endLine tokens.list = .ok read → WellFormed read ∧ SpellsNodes read tokens.list) :=
  ⟨fun _ nodes reads fits => parse_complete endLine fits (spells_nodes reads nodes fits),
    fun _ _ fits spelled => parse_complete endLine fits spelled,
    fun _ _ _ scanned accepted => parse_sound (tokenize_ranged scanned) accepted⟩

-- {{range $k, $v := ($).a}}{{$v 1}}{{break}}{{else}}{{$k = true}}{{end}}
def firstOfRange : List Node :=
  [.branch .rangeBranch 0
    (.mk 0 ["$k", "$v"] false
      [.mk 0 [.chain (.group (.mk 0 [] false [.mk 0 [.var "$" []]])) ["a"]]])
    [.action (.mk 0 [] false [.mk 0 [.var "$v" [], .literal (.num (.int 1 (by decide)))]]),
      .breakRange]
    (some [.action (.mk 0 ["$k"] true [.mk 0 [.literal (.bool true)]])])]

theorem parse_inverts_range :
    (∃ read, parse 1 (nodesTokens (fun n => String.ofList n.literal) firstOfRange) = .ok read ∧
      nodesUnlined read = nodesUnlined firstOfRange) ∧
    ∃ tokens read, tokenize [123, 123, 46, 97, 125, 125] = .ok tokens ∧
      parse 1 tokens.list = .ok read ∧ WellFormed read ∧ SpellsNodes read tokens.list := by
  have fits : WellFormed firstOfRange := by
    simp [WellFormed, firstOfRange, nodesWellFormed, Node.WellFormed, otherwiseWellFormed,
      Pipeline.WellFormed, commandsWellFormed, Command.WellFormed, operandsWellFormed,
      Operand.WellFormed, Place.mostNames, BranchKind.header, declared, IsLiteral, Node.adds,
      Pipeline.adds, nodesAdds, commandsAdds, Command.adds, operandsAdds, Operand.adds, Reach.names,
      Reach.sure, maxDepth]
  have scanned : tokenize [123, 123, 46, 97, 125, 125] =
      .ok ⟨[⟨.openAction, 1, false⟩, ⟨.field "a", 1, false⟩, ⟨.closeAction, 1, false⟩], 1⟩ := by
    decide +kernel
  have spelled : SpellsNodes [.action (.mk 0 [] false [.mk 0 [.field ["a"]]])]
      [⟨.openAction, 1, false⟩, ⟨.field "a", 1, false⟩, ⟨.closeAction, 1, false⟩] :=
    .cons (.action (.mk .none (.last (.cons (.field .nil) not_glued_nil .nil)))) .nil
  have plain : WellFormed [.action (.mk 0 [] false [.mk 0 [.field ["a"]]])] := by
    simp [WellFormed, nodesWellFormed, Node.WellFormed, Pipeline.WellFormed, commandsWellFormed,
      Command.WellFormed, operandsWellFormed, Operand.WellFormed]
  obtain ⟨canonical, spells, inverts⟩ := parse_inverts 1
  obtain ⟨read, accepted, -⟩ := spells _ _ plain spelled
  exact ⟨canonical _ _ isSpelling_literal fits, _, read, scanned, accepted,
    inverts _ _ _ scanned accepted⟩

end Canonical

end Template

end PagePress
