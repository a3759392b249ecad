import PagePress.Proofs.Template.Reach
import PagePress.Template.Parser

namespace PagePress.Template

mutual
def Operand.unlined : Operand → Operand
  | .dot => .dot
  | .field path => .field path
  | .var name path => .var name path
  | .chain inner path => .chain inner.unlined path
  | .group pipe => .group pipe.unlined
  | .function builtin => .function builtin
  | .literal value => .literal value

def operandsUnlined : List Operand → List Operand
  | [] => []
  | operand :: rest => operand.unlined :: operandsUnlined rest

def Command.unlined : Command → Command
  | .mk _ operands => .mk 0 (operandsUnlined operands)

def commandsUnlined : List Command → List Command
  | [] => []
  | command :: rest => command.unlined :: commandsUnlined rest

def Pipeline.unlined : Pipeline → Pipeline
  | .mk _ names assigns commands => .mk 0 names assigns (commandsUnlined commands)
end

mutual
def Node.unlined : Node → Node
  | .text bytes => .text bytes
  | .action pipe => .action pipe.unlined
  | .branch kind _ pipe body otherwise =>
    .branch kind 0 pipe.unlined (nodesUnlined body) (otherwiseUnlined otherwise)
  | .breakRange => .breakRange
  | .continueRange => .continueRange

def nodesUnlined : List Node → List Node
  | [] => []
  | node :: rest => node.unlined :: nodesUnlined rest

def otherwiseUnlined : Option (List Node) → Option (List Node)
  | some nodes => some (nodesUnlined nodes)
  | none => none
end

def IsLiteral : Json → Prop
  | .null | .bool _ | .str _ | .num (.float _) => True
  | .num (.int n _) => -2 ^ 63 < n ∧ n < 2 ^ 63
  | .arr _ | .obj _ => False

def Place.mostNames : Place → Nat
  | .rangeHeader => 2
  | _ => 1

-- A tree that has a source. It is in a scope, and has `room` levels of nesting left: branches and
-- parentheses take one each.
mutual
def Operand.WellFormed (room : Nat) (scope : Scope) : Operand → Prop
  | .dot | .function _ => True
  | .field path => path ≠ []
  | .var name _ => name ∈ scope
  | .chain (.group pipe) path =>
    path ≠ [] ∧ 0 < room ∧ pipe.WellFormed (room - 1) .parentheses scope
  | .chain _ _ => False
  | .group pipe => 0 < room ∧ pipe.WellFormed (room - 1) .parentheses scope
  | .literal value => IsLiteral value

def operandsWellFormed (room : Nat) (scope : Scope) : List Operand → Prop
  | [] => True
  | operand :: rest =>
    operand.WellFormed room scope ∧ operandsWellFormed room (operand.adds.names ++ scope) rest

def Command.WellFormed (room : Nat) (scope : Scope) : Command → Prop
  | .mk _ operands =>
    operands ≠ [] ∧ operands ≠ [.literal .null] ∧ operandsWellFormed room scope operands

def commandsWellFormed (room : Nat) (scope : Scope) : List Command → Prop
  | [] => True
  | command :: rest =>
    command.WellFormed room scope ∧ commandsWellFormed room (command.adds.names ++ scope) rest

def Pipeline.WellFormed (room : Nat) (place : Place) (scope : Scope) : Pipeline → Prop
  | .mk _ names assigns commands =>
    names.length ≤ place.mostNames ∧
      (assigns = true → names ≠ [] ∧ ∀ name ∈ names, name ∈ scope) ∧
      commands ≠ [] ∧ commandsWellFormed room (declared names assigns ++ scope) commands
end

mutual
def Node.WellFormed (room : Nat) (inRange : Bool) (scope : Scope) : Node → Prop
  | .text _ => True
  | .action pipe => pipe.WellFormed room .command scope
  | .branch kind _ pipe body otherwise =>
    0 < room ∧ pipe.WellFormed (room - 1) kind.header scope ∧
      nodesWellFormed (room - 1) (inRange || kind = .rangeBranch) (pipe.adds.names ++ scope) body ∧
      otherwiseWellFormed (room - 1) inRange
        ((nodesAdds body).names ++ (pipe.adds.names ++ scope)) otherwise
  | .breakRange | .continueRange => inRange = true

def nodesWellFormed (room : Nat) (inRange : Bool) (scope : Scope) : List Node → Prop
  | [] => True
  | node :: rest =>
    node.WellFormed room inRange scope ∧
      nodesWellFormed room inRange (node.adds.names ++ scope) rest

def otherwiseWellFormed (room : Nat) (inRange : Bool) (scope : Scope) : Option (List Node) → Prop
  | some nodes => nodesWellFormed room inRange scope nodes
  | none => True
end

def WellFormed (nodes : List Node) : Prop := nodesWellFormed maxDepth false ["$"] nodes

inductive SpellsLiteral : Json → Lexeme → Prop
  | null : SpellsLiteral .null (.word "nil")
  | holds : SpellsLiteral (.bool true) (.word "true")
  | fails : SpellsLiteral (.bool false) (.word "false")
  | str {value : String} : SpellsLiteral (.str value) (.str value)
  | char {c : Char} : SpellsLiteral (.ofNat c.toNat) (.char c)
  | number {n : Number} {literal : String} (read : Literal.value? literal = some n) :
    SpellsLiteral (.num n) (.number literal)

def SpellsFields (path : List String) (ts : List Token) : Prop :=
  List.Forall₂ (fun name t => t.lexeme = .field name ∧ t.spaced = false) path ts

-- A field that would be taken for one of the term before it.
def Glued (ts : List Token) : Prop :=
  ∃ t ∈ ts.head?, t.spaced = false ∧ ∃ name, t.lexeme = .field name

def binder (assigns : Bool) : Lexeme := if assigns then .assign else .declare

inductive SpellsNames : List String → Bool → List Token → Prop
  | none : SpellsNames [] false []
  | one {name : String} {assigns : Bool} {l₁ l₂ : Nat} {s₁ s₂ : Bool} :
    SpellsNames [name] assigns [⟨.var name, l₁, s₁⟩, ⟨binder assigns, l₂, s₂⟩]
  | two {first second : String} {assigns : Bool} {l₁ l₂ l₃ l₄ : Nat} {s₁ s₂ s₃ s₄ : Bool} :
    SpellsNames [first, second] assigns
      [⟨.var first, l₁, s₁⟩, ⟨.comma, l₂, s₂⟩, ⟨.var second, l₃, s₃⟩, ⟨binder assigns, l₄, s₄⟩]

-- A field has a dot of its own, or stands behind the dot. What follows an operand is apart from it.
mutual
inductive SpellsOperand : Operand → List Token → Prop
  | dot {l : Nat} {s : Bool} : SpellsOperand .dot [⟨.dot, l, s⟩]
  | field {l : Nat} {s : Bool} {name : String} {path : List String} {behind : List Token}
      (fields : SpellsFields path behind) :
    SpellsOperand (.field (name :: path)) (⟨.field name, l, s⟩ :: behind)
  | dotted {l : Nat} {s : Bool} {path : List String} {behind : List Token}
      (some : path ≠ []) (fields : SpellsFields path behind) :
    SpellsOperand (.field path) (⟨.dot, l, s⟩ :: behind)
  | var {l : Nat} {s : Bool} {name : String} {path : List String} {behind : List Token}
      (fields : SpellsFields path behind) :
    SpellsOperand (.var name path) (⟨.var name, l, s⟩ :: behind)
  | function {l : Nat} {s : Bool} {builtin : Builtin} :
    SpellsOperand (.function builtin) [⟨.word builtin.name, l, s⟩]
  | literal {l : Nat} {s : Bool} {value : Json} {lexeme : Lexeme}
      (spelled : SpellsLiteral value lexeme) :
    SpellsOperand (.literal value) [⟨lexeme, l, s⟩]
  | group {l : Nat} {s : Bool} {pipe : Pipeline} {ts : List Token}
      (inside : SpellsPipeline .parentheses pipe ts) :
    SpellsOperand (.group pipe) (⟨.leftParen, l, s⟩ :: ts)
  | chain {l : Nat} {s : Bool} {pipe : Pipeline} {path : List String}
      {ts behind : List Token} (inside : SpellsPipeline .parentheses pipe ts) (some : path ≠ [])
      (fields : SpellsFields path behind) :
    SpellsOperand (.chain (.group pipe) path) (⟨.leftParen, l, s⟩ :: (ts ++ behind))

inductive SpellsOperands : List Operand → List Token → Prop
  | nil : SpellsOperands [] []
  | cons {operand : Operand} {rest : List Operand} {ts us : List Token}
      (first : SpellsOperand operand ts) (apart : ¬Glued us) (later : SpellsOperands rest us) :
    SpellsOperands (operand :: rest) (ts ++ us)

inductive SpellsCommands : Place → List Command → List Token → Prop
  | last {place : Place} {line l : Nat} {s : Bool} {operands : List Operand}
      {ts : List Token} (only : SpellsOperands operands ts) :
    SpellsCommands place [.mk line operands] (ts ++ [⟨closer place, l, s⟩])
  | piped {place : Place} {line l : Nat} {s : Bool} {operands : List Operand}
      {rest : List Command} {ts us : List Token} (first : SpellsOperands operands ts)
      (later : SpellsCommands place rest us) :
    SpellsCommands place (.mk line operands :: rest) (ts ++ ⟨.pipe, l, s⟩ :: us)

inductive SpellsPipeline : Place → Pipeline → List Token → Prop
  | mk {place : Place} {line : Nat} {names : List String} {assigns : Bool}
      {commands : List Command} {ts us : List Token} (named : SpellsNames names assigns ts)
      (inside : SpellsCommands place commands us) :
    SpellsPipeline place (.mk line names assigns commands) (ts ++ us)
end

def BranchKind.keyword (kind : BranchKind) : String := kind.header.name

def IsMark (word : String) (ts : List Token) : Prop :=
  ts.map (·.lexeme) = [.openAction, .word word, .closeAction]

-- A branch is spelled from its keyword on. Behind an else, a branch of the same kind may share the
-- mark at the end, unless it is a range.
mutual
inductive SpellsNode : Node → List Token → Prop
  | text {bytes : Bytes} {l : Nat} {s : Bool} :
    SpellsNode (.text bytes) [⟨.text bytes, l, s⟩]
  | action {l : Nat} {s : Bool} {pipe : Pipeline} {ts : List Token}
      (inside : SpellsPipeline .command pipe ts) :
    SpellsNode (.action pipe) (⟨.openAction, l, s⟩ :: ts)
  | branch {l : Nat} {s : Bool} {node : Node} {ts : List Token}
      (spelled : SpellsBranch node ts) : SpellsNode node (⟨.openAction, l, s⟩ :: ts)
  | breakRange {ts : List Token} (mark : IsMark "break" ts) : SpellsNode .breakRange ts
  | continueRange {ts : List Token} (mark : IsMark "continue" ts) : SpellsNode .continueRange ts

inductive SpellsBranch : Node → List Token → Prop
  | mk {kind : BranchKind} {line l : Nat} {s : Bool} {pipe : Pipeline} {body : List Node}
      {otherwise : Option (List Node)} {ts us vs : List Token}
      (header : SpellsPipeline kind.header pipe ts) (inside : SpellsNodes body us)
      (behind : SpellsElse kind otherwise vs) :
    SpellsBranch (.branch kind line pipe body otherwise)
      (⟨.word kind.keyword, l, s⟩ :: (ts ++ (us ++ vs)))

inductive SpellsElse : BranchKind → Option (List Node) → List Token → Prop
  | none {kind : BranchKind} {ts : List Token} (mark : IsMark "end" ts) : SpellsElse kind none ts
  | plain {kind : BranchKind} {nodes : List Node} {ts us vs : List Token} (mark : IsMark "else" ts)
      (inside : SpellsNodes nodes us) (behind : IsMark "end" vs) :
    SpellsElse kind (some nodes) (ts ++ (us ++ vs))
  | chained {kind : BranchKind} {line l₁ l₂ : Nat} {s₁ s₂ : Bool} {pipe : Pipeline}
      {body : List Node} {otherwise : Option (List Node)} {ts : List Token}
      (chains : kind ≠ .rangeBranch)
      (spelled : SpellsBranch (.branch kind line pipe body otherwise) ts) :
    SpellsElse kind (some [.branch kind line pipe body otherwise])
      (⟨.openAction, l₁, s₁⟩ :: ⟨.word "else", l₂, s₂⟩ :: ts)

inductive SpellsNodes : List Node → List Token → Prop
  | nil : SpellsNodes [] []
  | cons {node : Node} {rest : List Node} {ts us : List Token} (first : SpellsNode node ts)
      (later : SpellsNodes rest us) : SpellsNodes (node :: rest) (ts ++ us)
end

end PagePress.Template
