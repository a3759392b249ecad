import PagePress.Template.Fault
import PagePress.Template.Literal
import PagePress.Template.Tree

namespace PagePress.Template

abbrev Scope := List String

structure Parsed (α : Type) (bound : Nat) where
  value : α
  scope : Scope
  rest : List Token
  shorter : rest.length < bound

abbrev Parse (α : Type) (bound : Nat) := Except ParseError (Parsed α bound)

def lineAt (endLine : Nat) : List Token → Nat
  | [] => endLine
  | t :: _ => t.line

def failAt {α : Type} (endLine : Nat) (rest : List Token) (fault : ParseFault) :
    Except ParseError α := .error ⟨lineAt endLine rest, fault⟩

def nextLexeme (ts : List Token) : Option Lexeme := ts.head?.map (·.lexeme)

def takeFields : List Token → List String × List Token
  | [] => ([], [])
  | t :: r =>
    match t.lexeme, t.spaced with
    | .field name, false => (name :: (takeFields r).1, (takeFields r).2)
    | _, _ => ([], t :: r)

theorem takeFields_le (ts : List Token) : (takeFields ts).2.length ≤ ts.length := by
  induction ts with
  | nil => exact Nat.le_refl _
  | cons t r ih =>
    unfold takeFields
    split
    · exact Nat.le_succ_of_le ih
    · exact Nat.le_refl _

def withFields? (term : Operand) (path : List String) : Option Operand :=
  if path.isEmpty then some term
  else
    match term with
    | .dot => some (.field path)
    | .field before => some (.field (before ++ path))
    | .var name before => some (.var name (before ++ path))
    | .group _ | .chain _ _ => some (.chain term path)
    | .function _ | .literal _ => none

def isKeyword (word : String) : Bool :=
  word ∈ ["if", "else", "end", "range", "with", "break", "continue"]

def wordOperand (word : String) : Except ParseFault Operand :=
  match word with
  | "true" => .ok (.literal (.bool true))
  | "false" => .ok (.literal (.bool false))
  | "nil" => .ok (.literal .null)
  | word =>
    if isKeyword word then .error (.unexpectedOperand (some (.word word)))
    else
      match Builtin.ofName? word with
      | some builtin => .ok (.function builtin)
      | none => .error (.undefinedFunction word)

def simpleTerm (scope : Scope) (lexeme : Lexeme) : Except ParseFault Operand :=
  match lexeme with
  | .dot => .ok .dot
  | .field name => .ok (.field [name])
  | .var name =>
    if scope.contains name then .ok (.var name []) else .error (.undefinedVariable name)
  | .str value => .ok (.literal (.str value))
  | .char value => .ok (.literal (Json.ofNat value.toNat))
  | .number literal =>
    match Literal.value? literal with
    | some n => .ok (.literal (.num n))
    | none => .error (.badNumber literal)
  | .word word => wordOperand word
  | found => .error (.unexpectedOperand (some found))

def bindName (scope : Scope) (assigns : Bool) (name : String) : Except ParseFault Scope :=
  if assigns then
    if scope.contains name then .ok scope else .error (.undefinedVariable name)
  else .ok (name :: scope)

-- The names at the start of a pipeline, whether they are assigned, and how many tokens that takes.
-- Only a range may name two.
def namesAt (place : Place) : List Token → Except ParseFault (List String × Bool × Nat)
  | ⟨.var first, _, _⟩ :: ⟨.declare, _, _⟩ :: _ => .ok ([first], false, 2)
  | ⟨.var first, _, _⟩ :: ⟨.assign, _, _⟩ :: _ => .ok ([first], true, 2)
  | ⟨.var first, _, _⟩ :: ⟨.comma, _, _⟩ :: r =>
    if place = .rangeHeader then
      match r with
      | ⟨.var second, _, _⟩ :: ⟨.declare, _, _⟩ :: _ => .ok ([first, second], false, 4)
      | ⟨.var second, _, _⟩ :: ⟨.assign, _, _⟩ :: _ => .ok ([first, second], true, 4)
      | ⟨.var _, _, _⟩ :: _ => .error .rangeNeedsAssign
      | _ => .error .rangeNeedsVariables
    else .error .tooManyDeclarations
  | _ => .ok ([], false, 0)

structure Binding where
  names : List String
  assigns : Bool
  scope : Scope
  width : Nat

def parseBinding (endLine : Nat) (place : Place) (scope : Scope) (ts : List Token) :
    Except ParseError Binding :=
  match namesAt place ts with
  | .error fault => failAt endLine ts fault
  | .ok (names, assigns, width) =>
    match names.foldlM (bindName · assigns ·) scope with
    | .error fault => failAt endLine (ts.drop width) fault
    | .ok scope => .ok ⟨names, assigns, scope, width⟩

def closer (place : Place) : Lexeme :=
  if place = .parentheses then .rightParen else .closeAction

def isCloser (found : Option Lexeme) : Bool :=
  found == some .closeAction || found == some .rightParen

def endsCommand (ts : List Token) : Bool :=
  match nextLexeme ts with
  | none => true
  | some found => found == .pipe || isCloser (some found)

def isNil : Operand → Bool
  | .literal .null => true
  | _ => false

mutual
def parseTerm (endLine room : Nat) (scope : Scope) (ts : List Token) : Parse Operand ts.length :=
  match ts with
  | [] => failAt endLine [] (.unexpectedOperand none)
  | t :: r =>
    if t.lexeme = .leftParen then
      match room with
      | 0 => failAt endLine r .tooDeep
      | room + 1 => do
        let p ← parsePipeline endLine room .parentheses scope r
        .ok ⟨.group p.value, p.scope, p.rest, Nat.lt_succ_of_lt p.shorter⟩
    else
      match simpleTerm scope t.lexeme with
      | .ok term => .ok ⟨term, scope, r, Nat.lt_succ_self _⟩
      | .error fault => failAt endLine r fault
termination_by (ts.length, 0)

def parseOperand (endLine room : Nat) (scope : Scope) (ts : List Token) :
    Parse Operand ts.length := do
  let p ← parseTerm endLine room scope ts
  let rest := (takeFields p.rest).2
  match withFields? p.value (takeFields p.rest).1 with
  | some operand =>
    .ok ⟨operand, p.scope, rest, Nat.lt_of_le_of_lt (takeFields_le _) p.shorter⟩
  | none => failAt endLine rest .fieldAfterTerm
termination_by (ts.length, 1)

def parseOperands (endLine room bound : Nat) (before : List Operand) (scope : Scope)
    (ts : List Token) (less : ts.length < bound) : Parse (List Operand) bound := do
  if endsCommand ts then .ok ⟨before.reverse, scope, ts, less⟩
  else
    let p ← parseOperand endLine room scope ts
    parseOperands endLine room bound (p.value :: before) p.scope p.rest
      (Nat.lt_trans p.shorter less)
termination_by (ts.length, 2)
decreasing_by
  · omega
  · have := p.shorter; omega

def parseCommand (endLine room : Nat) (scope : Scope) (ts : List Token) :
    Parse Command ts.length := do
  if endsCommand ts then failAt endLine ts .emptyCommand
  else
    let first ← parseOperand endLine room scope ts
    let p ← parseOperands endLine room ts.length [first.value] first.scope first.rest first.shorter
    match p.value with
    | [operand] =>
      if isNil operand then failAt endLine p.rest .nilCommand
      else .ok ⟨.mk (lineAt endLine ts) [operand], p.scope, p.rest, p.shorter⟩
    | operands => .ok ⟨.mk (lineAt endLine ts) operands, p.scope, p.rest, p.shorter⟩
termination_by (ts.length, 3)
decreasing_by
  · omega
  · have := first.shorter; omega

def parseCommands (endLine room : Nat) (place : Place) (bound : Nat) (before : List Command)
    (scope : Scope) (ts : List Token) (le : ts.length ≤ bound) : Parse (List Command) bound := do
  if nextLexeme ts = some (closer place) then
    match ts, le with
    | _ :: r, le => .ok ⟨before.reverse, scope, r, le⟩
    | [], _ => failAt endLine ts (.unexpectedIn none place)
  else if nextLexeme ts = none ∨ isCloser (nextLexeme ts) then
    failAt endLine ts (.unexpectedIn (nextLexeme ts) place)
  else
    let p ← parseCommand endLine room scope ts
    match _ : p.rest with
    | [] => failAt endLine [] (.unexpectedOperand none)
    | t :: r =>
      have short : r.length + 1 < ts.length := by
        have := p.shorter
        simp_all
      if t.lexeme = .pipe then
        if isCloser (nextLexeme r) then failAt endLine r (.missingCommand place)
        else parseCommands endLine room place bound (p.value :: before) p.scope r (by omega)
      else
        parseCommands endLine room place bound (p.value :: before) p.scope (t :: r)
          (by simp only [List.length_cons]; omega)
termination_by (ts.length, 4)

def parsePipeline (endLine room : Nat) (place : Place) (scope : Scope) (ts : List Token) :
    Parse Pipeline ts.length := do
  let binding ← parseBinding endLine place scope ts
  let p ← parseCommands endLine room place ts.length [] binding.scope (ts.drop binding.width)
    (by simp)
  if p.value.isEmpty then failAt endLine p.rest (.missingValue place)
  else
    .ok ⟨.mk (lineAt endLine ts) binding.names binding.assigns p.value, p.scope, p.rest, p.shorter⟩
termination_by (ts.length, 5)
decreasing_by
  simp_wf
  omega
end

inductive Stop where
  | endOfInput
  | endMark
  | elseMark
  deriving DecidableEq

inductive Part where
  | node (node : Node)
  | stop (stop : Stop)

def expectClose (endLine : Nat) (place : Place) (ts : List Token) :
    Except ParseError { r : List Token // r.length < ts.length } :=
  match ts with
  | [] => failAt endLine [] (.unexpectedIn none place)
  | t :: r =>
    if t.lexeme = .closeAction then .ok ⟨r, Nat.lt_succ_self _⟩
    else failAt endLine r (.unexpectedIn (some t.lexeme) place)

def BranchKind.header : BranchKind → Place
  | .ifBranch => .ifHeader
  | .rangeBranch => .rangeHeader
  | .withBranch => .withHeader

def BranchKind.chainWord? : BranchKind → Option String
  | .ifBranch => some "if"
  | .withBranch => some "with"
  | .rangeBranch => none

def branchOf? : String → Option BranchKind
  | "if" => some .ifBranch
  | "range" => some .rangeBranch
  | "with" => some .withBranch
  | _ => none

def headWord? (ts : List Token) : Option String :=
  match nextLexeme ts with
  | some (.word word) => some word
  | _ => none

theorem tail_lt {ts : List Token} {word : String} (found : headWord? ts = some word) :
    ts.tail.length < ts.length := by
  cases ts with
  | nil => cases found
  | cons => exact Nat.lt_succ_self _

-- The variables that were in scope before are the last ones of the list.
def Scope.leave (outer inner : Scope) : Scope := inner.drop (inner.length - outer.length)

mutual
def parseNodes (endLine room : Nat) (inRange : Bool) (bound : Nat) (before : List Node)
    (scope : Scope) (ts : List Token) (less : ts.length < bound) :
    Parse (List Node × Stop) bound :=
  match ts, less with
  | [], less => .ok ⟨(before.reverse, .endOfInput), scope, [], less⟩
  | t :: r, less =>
    match t.lexeme with
    | .text bytes =>
      parseNodes endLine room inRange bound (.text bytes :: before) scope r (Nat.lt_of_succ_lt less)
    | .openAction => do
      let p ← parseAction endLine room inRange t.line scope r
      have short := p.shorter
      match p.value with
      | .node node =>
        parseNodes endLine room inRange bound (node :: before) p.scope p.rest
          (by simp only [List.length_cons] at less; omega)
      | .stop stop =>
        .ok ⟨(before.reverse, stop), p.scope, p.rest,
          by simp only [List.length_cons] at less; omega⟩
    | found => failAt endLine r (.unexpected found)
termination_by (ts.length, 3)

def parseAction (endLine room : Nat) (inRange : Bool) (line : Nat) (scope : Scope)
    (ts : List Token) : Parse Part ts.length := do
  let plain (_ : Unit) : Parse Part ts.length := do
    let p ← parsePipeline endLine room .command scope ts
    .ok ⟨.node (.action p.value), p.scope, p.rest, p.shorter⟩
  match _ : headWord? ts with
  | none => plain ()
  | some word =>
    have short := tail_lt ‹_›
    let closed (part : Part) (place : Place) : Parse Part ts.length := do
      let rest ← expectClose endLine place ts.tail
      .ok ⟨part, scope, rest.val, Nat.lt_trans rest.property short⟩
    let leaving (node : Node) (place : Place) : Parse Part ts.length :=
      if inRange then closed (.node node) place else failAt endLine ts.tail (.outsideRange place)
    match branchOf? word with
    | some kind =>
      let p ← parseBranch endLine room inRange kind line scope ts.tail
      .ok ⟨.node p.value, p.scope, p.rest, Nat.lt_trans p.shorter short⟩
    | none =>
      match word with
      | "end" => closed (.stop .endMark) .endMark
      | "else" => .ok ⟨.stop .elseMark, scope, ts.tail, short⟩
      | "break" => leaving .breakRange .breakMark
      | "continue" => leaving .continueRange .continueMark
      | word =>
        if word ∈ ["define", "template", "block"] then failAt endLine ts (.unsupported word)
        else plain ()
termination_by (ts.length, 1)

-- A branch, from behind its keyword. What it declares is in scope up to its end, in the else list
-- as well.
def parseBranch (endLine room : Nat) (inRange : Bool) (kind : BranchKind) (line : Nat)
    (scope : Scope) (ts : List Token) : Parse Node ts.length :=
  match room with
  | 0 => failAt endLine ts .tooDeep
  | room + 1 => do
    let header ← parsePipeline endLine room kind.header scope ts
    have := header.shorter
    let body ← parseNodes endLine room (inRange || kind = .rangeBranch) ts.length [] header.scope
      header.rest header.shorter
    have := body.shorter
    match body.value.2 with
    | .endOfInput => failAt endLine body.rest .unfinished
    | .endMark =>
      .ok ⟨.branch kind line header.value body.value.1 none, scope.leave body.scope, body.rest,
        body.shorter⟩
    | .elseMark =>
      let otherwise ← parseElse endLine room inRange kind body.scope body.rest
      .ok ⟨.branch kind line header.value body.value.1 (some otherwise.value),
        scope.leave otherwise.scope, otherwise.rest, Nat.lt_trans otherwise.shorter body.shorter⟩
termination_by (ts.length, 0)

def parseElse (endLine room : Nat) (inRange : Bool) (kind : BranchKind) (scope : Scope)
    (ts : List Token) : Parse (List Node) ts.length := do
  let plain (_ : Unit) : Parse (List Node) ts.length := do
    let rest ← expectClose endLine .elseMark ts
    have short := rest.property
    let p ← parseNodes endLine room inRange ts.length [] scope rest.val rest.property
    match p.value.2 with
    | .endMark => .ok ⟨p.value.1, p.scope, p.rest, p.shorter⟩
    | .elseMark => failAt endLine p.rest (.secondElse kind.header)
    | .endOfInput => failAt endLine p.rest .unfinished
  match _ : headWord? ts with
  | none => plain ()
  | some word =>
    have short := tail_lt ‹_›
    if kind.chainWord? = some word then
      let p ← parseBranch endLine room inRange kind (lineAt endLine ts) scope ts.tail
      .ok ⟨[p.value], p.scope, p.rest, Nat.lt_trans p.shorter short⟩
    else plain ()
termination_by (ts.length, 2)
end

-- A whole template. The variable that holds the values is in scope from the start.
def parse (endLine : Nat) (ts : List Token) : Except ParseError (List Node) := do
  let p ← parseNodes endLine maxDepth false (ts.length + 1) [] ["$"] ts (Nat.lt_succ_self _)
  match p.value.2 with
  | .endOfInput => .ok p.value.1
  | .endMark => failAt endLine p.rest .strayEnd
  | .elseMark => failAt endLine p.rest .strayElse

end PagePress.Template
