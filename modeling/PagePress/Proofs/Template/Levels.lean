import PagePress.Proofs.Template.Soundness

namespace PagePress.Template

inductive Bracket where
  | parenthesis
  | branch (kind : BranchKind)
  -- A branch in the else list of the one below it, with which it shares the end mark.
  | link (kind : BranchKind)

def Bracket.kind? : Bracket → Option BranchKind
  | .parenthesis => none
  | .branch kind | .link kind => some kind

def closeBranch : List Bracket → List Bracket
  | .link _ :: rest => closeBranch rest
  | .branch _ :: rest => rest
  | opened => opened

def closeParenthesis : List Bracket → List Bracket
  | .parenthesis :: rest => rest
  | opened => opened

def linked? (word : String) (opened : List Bracket) : Option BranchKind :=
  (opened.head?.bind Bracket.kind?).filter fun kind => kind.chainWord? = some word

inductive Site where
  | outside
  -- The first one of an action.
  | opening
  | behindElse
  -- Only a closing delimiter.
  | closing
  | inside

structure Position where
  opened : List Bracket
  site : Site

namespace Position

def start : Position := ⟨[], .outside⟩

def level (p : Position) : Nat := p.opened.length

def behindHead (opened : List Bracket) (word : String) : Position :=
  match branchOf? word with
  | some kind => ⟨.branch kind :: opened, .inside⟩
  | none =>
    match word with
    | "end" => ⟨closeBranch opened, .closing⟩
    | "else" => ⟨opened, .behindElse⟩
    | "break" => ⟨opened, .closing⟩
    | "continue" => ⟨opened, .closing⟩
    | _ => ⟨opened, .inside⟩

def behindLink (opened : List Bracket) (word : String) : Position :=
  match linked? word opened with
  | some kind => ⟨.link kind :: opened, .inside⟩
  | none => ⟨opened, .closing⟩

def behindInner (opened : List Bracket) : Lexeme → Position
  | .leftParen => ⟨.parenthesis :: opened, .inside⟩
  | .rightParen => ⟨closeParenthesis opened, .inside⟩
  | .closeAction => ⟨opened, .outside⟩
  | _ => ⟨opened, .inside⟩

def read (p : Position) (lexeme : Lexeme) : Position :=
  match p.site, lexeme with
  | .outside, .openAction => ⟨p.opened, .opening⟩
  | .outside, _ => p
  | .opening, .word word => behindHead p.opened word
  | .behindElse, .word word => behindLink p.opened word
  | .behindElse, .closeAction => ⟨p.opened, .outside⟩
  | .behindElse, _ => ⟨p.opened, .closing⟩
  | .closing, .closeAction => ⟨p.opened, .outside⟩
  | .closing, _ => p
  | _, lexeme => behindInner p.opened lexeme

def through (p : Position) (ts : List Token) : Position :=
  ts.foldl (fun p t => p.read t.lexeme) p

def peak (p : Position) : List Token → Nat
  | [] => p.level
  | t :: rest => max p.level ((p.read t.lexeme).peak rest)

theorem through_append (p : Position) (ts us : List Token) :
    p.through (ts ++ us) = (p.through ts).through us := List.foldl_append

theorem level_le_peak (p : Position) (ts : List Token) : p.level ≤ p.peak ts := by
  cases ts with
  | nil => exact Nat.le_refl _
  | cons t rest => exact Nat.le_max_left ..

theorem peak_append (p : Position) (ts us : List Token) :
    p.peak (ts ++ us) = max (p.peak ts) ((p.through ts).peak us) := by
  induction ts generalizing p with
  | nil => exact (Nat.max_eq_right (p.level_le_peak us)).symm
  | cons t rest ih =>
    rw [List.cons_append, peak, peak, ih, Nat.max_assoc]
    rfl

theorem level_through_le_peak (p : Position) (ts : List Token) :
    (p.through ts).level ≤ p.peak ts := by
  have behind := p.peak_append ts []
  rw [List.append_nil] at behind
  have here := (p.through ts).level_le_peak []
  omega

end Position

theorem closeBranch_le (opened : List Bracket) : (closeBranch opened).length ≤ opened.length := by
  induction opened with
  | nil => exact Nat.le_refl _
  | cons bracket rest ih =>
    cases bracket with
    | parenthesis => exact Nat.le_refl _
    | branch kind => exact Nat.le_succ _
    | link kind => exact Nat.le_succ_of_le ih

theorem closeParenthesis_le (opened : List Bracket) :
    (closeParenthesis opened).length ≤ opened.length := by
  rw [closeParenthesis.eq_def]
  split
  · exact Nat.le_succ _
  · exact Nat.le_refl _

section Reading

variable {opened : List Bracket} {word : String} {lexeme : Lexeme} {kind : BranchKind}

def IsHead (word : String) : Prop :=
  (branchOf? word).isSome ∨ word ∈ ["end", "else", "break", "continue"]

theorem behindHead_plain (plain : ¬IsHead word) :
    Position.behindHead opened word = ⟨opened, .inside⟩ := by
  obtain ⟨branch, marks⟩ := not_or.mp plain
  rw [Position.behindHead.eq_def]
  split
  · rename_i kind found
    simp [found] at branch
  · split <;> first | rfl | simp at marks

theorem read_opening (plain : ∀ word, lexeme = .word word → ¬IsHead word) :
    Position.read ⟨opened, .opening⟩ lexeme = Position.read ⟨opened, .inside⟩ lexeme := by
  cases lexeme with
  | word word => exact behindHead_plain (plain word rfl)
  | _ => rfl

-- Inside of an action only a parenthesis opens a level.
theorem read_inside_le (other : lexeme ≠ .leftParen) :
    (Position.read ⟨opened, .inside⟩ lexeme).level ≤ opened.length := by
  cases lexeme with
  | leftParen => exact absurd rfl other
  | rightParen => exact closeParenthesis_le opened
  | _ => exact Nat.le_refl _

theorem read_closing_le : (Position.read ⟨opened, .closing⟩ lexeme).level ≤ opened.length := by
  cases lexeme <;> exact Nat.le_refl _

theorem read_outside_le : (Position.read ⟨opened, .outside⟩ lexeme).level ≤ opened.length := by
  cases lexeme <;> exact Nat.le_refl _

theorem linked?_some (top : opened.head?.bind Bracket.kind? = some kind)
    (chained : kind.chainWord? = some word) : linked? word opened = some kind := by
  rw [linked?, top, Option.filter_some, if_pos (decide_eq_true chained)]

theorem linked?_none (top : opened.head?.bind Bracket.kind? = some kind)
    (apart : kind.chainWord? ≠ some word) : linked? word opened = none := by
  rw [linked?, top, Option.filter_some, if_neg (by simpa using apart)]

end Reading

-- From one position to another over the tokens before `rest`, up to a level of `top`.
def Climbs (p : Position) (ts : List Token) (q : Position) (rest : List Token) (top : Nat) : Prop :=
  ∃ used, ts = used ++ rest ∧ p.through used = q ∧ p.peak used = top

namespace Climbs

variable {p q r : Position} {ts us vs : List Token} {top top' : Nat}

theorem refl (p : Position) (ts : List Token) : Climbs p ts p ts p.level := ⟨[], rfl, rfl, rfl⟩

theorem trans (first : Climbs p ts q us top) (second : Climbs q us r vs top') :
    Climbs p ts r vs (max top top') := by
  obtain ⟨used, rfl, rfl, rfl⟩ := first
  obtain ⟨more, rfl, rfl, rfl⟩ := second
  exact ⟨used ++ more, (List.append_assoc ..).symm, p.through_append .., p.peak_append ..⟩

theorem step (t : Token) (ts : List Token) :
    Climbs p (t :: ts) (p.read t.lexeme) ts (max p.level (p.read t.lexeme).level) :=
  ⟨[t], rfl, rfl, rfl⟩

theorem step_le {t : Token} (low : (p.read t.lexeme).level ≤ p.level) :
    Climbs p (t :: ts) (p.read t.lexeme) ts p.level := by
  have stepped := step (p := p) t ts
  rwa [Nat.max_eq_left low] at stepped

theorem level_le (climbs : Climbs p ts q us top) : q.level ≤ top := by
  obtain ⟨used, -, rfl, rfl⟩ := climbs
  exact p.level_through_le_peak used

theorem stay (ts : List Token) (kept : ∀ t ∈ us, p.read t.lexeme = p) :
    Climbs p (us ++ ts) p ts p.level := by
  induction us with
  | nil => exact refl p ts
  | cons t rest ih =>
    obtain ⟨here, later⟩ := List.forall_mem_cons.mp kept
    have stepped := (step (p := p) t (rest ++ ts)).trans (here.symm ▸ ih later)
    rwa [here, Nat.max_self, Nat.max_self] at stepped

theorem stay_one {t : Token} (ts : List Token) (kept : p.read t.lexeme = p) :
    Climbs p (t :: ts) p ts p.level :=
  stay ts (List.forall_mem_singleton.mpr kept)

end Climbs

mutual
def Operand.depth : Operand → Nat
  | .group pipe => pipe.depth + 1
  | .chain inner _ => inner.depth
  | .dot | .field _ | .var _ _ | .function _ | .literal _ => 0

def operandsDepth : List Operand → Nat
  | [] => 0
  | operand :: rest => max operand.depth (operandsDepth rest)

def Command.depth : Command → Nat
  | .mk _ operands => operandsDepth operands

def commandsDepth : List Command → Nat
  | [] => 0
  | command :: rest => max command.depth (commandsDepth rest)

def Pipeline.depth : Pipeline → Nat
  | .mk _ _ _ commands => commandsDepth commands
end

mutual
-- A link of a chain is a branch in the else list of the branch before it.
def Node.depth : Node → Nat
  | .text _ => 0
  | .action pipe => pipe.depth
  | .branch _ _ pipe body otherwise =>
    max pipe.depth (max (nodesDepth body) (otherwiseDepth otherwise)) + 1
  | .breakRange | .continueRange => 0

def nodesDepth : List Node → Nat
  | [] => 0
  | node :: rest => max node.depth (nodesDepth rest)

def otherwiseDepth : Option (List Node) → Nat
  | some nodes => nodesDepth nodes
  | none => 0
end

mutual
-- The most evaluations that are in one another when the tree is run: operands, commands, pipelines
-- and nodes. A list is a loop.
def Operand.height : Operand → Nat
  | .group pipe => pipe.height + 1
  | .chain inner _ => inner.height + 1
  | .dot | .field _ | .var _ _ | .function _ | .literal _ => 1

def operandsHeight : List Operand → Nat
  | [] => 0
  | operand :: rest => max operand.height (operandsHeight rest)

def Command.height : Command → Nat
  | .mk _ operands => operandsHeight operands + 1

def commandsHeight : List Command → Nat
  | [] => 0
  | command :: rest => max command.height (commandsHeight rest)

def Pipeline.height : Pipeline → Nat
  | .mk _ _ _ commands => commandsHeight commands + 1
end

mutual
def Node.height : Node → Nat
  | .text _ => 1
  | .action pipe => pipe.height + 1
  | .branch _ _ pipe body otherwise =>
    max pipe.height (max (nodesHeight body) (otherwiseHeight otherwise)) + 1
  | .breakRange | .continueRange => 1

def nodesHeight : List Node → Nat
  | [] => 0
  | node :: rest => max node.height (nodesHeight rest)

def otherwiseHeight : Option (List Node) → Nat
  | some nodes => nodesHeight nodes
  | none => 0
end

theorem withFields?_depth {term operand : Operand} {path : List String}
    (found : withFields? term path = some operand) : operand.depth = term.depth := by
  rw [withFields?.eq_def] at found
  split at found
  · cases found
    rfl
  · cases term with
    | function builtin => cases found
    | literal value => cases found
    | _ =>
      cases found
      rfl

theorem wordOperand_flat {word : String} {operand : Operand}
    (found : wordOperand word = .ok operand) :
    (∃ builtin, operand = .function builtin) ∨ ∃ value, operand = .literal value := by
  rw [wordOperand.eq_def] at found
  split at found
  · cases found
    exact .inr ⟨_, rfl⟩
  · cases found
    exact .inr ⟨_, rfl⟩
  · cases found
    exact .inr ⟨_, rfl⟩
  · split at found
    · cases found
    · split at found
      · cases found
        exact .inl ⟨_, rfl⟩
      · cases found

theorem simpleTerm_flat {scope : Scope} {lexeme : Lexeme} {term operand : Operand}
    {path : List String} (found : simpleTerm scope lexeme = .ok term)
    (made : withFields? term path = some operand) : operand.depth = 0 ∧ operand.height = 1 := by
  have plain : (∃ p, term = .field p) ∨ (∃ name p, term = .var name p) ∨ term = .dot ∨
      (∃ builtin, term = .function builtin) ∨ ∃ value, term = .literal value := by
    rw [simpleTerm.eq_def] at found
    split at found
    · cases found
      exact .inr (.inr (.inl rfl))
    · cases found
      exact .inl ⟨_, rfl⟩
    · split at found
      · cases found
        exact .inr (.inl ⟨_, _, rfl⟩)
      · cases found
    · cases found
      exact .inr (.inr (.inr (.inr ⟨_, rfl⟩)))
    · cases found
      exact .inr (.inr (.inr (.inr ⟨_, rfl⟩)))
    · split at found
      · cases found
        exact .inr (.inr (.inr (.inr ⟨_, rfl⟩)))
      · cases found
    · exact .inr (.inr (.inr (wordOperand_flat found)))
    · cases found
  rw [withFields?.eq_def] at made
  rcases plain with ⟨p, rfl⟩ | ⟨name, p, rfl⟩ | rfl | ⟨builtin, rfl⟩ | ⟨value, rfl⟩ <;>
    split at made <;> cases made <;> exact ⟨rfl, rfl⟩

theorem simpleTerm_stays {scope : Scope} {lexeme : Lexeme} {term : Operand}
    (found : simpleTerm scope lexeme = .ok term) (opened : List Bracket) :
    Position.read ⟨opened, .inside⟩ lexeme = ⟨opened, .inside⟩ := by
  cases lexeme with
  | leftParen => cases found
  | rightParen => cases found
  | closeAction => cases found
  | _ => rfl

theorem fields_stay {path : List String} {ts : List Token} (spelled : SpellsFields path ts)
    (opened : List Bracket) :
    ∀ t ∈ ts, Position.read ⟨opened, .inside⟩ t.lexeme = ⟨opened, .inside⟩ := by
  rw [SpellsFields] at spelled
  induction spelled with
  | nil => exact nofun
  | cons first _ ih => exact List.forall_mem_cons.mpr ⟨by rw [first.1]; rfl, ih⟩

theorem names_stay {names : List String} {assigns : Bool} {ts : List Token}
    (spelled : SpellsNames names assigns ts) (opened : List Bracket) :
    ∀ t ∈ ts, Position.read ⟨opened, .inside⟩ t.lexeme = ⟨opened, .inside⟩ := by
  have binds (assigns : Bool) :
      Position.read ⟨opened, .inside⟩ (binder assigns) = ⟨opened, .inside⟩ := by
    cases assigns <;> rfl
  cases spelled with
  | none => exact nofun
  | one => simpa using ⟨rfl, binds assigns⟩
  | two => simpa using ⟨rfl, rfl, rfl, binds assigns⟩

theorem takeFields_climbs (opened : List Bracket) (ts : List Token) :
    Climbs ⟨opened, .inside⟩ ts ⟨opened, .inside⟩ (takeFields ts).2 opened.length := by
  obtain ⟨behind, whole, fields, -⟩ := takeFields_sound ts
  have stays := Climbs.stay (takeFields ts).2 (fields_stay fields opened)
  rwa [← whole] at stays

end PagePress.Template
