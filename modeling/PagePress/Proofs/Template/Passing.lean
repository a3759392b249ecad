import PagePress.Proofs.Template.Binding

namespace PagePress.Template

section Passed

variable (key : String) (n : Number)

def passedLiteral (value : Json) : Operand :=
  match value with
  | .num m => if m = n then .field [key] else .literal value
  | _ => .literal value

mutual
def Operand.passed : Operand → Operand
  | .dot => .dot
  | .field path => .field path
  | .var name path => .var name path
  | .chain inner path => .chain inner.passed path
  | .group pipe => .group pipe.passed
  | .function builtin => .function builtin
  | .literal value => passedLiteral key n value

def operandsPassed : List Operand → List Operand
  | [] => []
  | operand :: rest => operand.passed :: operandsPassed rest

def Command.passed : Command → Command
  | .mk line operands => .mk line (operandsPassed operands)

def commandsPassed : List Command → List Command
  | [] => []
  | command :: rest => command.passed :: commandsPassed rest

def Pipeline.passed : Pipeline → Pipeline
  | .mk line names assigns commands => .mk line names assigns (commandsPassed commands)
end

-- In its own pipeline; dot may be another one inside.
def Node.passed : Node → Node
  | .action pipe => .action (pipe.passed key n)
  | .branch kind line pipe body otherwise => .branch kind line (pipe.passed key n) body otherwise
  | node => node

end Passed

section Evaluation

variable {key : String} {n : Number} {fields : Fields} (policy : MissingKey)

theorem passedLiteral_ne_function (value : Json) (builtin : Builtin) :
    passedLiteral key n value ≠ .function builtin := by
  rw [passedLiteral.eq_def]
  split
  · split <;> exact nofun
  · exact nofun

theorem passed_eq_function {operand : Operand} {builtin : Builtin}
    (same : operand.passed key n = .function builtin) : operand = .function builtin := by
  cases operand with
  | function builtin => rwa [Operand.passed] at same
  | literal value =>
    rw [Operand.passed] at same
    exact absurd same (passedLiteral_ne_function value builtin)
  | _ =>
    rw [Operand.passed] at same
    cases same

theorem operandsPassed_ne_nil {operands : List Operand} (nonempty : operands ≠ []) :
    operandsPassed key n operands ≠ [] := by
  cases operands with
  | nil => exact absurd rfl nonempty
  | cons operand rest => exact List.cons_ne_nil _ _

theorem isEmpty_operandsPassed (operands : List Operand) :
    (operandsPassed key n operands).isEmpty = operands.isEmpty := by
  cases operands <;> rfl

mutual
theorem evalOperand_passed (held : Fields.get? fields key = some (.num n)) (line : Nat) :
    (operand : Operand) → evalOperand policy (.obj fields) line (operand.passed key n) =
      evalOperand policy (.obj fields) line operand
  | .dot => rfl
  | .field path => rfl
  | .var name path => rfl
  | .function builtin => rfl
  | .chain inner path => by
    rw [Operand.passed, evalOperand, evalOperand, evalOperand_passed held line inner]
  | .group pipe => by
    rw [Operand.passed, evalOperand, evalOperand, evalPipeline_passed held pipe]
  | .literal value => by
    rw [Operand.passed, passedLiteral.eq_def]
    split
    · split
      · rename_i same
        subst same
        rw [evalOperand, evalOperand, walkFields, List.foldlM_cons, fieldOf, held]
        rfl
      · rfl
    · rfl
termination_by structural operand => operand

theorem evalOperands_passed (held : Fields.get? fields key = some (.num n)) (line : Nat) :
    (operands : List Operand) →
      evalOperands policy (.obj fields) line (operandsPassed key n operands) =
        evalOperands policy (.obj fields) line operands
  | [] => rfl
  | operand :: rest => by
    rw [operandsPassed, evalOperands, evalOperands, evalOperand_passed held line operand,
      evalOperands_passed held line rest]
termination_by structural operands => operands

theorem evalUntil_passed (held : Fields.get? fields key = some (.num n)) (line : Nat)
    (decides : Bool) (last : Json) :
    (operands : List Operand) →
      evalUntil policy (.obj fields) line decides last (operandsPassed key n operands) =
        evalUntil policy (.obj fields) line decides last operands
  | [] => rfl
  | operand :: rest => by
    rw [operandsPassed, evalUntil, evalUntil, evalOperand_passed held line operand]
    congr 1
    funext value
    rw [evalUntil_passed held line decides value rest]
termination_by structural operands => operands

theorem evalCommand_passed (held : Fields.get? fields key = some (.num n)) (piped : Option Json) :
    (command : Command) → evalCommand policy (.obj fields) piped (command.passed key n) =
      evalCommand policy (.obj fields) piped command
  | .mk line [] => rfl
  | .mk line (operand :: rest) => by
    have alone := evalOperand_passed held line operand
    have all := evalOperands_passed held line rest
    have short := fun decides last => evalUntil_passed held line decides last rest
    rw [Command.passed, operandsPassed]
    have still : (∀ builtin, operand ≠ .function builtin) →
        ∀ builtin, operand.passed key n ≠ .function builtin := fun other builtin same =>
      other builtin (passed_eq_function same)
    rcases command_cases piped operand rest with ⟨builtin, rfl⟩ | ⟨other, ⟨rfl, rfl⟩ | several⟩
    · rw [Operand.passed, evalCommand, evalCommand, all, isEmpty_operandsPassed]
      cases deciding? builtin with
      | none => rfl
      | some decides =>
        dsimp only
        rw [short]
    · rw [operandsPassed, evalCommand_alone policy _ line other,
        evalCommand_alone policy _ line (still other), alone]
    · rw [evalCommand_other policy _ line other several,
        evalCommand_other policy _ line (still other) (several.imp_left operandsPassed_ne_nil)]
termination_by structural command => command

theorem evalCommands_passed (held : Fields.get? fields key = some (.num n))
    (piped : Option Json) :
    (commands : List Command) →
      evalCommands policy (.obj fields) piped (commandsPassed key n commands) =
        evalCommands policy (.obj fields) piped commands
  | [] => rfl
  | command :: rest => by
    rw [commandsPassed, evalCommands, evalCommands, evalCommand_passed held piped command]
    congr 1
    funext value
    exact evalCommands_passed held (some value) rest
termination_by structural commands => commands

theorem evalPipeline_passed (held : Fields.get? fields key = some (.num n)) :
    (pipe : Pipeline) → evalPipeline policy (.obj fields) (pipe.passed key n) =
      evalPipeline policy (.obj fields) pipe
  | .mk line names assigns commands => by
    rw [Pipeline.passed, evalPipeline, evalPipeline, evalCommands_passed held none commands]
termination_by structural pipe => pipe
end

theorem builtin?_passed (command : Command) :
    (command.passed key n).builtin? = command.builtin? := by
  obtain ⟨line, operands⟩ := command
  cases operands with
  | nil => rfl
  | cons operand rest =>
    rw [Command.passed, operandsPassed]
    by_cases function : ∃ builtin, operand = .function builtin
    · obtain ⟨builtin, rfl⟩ := function
      rfl
    · have none {operand : Operand} {rest : List Operand}
          (other : ∀ builtin, operand ≠ .function builtin) :
          (Command.mk line (operand :: rest)).builtin? = none := by
        cases operand with
        | function builtin => exact absurd rfl (other builtin)
        | _ => rfl
      rw [none fun builtin same => function ⟨builtin, same⟩,
        none fun builtin same => function ⟨builtin, passed_eq_function same⟩]

theorem commandsPassed_eq_map (commands : List Command) :
    commandsPassed key n commands = commands.map (Command.passed key n) := by
  induction commands with
  | nil => rfl
  | cons command rest ih => rw [commandsPassed, ih, List.map_cons]

theorem lastBuiltin?_passed (pipe : Pipeline) :
    (pipe.passed key n).lastBuiltin? = pipe.lastBuiltin? := by
  obtain ⟨line, names, assigns, commands⟩ := pipe
  rw [Pipeline.passed, Pipeline.lastBuiltin?, Pipeline.commands, commandsPassed_eq_map,
    List.getLast?_map, Option.bind_map]
  exact congrArg (Option.bind _) (funext builtin?_passed)

theorem runNode_passed (options : Options) (held : Fields.get? fields key = some (.num n))
    (node : Node) :
    runNode options (.obj fields) (node.passed key n) = runNode options (.obj fields) node := by
  cases node with
  | action pipe =>
    have names : (pipe.passed key n).names = pipe.names := by cases pipe; rfl
    rw [Node.passed, runNode, runNode, evalPipeline_passed _ held, names]
    simp only [printedText, lastBuiltin?_passed]
  | branch kind line pipe body otherwise =>
    have all := evalPipeline_passed options.missingKey held pipe
    obtain ⟨row, names, assigns, commands⟩ := pipe
    rw [Pipeline.passed] at all
    rw [Node.passed, Pipeline.passed]
    cases kind with
    | rangeBranch =>
      have items := evalCommands_passed options.missingKey held none commands
      rw [runNode, runNode, Pipeline.commands, Pipeline.commands, items]
      rfl
    | ifBranch =>
      rw [runNode, runNode, all]
      · rintro ⟨⟩
      · rintro ⟨⟩
    | withBranch =>
      rw [runNode, runNode, all]
      · rintro ⟨⟩
      · rintro ⟨⟩
  | _ => rfl

end Evaluation

end PagePress.Template
