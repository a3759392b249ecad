import Mathlib
import PagePress.Template.Exec

namespace PagePress.Template

-- A name in scope, innermost first, and whether every run that comes here has bound it.
abbrev Reach := List (String × Bool)

namespace Reach

def names (reach : Reach) : List String := reach.map (·.1)

def loosened (reach : Reach) : Reach := reach.map fun (name, _) => (name, false)

def sure (names : List String) : Reach := names.map (·, true)

def loose (names : List String) : Reach := names.map (·, false)

@[simp] theorem names_append (a b : Reach) : (a ++ b).names = a.names ++ b.names :=
  List.map_append

@[simp] theorem names_loosened (reach : Reach) : reach.loosened.names = reach.names := by
  simp [names, loosened]

@[simp] theorem names_sure (names : List String) : (sure names).names = names := by
  simp [Reach.names, sure, Function.comp_def]

@[simp] theorem names_loose (names : List String) : (loose names).names = names := by
  simp [Reach.names, loose, Function.comp_def]

@[simp] theorem not_mem_loosened (name : String) (reach : Reach) :
    (name, true) ∉ reach.loosened := by simp [loosened]

@[simp] theorem not_mem_loose (name : String) (names : List String) :
    (name, true) ∉ loose names := by simp [loose]

@[simp] theorem mem_sure {name : String} {names : List String} :
    (name, true) ∈ sure names ↔ name ∈ names := by simp [sure]

end Reach

structure Use where
  name : String
  line : Nat
  here : Reach

namespace Use

def InScope (use : Use) : Prop := use.name ∈ use.here.names

def Bound (use : Use) : Prop := (use.name, true) ∈ use.here

end Use

def declared (names : List String) (assigns : Bool) : List String :=
  if assigns then [] else names.reverse

mutual
def Operand.adds : Operand → Reach
  | .chain inner _ => inner.adds
  | .group pipe => pipe.adds
  | .dot | .field _ | .var _ _ | .function _ | .literal _ => []

def operandsAdds : List Operand → Reach
  | [] => []
  | operand :: rest => operandsAdds rest ++ operand.adds

-- Behind the first argument of a function that need not look at all of them, all may be left out.
def Command.adds : Command → Reach
  | .mk _ (.function builtin :: first :: others) =>
    let later := operandsAdds others
    (if (deciding? builtin).isSome then later.loosened else later) ++ first.adds
  | .mk _ operands => operandsAdds operands

def commandsAdds : List Command → Reach
  | [] => []
  | command :: rest => commandsAdds rest ++ command.adds

def Pipeline.adds : Pipeline → Reach
  | .mk _ names assigns commands => commandsAdds commands ++ .sure (declared names assigns)
end

mutual
def Operand.uses (line : Nat) (reach : Reach) : Operand → List Use
  | .var name _ => [⟨name, line, reach⟩]
  | .chain inner _ => inner.uses line reach
  | .group pipe => pipe.uses reach
  | .dot | .field _ | .function _ | .literal _ => []

def operandsUses (line : Nat) (reach : Reach) : List Operand → List Use
  | [] => []
  | operand :: rest => operand.uses line reach ++ operandsUses line (operand.adds ++ reach) rest

def Command.uses (reach : Reach) : Command → List Use
  | .mk line operands => operandsUses line reach operands

def commandsUses (reach : Reach) : List Command → List Use
  | [] => []
  | command :: rest => command.uses reach ++ commandsUses (command.adds ++ reach) rest

-- The names are in scope at once, and bound when the value is there.
def Pipeline.uses (reach : Reach) : Pipeline → List Use
  | .mk _ names assigns commands => commandsUses (.loose (declared names assigns) ++ reach) commands
end

def Node.adds : Node → Reach
  | .action pipe => pipe.adds
  | .text _ | .branch .. | .breakRange | .continueRange => []

def nodesAdds : List Node → Reach
  | [] => []
  | node :: rest => nodesAdds rest ++ node.adds

def elementNames : List String → List String
  | [element] => [element]
  | [key, element] => [key, element]
  | _ => []

-- What else the header of a range declares is gone behind the first element.
def bodyReach (kind : BranchKind) (pipe : Pipeline) (reach : Reach) : Reach :=
  if kind = .rangeBranch then
    (commandsAdds pipe.commands).loosened ++
      (.sure (declared (elementNames pipe.names) pipe.assigns) ++ reach)
  else pipe.adds ++ reach

-- Where the else list runs, the body has not; and a range has not bound its names.
def elseReach (kind : BranchKind) (pipe : Pipeline) (body : List Node) (reach : Reach) : Reach :=
  (nodesAdds body).loosened ++
    if kind = .rangeBranch then
      commandsAdds pipe.commands ++ (.loose (declared pipe.names pipe.assigns) ++ reach)
    else pipe.adds ++ reach

mutual
def Node.uses (reach : Reach) : Node → List Use
  | .action pipe => pipe.uses reach
  | .branch kind _ pipe body otherwise =>
    pipe.uses reach ++ (nodesUses (bodyReach kind pipe reach) body ++
      otherwiseUses (elseReach kind pipe body reach) otherwise)
  | .text _ | .breakRange | .continueRange => []

def nodesUses (reach : Reach) : List Node → List Use
  | [] => []
  | node :: rest => node.uses reach ++ nodesUses (node.adds ++ reach) rest

def otherwiseUses (reach : Reach) : Option (List Node) → List Use
  | some nodes => nodesUses reach nodes
  | none => []
end

theorem Pipeline.names_adds (pipe : Pipeline) :
    pipe.adds.names = (commandsAdds pipe.commands).names ++ declared pipe.names pipe.assigns := by
  cases pipe
  simp [Pipeline.adds, commands, Pipeline.names, assigns]

theorem Pipeline.uses_eq (reach : Reach) (pipe : Pipeline) :
    pipe.uses reach =
      commandsUses (.loose (declared pipe.names pipe.assigns) ++ reach) pipe.commands := by
  cases pipe
  rfl

theorem names_command_adds (line : Nat) (operands : List Operand) :
    (Command.mk line operands).adds.names = (operandsAdds operands).names := by
  rw [Command.adds.eq_def]
  split
  · rename_i builtin first others same
    cases same
    simp only [operandsAdds, Operand.adds]
    split <;> simp
  · rename_i same
    cases same
    rfl

end PagePress.Template
