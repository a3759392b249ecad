import PagePress.Proofs.Template.Grammar

namespace PagePress.Template

def Operand.isSilent : Operand → Bool
  | .literal (.str text) => text.isEmpty
  | _ => false

def Command.isSilent : Command → Bool
  | .mk _ [operand] => operand.isSilent
  | _ => false

def Pipeline.isSilent : Pipeline → Bool
  | .mk _ [] _ [command] => command.isSilent
  | _ => false

def Pipeline.silent : Pipeline := .mk 0 [] false [.mk 0 [.literal (.str "")]]

def Node.isSilent : Node → Bool
  | .action pipe => pipe.isSilent
  | _ => false

mutual
def Node.pruned (mutes : Bool) : Node → Node
  | .text bytes => .text bytes
  | .action pipe => .action pipe.unlined
  | .branch kind _ pipe body otherwise =>
    .branch kind 0 pipe.unlined (nodesPruned mutes body) (otherwisePruned mutes otherwise)
  | .breakRange => .breakRange
  | .continueRange => .continueRange

def nodesPruned (mutes : Bool) : List Node → List Node
  | [] => []
  | node :: rest =>
    if mutes && node.isSilent then nodesPruned mutes rest
    else node.pruned mutes :: nodesPruned mutes rest

def otherwisePruned (mutes : Bool) : Option (List Node) → Option (List Node)
  | some nodes => some (nodesPruned mutes nodes)
  | none => none
end

mutual
theorem Node.pruned_false : (node : Node) → node.pruned false = node.unlined
  | .text _ => rfl
  | .action _ => rfl
  | .branch _ _ _ body otherwise => by
    rw [Node.pruned, nodesPruned_false body, otherwisePruned_false otherwise, Node.unlined]
  | .breakRange => rfl
  | .continueRange => rfl

theorem nodesPruned_false : (nodes : List Node) → nodesPruned false nodes = nodesUnlined nodes
  | [] => rfl
  | node :: rest => by
    rw [nodesPruned, node.pruned_false, nodesPruned_false rest]
    rfl

theorem otherwisePruned_false : (otherwise : Option (List Node)) →
    otherwisePruned false otherwise = otherwiseUnlined otherwise
  | none => rfl
  | some nodes => congrArg some (nodesPruned_false nodes)
end

variable {mutes : Bool} {node : Node} {nodes others : List Node}

theorem Operand.silent_unlined (operand : Operand) :
    operand.unlined.isSilent = operand.isSilent := by
  cases operand <;> rfl

theorem Command.silent_unlined (command : Command) :
    command.unlined.isSilent = command.isSilent := by
  obtain ⟨line, operands⟩ := command
  rcases operands with _ | ⟨operand, _ | ⟨second, rest⟩⟩
  · rfl
  · exact operand.silent_unlined
  · rfl

theorem Pipeline.silent_unlined (pipe : Pipeline) : pipe.unlined.isSilent = pipe.isSilent := by
  obtain ⟨line, names, assigns, commands⟩ := pipe
  rcases names with _ | ⟨name, names⟩
  · rcases commands with _ | ⟨command, _ | ⟨second, rest⟩⟩
    · rfl
    · exact command.silent_unlined
    · rfl
  · rfl

theorem Command.silent_cases {command : Command} (silent : command.isSilent = true) :
    ∃ line, command = .mk line [.literal (.str "")] := by
  unfold Command.isSilent at silent
  split at silent
  · unfold Operand.isSilent at silent
    split at silent
    · rename_i line _ text
      obtain rfl : text = "" := String.isEmpty_iff.mp silent
      exact ⟨line, rfl⟩
    · cases silent
  · cases silent

theorem Pipeline.silent_cases {pipe : Pipeline} (silent : pipe.isSilent = true) :
    ∃ line assigns inner, pipe = .mk line [] assigns [.mk inner [.literal (.str "")]] := by
  unfold Pipeline.isSilent at silent
  split at silent
  · obtain ⟨inner, rfl⟩ := Command.silent_cases silent
    exact ⟨_, _, inner, rfl⟩
  · cases silent

theorem nodesPruned_cons (node : Node) (rest : List Node) :
    nodesPruned mutes (node :: rest) =
      if mutes && node.isSilent then nodesPruned mutes rest
      else node.pruned mutes :: nodesPruned mutes rest := rfl

theorem pruned_append (nodes others : List Node) :
    nodesPruned mutes (nodes ++ others) = nodesPruned mutes nodes ++ nodesPruned mutes others := by
  induction nodes with
  | nil => rfl
  | cons node rest ih =>
    rw [List.cons_append, nodesPruned_cons, nodesPruned_cons, ih]
    split
    · rfl
    · rfl

theorem pruned_cons (same : nodesPruned mutes nodes = node :: others) :
    ∃ before kept rest, nodes = before ++ kept :: rest ∧
      (∀ silent ∈ before, (mutes && silent.isSilent) = true) ∧
      (mutes && kept.isSilent) = false ∧ kept.pruned mutes = node ∧
      nodesPruned mutes rest = others := by
  induction nodes with
  | nil => cases same
  | cons first rest ih =>
    rw [nodesPruned_cons] at same
    split at same
    · rename_i silent
      obtain ⟨before, kept, behind, rfl, all, found⟩ := ih same
      exact ⟨first :: before, kept, behind, rfl, List.forall_mem_cons.mpr ⟨silent, all⟩, found⟩
    · rename_i heard
      obtain ⟨alike, later⟩ := List.cons.inj same
      exact ⟨[], first, rest, rfl, nofun, Bool.eq_false_iff.mpr heard, alike, later⟩

theorem pruned_nil (same : nodesPruned mutes nodes = []) :
    ∀ silent ∈ nodes, (mutes && silent.isSilent) = true := by
  induction nodes with
  | nil => exact nofun
  | cons first rest ih =>
    rw [nodesPruned_cons] at same
    split at same
    · rename_i silent
      exact List.forall_mem_cons.mpr ⟨silent, ih same⟩
    · cases same

end PagePress.Template
