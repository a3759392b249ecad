import PagePress.Proofs.Chain
import PagePress.Proofs.Template.Reach
import PagePress.Proofs.Template.Triple

namespace PagePress.Template

namespace Vars

def names (vars : Vars) : List String := vars.map (·.1)

theorem get?_of_mem {vars : Vars} {name : String} (member : name ∈ vars.names) :
    ∃ value, vars.get? name = some value := by
  obtain ⟨entry, inside, same⟩ := List.mem_map.mp member
  have found : (vars.find? (·.1 == name)).isSome := by
    rw [List.find?_isSome]
    exact ⟨entry, inside, beq_iff_eq.mpr same⟩
  obtain ⟨first, found⟩ := Option.isSome_iff_exists.mp found
  exact ⟨first.2, by rw [get?, found, Option.map_some]⟩

theorem names_assign (vars : Vars) (name : String) (value : Json) :
    (vars.assign name value).names = vars.names := by
  induction vars with
  | nil => rfl
  | cons entry rest ih =>
    rw [assign]
    split
    · rfl
    · exact congrArg (entry.1 :: ·) ih

theorem names_bind (vars : Vars) (assigns : Bool) (name : String) (value : Json) :
    (vars.bind assigns name value).names = declared [name] assigns ++ vars.names := by
  cases assigns with
  | true => exact names_assign vars name value
  | false => rfl

theorem names_bindAll (vars : Vars) (assigns : Bool) (names : List String) (value : Json) :
    Vars.names (names.foldl (fun vars name => Vars.bind vars assigns name value) vars) =
      declared names assigns ++ vars.names := by
  induction names generalizing vars with
  | nil => cases assigns <;> rfl
  | cons name rest ih =>
    rw [List.foldl_cons, ih, names_bind]
    cases assigns <;> simp [declared]

theorem names_bindItem (names : List String) (assigns : Bool) (key element : Json) (vars : Vars) :
    Vars.names (bindItem names assigns key element vars) =
      declared (elementNames names) assigns ++ vars.names := by
  rcases names with _ | ⟨first, _ | ⟨second, _ | ⟨third, rest⟩⟩⟩
  · cases assigns <;> rfl
  · exact names_bind vars assigns first element
  · rw [bindItem, names_bind, names_bind, elementNames]
    cases assigns <;> simp [declared]
  · cases assigns <;> rfl

theorem length_names (vars : Vars) : vars.names.length = vars.length := by simp [names]

theorem length_assign (vars : Vars) (name : String) (value : Json) :
    (vars.assign name value).length = vars.length := by
  rw [← length_names, names_assign, length_names]

theorem names_leave {base : List String} {vars : Vars} (grown : base <:+ vars.names) :
    (vars.leave base.length).names = base := by
  rw [leave, names, List.map_drop, ← length_names vars]
  exact (List.suffix_iff_eq_drop.mp grown).symm

end Vars

-- What was bound at the base still is, and what is said to be bound is.
structure Covers (base : List String) (reach : Reach) (vars : Vars) : Prop where
  grown : base <:+ vars.names
  bound : ∀ name, (name, true) ∈ reach → name ∈ vars.names

-- An undefined variable is used on the line of the error, where it may be missing.
def Blames (uses : List Use) (stop : Halt ExecError) : Prop :=
  ∀ line name, stop = .fault ⟨line, .undefinedVariable name⟩ →
    ∃ use ∈ uses, use.name = name ∧ use.line = line ∧ ¬use.Bound

theorem Blames.of_subset {few many : List Use} (subset : few ⊆ many) {stop : Halt ExecError}
    (blames : Blames few stop) : Blames many stop := by
  intro line name undefined
  obtain ⟨use, member, rest⟩ := blames line name undefined
  exact ⟨use, subset member, rest⟩

variable {base : List String} {reach : Reach}

theorem Covers.of_sure {other : Reach} {vars : Vars} (covers : Covers base reach vars)
    (sure : ∀ name, (name, true) ∈ other → (name, true) ∈ reach) : Covers base other vars :=
  ⟨covers.grown, fun name member => covers.bound name (sure name member)⟩

theorem Covers.forget {more : Reach} {vars : Vars} (covers : Covers base (more ++ reach) vars) :
    Covers base reach vars :=
  covers.of_sure fun _ member => List.mem_append_right _ member

theorem Covers.loosened {vars : Vars} (covers : Covers base reach vars) (more : Reach) :
    Covers base (more.loosened ++ reach) vars :=
  covers.of_sure fun name member =>
    (List.mem_append.mp member).resolve_left (Reach.not_mem_loosened name more)

theorem Covers.loose {vars : Vars} (covers : Covers base reach vars) (names : List String) :
    Covers base (.loose names ++ reach) vars :=
  covers.of_sure fun name member =>
    (List.mem_append.mp member).resolve_left (Reach.not_mem_loose name names)

theorem Covers.push {vars next : Vars} (covers : Covers base reach vars) {names : List String}
    (pushed : next.names = names ++ vars.names) : Covers base (.sure names ++ reach) next := by
  refine ⟨?_, fun name member => ?_⟩
  · rw [pushed]
    exact covers.grown.trans (List.suffix_append names vars.names)
  · rw [pushed]
    rcases List.mem_append.mp member with new | old
    · exact List.mem_append_left _ (Reach.mem_sure.mp new)
    · exact List.mem_append_right _ (covers.bound name old)

theorem fieldOf_fault {policy : MissingKey} {value : Json} {key : String} {fault : ExecFault}
    (failed : fieldOf policy value key = .error fault) (name : String) :
    fault ≠ .undefinedVariable name := by
  rw [fieldOf.eq_def] at failed
  rintro rfl
  split at failed
  · split at failed
    · cases failed
    · split at failed <;> cases failed
  · split at failed <;> cases failed
  · cases failed

theorem path_fault {policy : MissingKey} {path : List String} {value : Json} {fault : ExecFault}
    (failed : path.foldlM (fieldOf policy) value = .error fault) (name : String) :
    fault ≠ .undefinedVariable name := by
  induction path generalizing value with
  | nil => cases failed
  | cons key rest ih =>
    rw [List.foldlM_cons] at failed
    rcases Chain.bind_eq_error.mp failed with first | ⟨inner, -, later⟩
    · exact fieldOf_fault first name
    · exact ih later

theorem itemsOf_fault {value : Json} {fault : ExecFault} (failed : itemsOf value = .error fault)
    (name : String) : fault ≠ .undefinedVariable name := by
  rw [itemsOf.eq_def] at failed
  rintro rfl
  split at failed
  · cases failed
  · cases failed
  · cases failed
  · split at failed <;> cases failed
  · cases failed

section Evaluation

variable (policy : MissingKey) (dot : Json) (line : Nat)

theorem walkFields_binds (value : Json) (path : List String) (uses : List Use) :
    Evaluates (Covers base reach) (walkFields policy line value path) (fun _ => Covers base reach)
      (Blames uses) := by
  rw [walkFields]
  split
  · exact .pure fun _ covers => covers
  · rename_i fault failed
    refine .refuse fun _ name undefined => ?_
    cases undefined
    exact (path_fault failed name rfl).elim

theorem callBuiltin_binds (builtin : Builtin) (args : List Json) (uses : List Use) :
    Evaluates (Covers base reach) (callBuiltin line builtin args) (fun _ => Covers base reach)
      (Blames uses) := by
  rw [callBuiltin]
  split
  · exact .pure fun _ covers => covers
  · rename_i stop failed
    exact .stop (by cases stop <;> nofun)

theorem evalVar_binds (name : String) (path : List String) :
    Evaluates (Covers base reach) (evalOperand policy dot line (.var name path))
      (fun _ => Covers base reach) (Blames [⟨name, line, reach⟩]) := by
  rw [evalOperand]
  have looked : Evaluates (Covers base reach) MonadState.get
      (fun seen vars => seen = vars ∧ Covers base reach vars) (Blames [⟨name, line, reach⟩]) :=
    .get fun vars covers => ⟨rfl, covers⟩
  refine .bind looked fun seen => ?_
  rintro vars ⟨rfl, covers⟩
  cases found : seen.get? name with
  | some value => exact walkFields_binds policy line value path _ seen covers
  | none =>
    intro here other undefined
    cases undefined
    refine ⟨⟨name, line, reach⟩, List.mem_singleton_self _, rfl, rfl, fun bound => ?_⟩
    obtain ⟨value, there⟩ := Vars.get?_of_mem (covers.bound name bound)
    cases found.symm.trans there

theorem Evaluates.next {α β : Type} {first : Eval α} {second : α → Eval β} {here there : Reach}
    {uses later all : List Use}
    (done : Evaluates (Covers base reach) first (fun _ => Covers base here) (Blames uses))
    (rest : ∀ a, Evaluates (Covers base here) (second a) (fun _ => Covers base there)
      (Blames later))
    (few : uses ⊆ all) (more : later ⊆ all) :
    Evaluates (Covers base reach) (first >>= second) (fun _ => Covers base there) (Blames all) :=
  .bind (done.imp_failed fun _ => Blames.of_subset few) fun a =>
    (rest a).imp_failed fun _ => Blames.of_subset more

def Binds {α : Type} (e : Eval α) (adds : Reach) (uses : Reach → List Use) : Prop :=
  ∀ base reach, Evaluates (Covers base reach) e (fun _ => Covers base (adds ++ reach))
    (Blames (uses reach))

theorem evalCommand_other {piped : Option Json} {operand : Operand} {rest : List Operand}
    (other : ∀ builtin, operand ≠ .function builtin) (several : rest ≠ [] ∨ piped.isSome) :
    evalCommand policy dot piped (.mk line (operand :: rest)) = refuse line .notFunction := by
  cases rest with
  | nil =>
    have some := several.resolve_left fun more => more rfl
    cases operand with
    | function builtin => exact (other builtin rfl).elim
    | _ => simp only [evalCommand, some, if_true]
  | cons next later =>
    cases operand with
    | function builtin => exact (other builtin rfl).elim
    | _ => simp only [evalCommand]

theorem evalCommand_alone {operand : Operand} (other : ∀ builtin, operand ≠ .function builtin) :
    evalCommand policy dot none (.mk line [operand]) = evalOperand policy dot line operand := by
  cases operand with
  | function builtin => exact (other builtin rfl).elim
  | _ => simp [evalCommand]

theorem command_cases (piped : Option Json) (operand : Operand) (rest : List Operand) :
    (∃ builtin, operand = .function builtin) ∨
      (∀ builtin, operand ≠ .function builtin) ∧
        (rest = [] ∧ piped = none ∨ (rest ≠ [] ∨ piped.isSome)) := by
  by_cases function : ∃ builtin, operand = .function builtin
  · exact .inl function
  · refine .inr ⟨fun builtin same => function ⟨builtin, same⟩, ?_⟩
    cases rest with
    | cons => exact .inr (.inl (List.cons_ne_nil _ _))
    | nil =>
      cases piped with
      | none => exact .inl ⟨rfl, rfl⟩
      | some => exact .inr (.inr rfl)

theorem adds_alone (operand : Operand) : (Command.mk line [operand]).adds = operand.adds := by
  rw [Command.adds.eq_def]
  simp [operandsAdds]

theorem evalCommand_no_args (piped : Option Json) (builtin : Builtin) :
    Binds (evalCommand policy dot piped (.mk line [.function builtin])) []
      (operandsUses line · [.function builtin]) := by
  intro base reach
  rw [evalCommand]
  split
  · split
    · exact .refuse nofun
    · rw [evalUntil]
      exact .bind (.pure fun _ covers => covers) fun _ => .pure fun _ covers => covers
  · rw [evalOperands]
    exact .bind (.pure fun _ covers => covers) fun values => callBuiltin_binds line builtin _ _

theorem evalCommand_args {piped : Option Json} {builtin : Builtin} {first : Operand}
    {others : List Operand}
    (head : Binds (evalOperand policy dot line first) first.adds (first.uses line))
    (tail : Binds (evalOperands policy dot line others) (operandsAdds others)
      (operandsUses line · others))
    (short : ∀ decides last, Binds (evalUntil policy dot line decides last others) []
      (operandsUses line · others)) :
    Binds (evalCommand policy dot piped (.mk line (.function builtin :: first :: others)))
      (Command.mk line (.function builtin :: first :: others)).adds
      (operandsUses line · (.function builtin :: first :: others)) := by
  intro base reach
  have uses : operandsUses line reach (.function builtin :: first :: others) =
      first.uses line reach ++ operandsUses line (first.adds ++ reach) others := rfl
  simp only [uses, evalCommand, Command.adds, List.append_assoc]
  cases deciding? builtin with
  | some decides =>
    have more : ¬((first :: others).isEmpty = true ∧ piped.isNone = true) := nofun
    simp only [if_neg more, Option.isSome_some, if_true]
    have until_decided : Evaluates (Covers base reach)
        (evalUntil policy dot line decides .null (first :: others))
        (fun _ => Covers base (first.adds ++ reach))
        (Blames (first.uses line reach ++ operandsUses line (first.adds ++ reach) others)) := by
      rw [evalUntil]
      refine .next (head base reach) (fun value => ?_) (List.subset_append_left _ _)
        (List.subset_append_right _ _)
      split
      · exact .pure fun _ covers => covers
      · exact short decides value base (first.adds ++ reach)
    exact .bind until_decided fun result => .pure fun _ covers => covers.loosened _
  | none =>
    have all : Evaluates (Covers base reach) (evalOperands policy dot line (first :: others))
        (fun _ => Covers base (operandsAdds others ++ (first.adds ++ reach)))
        (Blames (first.uses line reach ++ operandsUses line (first.adds ++ reach) others)) := by
      rw [evalOperands]
      refine .next (head base reach) (fun value => ?_) (List.subset_append_left _ _)
        (List.subset_append_right _ _)
      exact .bind (tail base (first.adds ++ reach)) fun values => .pure fun _ covers => covers
    exact .bind all fun values => callBuiltin_binds line builtin _ _

mutual
theorem evalOperand_binds : (line : Nat) → (operand : Operand) →
    Binds (evalOperand policy dot line operand) operand.adds (operand.uses line)
  | line, .dot => fun base reach => by
    rw [evalOperand]
    exact .pure fun _ covers => covers
  | line, .literal value => fun base reach => by
    rw [evalOperand]
    exact .pure fun _ covers => covers
  | line, .field path => fun base reach => by
    rw [evalOperand]
    exact walkFields_binds policy line dot path _
  | line, .var name path => fun base reach => evalVar_binds policy dot line name path
  | line, .chain inner path => fun base reach => by
    rw [evalOperand]
    exact .next (evalOperand_binds line inner base reach)
      (fun value => walkFields_binds policy line value path (inner.uses line reach))
      (fun _ member => member) (fun _ member => member)
  | line, .group pipe => fun base reach => by
    rw [evalOperand]
    exact evalPipeline_binds pipe base reach
  | line, .function builtin => fun base reach => by
    rw [evalOperand]
    exact callBuiltin_binds line builtin [] _

theorem evalOperands_binds : (line : Nat) → (operands : List Operand) →
    Binds (evalOperands policy dot line operands) (operandsAdds operands)
      (operandsUses line · operands)
  | line, [] => fun base reach => by
    rw [evalOperands]
    exact .pure fun _ covers => covers
  | line, operand :: rest => fun base reach => by
    rw [evalOperands, operandsAdds, List.append_assoc]
    refine .next (evalOperand_binds line operand base reach) (fun value => ?_)
      (List.subset_append_left _ _) (List.subset_append_right _ _)
    exact .bind (evalOperands_binds line rest base (operand.adds ++ reach)) fun values =>
      .pure fun _ covers => covers

theorem evalUntil_binds : (line : Nat) → (operands : List Operand) → (decides : Bool) →
    (last : Json) →
    Binds (evalUntil policy dot line decides last operands) [] (operandsUses line · operands)
  | line, [], decides, last => fun base reach => by
    rw [evalUntil]
    exact .pure fun _ covers => covers
  | line, operand :: rest, decides, last => fun base reach => by
    rw [evalUntil]
    refine .next (evalOperand_binds line operand base reach) (fun value => ?_)
      (List.subset_append_left _ _) (List.subset_append_right _ _)
    split
    · exact .pure fun _ covers => covers.forget
    · have later := evalUntil_binds line rest decides value base (operand.adds ++ reach)
      exact later.imp_after fun _ _ covers => Covers.forget covers

theorem evalCommand_binds : (piped : Option Json) → (command : Command) →
    Binds (evalCommand policy dot piped command) command.adds command.uses
  | piped, .mk line [] => fun base reach => by
    rw [evalCommand.eq_def]
    exact .refuse nofun
  | piped, .mk line [operand] => by
    have alone := evalOperand_binds line operand
    rcases command_cases piped operand [] with ⟨builtin, rfl⟩ | ⟨other, ⟨-, rfl⟩ | several⟩
    · exact evalCommand_no_args policy dot line piped builtin
    · intro base reach
      rw [evalCommand_alone policy dot line other, adds_alone]
      exact (alone base reach).imp_failed fun _ =>
        Blames.of_subset (List.subset_append_left _ _)
    · intro base reach
      rw [evalCommand_other policy dot line other several]
      exact .refuse nofun
  | piped, .mk line (operand :: first :: others) => by
    have head := evalOperand_binds line first
    have tail := evalOperands_binds line others
    have short := evalUntil_binds line others
    rcases command_cases piped operand (first :: others) with
      ⟨builtin, rfl⟩ | ⟨other, ⟨⟨⟩, -⟩ | several⟩
    · exact evalCommand_args policy dot line head tail short
    · intro base reach
      rw [evalCommand_other policy dot line other several]
      exact .refuse nofun

theorem evalCommands_binds : (piped : Option Json) → (commands : List Command) →
    Binds (evalCommands policy dot piped commands) (commandsAdds commands)
      (commandsUses · commands)
  | piped, [] => fun base reach => by
    rw [evalCommands]
    exact .pure fun _ covers => covers
  | piped, command :: rest => fun base reach => by
    rw [evalCommands, commandsAdds, List.append_assoc]
    exact .next (evalCommand_binds piped command base reach)
      (fun value => evalCommands_binds (some value) rest base (command.adds ++ reach))
      (List.subset_append_left _ _) (List.subset_append_right _ _)

theorem evalPipeline_binds : (pipe : Pipeline) →
    Binds (evalPipeline policy dot pipe) pipe.adds pipe.uses
  | .mk line names assigns commands => fun base reach => by
    rw [evalPipeline]
    refine .bind ((evalCommands_binds none commands base _).imp_before fun _ covers =>
      covers.loose (declared names assigns)) fun value => ?_
    refine .bind (.update fun vars covers => ?_) fun done => .pure fun _ bound => bound
    have pushed := covers.push (Vars.names_bindAll vars assigns names value)
    refine pushed.of_sure fun name member => ?_
    simp only [Pipeline.adds, List.mem_append] at member ⊢
    rcases member with (inside | named) | old
    · exact .inr (.inl inside)
    · exact .inl named
    · exact .inr (.inr (.inr old))
end

end Evaluation

section Running

variable (options : Options)

-- A run may also end for want of room, wherever it is.
def Faults (uses : List Use) : Failure → Sink → Prop
  | .exec stop, _ => Blames uses stop
  | .write _, _ => True

theorem Faults.of_subset {few many : List Use} (subset : few ⊆ many)
    {failure : Failure} {sink : Sink}
    (faults : Faults few failure sink) : Faults many failure sink := by
  cases failure with
  | exec stop => exact Blames.of_subset subset faults
  | write fault => trivial

theorem Performs.next {α β : Type} {before : Vars → Sink → Prop} {first : Run α}
    {second : α → Run β} {middle : α → Vars → Sink → Prop} {after : β → Vars → Sink → Prop}
    {uses later all : List Use} (done : Performs before first middle (Faults uses))
    (rest : ∀ a, Performs (middle a) (second a) after (Faults later))
    (few : uses ⊆ all) (more : later ⊆ all) :
    Performs before (first >>= second) after (Faults all) :=
  .bind (done.imp_failed fun _ _ => Faults.of_subset few) fun a =>
    (rest a).imp_failed fun _ _ => Faults.of_subset more

-- What is behind a list of nodes only counts if no node leaves the list.
def RunBinds (run : Run Flow) (adds : Reach) (uses : Reach → List Use) : Prop :=
  ∀ base reach, Performs (fun vars _ => Covers base reach vars) run
    (fun flow vars _ => Covers base reach vars ∧
      (flow = .normal → Covers base (adds ++ reach) vars))
    (Faults (uses reach))

theorem Evaluates.performs {α : Type} {e : Eval α} {there : Reach} {uses : List Use}
    (done : Evaluates (Covers base reach) e (fun _ => Covers base there) (Blames uses)) :
    Performs (fun vars _ => Covers base reach vars) (evaluate e)
      (fun _ vars _ => Covers base there vars) (Faults uses) := by
  refine .evaluate fun vars sink covers => ?_
  have ended := done vars covers
  cases result : e vars with
  | ok p =>
    rw [result] at ended
    exact ended
  | error error =>
    rw [result] at ended
    exact ended

theorem emit_binds (piece : Piece) (uses : List Use) :
    Performs (fun vars _ => Covers base reach vars) (emit piece)
      (fun _ vars _ => Covers base reach vars) (Faults uses) := by
  refine .emit fun vars sink covers => ?_
  split
  · exact covers
  · trivial

theorem enclosed_binds (base : List String) {run : Run Flow} {uses : List Use}
    (inside : ∀ base, (∀ name, (name, true) ∈ reach → name ∈ base) →
      Performs (fun vars _ => vars.names = base) run (fun _ vars _ => base <:+ vars.names)
        (Faults uses)) :
    Performs (fun vars _ => Covers base reach vars) (enclosed run)
      (fun _ vars _ => Covers base reach vars) (Faults uses) := by
  have known : ∀ outer, Performs (fun vars _ => vars = outer ∧ Covers base reach vars) run
      (fun _ vars _ => Covers base reach outer ∧ outer.names <:+ vars.names) (Faults uses) := by
    rintro outer vars sink ⟨rfl, covers⟩
    have ended := inside vars.names covers.bound vars sink rfl
    split at ended
    · exact ⟨covers, ended⟩
    · exact ended
  refine .enclosed known fun outer flow vars sink ended => ?_
  obtain ⟨covers, grown⟩ := ended
  have same := Vars.names_leave grown
  rw [Vars.length_names] at same
  exact ⟨same ▸ covers.grown, same ▸ covers.bound⟩

theorem covers_base {vars : Vars} (names : vars.names = base)
    (held : ∀ name, (name, true) ∈ reach → name ∈ base) : Covers base reach vars :=
  ⟨names ▸ List.suffix_refl _, fun name member => names ▸ held name member⟩

-- Each element starts from the base and goes back to it.
theorem forEach_binds {names : List String} {assigns : Bool} {body : Json → Run Flow} {adds : Reach}
    {uses : Reach → List Use} (held : ∀ name, (name, true) ∈ reach → name ∈ base)
    (each : ∀ element, RunBinds (body element) adds uses) (there : Reach)
    (enter : ∀ name, (name, true) ∈ there →
      (name, true) ∈ Reach.sure (declared (elementNames names) assigns) ++ reach)
    (items : Items) :
    Performs (fun vars _ => Covers base reach vars)
      (items.forEach fun key element => do
        modify (bindItem names assigns key element)
        let flow ← body element
        modify (·.leave base.length)
        pure flow)
      (fun _ vars _ => Covers base reach vars) (Faults (uses there)) := by
  refine .forEach (fun key element => ?_) items
  have bound : Performs (fun vars _ => Covers base reach vars)
      (modify (bindItem names assigns key element)) (fun _ vars _ => Covers base there vars)
      (Faults (uses there)) :=
    .update fun vars sink covers =>
      (covers.push (Vars.names_bindItem names assigns key element vars)).of_sure enter
  refine .bind bound fun done => .bind (each element base there) fun flow => ?_
  have left : Performs (fun vars _ => Covers base there vars ∧
        (flow = .normal → Covers base (adds ++ there) vars))
      (modify fun vars => Vars.leave vars base.length) (fun _ vars _ => Covers base reach vars)
      (Faults (uses there)) :=
    .update fun vars sink ended => covers_base (Vars.names_leave ended.1.grown) held
  exact .bind left fun done => .pure fun _ _ covers => covers

def ElseBinds (otherwise : Option (List Node)) : Prop :=
  ∀ dot base reach, Performs (fun vars _ => Covers base reach vars)
    (runOtherwise options dot otherwise) (fun _ vars _ => Covers base reach vars)
    (Faults (otherwiseUses reach otherwise))

variable {options} {pipe : Pipeline} {body : List Node} {otherwise : Option (List Node)}
  (inBody : ∀ dot, RunBinds (runNodes options dot body) (nodesAdds body) (nodesUses · body))
  (inElse : ElseBinds options otherwise)
include inBody inElse

theorem either_binds {kind : BranchKind} (ranges : kind ≠ .rangeBranch) (dot inner : Json)
    (holds : Bool) :
    Performs (fun vars _ => Covers base (pipe.adds ++ reach) vars)
      (if holds then runNodes options inner body else runOtherwise options dot otherwise)
      (fun _ vars _ => base <:+ vars.names)
      (Faults (nodesUses (bodyReach kind pipe reach) body ++
        otherwiseUses (elseReach kind pipe body reach) otherwise)) := by
  rw [bodyReach, elseReach, if_neg ranges, if_neg ranges]
  split
  · exact (inBody inner base _).imp (fun _ _ covers => covers) (fun _ _ _ ended => ended.1.grown)
      fun _ _ => Faults.of_subset (List.subset_append_left _ _)
  · exact (inElse dot base _).imp (fun _ _ covers => covers.loosened _)
      (fun _ _ _ covers => covers.grown) fun _ _ => Faults.of_subset (List.subset_append_right _ _)

theorem branch_binds {kind : BranchKind} (ranges : kind ≠ .rangeBranch) (line : Nat) (dot : Json) :
    RunBinds (runNode options dot (.branch kind line pipe body otherwise)) []
      (Node.uses · (.branch kind line pipe body otherwise)) := by
  intro base reach
  have inside : ∀ base, (∀ name, (name, true) ∈ reach → name ∈ base) →
      Performs (fun vars _ => vars.names = base) (do
        let value ← evaluate (evalPipeline options.missingKey dot pipe)
        if truth value then runNodes options (if kind = .withBranch then value else dot) body
        else runOtherwise options dot otherwise)
      (fun _ vars _ => base <:+ vars.names)
      (Faults (Node.uses reach (.branch kind line pipe body otherwise))) := by
    intro base held
    have header := (evalPipeline_binds options.missingKey dot pipe base reach).performs
    refine .next (header.imp_before fun vars _ names => covers_base names held) (fun value => ?_)
      (List.subset_append_left _ _) (List.subset_append_right _ _)
    exact either_binds inBody inElse ranges dot _ (truth value)
  have whole := enclosed_binds base inside
  cases kind with
  | rangeBranch => exact (ranges rfl).elim
  | _ =>
    rw [runNode]
    · exact whole.imp_after fun _ _ _ covers => ⟨covers, fun _ => covers⟩
    · exact nofun

theorem items_binds (held : ∀ name, (name, true) ∈ reach → name ∈ base) {size : Nat}
    (entered : size = base.length) (line : Nat) (dot value : Json) :
    Performs (fun vars _ => Covers base
        (commandsAdds pipe.commands ++ (.loose (declared pipe.names pipe.assigns) ++ reach)) vars)
      (match itemsOf value with
        | .error fault => throw (.exec (.fault ⟨line, fault⟩))
        | .ok items =>
          if items.isEmpty then runOtherwise options dot otherwise
          else do
            items.forEach fun key element => do
              modify (bindItem pipe.names pipe.assigns key element)
              let flow ← runNodes options element body
              modify (·.leave size)
              pure flow
            pure .normal)
      (fun _ vars _ => base <:+ vars.names)
      (Faults (nodesUses (bodyReach .rangeBranch pipe reach) body ++
        otherwiseUses (elseReach .rangeBranch pipe body reach) otherwise)) := by
  subst entered
  rw [bodyReach, elseReach, if_pos rfl, if_pos rfl]
  split
  · rename_i fault failed
    refine .fail fun _ _ _ _ name undefined => ?_
    cases undefined
    exact (itemsOf_fault failed name rfl).elim
  · rename_i items found
    split
    · exact (inElse dot base _).imp (fun _ _ covers => covers.loosened _)
        (fun _ _ _ covers => covers.grown)
        fun _ _ => Faults.of_subset (List.subset_append_right _ _)
    · let there : Reach := (commandsAdds pipe.commands).loosened ++
        (.sure (declared (elementNames pipe.names) pipe.assigns) ++ reach)
      have enter : ∀ name, (name, true) ∈ there →
          (name, true) ∈ Reach.sure (declared (elementNames pipe.names) pipe.assigns) ++ reach :=
        fun name member => (List.mem_append.mp member).resolve_left (Reach.not_mem_loosened name _)
      have looped := forEach_binds held inBody there enter items
      refine .next (looped.imp_before fun _ _ covers => covers.forget.forget) (fun done => ?_)
        (List.subset_append_left _ _) (List.nil_subset _)
      exact .pure fun _ _ covers => covers.grown

theorem range_binds (line : Nat) (dot : Json) :
    RunBinds (runNode options dot (.branch .rangeBranch line pipe body otherwise)) []
      (Node.uses · (.branch .rangeBranch line pipe body otherwise)) := by
  intro base reach
  rw [runNode]
  refine Performs.imp_after (enclosed_binds base fun base held => ?_) fun _ _ _ covers =>
    ⟨covers, fun _ => covers⟩
  have size : Performs (fun vars _ => vars.names = base) MonadState.get
      (fun seen vars _ => seen.names = base ∧ vars.names = base)
      (Faults (Node.uses reach (.branch .rangeBranch line pipe body otherwise))) :=
    .get fun vars sink names => ⟨names, names⟩
  refine .bind size fun seen => .assuming fun names => ?_
  have header := (evalCommands_binds options.missingKey dot none pipe.commands base
    (.loose (declared pipe.names pipe.assigns) ++ reach)).performs
  simp only [← Pipeline.uses_eq] at header
  refine .next (header.imp_before fun vars _ names => (covers_base names held).loose _)
    (fun value => ?_) (List.subset_append_left _ _) (List.subset_append_right _ _)
  exact items_binds inBody inElse held (names ▸ (Vars.length_names seen).symm) line dot value

omit inBody inElse
variable (options)

mutual
theorem runNode_binds : (node : Node) → (dot : Json) →
    RunBinds (runNode options dot node) node.adds node.uses
  | .text bytes, dot => fun base reach => by
    rw [runNode]
    exact .bind (emit_binds _ _) fun done => .pure fun _ _ covers => ⟨covers, fun _ => covers⟩
  | .action pipe, dot => fun base reach => by
    rw [runNode]
    have piped := evalPipeline_binds options.missingKey dot pipe base reach
    refine .bind piped.performs fun value => ?_
    split
    · exact .bind (emit_binds _ _) fun done => .pure fun _ _ covers =>
        ⟨covers.forget, fun _ => covers⟩
    · exact .pure fun _ _ covers => ⟨covers.forget, fun _ => covers⟩
  | .branch kind line pipe body otherwise, dot => by
    have inBody := runNodes_binds body
    have inElse := runOtherwise_binds otherwise
    by_cases ranges : kind = .rangeBranch
    · subst ranges
      exact range_binds inBody inElse line dot
    · exact branch_binds inBody inElse ranges line dot
  | .breakRange, dot => fun base reach => by
    rw [runNode]
    exact .pure fun _ _ covers => ⟨covers, nofun⟩
  | .continueRange, dot => fun base reach => by
    rw [runNode]
    exact .pure fun _ _ covers => ⟨covers, nofun⟩

theorem runNodes_binds : (nodes : List Node) → (dot : Json) →
    RunBinds (runNodes options dot nodes) (nodesAdds nodes) (nodesUses · nodes)
  | [], dot => fun base reach => by
    rw [runNodes]
    exact .pure fun _ _ covers => ⟨covers, fun _ => covers⟩
  | node :: rest, dot => fun base reach => by
    rw [runNodes]
    have first := runNode_binds node dot base reach
    have later := runNodes_binds rest dot base (node.adds ++ reach)
    refine .next first (fun flow => ?_) (List.subset_append_left _ _) (List.subset_append_right _ _)
    split
    · rename_i normal
      refine later.imp (fun _ _ ended => ended.2 normal) (fun flow vars _ ended => ⟨?_, ?_⟩)
        fun _ _ faults => faults
      · exact ended.1.forget
      · rw [nodesAdds, List.append_assoc]
        exact ended.2
    · rename_i leaves
      exact .pure fun _ _ ended => ⟨ended.1, fun normal => (leaves normal).elim⟩

theorem runOtherwise_binds : (otherwise : Option (List Node)) → (dot : Json) →
    (base : List String) → (reach : Reach) →
    Performs (fun vars _ => Covers base reach vars) (runOtherwise options dot otherwise)
      (fun _ vars _ => Covers base reach vars) (Faults (otherwiseUses reach otherwise))
  | none, dot, base, reach => by
    rw [runOtherwise]
    exact .pure fun _ _ covers => covers
  | some nodes, dot, base, reach => by
    rw [runOtherwise]
    exact (runNodes_binds nodes dot base reach).imp_after fun _ _ _ ended => ended.1
end

theorem runTree_blames {values : Json} {nodes : List Node} {sink : Sink} {stop : Halt ExecError}
    (failed : (runTree options values nodes sink).1 = .error (.exec stop)) :
    Blames (nodesUses (.sure ["$"]) nodes) stop := by
  have covers : Covers [] (.sure ["$"]) [("$", values)] :=
    ⟨List.nil_suffix, fun name member => Reach.mem_sure.mp member⟩
  have ended := runNodes_binds options nodes values [] (.sure ["$"]) [("$", values)] sink covers
  have whole : runTree options values nodes sink =
      match perform (runNodes options values nodes) [("$", values)] sink with
      | (.ok _, sink) => (sink.flush.mapError .write, sink)
      | (.error failure, sink) => (.error failure, sink) := rfl
  rw [whole] at failed
  split at failed
  · rename_i left found
    obtain ⟨fault, -, write⟩ := Chain.mapError_eq_error.mp failed
    cases write
  · rename_i failure left found
    rw [found] at ended
    cases Except.error.inj failed
    exact ended

end Running

end PagePress.Template
