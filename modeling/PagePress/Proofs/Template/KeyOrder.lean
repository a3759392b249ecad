import PagePress.Proofs.Template.Assignments
import PagePress.Proofs.Template.Shuffling
import PagePress.Template.Compiled

namespace PagePress.Template
open Chain (Tallies)
open Json (Shuffled)

variable {α β γ δ : Type}

section Log

def telling (first : Vars → List Json) (e : Eval α) (next : α → Vars → List Json) (vars : Vars) :
    List Json :=
  first vars ++
    match e vars with
    | .ok (a, left) => next a left
    | .error _ => []

def tellingRun (first : Vars → Sink → List Json) (run : Run α)
    (next : α → Vars → Sink → List Json) (vars : Vars) (sink : Sink) : List Json :=
  first vars sink ++
    match perform run vars sink with
    | (.ok (a, left), after) => next a left after
    | (.error _, _) => []

mutual
def Operand.shown (policy : MissingKey) (dot : Json) (line : Nat) : Operand → Vars → List Json
  | .chain inner _ => inner.shown policy dot line
  | .group pipe => pipe.shown policy dot
  | .dot | .field _ | .var _ _ | .function _ | .literal _ => fun _ => []

def operandsShown (policy : MissingKey) (dot : Json) (line : Nat) :
    List Operand → Vars → List Json
  | [] => fun _ => []
  | operand :: rest =>
    telling (operand.shown policy dot line) (evalOperand policy dot line operand) fun _ =>
      operandsShown policy dot line rest

def untilShown (policy : MissingKey) (dot : Json) (line : Nat) (decides : Bool) :
    List Operand → Vars → List Json
  | [] => fun _ => []
  | operand :: rest =>
    telling (operand.shown policy dot line) (evalOperand policy dot line operand) fun value =>
      if truth value = decides then fun _ => [] else untilShown policy dot line decides rest

def Command.shown (policy : MissingKey) (dot : Json) (piped : Option Json) :
    Command → Vars → List Json
  | .mk line (.function builtin :: rest) =>
    match deciding? builtin with
    | some decides => untilShown policy dot line decides rest
    | none =>
      telling (operandsShown policy dot line rest) (evalOperands policy dot line rest)
        fun values _ => if builtin.prints then values ++ piped.toList else []
  | .mk line [operand] =>
    if piped.isSome then fun _ => [] else operand.shown policy dot line
  | .mk _ _ => fun _ => []

def commandsShown (policy : MissingKey) (dot : Json) (piped : Option Json) :
    List Command → Vars → List Json
  | [] => fun _ => []
  | command :: rest =>
    telling (command.shown policy dot piped) (evalCommand policy dot piped command) fun value =>
      commandsShown policy dot (some value) rest

def Pipeline.shown (policy : MissingKey) (dot : Json) : Pipeline → Vars → List Json
  | .mk _ _ _ commands => commandsShown policy dot none commands
end

def rowsShown (each : Json → Json → Vars → Sink → List Json) (body : Json → Json → Run Flow) :
    List (Json × Json) → Vars → Sink → List Json
  | [] => fun _ _ => []
  | (key, element) :: rest =>
    tellingRun (each key element) (body key element) fun flow =>
      if flow = .broken then fun _ _ => [] else rowsShown each body rest

mutual
def Node.shown (options : Options) (dot : Json) : Node → Vars → Sink → List Json
  | .text _ | .breakRange | .continueRange => fun _ _ => []
  | .action pipe =>
    tellingRun (fun vars _ => pipe.shown options.missingKey dot vars)
      (evaluate (evalPipeline options.missingKey dot pipe)) fun value _ _ =>
        if pipe.names.isEmpty then [value] else []
  | .branch .rangeBranch _ pipe body otherwise => fun vars =>
    tellingRun (fun vars _ => commandsShown options.missingKey dot none pipe.commands vars)
      (evaluate (evalCommands options.missingKey dot none pipe.commands))
      (fun value =>
        match itemsOf value with
        | .error _ => fun _ _ => []
        | .ok items =>
          if items.isEmpty then otherwiseShown options dot otherwise
          else
            rowsShown
              (fun key element vars =>
                nodesShown options element body
                  (bindItem pipe.names pipe.assigns key element vars))
              (turn options pipe body vars.length) items.pairs) vars
  | .branch kind _ pipe body otherwise =>
    tellingRun (fun vars _ => pipe.shown options.missingKey dot vars)
      (evaluate (evalPipeline options.missingKey dot pipe)) fun value =>
        if truth value then
          nodesShown options (if kind = .withBranch then value else dot) body
        else otherwiseShown options dot otherwise

def nodesShown (options : Options) (dot : Json) : List Node → Vars → Sink → List Json
  | [] => fun _ _ => []
  | node :: rest =>
    tellingRun (node.shown options dot) (runNode options dot node) fun flow =>
      if flow = .normal then nodesShown options dot rest else fun _ _ => []

def otherwiseShown (options : Options) (dot : Json) :
    Option (List Node) → Vars → Sink → List Json
  | some nodes => nodesShown options dot nodes
  | none => fun _ _ => []
end

end Log

def shown (template : Template) (options : Options) (values : Json) (sink : Sink) : List Json :=
  nodesShown options values template.nodes [("$", values)] sink

def Scalars (vs : List Json) : Prop := ∀ v ∈ vs, v.isScalar = true

section Evaluation

-- From variables that differ in the order of members only, where all that is shown is scalar.
def Echoes (related : α → β → Prop) (log : Vars → List Json) (e : Eval α) (e' : Eval β) : Prop :=
  ∀ vars vars', VarsShuffled vars vars' → Scalars (log vars) →
    Tallies (fun p p' => related p.1 p'.1 ∧ VarsShuffled p.2 p'.2) (e vars) (e' vars')

namespace Echoes

variable {related : α → β → Prop} {log : Vars → List Json} {e : Eval α} {e' : Eval β}

theorem pure {a : α} {b : β} (given : related a b) :
    Echoes related log (Pure.pure a) (Pure.pure b) :=
  fun _ _ start _ => .ok ⟨given, start⟩

theorem refuse (line : Nat) (fault : ExecFault) :
    Echoes related log (Template.refuse line fault) (Template.refuse line fault) :=
  fun _ _ _ _ => .error _

theorem update {change change' : Vars → Vars}
    (held : ∀ vars vars', VarsShuffled vars vars' → VarsShuffled (change vars) (change' vars')) :
    Echoes Eq log (modify change) (modify change') :=
  fun _ _ start _ => .ok ⟨rfl, held _ _ start⟩

theorem bind {final : γ → δ → Prop} {next : α → Eval γ} {next' : β → Eval δ}
    {later : α → Vars → List Json} (first : Echoes related log e e')
    (second : ∀ a b, related a b → Echoes final (later a) (next a) (next' b)) :
    Echoes final (telling log e later) (e >>= next) (e' >>= next') := by
  intro vars vars' start scalars
  have chain : ∀ {α γ : Type} (e : Eval α) (f : α → Eval γ) vars,
      (e >>= f) vars = (e vars >>= fun p => f p.1 p.2) := fun _ _ _ => rfl
  rw [chain, chain]
  obtain ⟨before, behind⟩ := List.forall_mem_append.mp scalars
  have ended := first vars vars' start before
  generalize e vars = outcome at ended behind
  generalize e' vars' = outcome' at ended
  cases ended with
  | ok given => exact second _ _ given.1 _ _ given.2 behind
  | error error => exact .error error

theorem and_then {final : γ → δ → Prop} {next : α → Eval γ} {next' : β → Eval δ}
    (first : Echoes related log e e')
    (second : ∀ a b, related a b → Echoes final (fun _ => []) (next a) (next' b)) :
    Echoes final log (e >>= next) (e' >>= next') := by
  have told : log = telling log e fun _ _ => [] := by
    funext vars
    rw [telling]
    split <;> exact (List.append_nil _).symm
  rw [told]
  exact first.bind second

end Echoes

variable (policy : MissingKey) (line : Nat) {v w : Json}

theorem walkFields_echoes (same : Shuffled v w) (path : List String) :
    Echoes Shuffled (fun _ => []) (walkFields policy line v path)
      (walkFields policy line w path) := by
  rw [walkFields, walkFields]
  have found := path_shuffled policy path same
  generalize path.foldlM (fieldOf policy) v = outcome at found
  generalize path.foldlM (fieldOf policy) w = outcome' at found
  cases found with
  | ok given => exact .pure given
  | error fault => exact .refuse _ _

theorem callBuiltin_echoes (builtin : Builtin) {args args' : List Json}
    (same : List.Forall₂ Shuffled args args') :
    Echoes Shuffled (fun _ => if builtin.prints then args else [])
      (callBuiltin line builtin args) (callBuiltin line builtin args') := by
  intro vars vars' start scalars
  have given := call_shuffled builtin same fun prints => by
    rw [if_pos prints] at scalars
    exact scalars
  rw [callBuiltin, callBuiltin]
  generalize builtin.call args = outcome at given
  generalize builtin.call args' = outcome' at given
  cases given with
  | ok alike => exact .ok ⟨alike, start⟩
  | error fault => exact .error _

variable {dot dot' : Json}

theorem evalVar_echoes (name : String) (path : List String) :
    Echoes Shuffled (fun _ => []) (evalOperand policy dot line (.var name path))
      (evalOperand policy dot' line (.var name path)) := by
  intro vars vars' start scalars
  rw [evalOperand, evalOperand]
  have chain : ∀ (next : Vars → Eval Json) (vars : Vars), (get >>= next) vars = next vars vars :=
    fun _ _ => rfl
  rw [chain, chain]
  have found := start.get? name
  generalize vars.get? name = here at found
  generalize vars'.get? name = there at found
  cases found with
  | some same => exact walkFields_echoes policy line same path _ _ start scalars
  | none => exact .error _

variable {piped piped' : Option Json} (pipes : Option.Rel Shuffled piped piped')
include pipes

theorem evalCommand_function_echoes (builtin : Builtin) {rest : List Operand}
    (all : Echoes (List.Forall₂ Shuffled) (operandsShown policy dot line rest)
      (evalOperands policy dot line rest) (evalOperands policy dot' line rest))
    (short : ∀ decides, Echoes (fun p p' => p.1 = p'.1 ∧ Shuffled p.2 p'.2)
      (untilShown policy dot line decides rest)
      (evalUntil policy dot line decides .null rest)
      (evalUntil policy dot' line decides .null rest)) :
    Echoes Shuffled (Command.shown policy dot piped (.mk line (.function builtin :: rest)))
      (evalCommand policy dot piped (.mk line (.function builtin :: rest)))
      (evalCommand policy dot' piped' (.mk line (.function builtin :: rest))) := by
  have none : piped'.isNone = piped.isNone := by cases pipes <;> rfl
  have passed : List.Forall₂ Shuffled piped.toList piped'.toList := by
    cases pipes with
    | some same => exact .cons same .nil
    | none => exact .nil
  rw [Command.shown, evalCommand, evalCommand]
  cases deciding? builtin with
  | some decides =>
    dsimp only
    rw [none]
    split
    · exact .refuse _ _
    · refine (short decides).and_then fun p p' same => .pure ?_
      rw [same.1]
      split
      · exact same.2
      · exact getD_of_rel pipes same.2
  | none =>
    exact all.bind fun values values' same =>
      callBuiltin_echoes line builtin (List.rel_append same passed)

omit pipes

theorem shown_alone {operand : Operand} (other : ∀ builtin, operand ≠ .function builtin) :
    Command.shown policy dot none (.mk line [operand]) = operand.shown policy dot line := by
  cases operand with
  | function builtin => exact (other builtin rfl).elim
  | _ => simp only [Command.shown, Option.isSome_none, Bool.false_eq_true, if_false]

mutual
theorem evalOperand_echoes (dots : Shuffled dot dot') (line : Nat) : (operand : Operand) →
    Echoes Shuffled (operand.shown policy dot line) (evalOperand policy dot line operand)
      (evalOperand policy dot' line operand)
  | .dot => by
    rw [Operand.shown, evalOperand, evalOperand]
    exact .pure dots
  | .literal value => by
    rw [Operand.shown, evalOperand, evalOperand]
    exact .pure (.refl value)
  | .field path => by
    rw [Operand.shown, evalOperand, evalOperand]
    exact walkFields_echoes policy line dots path
  | .var name path => by
    rw [Operand.shown]
    exact evalVar_echoes policy line name path
  | .chain inner path => by
    rw [Operand.shown, evalOperand, evalOperand]
    exact (evalOperand_echoes dots line inner).and_then fun value value' same =>
      walkFields_echoes policy line same path
  | .group pipe => by
    rw [Operand.shown, evalOperand, evalOperand]
    exact evalPipeline_echoes dots pipe
  | .function builtin => by
    rw [Operand.shown, evalOperand, evalOperand]
    have called := callBuiltin_echoes line builtin (.nil : List.Forall₂ Shuffled [] [])
    rw [ite_self] at called
    exact called

theorem evalOperands_echoes (dots : Shuffled dot dot') (line : Nat) : (operands : List Operand) →
    Echoes (List.Forall₂ Shuffled) (operandsShown policy dot line operands)
      (evalOperands policy dot line operands) (evalOperands policy dot' line operands)
  | [] => by
    rw [operandsShown, evalOperands, evalOperands]
    exact .pure .nil
  | operand :: rest => by
    rw [operandsShown, evalOperands, evalOperands]
    exact .bind (evalOperand_echoes dots line operand) fun value value' first =>
      (evalOperands_echoes dots line rest).and_then fun values values' later =>
        .pure (.cons first later)

theorem evalUntil_echoes (dots : Shuffled dot dot') (line : Nat) (decides : Bool) :
    (operands : List Operand) → (last last' : Json) → Shuffled last last' →
    Echoes (fun p p' => p.1 = p'.1 ∧ Shuffled p.2 p'.2)
      (untilShown policy dot line decides operands)
      (evalUntil policy dot line decides last operands)
      (evalUntil policy dot' line decides last' operands)
  | [], last, last', same => by
    rw [untilShown, evalUntil, evalUntil]
    exact .pure ⟨rfl, same⟩
  | operand :: rest, last, last', same => by
    rw [untilShown, evalUntil, evalUntil]
    refine .bind (evalOperand_echoes dots line operand) fun value value' same => ?_
    rw [← truth_shuffled same]
    split
    · exact .pure ⟨rfl, same⟩
    · exact evalUntil_echoes dots line decides rest value value' same

theorem evalCommand_echoes (dots : Shuffled dot dot') :
    (command : Command) → (piped piped' : Option Json) → Option.Rel Shuffled piped piped' →
    Echoes Shuffled (command.shown policy dot piped) (evalCommand policy dot piped command)
      (evalCommand policy dot' piped' command)
  | .mk line [], piped, piped', pipes => by
    rw [evalCommand.eq_def, evalCommand.eq_def]
    exact .refuse _ _
  | .mk line (operand :: rest), piped, piped', pipes => by
    have alone := evalOperand_echoes dots line operand
    have all := evalOperands_echoes dots line rest
    have short := fun decides => evalUntil_echoes dots line decides rest .null .null (.refl _)
    rcases command_cases piped operand rest with ⟨builtin, rfl⟩ | ⟨other, ⟨rfl, rfl⟩ | several⟩
    · exact evalCommand_function_echoes policy line pipes builtin all short
    · cases pipes
      rw [shown_alone policy line other, evalCommand_alone policy dot line other,
        evalCommand_alone policy dot' line other]
      exact alone
    · have some : piped'.isSome = piped.isSome := by cases pipes <;> rfl
      rw [evalCommand_other policy dot line other several,
        evalCommand_other policy dot' line other (some ▸ several)]
      exact .refuse _ _

theorem evalCommands_echoes (dots : Shuffled dot dot') :
    (commands : List Command) → (piped piped' : Option Json) → Option.Rel Shuffled piped piped' →
    Echoes Shuffled (commandsShown policy dot piped commands)
      (evalCommands policy dot piped commands) (evalCommands policy dot' piped' commands)
  | [], piped, piped', pipes => by
    rw [commandsShown, evalCommands, evalCommands]
    exact .pure (getD_of_rel pipes (.refl _))
  | command :: rest, piped, piped', pipes => by
    rw [commandsShown, evalCommands, evalCommands]
    exact .bind (evalCommand_echoes dots command piped piped' pipes) fun value value' same =>
      evalCommands_echoes dots rest (some value) (some value') (.some same)

theorem evalPipeline_echoes (dots : Shuffled dot dot') : (pipe : Pipeline) →
    Echoes Shuffled (pipe.shown policy dot) (evalPipeline policy dot pipe)
      (evalPipeline policy dot' pipe)
  | .mk _ names assigns commands => by
    rw [Pipeline.shown, evalPipeline, evalPipeline]
    refine (evalCommands_echoes dots commands none none .none).and_then fun value value' same => ?_
    refine .and_then (.update fun vars vars' start => ?_) fun _ _ _ => .pure same
    exact start.bindAll assigns names same
end

end Evaluation

section Running

def Reflects (related : α → β → Prop) (log : Vars → Sink → List Json) (run : Run α)
    (run' : Run β) : Prop :=
  ∀ vars vars' sink, VarsShuffled vars vars' → Scalars (log vars sink) →
    ∃ outcome outcome' after, perform run vars sink = (outcome, after) ∧
      perform run' vars' sink = (outcome', after) ∧
      Tallies (fun p p' => related p.1 p'.1 ∧ VarsShuffled p.2 p'.2) outcome outcome'

namespace Reflects

variable {related : α → β → Prop} {log : Vars → Sink → List Json} {run : Run α} {run' : Run β}

theorem pure {a : α} {b : β} (given : related a b) :
    Reflects related log (Pure.pure a) (Pure.pure b) :=
  fun _ _ _ start _ => ⟨_, _, _, rfl, rfl, .ok ⟨given, start⟩⟩

theorem fail (failure : Failure) : Reflects related log (throw failure) (throw failure) :=
  fun _ _ _ _ _ => ⟨_, _, _, rfl, rfl, .error failure⟩

theorem update {change change' : Vars → Vars}
    (held : ∀ vars vars', VarsShuffled vars vars' → VarsShuffled (change vars) (change' vars')) :
    Reflects Eq log (modify change) (modify change') :=
  fun _ _ _ start _ => ⟨_, _, _, rfl, rfl, .ok ⟨rfl, held _ _ start⟩⟩

theorem evaluate {log : Vars → List Json} {e : Eval α} {e' : Eval β}
    (echoes : Echoes related log e e') :
    Reflects related (fun vars _ => log vars) (Template.evaluate e) (Template.evaluate e') := by
  intro vars vars' sink start scalars
  have ended := echoes vars vars' start scalars
  rw [perform_evaluate, perform_evaluate]
  generalize e vars = outcome at ended
  generalize e' vars' = outcome' at ended
  cases ended with
  | ok given => exact ⟨_, _, _, rfl, rfl, .ok given⟩
  | error error => exact ⟨_, _, _, rfl, rfl, .error _⟩

theorem emit (piece : Piece) :
    Reflects Eq log (Template.emit piece) (Template.emit piece) := by
  intro vars vars' sink start scalars
  rw [perform_emit, perform_emit]
  obtain ⟨outcome, after⟩ := sink.write piece
  cases outcome with
  | ok => exact ⟨_, _, _, rfl, rfl, .ok ⟨rfl, start⟩⟩
  | error fault => exact ⟨_, _, _, rfl, rfl, .error _⟩

theorem bind {final : γ → δ → Prop} {next : α → Run γ} {next' : β → Run δ}
    {later : α → Vars → Sink → List Json} (first : Reflects related log run run')
    (second : ∀ a b, related a b → Reflects final (later a) (next a) (next' b)) :
    Reflects final (tellingRun log run later) (run >>= next) (run' >>= next') := by
  intro vars vars' sink start scalars
  obtain ⟨before, behind⟩ := List.forall_mem_append.mp scalars
  obtain ⟨outcome, outcome', after, ended, ended', given⟩ := first vars vars' sink start before
  rw [ended] at behind
  rw [perform_bind, perform_bind, ended, ended']
  cases given with
  | ok given => exact second _ _ given.1 _ _ _ given.2 behind
  | error failure => exact ⟨_, _, _, rfl, rfl, .error failure⟩

theorem and_then {final : γ → δ → Prop} {next : α → Run γ} {next' : β → Run δ}
    (first : Reflects related log run run')
    (second : ∀ a b, related a b → Reflects final (fun _ _ => []) (next a) (next' b)) :
    Reflects final log (run >>= next) (run' >>= next') := by
  have told : log = tellingRun log run fun _ _ _ => [] := by
    funext vars sink
    rw [tellingRun]
    split <;> exact (List.append_nil _).symm
  rw [told]
  exact first.bind second

theorem get_then {log : Vars → Vars → Sink → List Json} {next : Vars → Run α}
    {next' : Vars → Run β} (later : ∀ outer outer', VarsShuffled outer outer' →
      Reflects related (log outer) (next outer) (next' outer')) :
    Reflects related (fun vars => log vars vars) (get >>= next) (get >>= next') :=
  fun vars vars' sink start scalars => later vars vars' start vars vars' sink start scalars

theorem enclosed (inside : Reflects related log run run') :
    Reflects related log (Template.enclosed run) (Template.enclosed run') := by
  intro vars vars' sink start scalars
  obtain ⟨outcome, outcome', after, ended, ended', given⟩ := inside vars vars' sink start scalars
  rw [perform_enclosed, perform_enclosed, ended, ended', start.length_eq]
  cases given with
  | ok given => exact ⟨_, _, _, rfl, rfl, .ok ⟨given.1, given.2.leave _⟩⟩
  | error failure => exact ⟨_, _, _, rfl, rfl, .error failure⟩

theorem rows {each : Json → Json → Vars → Sink → List Json} {body body' : Json → Json → Run Flow}
    (reflects : ∀ key v w, Shuffled v w → Reflects Eq (each key v) (body key v) (body' key w))
    {pairs pairs' : List (Json × Json)} (same : RowsShuffled pairs pairs') :
    Reflects Eq (rowsShown each body pairs) (overRows body pairs) (overRows body' pairs') := by
  induction same with
  | nil => exact pure rfl
  | @cons pair pair' rest rest' first later ih =>
    obtain ⟨key, v⟩ := pair
    obtain ⟨_, w⟩ := pair'
    obtain ⟨rfl, alike⟩ := first
    refine bind (reflects key v w alike) fun flow _ given => ?_
    subst given
    split
    · exact pure rfl
    · exact ih

end Reflects

theorem ItemsShuffled.pairs {items items' : Items} (same : ItemsShuffled items items') :
    RowsShuffled items.pairs items'.pairs := by
  cases same with
  | rows same => exact same
  | count n => exact List.forall₂_same.mpr fun _ _ => ⟨rfl, .refl _⟩

variable (options : Options)

theorem action_reflects {dot dot' : Json} (dots : Shuffled dot dot') (pipe : Pipeline) :
    Reflects Eq (Node.shown options dot (.action pipe)) (runNode options dot (.action pipe))
      (runNode options dot' (.action pipe)) := by
  rw [Node.shown, runNode, runNode]
  refine .bind (.evaluate (evalPipeline_echoes _ dots pipe)) fun value value' same => ?_
  split
  · have printed : Reflects Eq (fun _ _ => [value]) _ _ :=
      .and_then (.emit (.printed (Text.utf8Chars (printedText options pipe value)))) fun _ _ _ =>
        .pure (rfl : Flow.normal = .normal)
    intro vars vars' sink start scalars
    rw [← same.eq_of_scalar (scalars value (.head _))]
    exact printed vars vars' sink start scalars
  · exact .pure rfl

variable {pipe : Pipeline} {body : List Node} {otherwise : Option (List Node)}
  (inBody : ∀ dot dot', Shuffled dot dot' →
    Reflects Eq (nodesShown options dot body) (runNodes options dot body)
      (runNodes options dot' body))
  (inElse : ∀ dot dot', Shuffled dot dot' →
    Reflects Eq (otherwiseShown options dot otherwise) (runOtherwise options dot otherwise)
      (runOtherwise options dot' otherwise))

include inBody in
theorem turn_reflects (size : Nat) (key : Json) {v w : Json} (same : Shuffled v w) :
    Reflects Eq
      (fun vars => nodesShown options v body (bindItem pipe.names pipe.assigns key v vars))
      (turn options pipe body size key v) (turn options pipe body size key w) := by
  have bound : Reflects Eq (fun _ _ => []) (modify (bindItem pipe.names pipe.assigns key v))
      (modify (bindItem pipe.names pipe.assigns key w)) :=
    .update fun vars vars' start => start.bindItem pipe.names pipe.assigns key same
  refine .bind bound fun _ _ _ => .and_then (inBody v w same) fun flow flow' given => ?_
  exact .and_then (.update fun vars vars' start => start.leave size) fun _ _ _ => .pure given

include inBody inElse

theorem range_reflects (line : Nat) {dot dot' : Json} (dots : Shuffled dot dot') :
    Reflects Eq (Node.shown options dot (.branch .rangeBranch line pipe body otherwise))
      (runNode options dot (.branch .rangeBranch line pipe body otherwise))
      (runNode options dot' (.branch .rangeBranch line pipe body otherwise)) := by
  rw [Node.shown, runNode, runNode]
  refine .enclosed (.get_then fun outer outer' sizes => ?_)
  rw [← sizes.length_eq]
  refine .bind (.evaluate (evalCommands_echoes _ dots pipe.commands none none .none))
    fun value value' same => ?_
  have ranges := itemsOf_shuffled same
  generalize itemsOf value = outcome at ranges
  generalize itemsOf value' = outcome' at ranges
  cases ranges with
  | error fault => exact .fail _
  | @ok items items' same =>
    dsimp only
    rw [← same.isEmpty]
    split
    · exact inElse dot dot' dots
    · rw [forEach_eq_overRows, forEach_eq_overRows]
      exact .and_then (.rows (fun key v w => turn_reflects options inBody _ key) same.pairs)
        fun _ _ _ => .pure rfl

theorem branch_reflects {kind : BranchKind} (ranges : kind ≠ .rangeBranch) (line : Nat)
    {dot dot' : Json} (dots : Shuffled dot dot') :
    Reflects Eq (Node.shown options dot (.branch kind line pipe body otherwise))
      (runNode options dot (.branch kind line pipe body otherwise))
      (runNode options dot' (.branch kind line pipe body otherwise)) := by
  rw [Node.shown, runNode, runNode]
  · have header := Reflects.evaluate (evalPipeline_echoes options.missingKey dots pipe)
    refine .enclosed (.bind header fun value value' same => ?_)
    rw [← truth_shuffled same]
    split
    · refine inBody _ _ ?_
      split
      · exact same
      · exact dots
    · exact inElse dot dot' dots
  all_goals exact ranges

omit inBody inElse

mutual
theorem runNode_reflects : (node : Node) → (dot dot' : Json) → Shuffled dot dot' →
    Reflects Eq (node.shown options dot) (runNode options dot node) (runNode options dot' node)
  | .text bytes, dot, dot', dots => by
    rw [Node.shown, runNode, runNode]
    exact .and_then (.emit _) fun _ _ _ => .pure rfl
  | .action pipe, dot, dot', dots => action_reflects options dots pipe
  | .branch kind line pipe body otherwise, dot, dot', dots => by
    have inBody := runNodes_reflects body
    have inElse := runOtherwise_reflects otherwise
    by_cases ranges : kind = .rangeBranch
    · subst ranges
      exact range_reflects options inBody inElse line dots
    · exact branch_reflects options inBody inElse ranges line dots
  | .breakRange, dot, dot', dots => by
    rw [Node.shown, runNode, runNode]
    exact .pure rfl
  | .continueRange, dot, dot', dots => by
    rw [Node.shown, runNode, runNode]
    exact .pure rfl

theorem runNodes_reflects : (nodes : List Node) → (dot dot' : Json) → Shuffled dot dot' →
    Reflects Eq (nodesShown options dot nodes) (runNodes options dot nodes)
      (runNodes options dot' nodes)
  | [], dot, dot', dots => by
    rw [nodesShown, runNodes, runNodes]
    exact .pure rfl
  | node :: rest, dot, dot', dots => by
    have later := runNodes_reflects rest dot dot' dots
    rw [nodesShown, runNodes, runNodes]
    refine .bind (runNode_reflects node dot dot' dots) fun flow flow' given => ?_
    subst given
    split
    · exact later
    · exact .pure rfl

theorem runOtherwise_reflects : (otherwise : Option (List Node)) → (dot dot' : Json) →
    Shuffled dot dot' →
    Reflects Eq (otherwiseShown options dot otherwise) (runOtherwise options dot otherwise)
      (runOtherwise options dot' otherwise)
  | none, dot, dot', dots => by
    rw [otherwiseShown, runOtherwise, runOtherwise]
    exact .pure rfl
  | some nodes, dot, dot', dots => by
    rw [otherwiseShown, runOtherwise, runOtherwise]
    exact runNodes_reflects nodes dot dot' dots
end

def rangeOver (dot : Json) (pipe : Pipeline) (body : List Node) (otherwise : Option (List Node))
    (size : Nat) (pairs : List (Json × Json)) : Run Flow :=
  if pairs.isEmpty then runOtherwise options dot otherwise
  else do
    overRows (turn options pipe body size) pairs
    pure .normal

theorem perform_range {value : Json} {pairs : List (Json × Json)}
    (rows : itemsOf value = .ok (.rows pairs)) (line : Nat) (dot : Json) (pipe : Pipeline)
    (body : List Node) (otherwise : Option (List Node)) {vars left : Vars} (sink : Sink)
    (header : evalCommands options.missingKey dot none pipe.commands vars = .ok (value, left)) :
    perform (runNode options dot (.branch .rangeBranch line pipe body otherwise)) vars sink =
      perform (do
        let flow ← rangeOver options dot pipe body otherwise vars.length pairs
        modify (·.leave vars.length)
        pure flow) left sink := by
  have size : ∀ next : Vars → Run Flow, perform (enclosed (get >>= next)) vars sink =
      perform (next vars >>= fun flow => do
        modify (·.leave vars.length)
        pure flow) vars sink := fun _ => rfl
  rw [runNode, size, perform_bind, perform_bind, perform_evaluate, header]
  dsimp only
  rw [rows, perform_bind]
  rfl

end Running

theorem execute_shuffled (template : Template) (options : Options) {values values' : Json}
    (same : Shuffled values values') (sink : Sink)
    (scalars : Scalars (template.shown options values sink)) :
    template.execute options values' sink = template.execute options values sink := by
  have start : VarsShuffled [("$", values)] [("$", values')] := .cons ⟨rfl, same⟩ .nil
  obtain ⟨outcome, outcome', after, ended, ended', given⟩ :=
    runNodes_reflects options template.nodes values values' same _ _ sink start scalars
  have whole (values : Json) : runTree options values template.nodes sink =
      match perform (runNodes options values template.nodes) [("$", values)] sink with
      | (.ok _, sink) => (sink.flush.mapError .write, sink)
      | (.error failure, sink) => (.error failure, sink) := rfl
  rw [execute, execute, whole, whole, ended, ended']
  cases given with
  | ok given => rfl
  | error failure => rfl

-- No key stands twice in what a reader makes of a document. A range takes the members of an object,
-- in whatever order they were put in, by the bytes of their keys, each once.
theorem key_order_only_printed :
    (∀ (template : Template) (options : Options) (values values' : Json) (sink : Sink),
      values.Distinct → values.Reordered values' →
        Scalars (template.shown options values sink) →
          template.execute options values' sink = template.execute options values sink) ∧
    ∀ fields : Fields, (Fields.keys fields).Nodup →
      ∃ sorted : Fields, sorted.Perm fields ∧ sorted.Ascending ∧
        ∀ members : Fields, members.Perm fields →
          ∀ options dot line pipe body otherwise vars left sink,
            evalCommands options.missingKey dot none pipe.commands vars =
                .ok (.obj members, left) →
              perform (runNode options dot (.branch .rangeBranch line pipe body otherwise)) vars
                  sink =
                perform (do
                  let flow ← rangeOver options dot pipe body otherwise vars.length
                    (sorted.map fun (key, value) => (.str key, value))
                  modify (·.leave vars.length)
                  pure flow) left sink := by
  constructor
  · intro template options values values' sink distinct same scalars
    exact execute_shuffled template options (.inr ⟨distinct, same⟩) sink scalars
  · intro fields distinct
    have ascends := Fields.ascending_sort distinct
    refine ⟨fields.sort, fields.sort_perm, ascends, fun members perm => ?_⟩
    have rows : itemsOf (.obj members) =
        .ok (.rows (fields.sort.map fun (key, value) => (.str key, value))) := by
      rw [← ascends.sort_eq (perm.trans fields.sort_perm.symm)]
      rfl
    intro options dot line pipe body otherwise vars left sink header
    exact perform_range options rows line dot pipe body otherwise sink header

def memberNames : Node :=
  .branch .rangeBranch 1 (.mk 1 ["$k", "$v"] false [.mk 1 [.dot]])
    [.action (.mk 1 [] false [.mk 1 [.var "$k" []]]),
      .action (.mk 1 [] false [.mk 1 [.var "$v" ["x"]]])] none

theorem key_order_only_printed_nested :
    let template : Template := ⟨"t", [memberNames]⟩
    let first : Json := .obj [("x", .bool true), ("y", .str "one")]
    let fields : Fields := [("b", first), ("a", .obj [("x", .null)])]
    let values' : Json := .obj [("a", .obj [("x", .null)]),
      ("b", .obj [("y", .str "one"), ("x", .bool true)])]
    Json.Distinct (.obj fields) ∧ Json.Reordered (.obj fields) values' ∧
      Scalars (template.shown {} (.obj fields) {}) ∧
      template.execute {} values' {} = template.execute {} (.obj fields) {} ∧
      (template.execute {} (.obj fields) {}).2.written = Text.utf8 "abtrue" ∧
      ∃ sorted : Fields, sorted.Perm fields ∧ sorted.Ascending ∧
        perform (runNode {} (.obj fields.reverse) memberNames) [] {} =
          perform (do
            let flow ← rangeOver {} (.obj fields.reverse)
              (.mk 1 ["$k", "$v"] false [.mk 1 [.dot]])
              [.action (.mk 1 [] false [.mk 1 [.var "$k" []]]),
                .action (.mk 1 [] false [.mk 1 [.var "$v" ["x"]]])] none 0
              (sorted.map fun (key, value) => (.str key, value))
            modify (·.leave 0)
            pure flow) [] {} := by
  intro template first fields values'
  have distinct : Json.Distinct (.obj fields) := by decide
  have inner : first.Reordered (.obj [("y", .str "one"), ("x", .bool true)]) :=
    .of_perm (.swap _ _ _)
  have same : Json.Reordered (.obj fields) values' := by
    rw [Json.Reordered]
    exact ⟨.swap _ _ _, ⟨_, .tail _ (.head _), inner⟩, ⟨_, .head _, .refl _⟩, trivial⟩
  have told : template.shown {} (.obj fields) {} = [.str "a", .null, .str "b", .bool true] := by cbv
  have scalars : Scalars (template.shown {} (.obj fields) {}) := by
    rw [told]
    simp [Scalars, Json.isScalar]
  have written : (template.execute {} (.obj fields) {}).2.written = Text.utf8 "abtrue" := by cbv
  obtain ⟨unseen, ranges⟩ := key_order_only_printed
  obtain ⟨sorted, perm, ascends, visits⟩ := ranges fields (by decide)
  exact ⟨distinct, same, scalars, unseen template {} _ values' {} distinct same scalars, written,
    sorted, perm, ascends, visits fields.reverse fields.reverse_perm {} _ 1 _ _ none [] [] {} rfl⟩

-- Printed as a whole, the two orders are told apart.
example : valueChars (.obj [("a", .bool true), ("b", .null)]) ≠
    valueChars (.obj [("b", .null), ("a", .bool true)]) := by decide

end PagePress.Template
