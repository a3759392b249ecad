import PagePress.Proofs.Template.Binding
import PagePress.Proofs.Template.PipelineCompleteness
import PagePress.Proofs.Template.Silence

namespace PagePress.Template

variable {α β γ δ : Type}

-- What a relation of variables has to keep; only some names are ever bound.
structure Carries (named : String → Prop) (related : Vars → Vars → Prop) : Prop where
  get : ∀ {vars vars' name value}, related vars vars' → vars.get? name = some value →
    vars'.get? name = some value
  bind : ∀ {vars vars' name}, related vars vars' → named name → ∀ assigns value,
    related (vars.bind assigns name value) (vars'.bind assigns name value)
  leave : ∀ {outer outer' vars vars'}, related outer outer' → related vars vars' →
    related (vars.leave outer.length) (vars'.leave outer'.length)

mutual
def Operand.named : Operand → List String
  | .chain inner _ => inner.named
  | .group pipe => pipe.named
  | .dot | .field _ | .var _ _ | .function _ | .literal _ => []

def operandsNamed : List Operand → List String
  | [] => []
  | operand :: rest => operand.named ++ operandsNamed rest

def Command.named : Command → List String
  | .mk _ operands => operandsNamed operands

def commandsNamed : List Command → List String
  | [] => []
  | command :: rest => command.named ++ commandsNamed rest

def Pipeline.named : Pipeline → List String
  | .mk _ names _ commands => names ++ commandsNamed commands
end

mutual
def Node.named : Node → List String
  | .action pipe => pipe.named
  | .branch _ _ pipe body otherwise =>
    pipe.named ++ (nodesNamed body ++ otherwiseNamed otherwise)
  | .text _ | .breakRange | .continueRange => []

def nodesNamed : List Node → List String
  | [] => []
  | node :: rest => node.named ++ nodesNamed rest

def otherwiseNamed : Option (List Node) → List String
  | some nodes => nodesNamed nodes
  | none => []
end

section Evaluation

def Follows (related : Vars → Vars → Prop) (e e' : Eval α) : Prop :=
  ∀ vars vars' a left, related vars vars' → e vars = .ok (a, left) →
    ∃ left', e' vars' = .ok (a, left') ∧ related left left'

namespace Follows

variable {related : Vars → Vars → Prop}

theorem pure (a : α) : Follows related (Pure.pure a) (Pure.pure a) := by
  intro vars vars' b left start done
  cases done
  exact ⟨vars', rfl, start⟩

theorem stop (stop : Halt ExecError) (e : Eval α) : Follows related (throw stop) e := by
  intro vars vars' b left start done
  cases done

theorem refuse (line : Nat) (fault : ExecFault) (e : Eval α) :
    Follows related (Template.refuse line fault) e := Follows.stop _ e

theorem update {change change' : Vars → Vars}
    (held : ∀ vars vars', related vars vars' → related (change vars) (change' vars')) :
    Follows related (modify change) (modify change') := by
  intro vars vars' a left start done
  cases done
  exact ⟨_, rfl, held _ _ start⟩

theorem bind {e e' : Eval α} {next next' : α → Eval β} (first : Follows related e e')
    (later : ∀ a, Follows related (next a) (next' a)) :
    Follows related (e >>= next) (e' >>= next') := by
  intro vars vars' b left start done
  have chain : ∀ (e : Eval α) (f : α → Eval β) vars,
      (e >>= f) vars = (e vars >>= fun p => f p.1 p.2) := fun _ _ _ => rfl
  rw [chain] at done
  obtain ⟨⟨a, middle⟩, given, done⟩ := Chain.bind_eq_ok.mp done
  obtain ⟨middle', again, held⟩ := first _ _ _ _ start given
  obtain ⟨left', ends, held⟩ := later a _ _ _ _ held done
  exact ⟨left', by rw [chain, again]; exact ends, held⟩

end Follows

variable {named : String → Prop} {related : Vars → Vars → Prop} (policy : MissingKey)

theorem walkFields_follows (line line' : Nat) (value : Json) (path : List String) :
    Follows related (walkFields policy line value path) (walkFields policy line' value path) := by
  rw [walkFields, walkFields]
  cases path.foldlM (fieldOf policy) value with
  | ok found => exact .pure found
  | error fault => exact .refuse _ _ _

theorem callBuiltin_follows (line line' : Nat) (builtin : Builtin) (args : List Json) :
    Follows related (callBuiltin line builtin args) (callBuiltin line' builtin args) := by
  rw [callBuiltin, callBuiltin]
  cases builtin.call args with
  | ok value => exact .pure value
  | error stop => exact .stop _ _

theorem bindAll_carries (carries : Carries named related) {names : List String}
    {vars vars' : Vars} (start : related vars vars') (held : ∀ name ∈ names, named name)
    (assigns : Bool) (value : Json) :
    related (names.foldl (fun vars name => vars.bind assigns name value) vars)
      (names.foldl (fun vars name => vars.bind assigns name value) vars') := by
  induction names generalizing vars vars' with
  | nil => exact start
  | cons name rest ih =>
    obtain ⟨here, others⟩ := List.forall_mem_cons.mp held
    exact ih (carries.bind start here assigns value) others

variable (dot : Json)

theorem evalVar_eq {vars : Vars} {name : String} {found : Option Json}
    (read : vars.get? name = found)
    (line : Nat) (path : List String) :
    evalOperand policy dot line (.var name path) vars =
      (found.elim (refuse line (.undefinedVariable name)) fun value =>
        walkFields policy line value path) vars := by
  have chain : ∀ (next : Vars → Eval Json), (get >>= next) vars = next vars vars := fun _ => rfl
  rw [evalOperand, chain, read]
  cases found <;> rfl

theorem evalVar_follows (carries : Carries named related) (line line' : Nat) (name : String)
    (path : List String) :
    Follows related (evalOperand policy dot line (.var name path))
      (evalOperand policy dot line' (.var name path)) := by
  intro vars vars' a left start done
  cases read : vars.get? name with
  | none =>
    rw [evalVar_eq policy dot read] at done
    cases done
  | some value =>
    rw [evalVar_eq policy dot read] at done
    rw [evalVar_eq policy dot (carries.get start read)]
    exact walkFields_follows policy line line' value path _ _ _ _ start done

theorem evalCommand_function_follows (line line' : Nat) (builtin : Builtin) (piped : Option Json)
    {rest rest' : List Operand} (same : operandsUnlined rest' = operandsUnlined rest)
    (all : Follows related (evalOperands policy dot line rest)
      (evalOperands policy dot line' rest'))
    (short : ∀ decides last, Follows related (evalUntil policy dot line decides last rest)
      (evalUntil policy dot line' decides last rest')) :
    Follows related (evalCommand policy dot piped (.mk line (.function builtin :: rest)))
      (evalCommand policy dot piped (.mk line' (.function builtin :: rest'))) := by
  have empty : rest'.isEmpty = rest.isEmpty := by
    cases rest <;> cases rest' <;> first | rfl | cases same
  rw [evalCommand, evalCommand]
  cases deciding? builtin with
  | some decides =>
    dsimp only
    rw [empty]
    split
    · exact .refuse _ _ _
    · exact .bind (short decides .null) fun result => .pure _
  | none => exact .bind all fun values => callBuiltin_follows line line' builtin _

mutual
theorem evalOperand_follows (carries : Carries named related) (line line' : Nat) :
    (operand operand' : Operand) → operand'.unlined = operand.unlined →
      (∀ name ∈ operand.named, named name) →
      Follows related (evalOperand policy dot line operand) (evalOperand policy dot line' operand')
  | .dot, operand', same, held => by
    cases operand' with
    | dot =>
      rw [evalOperand, evalOperand]
      exact .pure _
    | _ => cases same
  | .literal value, operand', same, held => by
    cases operand' with
    | literal value' =>
      obtain rfl := Operand.literal.inj same
      rw [evalOperand, evalOperand]
      exact .pure _
    | _ => cases same
  | .field path, operand', same, held => by
    cases operand' with
    | field path' =>
      obtain rfl := Operand.field.inj same
      rw [evalOperand, evalOperand]
      exact walkFields_follows policy line line' dot _
    | _ => cases same
  | .var name path, operand', same, held => by
    cases operand' with
    | var name' path' =>
      obtain ⟨rfl, rfl⟩ := Operand.var.inj same
      exact evalVar_follows policy dot carries line line' _ _
    | _ => cases same
  | .function builtin, operand', same, held => by
    cases operand' with
    | function builtin' =>
      obtain rfl := Operand.function.inj same
      rw [evalOperand, evalOperand]
      exact callBuiltin_follows line line' _ []
    | _ => cases same
  | .group pipe, operand', same, held => by
    cases operand' with
    | group pipe' =>
      rw [evalOperand, evalOperand]
      exact evalPipeline_follows carries pipe pipe' (Operand.group.inj same) held
    | _ => cases same
  | .chain inner path, operand', same, held => by
    cases operand' with
    | chain inner' path' =>
      obtain ⟨alike, rfl⟩ := Operand.chain.inj same
      rw [evalOperand, evalOperand]
      refine .bind (evalOperand_follows carries line line' inner inner' alike held) fun value => ?_
      exact walkFields_follows policy line line' value _
    | _ => cases same
termination_by structural operand => operand

theorem evalOperands_follows (carries : Carries named related) (line line' : Nat) :
    (operands operands' : List Operand) → operandsUnlined operands' = operandsUnlined operands →
      (∀ name ∈ operandsNamed operands, named name) →
      Follows related (evalOperands policy dot line operands)
        (evalOperands policy dot line' operands')
  | [], operands', same, held => by
    cases operands' with
    | nil =>
      rw [evalOperands]
      exact .pure _
    | cons => cases same
  | operand :: rest, operands', same, held => by
    cases operands' with
    | nil => cases same
    | cons operand' rest' =>
      obtain ⟨alike, others⟩ := List.cons.inj same
      obtain ⟨here, later⟩ := List.forall_mem_append.mp held
      rw [evalOperands, evalOperands]
      have first := evalOperand_follows carries line line' operand operand' alike here
      have behind := evalOperands_follows carries line line' rest rest' others later
      exact .bind first fun value => .bind behind fun values => .pure _
termination_by structural operands => operands

theorem evalUntil_follows (carries : Carries named related) (line line' : Nat) (decides : Bool)
    (last : Json) :
    (operands operands' : List Operand) → operandsUnlined operands' = operandsUnlined operands →
      (∀ name ∈ operandsNamed operands, named name) →
      Follows related (evalUntil policy dot line decides last operands)
        (evalUntil policy dot line' decides last operands')
  | [], operands', same, held => by
    cases operands' with
    | nil =>
      rw [evalUntil]
      exact .pure _
    | cons => cases same
  | operand :: rest, operands', same, held => by
    cases operands' with
    | nil => cases same
    | cons operand' rest' =>
      obtain ⟨alike, others⟩ := List.cons.inj same
      obtain ⟨here, later⟩ := List.forall_mem_append.mp held
      rw [evalUntil, evalUntil]
      have first := evalOperand_follows carries line line' operand operand' alike here
      refine .bind first fun value => ?_
      split
      · exact .pure _
      · exact evalUntil_follows carries line line' decides value rest rest' others later
termination_by structural operands => operands

theorem evalCommand_follows (carries : Carries named related) (piped : Option Json) :
    (command command' : Command) → command'.unlined = command.unlined →
      (∀ name ∈ command.named, named name) →
      Follows related (evalCommand policy dot piped command) (evalCommand policy dot piped command')
  | .mk line [], .mk line' operands', same, held => by
    obtain ⟨-, alike⟩ := Command.mk.inj same
    cases operands' with
    | nil =>
      rw [evalCommand]
      · exact .refuse _ _ _
      · rintro _ _ ⟨⟩
      · rintro _ ⟨⟩
    | cons => cases alike
  | .mk line (operand :: rest), .mk line' operands', same, held => by
    obtain ⟨-, alike⟩ := Command.mk.inj same
    cases operands' with
    | nil => cases alike
    | cons operand' rest' =>
      obtain ⟨alike, others⟩ := List.cons.inj alike
      obtain ⟨here, later⟩ := List.forall_mem_append.mp held
      have alone := evalOperand_follows carries line line' operand operand' alike here
      have all := evalOperands_follows carries line line' rest rest' others later
      have short := fun decides last =>
        evalUntil_follows carries line line' decides last rest rest' others later
      rcases command_cases piped operand rest with ⟨builtin, rfl⟩ | ⟨other, ⟨rfl, rfl⟩ | several⟩
      · cases operand' with
        | function builtin' =>
          obtain rfl := Operand.function.inj alike
          exact evalCommand_function_follows policy dot line line' _ piped others all short
        | _ => cases alike
      · obtain rfl := operandsUnlined_eq_nil others
        rw [evalCommand_alone policy dot line other, evalCommand_alone policy dot line' ?_]
        · exact alone
        · rintro builtin rfl
          cases operand with
          | function builtin => exact other builtin rfl
          | _ => cases alike
      · rw [evalCommand_other policy dot line other several]
        exact .refuse _ _ _
termination_by structural command => command

theorem evalCommands_follows (carries : Carries named related) (piped : Option Json) :
    (commands commands' : List Command) → commandsUnlined commands' = commandsUnlined commands →
      (∀ name ∈ commandsNamed commands, named name) →
      Follows related (evalCommands policy dot piped commands)
        (evalCommands policy dot piped commands')
  | [], commands', same, held => by
    cases commands' with
    | nil =>
      rw [evalCommands]
      exact .pure _
    | cons => cases same
  | command :: rest, commands', same, held => by
    cases commands' with
    | nil => cases same
    | cons command' rest' =>
      obtain ⟨alike, others⟩ := List.cons.inj same
      obtain ⟨here, later⟩ := List.forall_mem_append.mp held
      rw [evalCommands, evalCommands]
      refine .bind (evalCommand_follows carries piped command command' alike here) fun value => ?_
      exact evalCommands_follows carries (some value) rest rest' others later
termination_by structural commands => commands

theorem evalPipeline_follows (carries : Carries named related) :
    (pipe pipe' : Pipeline) → pipe'.unlined = pipe.unlined → (∀ name ∈ pipe.named, named name) →
      Follows related (evalPipeline policy dot pipe) (evalPipeline policy dot pipe')
  | .mk _ names assigns commands, .mk _ names' assigns' commands', same, held => by
    obtain ⟨-, rfl, rfl, alike⟩ := Pipeline.mk.inj same
    obtain ⟨mine, inner⟩ := List.forall_mem_append.mp held
    rw [evalPipeline, evalPipeline]
    refine .bind (evalCommands_follows carries none commands commands' alike inner) fun value => ?_
    refine .bind (.update fun vars vars' start => ?_) fun done => .pure value
    exact bindAll_carries carries start mine _ _
termination_by structural pipe => pipe
end

end Evaluation

-- What a relation of sinks has to keep. One of muted runs does not tell a piece of no bytes.
structure Catches (mutes : Bool) (sinks : Sink → Sink → Prop) : Prop where
  write : ∀ {sink sink' after piece}, sinks sink sink' → sink.write piece = (.ok (), after) →
    ∃ after', sink'.write piece = (.ok (), after') ∧ sinks after after'
  left : mutes = true → ∀ {sink sink' after}, sinks sink sink' →
    sink.write (.printed []) = (.ok (), after) → sinks after sink'
  right : mutes = true → ∀ {sink sink'}, sinks sink sink' →
    ∃ after', sink'.write (.printed []) = (.ok (), after') ∧ sinks sink after'

theorem same_catches : Catches false Eq where
  write same written := same ▸ ⟨_, written, rfl⟩
  left := nofun
  right := nofun

def Tracks (sinks : Sink → Sink → Prop) (related : Vars → Vars → Prop) (gives : α → β → Prop)
    (run : Run α) (run' : Run β) : Prop :=
  ∀ vars vars' sink sink' a left after, related vars vars' → sinks sink sink' →
    perform run vars sink = (.ok (a, left), after) →
      ∃ b left' after', perform run' vars' sink' = (.ok (b, left'), after') ∧ gives a b ∧
        related left left' ∧ sinks after after'

namespace Tracks

variable {sinks : Sink → Sink → Prop} {related : Vars → Vars → Prop} {gives : α → β → Prop}

theorem pure {a : α} {b : β} (given : gives a b) :
    Tracks sinks related gives (Pure.pure a) (Pure.pure b) := by
  intro vars vars' sink sink' c left after start caught done
  cases done
  exact ⟨b, vars', sink', rfl, given, start, caught⟩

theorem fail (failure : Failure) (run' : Run β) :
    Tracks sinks related gives (throw failure) run' := by
  intro vars vars' sink sink' c left after start caught done
  cases done

theorem get : Tracks sinks related related MonadState.get MonadState.get := by
  intro vars vars' sink sink' c left after start caught done
  cases done
  exact ⟨vars', vars', sink', rfl, start, start, caught⟩

theorem update {change change' : Vars → Vars}
    (held : ∀ vars vars', related vars vars' → related (change vars) (change' vars')) :
    Tracks sinks related Eq (modify change) (modify change') := by
  intro vars vars' sink sink' a left after start caught done
  cases done
  exact ⟨(), _, sink', rfl, rfl, held _ _ start, caught⟩

theorem bind {run : Run α} {run' : Run β} {next : α → Run γ} {next' : β → Run δ}
    {final : γ → δ → Prop} (first : Tracks sinks related gives run run')
    (later : ∀ a b, gives a b → Tracks sinks related final (next a) (next' b)) :
    Tracks sinks related final (run >>= next) (run' >>= next') := by
  intro vars vars' sink sink' c left after start caught done
  rw [perform_bind] at done
  cases ended : perform run vars sink with
  | mk outcome middle =>
    rw [ended] at done
    cases outcome with
    | error failure => cases done
    | ok p =>
      obtain ⟨b, left', middle', again, given, held, caught⟩ :=
        first _ _ _ _ _ _ _ start caught ended
      rw [perform_bind, again]
      exact later p.1 b given _ _ _ _ _ _ _ held caught done

theorem evaluate {e e' : Eval α} (follows : Follows related e e') :
    Tracks sinks related Eq (Template.evaluate e) (Template.evaluate e') := by
  intro vars vars' sink sink' a left after start caught done
  rw [perform_evaluate] at done ⊢
  cases given : e vars with
  | error error =>
    rw [given] at done
    cases done
  | ok p =>
    rw [given] at done
    cases done
    obtain ⟨left', again, held⟩ := follows _ _ _ _ start given
    exact ⟨a, left', sink', by rw [again], rfl, held, caught⟩

theorem emit {mutes : Bool} (catches : Catches mutes sinks) (piece : Piece) :
    Tracks sinks related Eq (Template.emit piece) (Template.emit piece) := by
  intro vars vars' sink sink' a left after start caught done
  rw [perform_emit] at done ⊢
  cases written : sink.write piece with
  | mk outcome filled =>
    rw [written] at done
    cases outcome with
    | error fault => cases done
    | ok =>
      cases done
      obtain ⟨filled', written', caught⟩ := catches.write caught written
      rw [written']
      exact ⟨(), vars', filled', rfl, rfl, start, caught⟩

variable {named : String → Prop} (carries : Carries named related)

include carries in
theorem enclosed {run : Run α} {run' : Run β} (inside : Tracks sinks related gives run run') :
    Tracks sinks related gives (Template.enclosed run) (Template.enclosed run') := by
  refine bind get fun outer outer' start => bind inside fun a b given => ?_
  exact bind (update fun _ _ held => carries.leave start held) fun _ _ _ => pure given

theorem rows {body body' : Json → Json → Run Flow}
    (each : ∀ key element, Tracks sinks related Eq (body key element) (body' key element))
    (pairs : List (Json × Json)) :
    Tracks sinks related Eq (overRows body pairs) (overRows body' pairs) := by
  induction pairs with
  | nil => exact pure rfl
  | cons pair rest ih =>
    refine bind (each pair.1 pair.2) fun flow flow' same => ?_
    subst same
    split
    · exact pure rfl
    · exact ih

theorem count {body body' : Json → Json → Run Flow}
    (each : ∀ key element, Tracks sinks related Eq (body key element) (body' key element))
    (i left : Nat) : Tracks sinks related Eq (overCount body i left) (overCount body' i left) := by
  induction left generalizing i with
  | zero => exact pure rfl
  | succ left ih =>
    refine bind (each (.ofNat i) (.ofNat i)) fun flow flow' same => ?_
    subst same
    split
    · exact pure rfl
    · exact ih (i + 1)

theorem forEach {body body' : Json → Json → Run Flow}
    (each : ∀ key element, Tracks sinks related Eq (body key element) (body' key element))
    (items : Items) : Tracks sinks related Eq (items.forEach body) (items.forEach body') := by
  cases items with
  | rows pairs => exact rows each pairs
  | count n => exact count each 0 n

end Tracks

section Running

variable {mutes : Bool} {sinks : Sink → Sink → Prop} {named : String → Prop}
  {related : Vars → Vars → Prop} (options : Options)

theorem bindItem_carries (carries : Carries named related) {names : List String}
    {vars vars' : Vars} (start : related vars vars') (held : ∀ name ∈ names, named name)
    (assigns : Bool) (key element : Json) :
    related (bindItem names assigns key element vars)
      (bindItem names assigns key element vars') := by
  rcases names with _ | ⟨first, _ | ⟨second, _ | ⟨third, rest⟩⟩⟩
  · exact start
  · exact carries.bind start (held first (.head _)) assigns element
  · exact carries.bind (carries.bind start (held first (.head _)) assigns key)
      (held second (.tail _ (.head _))) assigns element
  · exact start

theorem builtin?_unlined (command : Command) : command.unlined.builtin? = command.builtin? := by
  obtain ⟨line, operands⟩ := command
  rcases operands with _ | ⟨operand, rest⟩
  · rfl
  · cases operand <;> rfl

theorem lastBuiltin?_unlined (pipe : Pipeline) : pipe.unlined.lastBuiltin? = pipe.lastBuiltin? := by
  obtain ⟨line, names, assigns, commands⟩ := pipe
  have mapped : commandsUnlined commands = commands.map Command.unlined := by
    induction commands with
    | nil => rfl
    | cons command rest ih => rw [commandsUnlined, ih, List.map_cons]
  rw [Pipeline.unlined, Pipeline.lastBuiltin?, Pipeline.lastBuiltin?, Pipeline.commands,
    Pipeline.commands, mapped, List.getLast?_map]
  cases commands.getLast? with
  | none => rfl
  | some command => exact builtin?_unlined command

theorem printedText_unlined {pipe pipe' : Pipeline} (same : pipe'.unlined = pipe.unlined)
    (value : Json) : printedText options pipe' value = printedText options pipe value := by
  have last := congrArg Pipeline.lastBuiltin? same
  rw [lastBuiltin?_unlined, lastBuiltin?_unlined] at last
  rw [printedText, last, printedText]

theorem names_unlined {pipe pipe' : Pipeline} (same : pipe'.unlined = pipe.unlined) :
    pipe'.names = pipe.names ∧ pipe'.assigns = pipe.assigns ∧
      commandsUnlined pipe'.commands = commandsUnlined pipe.commands := by
  obtain ⟨line, names, assigns, commands⟩ := pipe
  obtain ⟨line', names', assigns', commands'⟩ := pipe'
  obtain ⟨-, rfl, rfl, alike⟩ := Pipeline.mk.inj same
  exact ⟨rfl, rfl, alike⟩

theorem action_tracks (catches : Catches mutes sinks) (carries : Carries named related)
    (dot : Json) {pipe pipe' : Pipeline}
    (same : pipe'.unlined = pipe.unlined) (held : ∀ name ∈ pipe.named, named name) :
    Tracks sinks related Eq (runNode options dot (.action pipe))
      (runNode options dot (.action pipe')) := by
  rw [runNode, runNode]
  refine .bind (.evaluate (evalPipeline_follows _ dot carries pipe pipe' same held))
    fun value value' given => ?_
  subst given
  rw [(names_unlined same).1, printedText_unlined options same]
  split
  · exact .bind (.emit catches _) fun _ _ _ => .pure rfl
  · exact .pure rfl

theorem named_parts {pipe : Pipeline} (held : ∀ name ∈ pipe.named, named name) :
    (∀ name ∈ pipe.names, named name) ∧ ∀ name ∈ commandsNamed pipe.commands, named name := by
  cases pipe
  exact List.forall_mem_append.mp held

section Branches

variable (carries : Carries named related) {pipe pipe' : Pipeline} {body body' : List Node}
  {otherwise otherwise' : Option (List Node)} (same : pipe'.unlined = pipe.unlined)
  (held : ∀ name ∈ pipe.named, named name)
  (inBody : ∀ dot, Tracks sinks related Eq (runNodes options dot body) (runNodes options dot body'))
  (inElse : ∀ dot, Tracks sinks related Eq (runOtherwise options dot otherwise)
    (runOtherwise options dot otherwise'))
include carries same held inBody inElse

theorem range_tracks (line line' : Nat) (dot : Json) :
    Tracks sinks related Eq (runNode options dot (.branch .rangeBranch line pipe body otherwise))
      (runNode options dot (.branch .rangeBranch line' pipe' body' otherwise')) := by
  obtain ⟨names, assigns, commands⟩ := names_unlined same
  obtain ⟨mine, inner⟩ := named_parts held
  rw [runNode, runNode]
  refine .enclosed carries (.bind .get fun seen seen' start => ?_)
  refine .bind (.evaluate (evalCommands_follows _ dot carries none _ _ commands inner))
    fun value value' given => ?_
  subst given
  cases itemsOf value with
  | error fault => exact .fail _ _
  | ok items =>
    dsimp only
    split
    · exact inElse dot
    · refine .bind (.forEach (fun key element => ?_) items) fun _ _ _ => .pure rfl
      rw [names, assigns]
      refine .bind (.update fun _ _ entered => bindItem_carries carries entered mine _ _ _)
        fun _ _ _ => ?_
      refine .bind (inBody element) fun flow flow' given => ?_
      exact .bind (.update fun _ _ ended => carries.leave start ended) fun _ _ _ => .pure given

theorem branch_tracks {kind : BranchKind} (ranges : kind ≠ .rangeBranch) (line line' : Nat)
    (dot : Json) :
    Tracks sinks related Eq (runNode options dot (.branch kind line pipe body otherwise))
      (runNode options dot (.branch kind line' pipe' body' otherwise')) := by
  have either : ∀ (inner : Json) (holds : Bool), Tracks sinks related Eq
      (if holds then runNodes options inner body else runOtherwise options dot otherwise)
      (if holds then runNodes options inner body' else runOtherwise options dot otherwise') := by
    intro inner holds
    cases holds with
    | true => exact inBody inner
    | false => exact inElse dot
  have header : Tracks sinks related Eq _ _ :=
    .evaluate (evalPipeline_follows options.missingKey dot carries pipe pipe' same held)
  cases kind with
  | rangeBranch => exact (ranges rfl).elim
  | ifBranch =>
    rw [runNode, runNode]
    · exact .enclosed carries (.bind header fun value _ given => given ▸ either dot (truth value))
    · rintro ⟨⟩
    · rintro ⟨⟩
  | withBranch =>
    rw [runNode, runNode]
    · exact .enclosed carries (.bind header fun value _ given => given ▸ either value (truth value))
    · rintro ⟨⟩
    · rintro ⟨⟩

end Branches

theorem runNode_silent (dot : Json) {node : Node} (silent : node.isSilent = true) :
    runNode options dot node = (do emit (.printed []); pure .normal) := by
  cases node with
  | action pipe =>
    obtain ⟨line, assigns, inner, rfl⟩ := Pipeline.silent_cases silent
    have nothing (pipe : Pipeline) : printedText options pipe (.str "") = [] := by
      unfold printedText
      split
      · rename_i isNull
        cases isNull
      · split
        · rfl
        · rfl
    have value : evalPipeline options.missingKey dot
        (.mk line [] assigns [.mk inner [.literal (.str "")]]) = pure (.str "") := rfl
    rw [runNode, value]
    change (do
      emit (.printed (Text.utf8Chars (printedText options _ (.str ""))))
      pure Flow.normal) = _
    rw [nothing]
    rfl
  | _ => cases silent

section Muted

variable (catches : Catches mutes sinks) {dot : Json} {node : Node} {before rest : List Node}
include catches

theorem muted_left {run' : Run Flow} (silent : (mutes && node.isSilent) = true)
    (later : Tracks sinks related Eq (runNodes options dot rest) run') :
    Tracks sinks related Eq (runNodes options dot (node :: rest)) run' := by
  obtain ⟨muted, silent⟩ := Bool.and_eq_true_iff.mp silent
  rw [runNodes, runNode_silent options dot silent]
  intro vars vars' sink sink' flow left after start caught done
  rw [perform_bind, perform_bind, perform_emit] at done
  cases written : sink.write (.printed []) with
  | mk outcome filled =>
    rw [written] at done
    cases outcome with
    | error fault => cases done
    | ok => exact later _ _ _ _ _ _ _ start (catches.left muted caught written) done

theorem muted_right {run : Run Flow}
    (silent : ∀ node ∈ before, (mutes && node.isSilent) = true)
    (later : Tracks sinks related Eq run (runNodes options dot rest)) :
    Tracks sinks related Eq run (runNodes options dot (before ++ rest)) := by
  induction before with
  | nil => exact later
  | cons node before ih =>
    obtain ⟨here, others⟩ := List.forall_mem_cons.mp silent
    obtain ⟨muted, here⟩ := Bool.and_eq_true_iff.mp here
    rw [List.cons_append, runNodes, runNode_silent options dot here]
    intro vars vars' sink sink' flow left after start caught done
    obtain ⟨filled, written, caught⟩ := catches.right muted caught
    rw [perform_bind, perform_bind, perform_emit, written]
    exact ih others _ _ _ _ _ _ _ start caught done

end Muted

mutual
theorem runNode_pruned (catches : Catches mutes sinks) (carries : Carries named related)
    (dot : Json) :
    (node node' : Node) → node'.pruned mutes = node.pruned mutes →
      (∀ name ∈ node.named, named name) →
      Tracks sinks related Eq (runNode options dot node) (runNode options dot node')
  | .text bytes, node', same, _ => by
    cases node' with
    | text bytes' =>
      obtain rfl := Node.text.inj same
      rw [runNode]
      exact .bind (.emit catches _) fun _ _ _ => .pure rfl
    | _ => cases same
  | .action pipe, node', same, held => by
    cases node' with
    | action pipe' => exact action_tracks options catches carries dot (Node.action.inj same) held
    | _ => cases same
  | .branch kind line pipe body otherwise, node', same, held => by
    cases node' with
    | branch kind' line' pipe' body' otherwise' =>
      obtain ⟨rfl, -, header, inside, behind⟩ := Node.branch.inj same
      obtain ⟨mine, later⟩ := List.forall_mem_append.mp held
      obtain ⟨inner, others⟩ := List.forall_mem_append.mp later
      have inBody := fun dot => runNodes_pruned catches carries dot body body' inside inner
      have inElse := fun dot =>
        runOtherwise_pruned catches carries dot otherwise otherwise' behind others
      by_cases ranges : kind' = .rangeBranch
      · subst ranges
        exact range_tracks options carries header mine inBody inElse line line' dot
      · exact branch_tracks options carries header mine inBody inElse ranges line line' dot
    | _ => cases same
  | .breakRange, node', same, _ => by
    cases node' with
    | breakRange =>
      rw [runNode]
      exact .pure rfl
    | _ => cases same
  | .continueRange, node', same, _ => by
    cases node' with
    | continueRange =>
      rw [runNode]
      exact .pure rfl
    | _ => cases same
termination_by structural node => node

theorem runNodes_pruned (catches : Catches mutes sinks) (carries : Carries named related)
    (dot : Json) :
    (nodes nodes' : List Node) → nodesPruned mutes nodes' = nodesPruned mutes nodes →
      (∀ name ∈ nodesNamed nodes, named name) →
      Tracks sinks related Eq (runNodes options dot nodes) (runNodes options dot nodes')
  | [], nodes', same, _ => by
    rw [← List.append_nil nodes']
    exact muted_right options catches (pruned_nil same) (.pure rfl)
  | node :: rest, nodes', same, held => by
    obtain ⟨here, later⟩ := List.forall_mem_append.mp held
    have behind := fun rest' alike =>
      runNodes_pruned catches carries dot rest rest' alike later
    rw [nodesPruned_cons] at same
    split at same
    · rename_i silent
      exact muted_left options catches silent (behind nodes' same)
    · obtain ⟨before, node', rest', rfl, silent, -, alike, others⟩ := pruned_cons same
      refine muted_right options catches silent ?_
      rw [runNodes, runNodes]
      refine .bind (runNode_pruned catches carries dot node node' alike here)
        fun flow flow' given => ?_
      subst given
      split
      · exact behind rest' others
      · exact .pure rfl
termination_by structural nodes => nodes

theorem runOtherwise_pruned (catches : Catches mutes sinks) (carries : Carries named related)
    (dot : Json) :
    (otherwise otherwise' : Option (List Node)) →
      otherwisePruned mutes otherwise' = otherwisePruned mutes otherwise →
      (∀ name ∈ otherwiseNamed otherwise, named name) →
      Tracks sinks related Eq (runOtherwise options dot otherwise)
        (runOtherwise options dot otherwise')
  | none, otherwise', same, _ => by
    cases otherwise' with
    | none =>
      rw [runOtherwise]
      exact .pure rfl
    | some => cases same
  | some nodes, otherwise', same, held => by
    cases otherwise' with
    | none => cases same
    | some nodes' =>
      rw [runOtherwise, runOtherwise]
      exact runNodes_pruned catches carries dot nodes nodes' (Option.some.inj same) held
termination_by structural otherwise => otherwise
end

theorem runNodes_tracks (carries : Carries named related) (dot : Json) (nodes nodes' : List Node)
    (same : nodesUnlined nodes' = nodesUnlined nodes)
    (held : ∀ name ∈ nodesNamed nodes, named name) :
    Tracks Eq related Eq (runNodes options dot nodes) (runNodes options dot nodes') := by
  rw [← nodesPruned_false, ← nodesPruned_false] at same
  exact runNodes_pruned options same_catches carries dot nodes nodes' same held

end Running

end PagePress.Template
