import PagePress.Proofs.Template.Binding

namespace PagePress.Template

variable {α β : Type}

namespace Vars

-- The entry at a height, counted from the bottom.
def slot? (vars : Vars) (height : Nat) : Option (String × Json) := vars.reverse[height]?

def height? : Vars → String → Option Nat
  | [], _ => none
  | (n, _) :: rest, name => if n = name then some rest.length else height? rest name

end Vars

structure Assignment where
  name : String
  value : Json
  vars : Vars

def Assignment.target? (assignment : Assignment) : Option Nat :=
  assignment.vars.height? assignment.name

section Log

def behind (first : Vars → List Assignment) (e : Eval α) (next : α → Vars → List Assignment)
    (vars : Vars) : List Assignment :=
  first vars ++
    match e vars with
    | .ok (a, left) => next a left
    | .error _ => []

def behindRun (first : Vars → Sink → List Assignment) (run : Run α)
    (next : α → Vars → Sink → List Assignment) (vars : Vars) (sink : Sink) : List Assignment :=
  first vars sink ++
    match perform run vars sink with
    | (.ok (a, left), after) => next a left after
    | (.error _, _) => []

def nameAssigned (assigns : Bool) (name : String) (value : Json) (vars : Vars) : List Assignment :=
  if assigns then [⟨name, value, vars⟩] else []

def namesAssigned (assigns : Bool) (value : Json) : List String → Vars → List Assignment
  | [], _ => []
  | name :: rest, vars =>
    nameAssigned assigns name value vars ++
      namesAssigned assigns value rest (vars.bind assigns name value)

def itemAssigned (names : List String) (assigns : Bool) (key element : Json) (vars : Vars) :
    List Assignment :=
  match names with
  | [name] => nameAssigned assigns name element vars
  | [first, second] =>
    nameAssigned assigns first key vars ++
      nameAssigned assigns second element (vars.bind assigns first key)
  | _ => []

mutual
def Operand.assignments (policy : MissingKey) (dot : Json) (line : Nat) :
    Operand → Vars → List Assignment
  | .chain inner _ => inner.assignments policy dot line
  | .group pipe => pipe.assignments policy dot
  | .dot | .field _ | .var _ _ | .function _ | .literal _ => fun _ => []

def operandsAssignments (policy : MissingKey) (dot : Json) (line : Nat) :
    List Operand → Vars → List Assignment
  | [] => fun _ => []
  | operand :: rest =>
    behind (operand.assignments policy dot line) (evalOperand policy dot line operand) fun _ =>
      operandsAssignments policy dot line rest

def untilAssignments (policy : MissingKey) (dot : Json) (line : Nat) (decides : Bool) :
    List Operand → Vars → List Assignment
  | [] => fun _ => []
  | operand :: rest =>
    behind (operand.assignments policy dot line) (evalOperand policy dot line operand) fun value =>
      if truth value = decides then fun _ => []
      else untilAssignments policy dot line decides rest

def Command.assignments (policy : MissingKey) (dot : Json) (piped : Option Json) :
    Command → Vars → List Assignment
  | .mk line (.function builtin :: rest) =>
    match deciding? builtin with
    | some decides => untilAssignments policy dot line decides rest
    | none => operandsAssignments policy dot line rest
  | .mk line [operand] =>
    if piped.isSome then fun _ => [] else operand.assignments policy dot line
  | .mk _ _ => fun _ => []

def commandsAssignments (policy : MissingKey) (dot : Json) (piped : Option Json) :
    List Command → Vars → List Assignment
  | [] => fun _ => []
  | command :: rest =>
    behind (command.assignments policy dot piped) (evalCommand policy dot piped command)
      fun value =>
      commandsAssignments policy dot (some value) rest

def Pipeline.assignments (policy : MissingKey) (dot : Json) : Pipeline → Vars → List Assignment
  | .mk _ names assigns commands =>
    behind (commandsAssignments policy dot none commands) (evalCommands policy dot none commands)
      fun value => namesAssigned assigns value names
end

def Items.pairs : Items → List (Json × Json)
  | .rows pairs => pairs
  | .count n => (List.range' 0 n).map fun i => (.ofNat i, .ofNat i)

def turn (options : Options) (pipe : Pipeline) (body : List Node) (size : Nat)
    (key element : Json) : Run Flow := do
  modify (bindItem pipe.names pipe.assigns key element)
  let flow ← runNodes options element body
  modify (·.leave size)
  pure flow

def rowsAssignments (each : Json → Json → Vars → Sink → List Assignment)
    (body : Json → Json → Run Flow) : List (Json × Json) → Vars → Sink → List Assignment
  | [] => fun _ _ => []
  | (key, element) :: rest =>
    behindRun (each key element) (body key element) fun flow =>
      if flow = .broken then fun _ _ => [] else rowsAssignments each body rest

mutual
def Node.assignments (options : Options) (dot : Json) : Node → Vars → Sink → List Assignment
  | .text _ | .breakRange | .continueRange => fun _ _ => []
  | .action pipe => fun vars _ => pipe.assignments options.missingKey dot vars
  | .branch .rangeBranch _ pipe body otherwise => fun vars =>
    behindRun (fun vars _ => commandsAssignments options.missingKey dot none pipe.commands vars)
      (evaluate (evalCommands options.missingKey dot none pipe.commands))
      (fun value =>
        match itemsOf value with
        | .error _ => fun _ _ => []
        | .ok items =>
          if items.isEmpty then otherwiseAssignments options dot otherwise
          else
            rowsAssignments
              (fun key element vars sink =>
                itemAssigned pipe.names pipe.assigns key element vars ++
                  nodesAssignments options element body
                    (bindItem pipe.names pipe.assigns key element vars) sink)
              (turn options pipe body vars.length) items.pairs) vars
  | .branch kind _ pipe body otherwise =>
    behindRun (fun vars _ => pipe.assignments options.missingKey dot vars)
      (evaluate (evalPipeline options.missingKey dot pipe)) fun value =>
        if truth value then
          nodesAssignments options (if kind = .withBranch then value else dot) body
        else otherwiseAssignments options dot otherwise

def nodesAssignments (options : Options) (dot : Json) :
    List Node → Vars → Sink → List Assignment
  | [] => fun _ _ => []
  | node :: rest =>
    behindRun (node.assignments options dot) (runNode options dot node) fun flow =>
      if flow = .normal then nodesAssignments options dot rest else fun _ _ => []

def otherwiseAssignments (options : Options) (dot : Json) :
    Option (List Node) → Vars → Sink → List Assignment
  | some nodes => nodesAssignments options dot nodes
  | none => fun _ _ => []
end

end Log

namespace Vars

variable {vars : Vars} {height size : Nat}

theorem slot?_cons (entry : String × Json) (vars : Vars) (height : Nat) :
    slot? (entry :: vars) height =
      if height = vars.length then some entry else vars.slot? height := by
  rw [slot?, List.reverse_cons, List.getElem?_append, List.length_reverse, slot?]
  rcases Nat.lt_trichotomy height vars.length with below | here | above
  · rw [if_pos below, if_neg (Nat.ne_of_lt below)]
  · rw [here, if_neg (Nat.lt_irrefl _), if_pos rfl, Nat.sub_self]
    rfl
  · rw [if_neg (Nat.lt_asymm above), if_neg (Nat.ne_of_gt above), List.getElem?_eq_none,
      List.getElem?_eq_none]
    · rw [List.length_reverse]
      exact Nat.le_of_lt above
    · rw [List.length_singleton]
      exact Nat.sub_pos_of_lt above

theorem slot?_below (entry : String × Json) (below : height < vars.length) :
    slot? (entry :: vars) height = vars.slot? height := by
  rw [slot?_cons, if_neg (Nat.ne_of_lt below)]

theorem slot?_none (above : vars.length ≤ height) : vars.slot? height = none := by
  rw [slot?, List.getElem?_eq_none]
  rw [List.length_reverse]
  exact above

theorem height?_lt {name : String} (found : vars.height? name = some height) :
    height < vars.length := by
  induction vars with
  | nil => cases found
  | cons entry rest ih =>
    rw [height?] at found
    split at found
    · cases found
      exact Nat.lt_succ_self _
    · exact Nat.lt_succ_of_lt (ih found)

theorem slot?_assign (vars : Vars) (name : String) (value : Json) (height : Nat) :
    (vars.assign name value).slot? height =
      (vars.slot? height).map fun entry =>
        if vars.height? name = some height then (entry.1, value) else entry := by
  induction vars with
  | nil => rfl
  | cons entry rest ih =>
    obtain ⟨n, v⟩ := entry
    rw [assign, height?]
    by_cases same : n = name
    · rw [if_pos same, if_pos same, slot?_cons, slot?_cons]
      by_cases top : height = rest.length
      · simp [top]
      · have other : some rest.length ≠ some height := fun eq => top (Option.some.inj eq).symm
        simp [top, other]
    · rw [if_neg same, if_neg same, slot?_cons, slot?_cons, length_assign]
      by_cases top : height = rest.length
      · have other : height? rest name ≠ some height := by
          rintro found
          exact Nat.lt_irrefl _ (top ▸ height?_lt found)
        simp [top, top ▸ other]
      · rw [if_neg top, if_neg top, ih]

theorem slot?_leave (below : height < size) (vars : Vars) :
    (vars.leave size).slot? height = vars.slot? height := by
  rw [slot?, leave, List.reverse_drop, List.getElem?_take, slot?]
  split
  · rfl
  · rename_i above
    rw [List.getElem?_eq_none]
    rw [List.length_reverse]
    omega

theorem length_leave (vars : Vars) (size : Nat) :
    (vars.leave size).length = min size vars.length := by
  rw [leave, List.length_drop]
  omega

end Vars

section Keeping

def settle (height : Nat) (log : List Assignment) (entry : String × Json) : String × Json :=
  log.foldl (fun entry assignment =>
    if assignment.target? = some height then (entry.1, assignment.value) else entry) entry

theorem settle_append (height : Nat) (log more : List Assignment) (entry : String × Json) :
    settle height (log ++ more) entry = settle height more (settle height log entry) :=
  List.foldl_append

theorem settle_of_untouched {height : Nat} {log : List Assignment}
    (untouched : ∀ assignment ∈ log, assignment.target? ≠ some height) (entry : String × Json) :
    settle height log entry = entry := by
  induction log with
  | nil => rfl
  | cons assignment rest ih =>
    obtain ⟨other, untouched⟩ := List.forall_mem_cons.mp untouched
    rw [settle, List.foldl_cons, if_neg other]
    exact ih untouched

-- Up to a height, every entry is where it was, under its name and with the value last assigned.
structure Settles (size : Nat) (log : List Assignment) (vars left : Vars) : Prop where
  size_le : size ≤ left.length
  entry : ∀ height < size, left.slot? height = (vars.slot? height).map (settle height log)

namespace Settles

variable {size : Nat} {log more : List Assignment} {vars middle left : Vars}

theorem refl (size_le : size ≤ vars.length) : Settles size [] vars vars :=
  ⟨size_le, fun _ _ => Option.map_id_apply.symm⟩

theorem trans (one : Settles size log vars middle) (two : Settles size more middle left) :
    Settles size (log ++ more) vars left := by
  refine ⟨two.size_le, fun height below => ?_⟩
  rw [two.entry height below, one.entry height below, Option.map_map]
  exact congrArg (Option.map · _) (funext fun entry => (settle_append height log more entry).symm)

theorem bind (assigns : Bool) (name : String) (value : Json) (size_le : size ≤ vars.length) :
    Settles size (nameAssigned assigns name value vars) vars (vars.bind assigns name value) := by
  cases assigns with
  | false =>
    refine ⟨Nat.le_succ_of_le size_le, fun height below => ?_⟩
    exact (Vars.slot?_below _ (Nat.lt_of_lt_of_le below size_le)).trans Option.map_id_apply.symm
  | true =>
    exact ⟨size_le.trans_eq (Vars.length_assign vars name value).symm,
      fun height _ => Vars.slot?_assign vars name value height⟩

theorem bindAll (assigns : Bool) (value : Json) (names : List String) {vars : Vars}
    (size_le : size ≤ vars.length) :
    Settles size (namesAssigned assigns value names vars) vars
      (names.foldl (fun vars name => vars.bind assigns name value) vars) := by
  induction names generalizing vars with
  | nil => exact refl size_le
  | cons name rest ih =>
    have first := bind assigns name value size_le
    exact first.trans (ih first.size_le)

theorem bindItem (names : List String) (assigns : Bool) (key element : Json)
    (size_le : size ≤ vars.length) :
    Settles size (itemAssigned names assigns key element vars) vars
      (Template.bindItem names assigns key element vars) := by
  rcases names with _ | ⟨first, _ | ⟨second, _ | ⟨third, rest⟩⟩⟩
  · exact refl size_le
  · exact bind assigns first element size_le
  · have one := bind assigns first key size_le
    exact one.trans (bind assigns second element one.size_le)
  · exact refl size_le

theorem leave (kept : Settles size log vars left) {outer : Nat} (le : size ≤ outer) :
    Settles size log vars (left.leave outer) := by
  refine ⟨?_, fun height below => ?_⟩
  · rw [Vars.length_leave]
    exact Nat.le_min.mpr ⟨le, kept.size_le⟩
  · rw [Vars.slot?_leave (Nat.lt_of_lt_of_le below le)]
    exact kept.entry height below

end Settles

end Keeping

section Evaluation

def Accounts (size : Nat) (log : Vars → List Assignment) (e : Eval α) : Prop :=
  ∀ vars a left, size ≤ vars.length → e vars = .ok (a, left) → Settles size (log vars) vars left

namespace Accounts

variable {size : Nat} {log : Vars → List Assignment} {e : Eval α}

theorem pure (a : α) : Accounts size (fun _ => []) (Pure.pure a : Eval α) := by
  rintro vars _ _ size_le ⟨⟩
  exact .refl size_le

theorem stop (stop : Halt ExecError) : Accounts size log (throw stop : Eval α) := by
  rintro vars _ _ size_le ⟨⟩

theorem refuse (line : Nat) (fault : ExecFault) :
    Accounts size log (Template.refuse line fault : Eval α) := Accounts.stop _

theorem update {change : Vars → Vars}
    (kept : ∀ vars, size ≤ vars.length → Settles size (log vars) vars (change vars)) :
    Accounts size log (modify change : Eval Unit) := by
  rintro vars _ _ size_le ⟨⟩
  exact kept vars size_le

theorem bind {next : α → Eval β} {later : α → Vars → List Assignment} (first : Accounts size log e)
    (second : ∀ a, Accounts size (later a) (next a)) :
    Accounts size (behind log e later) (e >>= next) := by
  intro vars b left size_le done
  have chain : (e >>= next) vars = (e vars >>= fun p => next p.1 p.2) := rfl
  rw [chain] at done
  obtain ⟨⟨a, middle⟩, given, done⟩ := Chain.bind_eq_ok.mp done
  have kept := first vars a middle size_le given
  rw [behind, given]
  exact kept.trans (second a middle b left kept.size_le done)

theorem and_then {next : α → Eval β} (first : Accounts size log e)
    (second : ∀ a, Accounts size (fun _ => []) (next a)) : Accounts size log (e >>= next) := by
  have told : log = behind log e fun _ _ => [] := by
    funext vars
    rw [behind]
    split <;> exact (List.append_nil _).symm
  rw [told]
  exact first.bind second

end Accounts

variable {size : Nat} (policy : MissingKey) (dot : Json) (line : Nat)

theorem walkFields_accounts (value : Json) (path : List String) :
    Accounts size (fun _ => []) (walkFields policy line value path) := by
  rw [walkFields]
  split
  · exact .pure _
  · exact .refuse _ _

theorem callBuiltin_accounts (builtin : Builtin) (args : List Json) :
    Accounts size (fun _ => []) (callBuiltin line builtin args) := by
  rw [callBuiltin]
  split
  · exact .pure _
  · exact .stop _

theorem evalVar_accounts (name : String) (path : List String) :
    Accounts size (fun _ => []) (evalOperand policy dot line (.var name path)) := by
  intro vars a left size_le done
  have chain : ∀ (next : Vars → Eval Json), (get >>= next) vars = next vars vars := fun _ => rfl
  cases read : vars.get? name with
  | none =>
    rw [evalOperand, chain, read] at done
    cases done
  | some value =>
    rw [evalOperand, chain, read] at done
    exact walkFields_accounts policy line value path vars a left size_le done

theorem evalCommand_function_accounts (piped : Option Json) (builtin : Builtin)
    {rest : List Operand}
    (all : Accounts size (operandsAssignments policy dot line rest)
      (evalOperands policy dot line rest))
    (short : ∀ decides, Accounts size (untilAssignments policy dot line decides rest)
      (evalUntil policy dot line decides .null rest)) :
    Accounts size (Command.assignments policy dot piped (.mk line (.function builtin :: rest)))
      (evalCommand policy dot piped (.mk line (.function builtin :: rest))) := by
  rw [Command.assignments, evalCommand]
  cases deciding? builtin with
  | some decides =>
    dsimp only
    split
    · exact .refuse _ _
    · exact (short decides).and_then fun _ => .pure _
  | none => exact all.and_then fun values => callBuiltin_accounts line builtin _

theorem assignments_alone {operand : Operand} (other : ∀ builtin, operand ≠ .function builtin) :
    Command.assignments policy dot none (.mk line [operand]) =
      operand.assignments policy dot line := by
  cases operand with
  | function builtin => exact (other builtin rfl).elim
  | _ => simp only [Command.assignments, Option.isSome_none, Bool.false_eq_true, if_false]

mutual
theorem evalOperand_accounts (line : Nat) : (operand : Operand) →
    Accounts size (operand.assignments policy dot line) (evalOperand policy dot line operand)
  | .dot => by
    rw [Operand.assignments, evalOperand]
    exact .pure _
  | .literal value => by
    rw [Operand.assignments, evalOperand]
    exact .pure _
  | .field path => by
    rw [Operand.assignments, evalOperand]
    exact walkFields_accounts policy line dot path
  | .var name path => by
    rw [Operand.assignments]
    exact evalVar_accounts policy dot line name path
  | .chain inner path => by
    rw [Operand.assignments, evalOperand]
    exact (evalOperand_accounts line inner).and_then fun value =>
      walkFields_accounts policy line value path
  | .group pipe => by
    rw [Operand.assignments, evalOperand]
    exact evalPipeline_accounts pipe
  | .function builtin => by
    rw [Operand.assignments, evalOperand]
    exact callBuiltin_accounts line builtin []

theorem evalOperands_accounts (line : Nat) : (operands : List Operand) →
    Accounts size (operandsAssignments policy dot line operands)
      (evalOperands policy dot line operands)
  | [] => by
    rw [operandsAssignments, evalOperands]
    exact .pure _
  | operand :: rest => by
    rw [operandsAssignments, evalOperands]
    exact .bind (evalOperand_accounts line operand) fun value =>
      (evalOperands_accounts line rest).and_then fun values => .pure _

theorem evalUntil_accounts (line : Nat) (decides : Bool) : (operands : List Operand) →
    (last : Json) →
    Accounts size (untilAssignments policy dot line decides operands)
      (evalUntil policy dot line decides last operands)
  | [], last => by
    rw [untilAssignments, evalUntil]
    exact .pure _
  | operand :: rest, last => by
    rw [untilAssignments, evalUntil]
    refine .bind (evalOperand_accounts line operand) fun value => ?_
    split
    · exact .pure _
    · exact evalUntil_accounts line decides rest value

theorem evalCommand_accounts (piped : Option Json) : (command : Command) →
    Accounts size (command.assignments policy dot piped) (evalCommand policy dot piped command)
  | .mk line [] => by
    rw [evalCommand.eq_def]
    exact .refuse _ _
  | .mk line (operand :: rest) => by
    have alone := evalOperand_accounts line operand
    have all := evalOperands_accounts line rest
    have short := fun decides => evalUntil_accounts line decides rest .null
    rcases command_cases piped operand rest with ⟨builtin, rfl⟩ | ⟨other, ⟨rfl, rfl⟩ | several⟩
    · exact evalCommand_function_accounts policy dot line piped builtin all short
    · rw [assignments_alone policy dot line other, evalCommand_alone policy dot line other]
      exact alone
    · rw [evalCommand_other policy dot line other several]
      exact .refuse _ _

theorem evalCommands_accounts (piped : Option Json) : (commands : List Command) →
    Accounts size (commandsAssignments policy dot piped commands)
      (evalCommands policy dot piped commands)
  | [] => by
    rw [commandsAssignments, evalCommands]
    exact .pure _
  | command :: rest => by
    rw [commandsAssignments, evalCommands]
    exact .bind (evalCommand_accounts piped command) fun value =>
      evalCommands_accounts (some value) rest

theorem evalPipeline_accounts : (pipe : Pipeline) →
    Accounts size (pipe.assignments policy dot) (evalPipeline policy dot pipe)
  | .mk _ names assigns commands => by
    rw [Pipeline.assignments, evalPipeline]
    refine .bind (evalCommands_accounts none commands) fun value => ?_
    have bound : Accounts size (namesAssigned assigns value names)
        (modify fun vars => names.foldl (fun vars name => vars.bind assigns name value) vars) :=
      .update fun vars size_le => .bindAll assigns value names size_le
    exact bound.and_then fun _ => .pure _
end

end Evaluation

section Running

def RunAccounts (size : Nat) (log : Vars → Sink → List Assignment) (run : Run α) : Prop :=
  ∀ vars sink a left after, size ≤ vars.length →
    perform run vars sink = (.ok (a, left), after) → Settles size (log vars sink) vars left

namespace RunAccounts

variable {size : Nat} {log : Vars → Sink → List Assignment} {run : Run α}

theorem pure (a : α) : RunAccounts size (fun _ _ => []) (Pure.pure a : Run α) := by
  rintro vars sink _ _ _ size_le ⟨⟩
  exact .refl size_le

theorem fail (failure : Failure) : RunAccounts size log (throw failure : Run α) := by
  rintro vars sink _ _ _ size_le ⟨⟩

theorem update {log : Vars → List Assignment} {change : Vars → Vars}
    (kept : ∀ vars, size ≤ vars.length → Settles size (log vars) vars (change vars)) :
    RunAccounts size (fun vars _ => log vars) (modify change : Run Unit) := by
  rintro vars sink _ _ _ size_le ⟨⟩
  exact kept vars size_le

theorem evaluate {log : Vars → List Assignment} {e : Eval α} (accounts : Accounts size log e) :
    RunAccounts size (fun vars _ => log vars) (Template.evaluate e) := by
  intro vars sink a left after size_le done
  rw [perform_evaluate] at done
  cases given : e vars with
  | error error =>
    rw [given] at done
    cases done
  | ok result =>
    rw [given] at done
    cases done
    exact accounts vars a left size_le given

theorem emit (piece : Piece) : RunAccounts size (fun _ _ => []) (Template.emit piece) := by
  intro vars sink a left after size_le done
  rw [perform_emit] at done
  cases written : sink.write piece with
  | mk outcome filled =>
    rw [written] at done
    cases outcome with
    | error fault => cases done
    | ok =>
      cases done
      exact .refl size_le

theorem bind {next : α → Run β} {later : α → Vars → Sink → List Assignment}
    (first : RunAccounts size log run) (second : ∀ a, RunAccounts size (later a) (next a)) :
    RunAccounts size (behindRun log run later) (run >>= next) := by
  intro vars sink b left after size_le done
  rw [perform_bind] at done
  rw [behindRun]
  cases ended : perform run vars sink with
  | mk outcome middle =>
    rw [ended] at done
    cases outcome with
    | error failure => cases done
    | ok result =>
      have kept := first vars sink _ _ _ size_le ended
      exact kept.trans (second result.1 result.2 middle b left after kept.size_le done)

theorem and_then {next : α → Run β} (first : RunAccounts size log run)
    (second : ∀ a, RunAccounts size (fun _ _ => []) (next a)) :
    RunAccounts size log (run >>= next) := by
  have told : log = behindRun log run fun _ _ _ => [] := by
    funext vars sink
    rw [behindRun]
    split <;> exact (List.append_nil _).symm
  rw [told]
  exact first.bind second

-- A loop or a branch may look at how many variables there are.
theorem get_then {log : Vars → Vars → Sink → List Assignment} {next : Vars → Run β}
    (later : ∀ outer, size ≤ outer.length → RunAccounts size (log outer) (next outer)) :
    RunAccounts size (fun vars => log vars vars) (get >>= next) :=
  fun vars sink b left after size_le done => later vars size_le vars sink b left after size_le done

theorem enclosed (inside : RunAccounts size log run) :
    RunAccounts size log (Template.enclosed run) := by
  intro vars sink a left after size_le done
  rw [perform_enclosed] at done
  cases ended : perform run vars sink with
  | mk outcome middle =>
    rw [ended] at done
    cases outcome with
    | error failure => cases done
    | ok result =>
      cases done
      exact (inside vars sink _ _ _ size_le ended).leave size_le

theorem rows {each : Json → Json → Vars → Sink → List Assignment}
    {body : Json → Json → Run Flow}
    (accounts : ∀ key element, RunAccounts size (each key element) (body key element))
    (pairs : List (Json × Json)) :
    RunAccounts size (rowsAssignments each body pairs) (overRows body pairs) := by
  induction pairs with
  | nil => exact pure ()
  | cons pair rest ih =>
    refine bind (accounts pair.1 pair.2) fun flow => ?_
    split
    · exact pure ()
    · exact ih

end RunAccounts

theorem overCount_eq_overRows (body : Json → Json → Run Flow) (i left : Nat) :
    overCount body i left =
      overRows body ((List.range' i left).map fun i => (.ofNat i, .ofNat i)) := by
  induction left generalizing i with
  | zero => rfl
  | succ left ih =>
    rw [overCount, ih]
    rfl

theorem forEach_eq_overRows (items : Items) (body : Json → Json → Run Flow) :
    items.forEach body = overRows body items.pairs := by
  cases items with
  | rows pairs => rfl
  | count n => exact overCount_eq_overRows body 0 n

variable {size : Nat} (options : Options) {pipe : Pipeline} {body : List Node}
  {otherwise : Option (List Node)}
  (inBody : ∀ dot, RunAccounts size (nodesAssignments options dot body) (runNodes options dot body))
  (inElse : ∀ dot, RunAccounts size (otherwiseAssignments options dot otherwise)
    (runOtherwise options dot otherwise))

include inBody in
theorem turn_accounts {outer : Nat} (le : size ≤ outer) (key element : Json) :
    RunAccounts size
      (fun vars sink => itemAssigned pipe.names pipe.assigns key element vars ++
        nodesAssignments options element body
          (bindItem pipe.names pipe.assigns key element vars) sink)
      (turn options pipe body outer key element) := by
  have bound : RunAccounts size
      (fun vars _ => itemAssigned pipe.names pipe.assigns key element vars)
      (modify (bindItem pipe.names pipe.assigns key element)) :=
    .update fun vars size_le => .bindItem pipe.names pipe.assigns key element size_le
  refine .bind bound fun _ => .and_then (inBody element) fun flow =>
    .and_then ?_ fun _ => .pure flow
  exact .update fun vars size_le => (Settles.refl size_le).leave le

include inBody inElse

theorem range_accounts (line : Nat) (dot : Json) :
    RunAccounts size (Node.assignments options dot (.branch .rangeBranch line pipe body otherwise))
      (runNode options dot (.branch .rangeBranch line pipe body otherwise)) := by
  rw [Node.assignments, runNode]
  refine .enclosed (.get_then fun outer le => ?_)
  refine .bind (.evaluate (evalCommands_accounts _ dot none pipe.commands)) fun value => ?_
  cases itemsOf value with
  | error fault => exact .fail _
  | ok items =>
    dsimp only
    split
    · exact inElse dot
    · rw [forEach_eq_overRows]
      exact .and_then (.rows (turn_accounts options inBody le) items.pairs) fun _ => .pure _

theorem branch_accounts {kind : BranchKind} (ranges : kind ≠ .rangeBranch) (line : Nat)
    (dot : Json) :
    RunAccounts size (Node.assignments options dot (.branch kind line pipe body otherwise))
      (runNode options dot (.branch kind line pipe body otherwise)) := by
  have inside : RunAccounts size
      (behindRun (fun vars _ => pipe.assignments options.missingKey dot vars)
        (evaluate (evalPipeline options.missingKey dot pipe)) fun value =>
          if truth value then
            nodesAssignments options (if kind = .withBranch then value else dot) body
          else otherwiseAssignments options dot otherwise)
      (do
        let value ← evaluate (evalPipeline options.missingKey dot pipe)
        if truth value then runNodes options (if kind = .withBranch then value else dot) body
        else runOtherwise options dot otherwise) := by
    refine .bind (.evaluate (evalPipeline_accounts _ dot pipe)) fun value => ?_
    cases truth value with
    | true => exact inBody _
    | false => exact inElse dot
  rw [Node.assignments, runNode]
  · exact .enclosed inside
  · exact ranges
  · exact ranges

omit inBody inElse

mutual
theorem runNode_accounts : (node : Node) → (dot : Json) →
    RunAccounts size (node.assignments options dot) (runNode options dot node)
  | .text bytes, dot => by
    rw [Node.assignments, runNode]
    exact .and_then (.emit _) fun _ => .pure _
  | .action pipe, dot => by
    rw [Node.assignments, runNode]
    refine .and_then (.evaluate (evalPipeline_accounts _ dot pipe)) fun value => ?_
    split
    · exact .and_then (.emit _) fun _ => .pure _
    · exact .pure _
  | .branch kind line pipe body otherwise, dot => by
    have inBody := runNodes_accounts body
    have inElse := runOtherwise_accounts otherwise
    by_cases ranges : kind = .rangeBranch
    · subst ranges
      exact range_accounts options inBody inElse line dot
    · exact branch_accounts options inBody inElse ranges line dot
  | .breakRange, dot => by
    rw [Node.assignments, runNode]
    exact .pure _
  | .continueRange, dot => by
    rw [Node.assignments, runNode]
    exact .pure _

theorem runNodes_accounts : (nodes : List Node) → (dot : Json) →
    RunAccounts size (nodesAssignments options dot nodes) (runNodes options dot nodes)
  | [], dot => by
    rw [nodesAssignments, runNodes]
    exact .pure _
  | node :: rest, dot => by
    have later := runNodes_accounts rest dot
    rw [nodesAssignments, runNodes]
    refine .bind (runNode_accounts node dot) fun flow => ?_
    split
    · exact later
    · exact .pure _

theorem runOtherwise_accounts : (otherwise : Option (List Node)) → (dot : Json) →
    RunAccounts size (otherwiseAssignments options dot otherwise)
      (runOtherwise options dot otherwise)
  | none, dot => by
    rw [otherwiseAssignments, runOtherwise]
    exact .pure _
  | some nodes, dot => by
    rw [otherwiseAssignments, runOtherwise]
    exact runNodes_accounts nodes dot
end

end Running

section Stack

variable {options : Options} {dot : Json} {vars left : Vars} {sink after : Sink} {flow : Flow}

theorem runNodes_names {nodes : List Node}
    (done : perform (runNodes options dot nodes) vars sink = (.ok (flow, left), after)) :
    vars.names <:+ left.names := by
  have ended := runNodes_binds options nodes dot vars.names [] vars sink
    ⟨List.suffix_refl _, fun _ member => by cases member⟩
  rw [done] at ended
  exact ended.1.grown

theorem enclosed_length {run : Run α} {a : α}
    (done : perform (enclosed run) vars sink = (.ok (a, left), after)) :
    left.length ≤ vars.length := by
  rw [perform_enclosed] at done
  split at done
  · cases done
    rw [Vars.length_leave]
    exact Nat.min_le_left _ _
  · cases done

theorem branch_enclosed (options : Options) (dot : Json) (kind : BranchKind) (line : Nat)
    (pipe : Pipeline) (body : List Node) (otherwise : Option (List Node)) :
    ∃ run, runNode options dot (.branch kind line pipe body otherwise) = enclosed run := by
  by_cases ranges : kind = .rangeBranch
  · subst ranges
    rw [runNode]
    exact ⟨_, rfl⟩
  · rw [runNode]
    · exact ⟨_, rfl⟩
    · exact ranges

theorem branch_names {kind : BranchKind} {line : Nat} {pipe : Pipeline} {body : List Node}
    {otherwise : Option (List Node)}
    (done : perform (runNode options dot (.branch kind line pipe body otherwise)) vars sink =
      (.ok (flow, left), after)) : left.names = vars.names := by
  have ended := runNode_binds options (.branch kind line pipe body otherwise) dot vars.names [] vars
    sink ⟨List.suffix_refl _, fun _ member => by cases member⟩
  rw [done] at ended
  obtain ⟨run, same⟩ := branch_enclosed options dot kind line pipe body otherwise
  rw [same] at done
  refine (ended.1.grown.eq_of_length_le ?_).symm
  rw [Vars.length_names, Vars.length_names]
  exact enclosed_length done

-- A node list leaves what was there where it was. A branch leaves nothing else behind, and tells
-- of each value what was assigned to it.
theorem stack_discipline (options : Options) (dot : Json) {vars : Vars}
    (rooted : vars.names.getLast? = some "$") (sink : Sink) :
    (∀ nodes flow left after, perform (runNodes options dot nodes) vars sink =
        (.ok (flow, left), after) →
      vars.names <:+ left.names ∧ left.names.getLast? = some "$") ∧
    ∀ kind line pipe body otherwise flow left after,
      let node := Node.branch kind line pipe body otherwise
      perform (runNode options dot node) vars sink = (.ok (flow, left), after) →
        left.names = vars.names ∧ ∀ height,
          left.slot? height = (vars.slot? height).map
            (settle height (node.assignments options dot vars sink)) ∧
          (left.slot? height ≠ vars.slot? height →
            ∃ assignment ∈ node.assignments options dot vars sink,
              assignment.target? = some height) := by
  refine ⟨fun nodes flow left after done => ?_, ?_⟩
  · have grown := runNodes_names done
    refine ⟨grown, ?_⟩
    obtain ⟨pushed, same⟩ := grown
    rw [← same, List.getLast?_append, rooted]
    rfl
  · intro kind line pipe body otherwise flow left after node done
    have names := branch_names done
    have kept := runNode_accounts options node dot vars sink flow left after (Nat.le_refl _) done
    have settled : ∀ height, left.slot? height = (vars.slot? height).map
        (settle height (node.assignments options dot vars sink)) := by
      intro height
      rcases Nat.lt_or_ge height vars.length with below | above
      · exact kept.entry height below
      · have length : left.length = vars.length := by
          rw [← Vars.length_names, names, Vars.length_names]
        rw [Vars.slot?_none above, Vars.slot?_none (length ▸ above)]
        rfl
    refine ⟨names, fun height => ⟨settled height, fun changed => ?_⟩⟩
    by_contra none
    have untouched : ∀ assignment ∈ node.assignments options dot vars sink,
        assignment.target? ≠ some height := fun assignment member same =>
      none ⟨assignment, member, same⟩
    refine changed ((settled height).trans ?_)
    rw [funext (settle_of_untouched untouched)]
    exact Option.map_id_apply

def shadowing : Node :=
  .branch .rangeBranch 1 (.mk 1 ["$e"] false [.mk 1 [.dot]])
    [.action (.mk 1 ["$x"] true [.mk 1 [.var "$e" []]]),
      .action (.mk 1 ["$x"] false [.mk 1 [.literal (.bool true)]]),
      .action (.mk 1 ["$x"] true [.mk 1 [.literal (.bool false)]])] none

theorem stack_discipline_shadowing :
    let vars : Vars := [("$x", .null), ("$", .null)]
    let left : Vars := [("$x", .str "b"), ("$", .null)]
    let dot : Json := .arr [.str "a", .str "b"]
    vars.names.getLast? = some "$" ∧
      perform (runNode {} dot shadowing) vars {} = (.ok (.normal, left), {}) ∧
      left.names = vars.names ∧ left.slot? 1 ≠ vars.slot? 1 ∧
      ∃ assignment ∈ shadowing.assignments {} dot vars {}, assignment.target? = some 1 := by
  intro vars left dot
  have rooted : vars.names.getLast? = some "$" := rfl
  have done : perform (runNode {} dot shadowing) vars {} = (.ok (.normal, left), {}) := rfl
  have changed : left.slot? 1 ≠ vars.slot? 1 := by
    intro same
    cases same
  obtain ⟨names, values⟩ := (stack_discipline {} dot rooted {}).2 _ _ _ _ _ _ _ _ done
  exact ⟨rooted, done, names, changed, (values 1).2 changed⟩

end Stack

end PagePress.Template
