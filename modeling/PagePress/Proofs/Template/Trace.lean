import PagePress.Proofs.Template.Triple
import PagePress.Template.Compiled

namespace PagePress.Template

variable {α β : Type}

inductive Event where
  | begins (node : Node)
  | text (bytes : Bytes)
  -- An action has a value to print.
  | prints (pipe : Pipeline) (value : Json)

def Event.piece? (options : Options) : Event → Option Piece
  | .begins _ => none
  | .text bytes => some (.text bytes)
  | .prints pipe value => some (.printed (Text.utf8Chars (printedText options pipe value)))

-- Like a run, but into a list of events, the last one first.
abbrev Traced (α : Type) := StateT Vars (ExceptT (Halt ExecError) (StateM (List Event))) α

def follow (trace : Traced α) (vars : Vars) (events : List Event) :
    Except (Halt ExecError) (α × Vars) × List Event := (trace vars).run events

def note (event : Event) : Traced Unit :=
  modifyGetThe (List Event) fun events => ((), event :: events)

def traceEval (e : Eval α) : Traced α := fun vars =>
  match e vars with
  | .ok result => pure result
  | .error stop => throw stop

def traceRows (body : Json → Json → Traced Flow) : List (Json × Json) → Traced Unit
  | [] => pure ()
  | (key, element) :: rest => do
    let flow ← body key element
    if flow = .broken then pure () else traceRows body rest

def traceCount (body : Json → Json → Traced Flow) (i : Nat) : Nat → Traced Unit
  | 0 => pure ()
  | left + 1 => do
    let flow ← body (.ofNat i) (.ofNat i)
    if flow = .broken then pure () else traceCount body (i + 1) left

def Items.traceEach (items : Items) (body : Json → Json → Traced Flow) : Traced Unit :=
  match items with
  | .rows pairs => traceRows body pairs
  | .count n => traceCount body 0 n

def traceEnclosed (body : Traced α) : Traced α := do
  let size := (← get).length
  let result ← body
  modify (·.leave size)
  pure result

mutual
def traceNode (policy : MissingKey) (dot : Json) : Node → Traced Flow
  | .text bytes => do
    note (.text bytes)
    pure .normal
  | .action pipe => do
    let value ← traceEval (evalPipeline policy dot pipe)
    if pipe.names.isEmpty then note (.prints pipe value)
    pure .normal
  | .branch .rangeBranch line pipe body otherwise => traceEnclosed do
    let size := (← get).length
    let value ← traceEval (evalCommands policy dot none pipe.commands)
    match itemsOf value with
    | .error fault => throw (.fault ⟨line, fault⟩)
    | .ok items =>
      if items.isEmpty then traceOtherwise policy dot otherwise
      else do
        items.traceEach fun key element => do
          modify (bindItem pipe.names pipe.assigns key element)
          let flow ← traceNodes policy element body
          modify (·.leave size)
          pure flow
        pure .normal
  | .branch kind _ pipe body otherwise => traceEnclosed do
    let value ← traceEval (evalPipeline policy dot pipe)
    if truth value then
      traceNodes policy (if kind = .withBranch then value else dot) body
    else traceOtherwise policy dot otherwise
  | .breakRange => pure .broken
  | .continueRange => pure .continued

def traceNodes (policy : MissingKey) (dot : Json) : List Node → Traced Flow
  | [] => pure .normal
  | node :: rest => do
    note (.begins node)
    let flow ← traceNode policy dot node
    if flow = .normal then traceNodes policy dot rest else pure flow

def traceOtherwise (policy : MissingKey) (dot : Json) : Option (List Node) → Traced Flow
  | some nodes => traceNodes policy dot nodes
  | none => pure .normal
end

def trace (template : Template) (policy : MissingKey) (values : Json) :
    Except (Halt ExecError) Unit × List Event :=
  let (outcome, events) := follow (traceNodes policy values template.nodes) [("$", values)] []
  (outcome.map fun _ => (), events.reverse)

theorem follow_bind (first : Traced α) (next : α → Traced β) (vars : Vars) (events : List Event) :
    follow (first >>= next) vars events =
      match follow first vars events with
      | (.ok (a, left), events) => follow (next a) left events
      | (.error error, events) => (.error error, events) := by
  have chain : follow (first >>= next) vars events =
      match follow first vars events with
      | (result, events) => (ExceptT.bindCont (fun p => next p.1 p.2) result) events := rfl
  rw [chain]
  obtain ⟨outcome, left⟩ := follow first vars events
  cases outcome <;> rfl

theorem follow_traceEval (e : Eval α) (vars : Vars) (events : List Event) :
    follow (traceEval e) vars events =
      match e vars with
      | .ok result => (.ok result, events)
      | .error error => (.error error, events) := by
  rw [follow, traceEval]
  cases e vars <;> rfl

def sinkOf (options : Options) (failsToFlush : Bool) (earlier : List Piece) (events : List Event) :
    Sink := ⟨none, failsToFlush, events.filterMap (Event.piece? options) ++ earlier⟩

-- The run does to such a sink what the trace does to the events.
def Mirrors (options : Options) (trace : Traced α) (run : Run α) : Prop :=
  ∀ vars events failsToFlush earlier,
    perform run vars (sinkOf options failsToFlush earlier events) =
      match follow trace vars events with
      | (.ok result, events) => (.ok result, sinkOf options failsToFlush earlier events)
      | (.error error, events) => (.error (.exec error), sinkOf options failsToFlush earlier events)

namespace Mirrors

variable {options : Options}

theorem pure (a : α) : Mirrors options (Pure.pure a) (Pure.pure a) := fun _ _ _ _ => rfl

theorem fail (stop : Halt ExecError) :
    Mirrors options (throw stop : Traced α) (throw (.exec stop)) := fun _ _ _ _ => rfl

theorem get : Mirrors options (MonadState.get : Traced Vars) MonadState.get := fun _ _ _ _ => rfl

theorem update (change : Vars → Vars) :
    Mirrors options (modify change : Traced Unit) (modify change) := fun _ _ _ _ => rfl

theorem bind {first : Traced α} {firstRun : Run α} {next : α → Traced β} {nextRun : α → Run β}
    (one : Mirrors options first firstRun) (two : ∀ a, Mirrors options (next a) (nextRun a)) :
    Mirrors options (first >>= next) (firstRun >>= nextRun) := by
  intro vars events failsToFlush earlier
  rw [perform_bind, follow_bind, one vars events failsToFlush earlier]
  obtain ⟨outcome, seen⟩ := follow first vars events
  cases outcome with
  | error error => rfl
  | ok p => exact two p.1 p.2 seen failsToFlush earlier

theorem evaluate (e : Eval α) : Mirrors options (traceEval e) (Template.evaluate e) := by
  intro vars events failsToFlush earlier
  rw [perform_evaluate, follow_traceEval]
  cases e vars <;> rfl

theorem emit {event : Event} {piece : Piece} (written : event.piece? options = some piece) :
    Mirrors options (note event) (Template.emit piece) := by
  intro vars events failsToFlush earlier
  have noted : follow (note event) vars events = (.ok ((), vars), event :: events) := rfl
  rw [perform_emit, noted]
  simp only [sinkOf, List.filterMap_cons, written]
  rfl

theorem silent {event : Event} {next : Traced α} {run : Run α}
    (nothing : event.piece? options = none) (rest : Mirrors options next run) :
    Mirrors options (note event >>= fun _ => next) run := by
  intro vars events failsToFlush earlier
  have noted : follow (note event) vars events = (.ok ((), vars), event :: events) := rfl
  have same : sinkOf options failsToFlush earlier (event :: events) =
      sinkOf options failsToFlush earlier events := by
    simp only [sinkOf, List.filterMap_cons, nothing]
  rw [follow_bind, noted, ← same]
  exact rest vars (event :: events) failsToFlush earlier

theorem enclosed {body : Traced α} {run : Run α} (inside : Mirrors options body run) :
    Mirrors options (traceEnclosed body) (Template.enclosed run) := by
  refine bind get fun vars => bind inside fun a => ?_
  exact bind (update _) fun done => pure a

theorem rows {body : Json → Json → Traced Flow} {run : Json → Json → Run Flow}
    (each : ∀ key element, Mirrors options (body key element) (run key element))
    (pairs : List (Json × Json)) :
    Mirrors options (traceRows body pairs) (overRows run pairs) := by
  induction pairs with
  | nil => exact pure ()
  | cons pair rest ih =>
    refine bind (each pair.1 pair.2) fun flow => ?_
    split
    · exact pure ()
    · exact ih

theorem count {body : Json → Json → Traced Flow} {run : Json → Json → Run Flow}
    (each : ∀ key element, Mirrors options (body key element) (run key element)) (i left : Nat) :
    Mirrors options (traceCount body i left) (overCount run i left) := by
  induction left generalizing i with
  | zero => exact pure ()
  | succ left ih =>
    refine bind (each (.ofNat i) (.ofNat i)) fun flow => ?_
    split
    · exact pure ()
    · exact ih (i + 1)

theorem forEach {body : Json → Json → Traced Flow} {run : Json → Json → Run Flow}
    (each : ∀ key element, Mirrors options (body key element) (run key element)) (items : Items) :
    Mirrors options (items.traceEach body) (items.forEach run) := by
  cases items with
  | rows pairs => exact rows each pairs
  | count n => exact count each 0 n

end Mirrors

section Running

variable (options : Options)

theorem action_mirrors (dot : Json) (pipe : Pipeline) :
    Mirrors options (traceNode options.missingKey dot (.action pipe))
      (runNode options dot (.action pipe)) := by
  rw [traceNode, runNode]
  refine .bind (.evaluate _) fun value => ?_
  split
  · exact .bind (.emit rfl) fun done => .pure _
  · exact .pure _

variable {pipe : Pipeline} {body : List Node} {otherwise : Option (List Node)}
  (inBody : ∀ dot, Mirrors options (traceNodes options.missingKey dot body)
    (runNodes options dot body))
  (inElse : ∀ dot, Mirrors options (traceOtherwise options.missingKey dot otherwise)
    (runOtherwise options dot otherwise))
include inBody inElse

theorem range_mirrors (line : Nat) (dot : Json) :
    Mirrors options
      (traceNode options.missingKey dot (.branch .rangeBranch line pipe body otherwise))
      (runNode options dot (.branch .rangeBranch line pipe body otherwise)) := by
  rw [traceNode, runNode]
  refine .enclosed (.bind .get fun seen => .bind (.evaluate _) fun value => ?_)
  cases itemsOf value with
  | error fault => exact .fail _
  | ok items =>
    have each : ∀ key element, Mirrors options
        (do
          modify (bindItem pipe.names pipe.assigns key element)
          let flow ← traceNodes options.missingKey element body
          modify (·.leave seen.length)
          pure flow)
        (do
          modify (bindItem pipe.names pipe.assigns key element)
          let flow ← runNodes options element body
          modify (·.leave seen.length)
          pure flow) := by
      intro key element
      refine .bind (.update _) fun done => .bind (inBody element) fun flow => ?_
      exact .bind (.update _) fun done => .pure flow
    dsimp only
    split
    · exact inElse dot
    · exact .bind (.forEach each items) fun done => .pure _

theorem branch_mirrors {kind : BranchKind} (ranges : kind ≠ .rangeBranch) (line : Nat)
    (dot : Json) :
    Mirrors options (traceNode options.missingKey dot (.branch kind line pipe body otherwise))
      (runNode options dot (.branch kind line pipe body otherwise)) := by
  have either : ∀ (inner : Json) (holds : Bool), Mirrors options
      (if holds then traceNodes options.missingKey inner body
        else traceOtherwise options.missingKey dot otherwise)
      (if holds then runNodes options inner body else runOtherwise options dot otherwise) := by
    intro inner holds
    cases holds with
    | true => exact inBody inner
    | false => exact inElse dot
  cases kind with
  | rangeBranch => exact (ranges rfl).elim
  | ifBranch =>
    rw [traceNode, runNode]
    · exact .enclosed (.bind (.evaluate _) fun value => either dot (truth value))
    · rintro ⟨⟩
    · rintro ⟨⟩
  | withBranch =>
    rw [traceNode, runNode]
    · exact .enclosed (.bind (.evaluate _) fun value => either value (truth value))
    · rintro ⟨⟩
    · rintro ⟨⟩

omit inBody inElse

mutual
theorem runNode_mirrors : (node : Node) → (dot : Json) →
    Mirrors options (traceNode options.missingKey dot node) (runNode options dot node)
  | .text bytes, dot => by
    rw [traceNode, runNode]
    exact .bind (.emit rfl) fun done => .pure _
  | .action pipe, dot => action_mirrors options dot pipe
  | .branch kind line pipe body otherwise, dot => by
    have inBody := runNodes_mirrors body
    have inElse := runOtherwise_mirrors otherwise
    by_cases ranges : kind = .rangeBranch
    · subst ranges
      exact range_mirrors options inBody inElse line dot
    · exact branch_mirrors options inBody inElse ranges line dot
  | .breakRange, dot => by
    rw [traceNode, runNode]
    exact .pure _
  | .continueRange, dot => by
    rw [traceNode, runNode]
    exact .pure _

theorem runNodes_mirrors : (nodes : List Node) → (dot : Json) →
    Mirrors options (traceNodes options.missingKey dot nodes) (runNodes options dot nodes)
  | [], dot => by
    rw [traceNodes, runNodes]
    exact .pure _
  | node :: rest, dot => by
    have first := runNode_mirrors node dot
    have later := runNodes_mirrors rest dot
    rw [traceNodes, runNodes]
    refine .silent rfl (.bind first fun flow => ?_)
    split
    · exact later
    · exact .pure _

theorem runOtherwise_mirrors : (otherwise : Option (List Node)) → (dot : Json) →
    Mirrors options (traceOtherwise options.missingKey dot otherwise)
      (runOtherwise options dot otherwise)
  | none, dot => by
    rw [traceOtherwise, runOtherwise]
    exact .pure _
  | some nodes, dot => by
    rw [traceOtherwise, runOtherwise]
    exact runNodes_mirrors nodes dot
end

end Running

def answerOf (name : String) (failsToFlush : Bool) :
    Except (Halt ExecError) Unit → Except (Halt Error) Unit
  | .ok () => if failsToFlush then .error (.fault ⟨name, .write .notFlushed⟩) else .ok ()
  | .error stop => .error (stop.map fun e => ⟨name, .exec e⟩)

theorem execute_eq_trace (template : Template) (options : Options) (values : Json)
    (failsToFlush : Bool) (earlier : List Piece) :
    template.execute options values ⟨none, failsToFlush, earlier⟩ =
      (answerOf template.name failsToFlush (template.trace options.missingKey values).1,
        ⟨none, failsToFlush,
          ((template.trace options.missingKey values).2.filterMap
            (Event.piece? options)).reverse ++ earlier⟩) := by
  have mirrored := runNodes_mirrors options template.nodes values [("$", values)] [] failsToFlush
    earlier
  have whole : runTree options values template.nodes ⟨none, failsToFlush, earlier⟩ =
      match perform (runNodes options values template.nodes) [("$", values)]
        (sinkOf options failsToFlush earlier []) with
      | (.ok _, sink) => (sink.flush.mapError .write, sink)
      | (.error failure, sink) => (.error failure, sink) := rfl
  rw [execute, whole, mirrored, trace]
  obtain ⟨outcome, events⟩ :=
    follow (traceNodes options.missingKey values template.nodes) [("$", values)] []
  simp only [List.filterMap_reverse, List.reverse_reverse]
  cases outcome with
  | error error => rfl
  | ok p => cases failsToFlush <;> rfl

end PagePress.Template
