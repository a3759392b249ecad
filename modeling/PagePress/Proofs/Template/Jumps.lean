import PagePress.Proofs.Template.Assignments
import PagePress.Proofs.Template.Appended

namespace PagePress.Template

section Steering

variable {α : Type}

structure Targets (α : Type) where
  ends : Run α
  advances : Run α

namespace Targets

def unwinding (targets : Targets α) (size : Nat) : Targets α where
  ends := do
    modify (·.leave size)
    targets.ends
  advances := do
    modify (·.leave size)
    targets.advances

def goTo (targets : Targets α) (next : Run α) : Flow → Run α
  | .normal => next
  | .broken => targets.ends
  | .continued => targets.advances

end Targets

def steerRows (each : Json → Json → Run α → Run α) (behind : Run α) : List (Json × Json) → Run α
  | [] => behind
  | (key, element) :: rest => each key element (steerRows each behind rest)

mutual
-- A node, with what comes behind it. The else list of a range jumps where the range itself would.
def steerNode (options : Options) (targets : Targets α) (dot : Json) (next : Run α) : Node → Run α
  | .text bytes => do
    emit (.text bytes)
    next
  | .action pipe => do
    let value ← evaluate (evalPipeline options.missingKey dot pipe)
    if pipe.names.isEmpty then
      emit (.printed (Text.utf8Chars (printedText options pipe value)))
    next
  | .branch .rangeBranch line pipe body otherwise => do
    let size := (← get).length
    let behind := do
      modify (·.leave size)
      next
    let value ← evaluate (evalCommands options.missingKey dot none pipe.commands)
    match itemsOf value with
    | .error fault => throw (.exec (.fault ⟨line, fault⟩))
    | .ok items =>
      if items.isEmpty then steerOtherwise options (targets.unwinding size) dot behind otherwise
      else
        steerRows (fun key element advance => do
          let advance := do
            modify (·.leave size)
            advance
          modify (bindItem pipe.names pipe.assigns key element)
          steerNodes options ⟨behind, advance⟩ element advance body) behind items.pairs
  | .branch kind _ pipe body otherwise => do
    let size := (← get).length
    let behind := do
      modify (·.leave size)
      next
    let value ← evaluate (evalPipeline options.missingKey dot pipe)
    if truth value then
      steerNodes options (targets.unwinding size) (if kind = .withBranch then value else dot) behind
        body
    else steerOtherwise options (targets.unwinding size) dot behind otherwise
  | .breakRange => targets.ends
  | .continueRange => targets.advances

def steerNodes (options : Options) (targets : Targets α) (dot : Json) (next : Run α) :
    List Node → Run α
  | [] => next
  | node :: rest => steerNode options targets dot (steerNodes options targets dot next rest) node

def steerOtherwise (options : Options) (targets : Targets α) (dot : Json) (next : Run α) :
    Option (List Node) → Run α
  | some nodes => steerNodes options targets dot next nodes
  | none => next
end

end Steering

section Laws

variable {α β : Type}

theorem enclosed_bind (run : Run β) (next : β → Run α) :
    enclosed run >>= next = (do
      let size := (← get).length
      let b ← run
      modify (·.leave size)
      next b) := by
  simp only [enclosed, bind_assoc, pure_bind]

theorem get_get (next : Vars → Vars → Run α) :
    (do let vars ← get; let again ← get; next vars again) = (do let vars ← get; next vars vars) :=
  funext fun _ => rfl

theorem leave_leave (size : Nat) (next : Run α) :
    (do modify (·.leave size); modify (·.leave size); next : Run α) =
      (do modify (·.leave size); next) := by
  funext vars
  have twice : (vars.leave size).leave size = vars.leave size := by
    rw [Vars.leave, Vars.length_leave, Nat.sub_eq_zero_of_le (Nat.min_le_left _ _), List.drop_zero]
  change next ((vars.leave size).leave size) = next (vars.leave size)
  rw [twice]

namespace Targets

theorem goTo_unwinding (targets : Targets α) (size : Nat) (next : Run α) :
    (targets.unwinding size).goTo (do modify (·.leave size); next) =
      fun flow => (do modify (·.leave size); targets.goTo next flow) := by
  funext flow
  cases flow <;> rfl

end Targets

theorem steerRows_eq {each : Json → Json → Run α → Run α} {body : Json → Json → Run Flow}
    {behind : Run α} (same : ∀ key element advance, each key element advance =
      body key element >>= fun flow => if flow = .broken then behind else advance)
    (pairs : List (Json × Json)) :
    steerRows each behind pairs = overRows body pairs >>= fun _ => behind := by
  induction pairs with
  | nil => rw [steerRows, overRows, pure_bind]
  | cons pair rest ih =>
    rw [steerRows, overRows, same, ih, bind_assoc]
    refine congrArg _ (funext fun flow => ?_)
    split
    · rw [pure_bind]
    · rfl

end Laws

section Flows

variable {α : Type} (options : Options) {pipe : Pipeline} {body : List Node}
  {otherwise : Option (List Node)}
  (inBody : ∀ (targets : Targets α) dot next, steerNodes options targets dot next body =
    runNodes options dot body >>= targets.goTo next)
  (inElse : ∀ (targets : Targets α) dot next, steerOtherwise options targets dot next otherwise =
    runOtherwise options dot otherwise >>= targets.goTo next)

include inBody in
theorem steer_turn (size : Nat) (key element : Json) (next advance : Run α) :
    (do
      let advance := do
        modify (·.leave size)
        advance
      modify (bindItem pipe.names pipe.assigns key element)
      steerNodes options ⟨do modify (·.leave size); next, advance⟩ element advance body) =
    turn options pipe body size key element >>= fun flow =>
      if flow = .broken then do modify (·.leave size); next else advance := by
  simp only [turn, inBody, bind_assoc, pure_bind]
  refine congrArg _ (funext fun _ => congrArg _ (funext fun flow => ?_))
  cases flow with
  | normal => rfl
  | continued => rfl
  | broken => exact (leave_leave size next).symm

include inBody inElse in
theorem steer_range (targets : Targets α) (line : Nat) (dot : Json) (next : Run α) :
    steerNode options targets dot next (.branch .rangeBranch line pipe body otherwise) =
      runNode options dot (.branch .rangeBranch line pipe body otherwise) >>=
        targets.goTo next := by
  rw [steerNode, runNode, enclosed_bind]
  simp only [bind_assoc, get_get]
  refine congrArg _ (funext fun vars => congrArg _ (funext fun value => ?_))
  cases itemsOf value with
  | error fault => rfl
  | ok items =>
    dsimp only
    split
    · rw [inElse, Targets.goTo_unwinding]
    · rw [steerRows_eq (steer_turn options inBody vars.length · · next), forEach_eq_overRows,
        bind_assoc]
      simp only [pure_bind, Targets.goTo]
      rfl

include inBody inElse in
theorem steer_branch {kind : BranchKind} (ranges : kind ≠ .rangeBranch) (targets : Targets α)
    (line : Nat) (dot : Json) (next : Run α) :
    steerNode options targets dot next (.branch kind line pipe body otherwise) =
      runNode options dot (.branch kind line pipe body otherwise) >>= targets.goTo next := by
  rw [steerNode, runNode, enclosed_bind]
  · simp only [bind_assoc]
    refine congrArg _ (funext fun vars => congrArg _ (funext fun value => ?_))
    split
    · rw [inBody, Targets.goTo_unwinding]
    · rw [inElse, Targets.goTo_unwinding]
  · exact ranges
  · exact ranges

end Flows

section Trees

variable {α : Type} (options : Options)

mutual
theorem steerNode_eq : (node : Node) → ∀ (targets : Targets α) dot next,
    steerNode options targets dot next node = runNode options dot node >>= targets.goTo next
  | .text _ => by
    intro targets dot next
    rw [steerNode, runNode, bind_assoc]
    rfl
  | .action _ => by
    intro targets dot next
    rw [steerNode, runNode, bind_assoc]
    refine congrArg _ (funext fun value => ?_)
    split
    · rw [bind_assoc]
      rfl
    · rfl
  | .branch kind line _ body otherwise => by
    intro targets dot next
    have inBody := steerNodes_eq body
    have inElse := steerOtherwise_eq otherwise
    by_cases ranges : kind = .rangeBranch
    · subst ranges
      exact steer_range options inBody inElse targets line dot next
    · exact steer_branch options inBody inElse ranges targets line dot next
  | .breakRange => by
    intro targets dot next
    rw [steerNode, runNode, pure_bind]
    rfl
  | .continueRange => by
    intro targets dot next
    rw [steerNode, runNode, pure_bind]
    rfl

theorem steerNodes_eq : (nodes : List Node) → ∀ (targets : Targets α) dot next,
    steerNodes options targets dot next nodes = runNodes options dot nodes >>= targets.goTo next
  | [] => by
    intro targets dot next
    rw [steerNodes, runNodes, pure_bind]
    rfl
  | node :: rest => by
    intro targets dot next
    have first := steerNode_eq node
    have later := steerNodes_eq rest
    rw [steerNodes, runNodes, first, bind_assoc]
    refine congrArg _ (funext fun flow => ?_)
    cases flow with
    | normal => exact later targets dot next
    | broken => rfl
    | continued => rfl

theorem steerOtherwise_eq : (otherwise : Option (List Node)) → ∀ (targets : Targets α) dot next,
    steerOtherwise options targets dot next otherwise =
      runOtherwise options dot otherwise >>= targets.goTo next
  | some nodes => by
    intro targets dot next
    have inside := steerNodes_eq nodes
    rw [steerOtherwise, runOtherwise, inside]
  | none => by
    intro targets dot next
    rw [steerOtherwise, runOtherwise, pure_bind]
    rfl
end

end Trees

section Compiled

theorem runNodes_normal {room : Nat} {scope : Scope} {nodes : List Node}
    (fits : nodesWellFormed room false scope nodes) (options : Options) (dot : Json)
    {vars left : Vars} {sink after : Sink} {flow : Flow}
    (done : perform (runNodes options dot nodes) vars sink = (.ok (flow, left), after)) :
    flow = .normal := by
  have ended := runNodes_ends options room scope dot nodes fits vars sink trivial
  rw [done] at ended
  exact ended

-- Behind a whole tree the flow need not be asked for: only the normal one gets there.
theorem goTo_behind {α : Type} {nodes : List Node} (fits : WellFormed nodes) (options : Options)
    (dot : Json) (targets : Targets α) (next : Run α) :
    runNodes options dot nodes >>= targets.goTo next =
      runNodes options dot nodes >>= fun _ => next := by
  funext vars
  refine StateT.ext fun sink => ?_
  change perform (runNodes options dot nodes >>= targets.goTo next) vars sink =
    perform (runNodes options dot nodes >>= fun _ => next) vars sink
  rw [perform_bind, perform_bind]
  cases done : perform (runNodes options dot nodes) vars sink with
  | mk outcome after =>
    cases outcome with
    | error failure => rfl
    | ok result =>
      obtain ⟨flow, left⟩ := result
      obtain rfl := runNodes_normal fits options dot done
      rfl

-- A compiled template is left with the normal flow, and run as if each break and continue went to
-- the places given where it stands, whatever is given for those outside of all ranges.
theorem jumps_innermost {source : Bytes} {name : String} {template : Template}
    (compiled : compile source name = .ok template) (options : Options) (dot : Json) :
    (∀ vars sink flow left after,
      perform (runNodes options dot template.nodes) vars sink = (.ok (flow, left), after) →
        flow = .normal) ∧
      ∀ {α : Type} (outside : Targets α) (next : Run α),
        steerNodes options outside dot next template.nodes =
          runNodes options dot template.nodes >>= fun _ => next := by
  have fits := compile_wellFormed compiled
  refine ⟨fun vars sink flow left after => runNodes_normal fits options dot, ?_⟩
  intro α outside next
  rw [steerNodes_eq, goTo_behind fits]

theorem jumps_innermost_nested :
    let nodes := [Node.branch .rangeBranch 1 (.mk 1 [] false [.mk 1 [.dot]])
      [.branch .rangeBranch 1 (.mk 1 [] false [.mk 1 [.dot]])
        [.branch .ifBranch 1 (.mk 1 [] false [.mk 1 [.dot]]) [.breakRange] none,
          .text (Text.utf8 "0")]
        (some [.continueRange]),
      .text (Text.utf8 "x")] none]
    let dot : Json := .arr [.arr [.ofNat 0, .ofNat 1, .ofNat 0], .arr [], .arr [.ofNat 0]]
    compile (Text.utf8
        "{{range .}}{{range .}}{{if .}}{{break}}{{end}}0{{else}}{{continue}}{{end}}x{{end}}") "t" =
        .ok ⟨"t", nodes⟩ ∧
      (perform (steerNodes {} ⟨emit (.text []), emit (.text [])⟩ dot (pure ()) nodes) [("$", dot)]
        (holding [])).2 =
          holding (["x", "0", "x", "0"].map fun text => .text (Text.utf8 text)) := by
  intro nodes dot
  have compiled : compile (Text.utf8
      "{{range .}}{{range .}}{{if .}}{{break}}{{end}}0{{else}}{{continue}}{{end}}x{{end}}") "t" =
      .ok ⟨"t", nodes⟩ := by cbv
  refine ⟨compiled, ?_⟩
  have steered := (jumps_innermost compiled {} dot).2 ⟨emit (.text []), emit (.text [])⟩ (pure ())
  rw [steered]
  rfl

end Compiled

end PagePress.Template
