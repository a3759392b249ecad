import PagePress.Proofs.Template.Binding
import PagePress.Proofs.Template.Trace

namespace PagePress.Template

variable {α β : Type}

def Agrees (policy : MissingKey) (given free : Eval α) : Prop :=
  ∀ vars, given vars = free vars ∨ policy = .error ∧ ∃ error, given vars = .error error

namespace Agrees

variable {policy : MissingKey}

theorem refl (e : Eval α) : Agrees policy e e := fun _ => .inl rfl

theorem bind {given free : Eval α} {givenNext freeNext : α → Eval β}
    (first : Agrees policy given free) (next : ∀ a, Agrees policy (givenNext a) (freeNext a)) :
    Agrees policy (given >>= givenNext) (free >>= freeNext) := by
  intro vars
  have chain : ∀ (e : Eval α) (f : α → Eval β), (e >>= f) vars = (e vars >>= fun p => f p.1 p.2) :=
    fun _ _ => rfl
  rw [chain, chain]
  rcases first vars with same | ⟨strict, error, failed⟩
  · rw [same]
    cases free vars with
    | error error => exact .inl rfl
    | ok p => exact next p.1 p.2
  · rw [failed]
    exact .inr ⟨strict, error, rfl⟩

end Agrees

section Evaluation

variable (policy : MissingKey)

theorem fieldOf_agrees (value : Json) (key : String) :
    fieldOf policy value key = fieldOf .empty value key ∨
      policy = .error ∧ ∃ fault, fieldOf policy value key = .error fault := by
  by_cases strict : policy = .error
  · subst strict
    cases value with
    | obj fields =>
      cases held : Fields.get? fields key with
      | some found => exact .inl (by simp [fieldOf, held])
      | none => exact .inr ⟨rfl, .noEntry key, by simp [fieldOf, held]⟩
    | null => exact .inr ⟨rfl, _, rfl⟩
    | _ => exact .inl rfl
  · cases policy with
    | error => exact (strict rfl).elim
    | _ => exact .inl rfl

theorem path_agrees (path : List String) (value : Json) :
    path.foldlM (fieldOf policy) value = path.foldlM (fieldOf .empty) value ∨
      policy = .error ∧ ∃ fault, path.foldlM (fieldOf policy) value = .error fault := by
  induction path generalizing value with
  | nil => exact .inl rfl
  | cons key rest ih =>
    simp only [List.foldlM_cons]
    rcases fieldOf_agrees policy value key with same | ⟨strict, fault, failed⟩
    · rw [same]
      cases fieldOf .empty value key with
      | error fault => exact .inl rfl
      | ok found => exact ih found
    · rw [failed]
      exact .inr ⟨strict, fault, rfl⟩

theorem walkFields_agrees (line : Nat) (value : Json) (path : List String) :
    Agrees policy (walkFields policy line value path) (walkFields .empty line value path) := by
  intro vars
  rw [walkFields, walkFields]
  rcases path_agrees policy path value with same | ⟨strict, fault, failed⟩
  · rw [same]
    exact .inl rfl
  · rw [failed]
    exact .inr ⟨strict, .fault ⟨line, fault⟩, rfl⟩

variable (dot : Json)

theorem evalCommand_function_agrees (line : Nat) (builtin : Builtin) (piped : Option Json)
    {rest : List Operand}
    (all : Agrees policy (evalOperands policy dot line rest) (evalOperands .empty dot line rest))
    (short : ∀ decides last, Agrees policy (evalUntil policy dot line decides last rest)
      (evalUntil .empty dot line decides last rest)) :
    Agrees policy (evalCommand policy dot piped (.mk line (.function builtin :: rest)))
      (evalCommand .empty dot piped (.mk line (.function builtin :: rest))) := by
  rw [evalCommand, evalCommand]
  cases deciding? builtin with
  | some decides =>
    dsimp only
    split
    · exact .refl _
    · exact .bind (short decides .null) fun result => .refl _
  | none => exact .bind all fun values => .refl _

mutual
theorem evalOperand_agrees : (line : Nat) → (operand : Operand) →
    Agrees policy (evalOperand policy dot line operand) (evalOperand .empty dot line operand)
  | line, .dot => by
    rw [evalOperand, evalOperand]
    exact .refl _
  | line, .literal value => by
    rw [evalOperand, evalOperand]
    exact .refl _
  | line, .field path => by
    rw [evalOperand, evalOperand]
    exact walkFields_agrees policy line dot path
  | line, .var name path => by
    rw [evalOperand, evalOperand]
    refine .bind (.refl _) fun vars => ?_
    cases vars.get? name with
    | some value => exact walkFields_agrees policy line value path
    | none => exact .refl _
  | line, .chain inner path => by
    rw [evalOperand, evalOperand]
    exact .bind (evalOperand_agrees line inner) fun value =>
      walkFields_agrees policy line value path
  | line, .group pipe => by
    rw [evalOperand, evalOperand]
    exact evalPipeline_agrees pipe
  | line, .function builtin => by
    rw [evalOperand, evalOperand]
    exact .refl _

theorem evalOperands_agrees : (line : Nat) → (operands : List Operand) →
    Agrees policy (evalOperands policy dot line operands) (evalOperands .empty dot line operands)
  | line, [] => by
    rw [evalOperands, evalOperands]
    exact .refl _
  | line, operand :: rest => by
    rw [evalOperands, evalOperands]
    refine .bind (evalOperand_agrees line operand) fun value => ?_
    exact .bind (evalOperands_agrees line rest) fun values => .refl _

theorem evalUntil_agrees : (line : Nat) → (operands : List Operand) → (decides : Bool) →
    (last : Json) → Agrees policy (evalUntil policy dot line decides last operands)
      (evalUntil .empty dot line decides last operands)
  | line, [], decides, last => by
    rw [evalUntil, evalUntil]
    exact .refl _
  | line, operand :: rest, decides, last => by
    rw [evalUntil, evalUntil]
    refine .bind (evalOperand_agrees line operand) fun value => ?_
    split
    · exact .refl _
    · exact evalUntil_agrees line rest decides value

theorem evalCommand_agrees : (piped : Option Json) → (command : Command) →
    Agrees policy (evalCommand policy dot piped command) (evalCommand .empty dot piped command)
  | piped, .mk line [] => by
    rw [evalCommand.eq_def, evalCommand.eq_def]
    exact .refl _
  | piped, .mk line (operand :: rest) => by
    have alone := evalOperand_agrees line operand
    have all := evalOperands_agrees line rest
    have short := evalUntil_agrees line rest
    rcases command_cases piped operand rest with ⟨builtin, rfl⟩ | ⟨other, ⟨rfl, rfl⟩ | several⟩
    · exact evalCommand_function_agrees policy dot line builtin piped all short
    · rw [evalCommand_alone policy dot line other, evalCommand_alone .empty dot line other]
      exact alone
    · rw [evalCommand_other policy dot line other several,
        evalCommand_other .empty dot line other several]
      exact .refl _

theorem evalCommands_agrees : (piped : Option Json) → (commands : List Command) →
    Agrees policy (evalCommands policy dot piped commands) (evalCommands .empty dot piped commands)
  | piped, [] => by
    rw [evalCommands, evalCommands]
    exact .refl _
  | piped, command :: rest => by
    rw [evalCommands, evalCommands]
    exact .bind (evalCommand_agrees piped command) fun value =>
      evalCommands_agrees (some value) rest

theorem evalPipeline_agrees : (pipe : Pipeline) →
    Agrees policy (evalPipeline policy dot pipe) (evalPipeline .empty dot pipe)
  | .mk line names assigns commands => by
    rw [evalPipeline, evalPipeline]
    exact .bind (evalCommands_agrees none commands) fun value => .refl _
end

end Evaluation

def Retraces (policy : MissingKey) (given free : Traced α) : Prop :=
  ∀ vars events, follow given vars events = follow free vars events ∨
    policy = .error ∧ ∃ error left, follow given vars events = (.error error, left)

namespace Retraces

variable {policy : MissingKey}

theorem refl (t : Traced α) : Retraces policy t t := fun _ _ => .inl rfl

theorem bind {given free : Traced α} {givenNext freeNext : α → Traced β}
    (first : Retraces policy given free) (next : ∀ a, Retraces policy (givenNext a) (freeNext a)) :
    Retraces policy (given >>= givenNext) (free >>= freeNext) := by
  intro vars events
  rw [follow_bind, follow_bind]
  rcases first vars events with same | ⟨strict, error, left, failed⟩
  · rw [same]
    obtain ⟨outcome, seen⟩ := follow free vars events
    cases outcome with
    | error error => exact .inl rfl
    | ok p => exact next p.1 p.2 seen
  · rw [failed]
    exact .inr ⟨strict, error, left, rfl⟩

theorem evaluate {given free : Eval α} (agrees : Agrees policy given free) :
    Retraces policy (traceEval given) (traceEval free) := by
  intro vars events
  rw [follow_traceEval, follow_traceEval]
  rcases agrees vars with same | ⟨strict, error, failed⟩
  · rw [same]
    exact .inl rfl
  · rw [failed]
    exact .inr ⟨strict, error, events, rfl⟩

theorem enclosed {given free : Traced α} (inside : Retraces policy given free) :
    Retraces policy (traceEnclosed given) (traceEnclosed free) :=
  .bind (.refl _) fun _ => .bind inside fun _ => .refl _

theorem rows {given free : Json → Json → Traced Flow}
    (each : ∀ key element, Retraces policy (given key element) (free key element))
    (pairs : List (Json × Json)) :
    Retraces policy (traceRows given pairs) (traceRows free pairs) := by
  induction pairs with
  | nil => exact .refl _
  | cons pair rest ih =>
    refine .bind (each pair.1 pair.2) fun flow => ?_
    split
    · exact .refl _
    · exact ih

theorem count {given free : Json → Json → Traced Flow}
    (each : ∀ key element, Retraces policy (given key element) (free key element))
    (i left : Nat) : Retraces policy (traceCount given i left) (traceCount free i left) := by
  induction left generalizing i with
  | zero => exact .refl _
  | succ left ih =>
    refine .bind (each (.ofNat i) (.ofNat i)) fun flow => ?_
    split
    · exact .refl _
    · exact ih (i + 1)

theorem forEach {given free : Json → Json → Traced Flow}
    (each : ∀ key element, Retraces policy (given key element) (free key element))
    (items : Items) : Retraces policy (items.traceEach given) (items.traceEach free) := by
  cases items with
  | rows pairs => exact rows each pairs
  | count n => exact count each 0 n

end Retraces

section Running

variable (policy : MissingKey)

theorem action_retraces (dot : Json) (pipe : Pipeline) :
    Retraces policy (traceNode policy dot (.action pipe))
      (traceNode .empty dot (.action pipe)) := by
  rw [traceNode, traceNode]
  exact .bind (.evaluate (evalPipeline_agrees policy dot pipe)) fun value => .refl _

variable {pipe : Pipeline} {body : List Node} {otherwise : Option (List Node)}
  (inBody : ∀ dot, Retraces policy (traceNodes policy dot body) (traceNodes .empty dot body))
  (inElse : ∀ dot, Retraces policy (traceOtherwise policy dot otherwise)
    (traceOtherwise .empty dot otherwise))
include inBody inElse

theorem range_retraces (line : Nat) (dot : Json) :
    Retraces policy (traceNode policy dot (.branch .rangeBranch line pipe body otherwise))
      (traceNode .empty dot (.branch .rangeBranch line pipe body otherwise)) := by
  rw [traceNode, traceNode]
  refine .enclosed (.bind (.refl _) fun seen => ?_)
  refine .bind (.evaluate (evalCommands_agrees policy dot none pipe.commands)) fun value => ?_
  cases itemsOf value with
  | error fault => exact .refl _
  | ok items =>
    dsimp only
    split
    · exact inElse dot
    · refine .bind (.forEach (fun key element => ?_) items) fun done => .refl _
      exact .bind (.refl _) fun done => .bind (inBody element) fun flow => .refl _

theorem branch_retraces {kind : BranchKind} (ranges : kind ≠ .rangeBranch) (line : Nat)
    (dot : Json) :
    Retraces policy (traceNode policy dot (.branch kind line pipe body otherwise))
      (traceNode .empty dot (.branch kind line pipe body otherwise)) := by
  have either : ∀ (inner : Json) (holds : Bool), Retraces policy
      (if holds then traceNodes policy inner body else traceOtherwise policy dot otherwise)
      (if holds then traceNodes .empty inner body else traceOtherwise .empty dot otherwise) := by
    intro inner holds
    cases holds with
    | true => exact inBody inner
    | false => exact inElse dot
  have header := Retraces.evaluate (evalPipeline_agrees policy dot pipe)
  cases kind with
  | rangeBranch => exact (ranges rfl).elim
  | ifBranch =>
    rw [traceNode, traceNode]
    · exact .enclosed (.bind header fun value => either dot (truth value))
    · exact nofun
    · exact nofun
  | withBranch =>
    rw [traceNode, traceNode]
    · exact .enclosed (.bind header fun value => either value (truth value))
    · exact nofun
    · exact nofun

omit inBody inElse

mutual
theorem traceNode_retraces : (node : Node) → (dot : Json) →
    Retraces policy (traceNode policy dot node) (traceNode .empty dot node)
  | .text bytes, dot => by
    rw [traceNode, traceNode]
    exact .refl _
  | .action pipe, dot => action_retraces policy dot pipe
  | .branch kind line pipe body otherwise, dot => by
    have inBody := traceNodes_retraces body
    have inElse := traceOtherwise_retraces otherwise
    by_cases ranges : kind = .rangeBranch
    · subst ranges
      exact range_retraces policy inBody inElse line dot
    · exact branch_retraces policy inBody inElse ranges line dot
  | .breakRange, dot => by
    rw [traceNode, traceNode]
    exact .refl _
  | .continueRange, dot => by
    rw [traceNode, traceNode]
    exact .refl _

theorem traceNodes_retraces : (nodes : List Node) → (dot : Json) →
    Retraces policy (traceNodes policy dot nodes) (traceNodes .empty dot nodes)
  | [], dot => by
    rw [traceNodes, traceNodes]
    exact .refl _
  | node :: rest, dot => by
    have first := traceNode_retraces node dot
    have later := traceNodes_retraces rest dot
    rw [traceNodes, traceNodes]
    refine .bind (.refl _) fun done => .bind first fun flow => ?_
    split
    · exact later
    · exact .refl _

theorem traceOtherwise_retraces : (otherwise : Option (List Node)) → (dot : Json) →
    Retraces policy (traceOtherwise policy dot otherwise) (traceOtherwise .empty dot otherwise)
  | none, dot => by
    rw [traceOtherwise, traceOtherwise]
    exact .refl _
  | some nodes, dot => by
    rw [traceOtherwise, traceOtherwise]
    exact traceNodes_retraces nodes dot
end

theorem trace_agrees (template : Template) (values : Json) :
    template.trace policy values = template.trace .empty values ∨
      policy = .error ∧ ∃ error, (template.trace policy values).1 = .error error := by
  have nodes := traceNodes_retraces policy template.nodes values [("$", values)] []
  rw [trace, trace]
  rcases nodes with same | ⟨strict, error, left, failed⟩
  · rw [same]
    exact .inl rfl
  · rw [failed]
    exact .inr ⟨strict, error, rfl⟩

end Running

-- What two runs write for the same events: a text as it is, for null the placeholder of each, for
-- another value its text, escaped by those who do that unless the function before did.
inductive Alike (a b : Options) : List Event → List Piece → List Piece → Prop where
  | nil : Alike a b [] [] []
  | begins (node : Node) {events : List Event} {one two : List Piece} :
      Alike a b events one two → Alike a b (.begins node :: events) one two
  | text (bytes : Bytes) {events : List Event} {one two : List Piece} :
      Alike a b events one two →
      Alike a b (.text bytes :: events) (.text bytes :: one) (.text bytes :: two)
  | null (pipe : Pipeline) {events : List Event} {one two : List Piece} :
      Alike a b events one two →
      Alike a b (.prints pipe .null :: events)
        (.printed (Text.utf8 a.missingKey.placeholder) :: one)
        (.printed (Text.utf8 b.missingKey.placeholder) :: two)
  | html {pipe : Pipeline} {value : Json} {events : List Event} {one two : List Piece} :
      value ≠ .null → pipe.lastBuiltin? = some .html → Alike a b events one two →
      Alike a b (.prints pipe value :: events)
        (.printed (Text.utf8Chars (valueChars value)) :: one)
        (.printed (Text.utf8Chars (valueChars value)) :: two)
  | value {pipe : Pipeline} {value : Json} {events : List Event} {one two : List Piece} :
      value ≠ .null → pipe.lastBuiltin? ≠ some .html → Alike a b events one two →
      Alike a b (.prints pipe value :: events)
        (.printed (Text.utf8Chars (if a.escapeHtml then escapeHtml (valueChars value)
          else valueChars value)) :: one)
        (.printed (Text.utf8Chars (if b.escapeHtml then escapeHtml (valueChars value)
          else valueChars value)) :: two)

theorem alike_pieces (a b : Options) (events : List Event) :
    Alike a b events (events.filterMap (Event.piece? a)) (events.filterMap (Event.piece? b)) := by
  induction events with
  | nil => exact .nil
  | cons event rest ih =>
    cases event with
    | begins node => exact .begins node ih
    | text bytes => exact .text bytes ih
    | prints pipe value =>
      by_cases null : value = .null
      · subst null
        exact .null pipe ih
      · have given : value.isNull = false := by
          cases value with
          | null => exact (null rfl).elim
          | _ => rfl
        by_cases last : pipe.lastBuiltin? = some .html
        · have printed : ∀ options : Options,
              printedText options pipe value = valueChars value := by
            intro options
            simp [printedText, given, last]
          simp only [List.filterMap_cons, Event.piece?, printed]
          exact .html null last ih
        · have printed : ∀ options : Options, printedText options pipe value =
              if options.escapeHtml then escapeHtml (valueChars value) else valueChars value := by
            intro options
            simp [printedText, given, last]
          simp only [List.filterMap_cons, Event.piece?, printed]
          exact .value null last ih

theorem piece_strict (escapeHtml : Bool) (event : Event) :
    event.piece? ⟨.error, escapeHtml⟩ = event.piece? ⟨.empty, escapeHtml⟩ := by
  cases event <;> rfl

theorem options_only_print (template : Template) (values : Json) (failsToFlush : Bool)
    (earlier : List Piece) :
    let sink : Sink := ⟨none, failsToFlush, earlier⟩
    (∀ escapeHtml after, template.execute ⟨.error, escapeHtml⟩ values sink = (.ok (), after) →
      template.execute ⟨.empty, escapeHtml⟩ values sink = (.ok (), after)) ∧
    ∀ a b : Options, a.missingKey ≠ .error → b.missingKey ≠ .error →
      template.trace a.missingKey values = template.trace b.missingKey values ∧
      ∃ one two, Alike a b (template.trace a.missingKey values).2 one two ∧
        template.execute a values sink =
          (answerOf template.name failsToFlush (template.trace a.missingKey values).1,
            ⟨none, failsToFlush, one.reverse ++ earlier⟩) ∧
        template.execute b values sink =
          (answerOf template.name failsToFlush (template.trace a.missingKey values).1,
            ⟨none, failsToFlush, two.reverse ++ earlier⟩) := by
  intro sink
  constructor
  · intro escapeHtml after done
    rw [execute_eq_trace] at done ⊢
    rcases trace_agrees .error template values with same | ⟨-, error, failed⟩
    · simp only [same, funext (piece_strict escapeHtml)] at done
      exact done
    · simp only [failed] at done
      cases done
  · intro a b free other
    have agree : ∀ policy, policy ≠ .error →
        template.trace policy values = template.trace .empty values := by
      intro policy lenient
      rcases trace_agrees policy template values with same | ⟨strict, -⟩
      · exact same
      · exact (lenient strict).elim
    have same := (agree a.missingKey free).trans (agree b.missingKey other).symm
    refine ⟨same, _, _, alike_pieces a b _, execute_eq_trace template a values failsToFlush earlier,
      ?_⟩
    rw [same]
    exact execute_eq_trace template b values failsToFlush earlier

-- A null and a bracket, strict, escaped with nothing for null, and plain with a mark for null.
theorem options_only_print_bracket :
    let template : Template := ⟨"t", [.text [0x3C],
      .action (.mk 1 [] false [.mk 1 [.field ["a"]]]),
      .action (.mk 1 [] false [.mk 1 [.field ["b"]]])]⟩
    let values : Json := .obj [("a", .str "<"), ("b", .null)]
    let escaped : Sink := { pieces := [.printed [], .printed (Text.utf8 "&lt;"), .text [0x3C]] }
    let plain : Options := ⟨.noValue, false⟩
    template.execute ⟨.error, true⟩ values {} = (.ok (), escaped) ∧
      template.execute {} values {} = (.ok (), escaped) ∧
      ∃ one two, Alike {} plain (template.trace .empty values).2 one two ∧
        template.execute {} values {} = (.ok (), { pieces := one.reverse ++ [] }) ∧
        template.execute plain values {} = (.ok (), { pieces := two.reverse ++ [] }) := by
  intro template values escaped plain
  obtain ⟨strict, free⟩ := options_only_print template values false []
  have done : template.execute ⟨.error, true⟩ values {} = (.ok (), escaped) := rfl
  obtain ⟨-, printed⟩ := free {} plain (by decide) (by decide)
  exact ⟨done, strict true escaped done, printed⟩

end PagePress.Template
