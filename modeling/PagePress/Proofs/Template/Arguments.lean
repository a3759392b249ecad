import PagePress.Proofs.Template.Simulation

namespace PagePress.Template

open Chain

variable {α β : Type}

theorem eval_bind (e : Eval α) (next : α → Eval β) (vars : Vars) :
    (e >>= next) vars = (e vars >>= fun p => next p.1 p.2) := rfl

section Unmoved

def Still (start vars vars' : Vars) : Prop := vars = start ∧ vars' = start

theorem still_carries (start : Vars) : Carries (fun _ => False) (Still start) where
  get := by
    rintro _ _ name value ⟨rfl, rfl⟩ found
    exact found
  bind := by
    intro _ _ name _ never
    exact never.elim
  leave := by
    rintro _ _ _ _ ⟨rfl, rfl⟩ ⟨rfl, rfl⟩
    simp [Still, Vars.leave]

theorem Follows.unmoved {e : Eval α} (follows : ∀ start, Follows (Still start) e e) {a : α}
    {vars left : Vars} (done : e vars = .ok (a, left)) : left = vars := by
  obtain ⟨left', -, same, -⟩ := follows vars vars vars a left ⟨rfl, rfl⟩ done
  exact same

variable {policy : MissingKey} {dot : Json} {line : Nat} {vars left : Vars}

theorem bare_of_eq_nil {names : List String} (bare : names = []) : ∀ name ∈ names, False := by
  simp [bare]

theorem evalOperands_bare {operands : List Operand} (bare : operandsNamed operands = [])
    {values : List Json}
    (done : evalOperands policy dot line operands vars = .ok (values, left)) : left = vars := by
  refine Follows.unmoved (fun start => ?_) done
  exact evalOperands_follows policy dot (still_carries start) line line operands operands rfl
    (bare_of_eq_nil bare)

theorem evalCommand_bare {command : Command} (bare : command.named = []) {piped : Option Json}
    {value : Json} (done : evalCommand policy dot piped command vars = .ok (value, left)) :
    left = vars := by
  refine Follows.unmoved (fun start => ?_) done
  exact evalCommand_follows policy dot (still_carries start) piped command command rfl
    (bare_of_eq_nil bare)

end Unmoved

section Operands

variable {policy : MissingKey} {dot : Json} {line : Nat} {vars left : Vars} {values : List Json}

theorem evalOperands_cons {operand : Operand} {rest : List Operand} :
    evalOperands policy dot line (operand :: rest) vars = .ok (values, left) ↔
      ∃ value middle later, evalOperand policy dot line operand vars = .ok (value, middle) ∧
        evalOperands policy dot line rest middle = .ok (later, left) ∧ values = value :: later := by
  rw [evalOperands, eval_bind, bind_eq_ok]
  constructor
  · rintro ⟨⟨value, middle⟩, first, done⟩
    rw [eval_bind, bind_eq_ok] at done
    obtain ⟨⟨later, _⟩, others, ⟨⟩⟩ := done
    exact ⟨value, middle, later, first, others, rfl⟩
  · rintro ⟨value, middle, later, first, others, rfl⟩
    refine ⟨(value, middle), first, ?_⟩
    rw [eval_bind, others]
    rfl

theorem evalOperands_append {before after : List Operand} :
    evalOperands policy dot line (before ++ after) vars = .ok (values, left) ↔
      ∃ first middle later, evalOperands policy dot line before vars = .ok (first, middle) ∧
        evalOperands policy dot line after middle = .ok (later, left) ∧
        values = first ++ later := by
  induction before generalizing vars values with
  | nil =>
    have none (vars : Vars) : evalOperands policy dot line [] vars = .ok ([], vars) := rfl
    simp [none]
  | cons operand rest ih =>
    rw [List.cons_append, evalOperands_cons]
    constructor
    · rintro ⟨value, next, more, first, done, rfl⟩
      obtain ⟨others, middle, later, between, behind, rfl⟩ := ih.mp done
      exact ⟨value :: others, middle, later,
        evalOperands_cons.mpr ⟨value, next, others, first, between, rfl⟩, behind, rfl⟩
    · rintro ⟨_, middle, later, done, behind, rfl⟩
      obtain ⟨value, next, others, first, between, rfl⟩ := evalOperands_cons.mp done
      exact ⟨value, next, others ++ later, first,
        ih.mpr ⟨others, middle, later, between, behind, rfl⟩, rfl⟩

end Operands

section Deciding

variable (policy : MissingKey) (dot : Json) (line : Nat) (decides : Bool)

def Undecided (operands : List Operand) (vars middle : Vars) : Prop :=
  ∃ values, evalOperands policy dot line operands vars = .ok (values, middle) ∧
    ∀ value ∈ values, truth value ≠ decides

def FirstDecides (before : List Operand) (operand : Operand) (vars : Vars) (value : Json)
    (reached : Vars) : Prop :=
  ∃ middle, Undecided policy dot line decides before vars middle ∧
    evalOperand policy dot line operand middle = .ok (value, reached) ∧ truth value = decides

def FirstFails (before : List Operand) (operand : Operand) (vars : Vars) (error : Halt ExecError) :
    Prop :=
  ∃ middle, Undecided policy dot line decides before vars middle ∧
    evalOperand policy dot line operand middle = .error error

variable {policy dot line decides} {operand : Operand} {operands before : List Operand}
  {values : List Json} {value last : Json} {vars middle left reached : Vars}
  {error : Halt ExecError}

theorem Undecided.cons (first : evalOperand policy dot line operand vars = .ok (value, middle))
    (still : truth value ≠ decides)
    (others : Undecided policy dot line decides operands middle left) :
    Undecided policy dot line decides (operand :: operands) vars left := by
  obtain ⟨values, done, undecided⟩ := others
  exact ⟨value :: values, evalOperands_cons.mpr ⟨value, middle, values, first, done, rfl⟩,
    List.forall_mem_cons.mpr ⟨still, undecided⟩⟩

theorem undecided_nil (vars : Vars) : Undecided policy dot line decides [] vars vars :=
  ⟨[], rfl, List.forall_mem_nil _⟩

theorem evalUntil_cons (rest : List Operand)
    (first : evalOperand policy dot line operand vars = .ok (value, middle)) :
    evalUntil policy dot line decides last (operand :: rest) vars =
      if truth value = decides then .ok ((true, value), middle)
      else evalUntil policy dot line decides value rest middle := by
  rw [evalUntil, eval_bind, first, ok_bind]
  split <;> rfl

theorem evalUntil_fails (rest : List Operand)
    (first : evalOperand policy dot line operand vars = .error error) :
    evalUntil policy dot line decides last (operand :: rest) vars = .error error := by
  rw [evalUntil, eval_bind, first, error_bind]

-- Past operands that do not decide, only the last value is kept.
theorem evalUntil_append (done : evalOperands policy dot line before vars = .ok (values, middle))
    (undecided : ∀ value ∈ values, truth value ≠ decides) (last : Json) (rest : List Operand) :
    evalUntil policy dot line decides last (before ++ rest) vars =
      evalUntil policy dot line decides (values.getLastD last) rest middle := by
  induction before generalizing vars values last with
  | nil =>
    cases done
    rfl
  | cons operand others ih =>
    obtain ⟨value, next, later, first, behind, rfl⟩ := evalOperands_cons.mp done
    obtain ⟨still, undecided⟩ := List.forall_mem_cons.mp undecided
    rw [List.cons_append, evalUntil_cons _ first, if_neg still, ih behind undecided value,
      List.getLastD_cons]

theorem FirstDecides.until (decided : FirstDecides policy dot line decides before operand vars value
    reached) (last : Json) (after : List Operand) :
    evalUntil policy dot line decides last (before ++ operand :: after) vars =
      .ok ((true, value), reached) := by
  obtain ⟨middle, ⟨values, done, undecided⟩, evaluated, decided⟩ := decided
  rw [evalUntil_append done undecided, evalUntil_cons _ evaluated, if_pos decided]

theorem FirstFails.until (fails : FirstFails policy dot line decides before operand vars error)
    (last : Json) (after : List Operand) :
    evalUntil policy dot line decides last (before ++ operand :: after) vars = .error error := by
  obtain ⟨middle, ⟨values, done, undecided⟩, evaluated⟩ := fails
  rw [evalUntil_append done undecided, evalUntil_fails _ evaluated]

theorem Undecided.until (undecided : Undecided policy dot line decides operands vars left)
    (last : Json) :
    ∃ values, evalOperands policy dot line operands vars = .ok (values, left) ∧
      (∀ value ∈ values, truth value ≠ decides) ∧
      evalUntil policy dot line decides last operands vars =
        .ok ((false, values.getLastD last), left) := by
  obtain ⟨values, done, undecided⟩ := undecided
  have whole := evalUntil_append done undecided last []
  rw [List.append_nil] at whole
  exact ⟨values, done, undecided, whole⟩

theorem operands_cases (policy : MissingKey) (dot : Json) (line : Nat) (decides : Bool)
    (operands : List Operand) (vars : Vars) :
    (∃ left, Undecided policy dot line decides operands vars left) ∨
      (∃ before operand after value reached, operands = before ++ operand :: after ∧
        FirstDecides policy dot line decides before operand vars value reached) ∨
      ∃ before operand after error, operands = before ++ operand :: after ∧
        FirstFails policy dot line decides before operand vars error := by
  induction operands generalizing vars with
  | nil => exact .inl ⟨vars, undecided_nil vars⟩
  | cons operand rest ih =>
    cases first : evalOperand policy dot line operand vars with
    | error error =>
      exact .inr (.inr ⟨[], operand, rest, error, rfl, vars, undecided_nil vars, first⟩)
    | ok result =>
      obtain ⟨value, middle⟩ := result
      by_cases decided : truth value = decides
      · exact .inr (.inl ⟨[], operand, rest, value, middle, rfl, vars, undecided_nil vars, first,
          decided⟩)
      · rcases ih middle with ⟨left, undecided⟩ |
          ⟨before, decider, after, value, reached, rfl, next, undecided, found⟩ |
          ⟨before, failing, after, error, rfl, next, undecided, failed⟩
        · exact .inl ⟨left, undecided.cons first decided⟩
        · exact .inr (.inl ⟨operand :: before, decider, after, value, reached, rfl, next,
            undecided.cons first decided, found⟩)
        · exact .inr (.inr ⟨operand :: before, failing, after, error, rfl, next,
            undecided.cons first decided, failed⟩)

theorem call_deciding {builtin : Builtin} (short : deciding? builtin = some decides)
    (values : List Json) (given : values ≠ []) :
    builtin.call values =
      .ok ((values.find? fun value => truth value == decides).getD (values.getLastD .null)) := by
  obtain ⟨first, rest, rfl⟩ := List.exists_cons_of_ne_nil given
  rw [List.getLastD_cons]
  cases builtin with
  | and =>
    cases short
    simp [Builtin.call]
  | or =>
    cases short
    simp [Builtin.call]
  | _ => cases short

theorem evalCommand_deciding {builtin : Builtin} (short : deciding? builtin = some decides)
    {piped : Option Json} (given : operands ≠ [] ∨ piped.isSome) (vars : Vars) :
    evalCommand policy dot piped (.mk line (.function builtin :: operands)) vars =
      (evalUntil policy dot line decides .null operands vars).map fun (result, left) =>
        (if result.1 then result.2 else piped.getD result.2, left) := by
  have some : ¬(operands.isEmpty ∧ piped.isNone) := by
    rcases given with nonempty | piped
    · simp [nonempty]
    · simp [Option.isSome_iff_ne_none.mp piped]
  rw [evalCommand, short]
  dsimp only
  rw [if_neg some, eval_bind]
  cases evalUntil policy dot line decides .null operands vars with
  | ok result => rfl
  | error error => rfl

theorem find_of_firstDecides {after : List Operand}
    (decided : FirstDecides policy dot line decides before operand vars value reached)
    (done : evalOperands policy dot line (before ++ operand :: after) vars = .ok (values, left))
    (more : List Json) :
    (values ++ more).find? (fun value => truth value == decides) = some value := by
  obtain ⟨middle, ⟨first, begun, undecided⟩, evaluated, decided⟩ := decided
  obtain ⟨others, next, later, again, rest, rfl⟩ := evalOperands_append.mp done
  cases begun.symm.trans again
  obtain ⟨found, behind, last, same, -, rfl⟩ := evalOperands_cons.mp rest
  cases evaluated.symm.trans same
  have skipped : first.find? (fun value => truth value == decides) = none := by
    simpa [List.find?_eq_none] using undecided
  simp [List.find?_append, skipped, decided]

-- With no value among them that decides, a piped one counts, whether it does or not.
theorem find_of_undecided (undecided : ∀ value ∈ values, truth value ≠ decides)
    (piped : Option Json) :
    ((values ++ piped.toList).find? fun value => truth value == decides).getD
      ((values ++ piped.toList).getLastD .null) = piped.getD (values.getLastD .null) := by
  have skipped : values.find? (fun value => truth value == decides) = none := by
    simpa [List.find?_eq_none] using undecided
  cases piped with
  | none => simp [skipped]
  | some value => by_cases decided : truth value = decides <;> simp [skipped, decided]

section Command

variable {builtin : Builtin} (short : deciding? builtin = some decides) {piped : Option Json}
include short

theorem evalCommand_called (given : operands ≠ [] ∨ piped.isSome)
    (done : evalOperands policy dot line operands vars = .ok (values, left)) :
    ∃ value reached,
      evalCommand policy dot piped (.mk line (.function builtin :: operands)) vars =
          .ok (value, reached) ∧
        builtin.call (values ++ piped.toList) = .ok value := by
  have nonempty : values ++ piped.toList ≠ [] := by
    cases operands with
    | nil =>
      obtain ⟨value, rfl⟩ := Option.isSome_iff_exists.mp (given.resolve_left fun some => some rfl)
      simp
    | cons operand rest =>
      obtain ⟨value, middle, later, -, -, rfl⟩ := evalOperands_cons.mp done
      simp
  rw [evalCommand_deciding short given, call_deciding short _ nonempty]
  rcases operands_cases policy dot line decides operands vars with ⟨_, undecided⟩ |
    ⟨before, operand, after, value, reached, rfl, decided⟩ |
    ⟨before, operand, after, error, rfl, middle, ⟨first, begun, -⟩, failed⟩
  · obtain ⟨all, again, passed, ended⟩ := undecided.until .null
    cases done.symm.trans again
    rw [ended, find_of_undecided passed]
    exact ⟨_, _, rfl, rfl⟩
  · rw [decided.until, find_of_firstDecides decided done]
    exact ⟨_, _, rfl, rfl⟩
  · obtain ⟨others, next, later, again, rest, rfl⟩ := evalOperands_append.mp done
    cases begun.symm.trans again
    obtain ⟨found, behind, last, same, -, rfl⟩ := evalOperands_cons.mp rest
    cases failed.symm.trans same

theorem evalCommand_decided
    (decided : FirstDecides policy dot line decides before operand vars value reached)
    (after : List Operand) (piped : Option Json) :
    evalCommand policy dot piped (.mk line (.function builtin :: (before ++ operand :: after)))
        vars = .ok (value, reached) := by
  rw [evalCommand_deciding short (.inl (by simp)), decided.until]
  rfl

theorem evalCommand_failed (fails : FirstFails policy dot line decides before operand vars error)
    (after : List Operand) (piped : Option Json) :
    evalCommand policy dot piped (.mk line (.function builtin :: (before ++ operand :: after)))
        vars = .error error := by
  rw [evalCommand_deciding short (.inl (by simp)), fails.until]
  rfl

theorem evalCommand_error_iff (given : operands ≠ [] ∨ piped.isSome) :
    evalCommand policy dot piped (.mk line (.function builtin :: operands)) vars = .error error ↔
      ∃ before operand after, operands = before ++ operand :: after ∧
        FirstFails policy dot line decides before operand vars error := by
  constructor
  · intro failed
    rcases operands_cases policy dot line decides operands vars with ⟨left, undecided⟩ |
      ⟨before, operand, after, value, reached, rfl, decided⟩ |
      ⟨before, operand, after, cause, rfl, fails⟩
    · obtain ⟨values, -, -, ended⟩ := undecided.until .null
      rw [evalCommand_deciding short given, ended] at failed
      cases failed
    · cases (evalCommand_decided short decided after piped).symm.trans failed
    · cases (evalCommand_failed short fails after piped).symm.trans failed
      exact ⟨before, operand, after, rfl, fails⟩
  · rintro ⟨before, operand, after, rfl, fails⟩
    exact evalCommand_failed short fails after piped

end Command

-- Of the functions that may stop early: the command ends at the first operand that decides or
-- fails, whatever stands behind it.
theorem short_circuit_as_call (policy : MissingKey) (dot : Json) (line : Nat) {builtin : Builtin}
    {decides : Bool} (short : deciding? builtin = some decides) (operands : List Operand)
    (piped : Option Json) (given : operands ≠ [] ∨ piped.isSome) (vars : Vars) :
    let command := Command.mk line (.function builtin :: operands)
    (∀ values left, evalOperands policy dot line operands vars = .ok (values, left) →
      ∃ value reached, evalCommand policy dot piped command vars = .ok (value, reached) ∧
        builtin.call (values ++ piped.toList) = .ok value ∧
        (operandsNamed operands = [] → reached = vars ∧ left = vars)) ∧
    (∀ before operand value reached,
      FirstDecides policy dot line decides before operand vars value reached →
        ∀ after piped, evalCommand policy dot piped
          (.mk line (.function builtin :: (before ++ operand :: after))) vars =
            .ok (value, reached)) ∧
    ∀ error, evalCommand policy dot piped command vars = .error error ↔
      ∃ before operand after, operands = before ++ operand :: after ∧
        FirstFails policy dot line decides before operand vars error := by
  intro command
  refine ⟨fun values left done => ?_, ?_, fun error => evalCommand_error_iff short given⟩
  · obtain ⟨value, reached, ended, called⟩ := evalCommand_called short given done
    refine ⟨value, reached, ended, called, fun bare => ?_⟩
    have named : command.named = [] := bare
    exact ⟨evalCommand_bare named ended, evalOperands_bare bare done⟩
  · intro before operand value reached decided after piped
    exact evalCommand_decided short decided after piped

-- and .Flag (index .Items 5), where there is no such item; and with a name in place of it.
theorem short_circuit_flag :
    let dot : Json := .obj [("Flag", .bool false), ("Items", .arr []), ("Name", .str "n")]
    let flag : Operand := .field ["Flag"]
    let name : Operand := .field ["Name"]
    let failing : Operand :=
      .group (.mk 1 [] false [.mk 1 [.function .index, .field ["Items"], .literal (.ofNat 5)]])
    deciding? .and = some false ∧ deciding? .or = some true ∧
      FirstDecides .empty dot 1 false [] flag [] (.bool false) [] ∧
      evalCommand .empty dot none (.mk 1 [.function .and, flag, failing]) [] =
        .ok (.bool false, []) ∧
      evalOperands .empty dot 1 [flag, name] [] = .ok ([.bool false, .str "n"], []) ∧
      (∃ value reached,
        evalCommand .empty dot (some .null) (.mk 1 [.function .or, flag, name]) [] =
            .ok (value, reached) ∧
          Builtin.or.call [.bool false, .str "n", .null] = .ok value ∧ reached = []) ∧
      FirstFails .empty dot 1 true [flag] failing [] (.fault ⟨1, .call .index (.outOfRange 5)⟩) ∧
      evalCommand .empty dot none (.mk 1 [.function .or, flag, failing]) [] =
        .error (.fault ⟨1, .call .index (.outOfRange 5)⟩) := by
  intro dot flag name failing
  have decided : FirstDecides .empty dot 1 false [] flag [] (.bool false) [] :=
    ⟨[], undecided_nil [], rfl, rfl⟩
  have failed : FirstFails .empty dot 1 true [flag] failing []
      (.fault ⟨1, .call .index (.outOfRange 5)⟩) :=
    ⟨[], ⟨[.bool false], rfl, by decide⟩, rfl⟩
  have values : evalOperands .empty dot 1 [flag, name] [] = .ok ([.bool false, .str "n"], []) :=
    rfl
  obtain ⟨-, stops, -⟩ := short_circuit_as_call .empty dot 1 (rfl : deciding? .and = some false)
    [flag, failing] none (.inl (List.cons_ne_nil _ _)) []
  obtain ⟨agrees, -, -⟩ := short_circuit_as_call .empty dot 1 (rfl : deciding? .or = some true)
    [flag, name] (some .null) (.inl (List.cons_ne_nil _ _)) []
  obtain ⟨-, -, errors⟩ := short_circuit_as_call .empty dot 1 (rfl : deciding? .or = some true)
    [flag, failing] none (.inl (List.cons_ne_nil _ _)) []
  obtain ⟨value, reached, given, called, kept⟩ := agrees _ _ values
  exact ⟨rfl, rfl, decided, stops [] flag _ _ decided [failing] none, values,
    ⟨value, reached, given, called, (kept rfl).1⟩, failed,
    (errors _).mpr ⟨[flag], failing, [], rfl, failed⟩⟩

end Deciding

section Piping

variable {policy : MissingKey} {dot : Json} {line : Nat} {vars left : Vars} {builtin : Builtin}
  {operands : List Operand} {first : Command} {value : Json}

def enclosing (inner : Nat) (command : Command) : Operand := .group (.mk inner [] false [command])

theorem evalOperand_enclosing (inner : Nat) (command : Command) (vars : Vars) :
    evalOperand policy dot line (enclosing inner command) vars =
      evalCommand policy dot none command vars := by
  rw [enclosing, evalOperand, evalPipeline, evalCommands, eval_bind, eval_bind]
  cases evalCommand policy dot none command vars <;> rfl

theorem callBuiltin_ok {args : List Json} :
    callBuiltin line builtin args vars = .ok (value, left) ↔
      builtin.call args = .ok value ∧ vars = left := by
  rw [callBuiltin]
  cases builtin.call args with
  | ok found =>
    have given : (pure found : Eval Json) vars = .ok (found, vars) := rfl
    simp [given]
  | error stop =>
    have stopped : (throw (stop.map fun fault => ⟨line, .call builtin fault⟩) : Eval Json) vars =
        .error (stop.map fun fault => ⟨line, .call builtin fault⟩) := rfl
    simp [stopped]

theorem evalCommand_eager (long : deciding? builtin = none) (piped : Option Json) :
    evalCommand policy dot piped (.mk line (.function builtin :: operands)) vars =
        .ok (value, left) ↔
      ∃ values, evalOperands policy dot line operands vars = .ok (values, left) ∧
        builtin.call (values ++ piped.toList) = .ok value := by
  rw [evalCommand, long]
  dsimp only
  rw [eval_bind, bind_eq_ok]
  constructor
  · rintro ⟨⟨values, middle⟩, evaluated, called⟩
    obtain ⟨given, same⟩ := callBuiltin_ok.mp called
    cases same
    exact ⟨values, evaluated, given⟩
  · rintro ⟨values, evaluated, called⟩
    exact ⟨(values, left), evaluated, callBuiltin_ok.mpr ⟨called, rfl⟩⟩

theorem evalOperands_enclosing (inner : Nat) {values : List Json} :
    evalOperands policy dot line (operands ++ [enclosing inner first]) vars = .ok (values, left) ↔
      ∃ before middle, evalOperands policy dot line operands vars = .ok (before, middle) ∧
        ∃ value, evalCommand policy dot none first middle = .ok (value, left) ∧
          values = before ++ [value] := by
  rw [evalOperands_append]
  constructor
  · rintro ⟨before, middle, later, begun, last, rfl⟩
    obtain ⟨value, next, others, evaluated, ⟨⟩, rfl⟩ := evalOperands_cons.mp last
    rw [evalOperand_enclosing] at evaluated
    exact ⟨before, middle, begun, value, evaluated, rfl⟩
  · rintro ⟨before, middle, begun, value, evaluated, rfl⟩
    refine ⟨before, middle, [value], begun, evalOperands_cons.mpr ?_, rfl⟩
    exact ⟨value, left, [], (evalOperand_enclosing inner first middle).trans evaluated, rfl, rfl⟩

variable (policy dot line builtin operands first) in
def pipedInto (vars : Vars) : Except (Halt ExecError) (Json × Vars) :=
  evalCommand policy dot none first vars >>= fun p =>
    evalCommand policy dot (some p.1) (.mk line (.function builtin :: operands)) p.2

variable (policy dot line builtin operands first) in
def passedTo (inner : Nat) (vars : Vars) : Except (Halt ExecError) (Json × Vars) :=
  evalCommand policy dot none
    (.mk line (.function builtin :: (operands ++ [enclosing inner first]))) vars

variable (inner : Nat) (still : first.named = [])
include still

section Bare

variable (bare : operandsNamed operands = [])
include bare

theorem eager_passes (long : deciding? builtin = none) (result : Json × Vars) :
    pipedInto policy dot line builtin operands first vars = .ok result ↔
      passedTo policy dot line builtin operands first inner vars = .ok result := by
  obtain ⟨value, left⟩ := result
  rw [pipedInto, passedTo, bind_eq_ok, evalCommand_eager long]
  constructor
  · rintro ⟨⟨given, middle⟩, evaluated, done⟩
    obtain rfl := evalCommand_bare still evaluated
    obtain ⟨values, begun, called⟩ := (evalCommand_eager long _).mp done
    obtain rfl := evalOperands_bare bare begun
    refine ⟨values ++ [given], ?_, by simpa using called⟩
    exact (evalOperands_enclosing inner).mpr ⟨values, _, begun, given, evaluated, rfl⟩
  · rintro ⟨values, done, called⟩
    obtain ⟨before, middle, begun, given, evaluated, rfl⟩ := (evalOperands_enclosing inner).mp done
    obtain rfl := evalOperands_bare bare begun
    obtain rfl := evalCommand_bare still evaluated
    exact ⟨(given, _), evaluated,
      (evalCommand_eager long _).mpr ⟨before, begun, by simpa using called⟩⟩

theorem undecided_passes {decides : Bool} (short : deciding? builtin = some decides)
    (undecided : Undecided policy dot line decides operands vars left) :
    pipedInto policy dot line builtin operands first vars =
      passedTo policy dot line builtin operands first inner vars := by
  obtain ⟨values, begun, skipped, ended⟩ := undecided.until .null
  obtain rfl := evalOperands_bare bare begun
  rw [pipedInto, passedTo, evalCommand_deciding short (.inl (by simp)),
    evalUntil_append begun skipped]
  cases evaluated : evalCommand policy dot none first left with
  | error error =>
    rw [evalUntil_fails _ ((evalOperand_enclosing inner first left).trans evaluated)]
    rfl
  | ok result =>
    obtain ⟨value, middle⟩ := result
    obtain rfl := evalCommand_bare still evaluated
    rw [ok_bind, evalCommand_deciding short (.inr rfl), ended,
      evalUntil_cons _ ((evalOperand_enclosing inner first middle).trans evaluated)]
    split <;> rfl

end Bare

theorem decided_passes {decides : Bool} (short : deciding? builtin = some decides)
    {before after : List Operand} {operand : Operand} {reached : Vars}
    (same : operands = before ++ operand :: after)
    (decided : FirstDecides policy dot line decides before operand vars value reached) :
    passedTo policy dot line builtin operands first inner vars = .ok (value, reached) ∧
      pipedInto policy dot line builtin operands first vars =
        (evalCommand policy dot none first vars).map fun _ => (value, reached) := by
  subst same
  constructor
  · rw [passedTo, List.append_assoc, List.cons_append]
    exact evalCommand_decided short decided _ none
  · rw [pipedInto]
    cases evaluated : evalCommand policy dot none first vars with
    | error error => rfl
    | ok result =>
      obtain ⟨given, middle⟩ := result
      obtain rfl := evalCommand_bare still evaluated
      exact evalCommand_decided short decided after (some given)

theorem failed_passes {decides : Bool} (short : deciding? builtin = some decides)
    {before after : List Operand} {operand : Operand} {error : Halt ExecError}
    (same : operands = before ++ operand :: after)
    (fails : FirstFails policy dot line decides before operand vars error) :
    passedTo policy dot line builtin operands first inner vars = .error error ∧
      ∀ result, pipedInto policy dot line builtin operands first vars ≠ .ok result := by
  subst same
  constructor
  · rw [passedTo, List.append_assoc, List.cons_append]
    exact evalCommand_failed short fails _ none
  · intro result done
    obtain ⟨⟨given, middle⟩, evaluated, called⟩ := bind_eq_ok.mp done
    obtain rfl := evalCommand_bare still evaluated
    cases (evalCommand_failed short fails after (some given)).symm.trans called

-- The two give the same, but where an operand decides and the other command has no value.
theorem passes (bare : operandsNamed operands = []) (vars : Vars) :
    (∀ result, pipedInto policy dot line builtin operands first vars = .ok result →
      passedTo policy dot line builtin operands first inner vars = .ok result) ∧
    ∀ result, passedTo policy dot line builtin operands first inner vars = .ok result →
      pipedInto policy dot line builtin operands first vars = .ok result ∨
        (∃ decides before operand after value reached, deciding? builtin = some decides ∧
          operands = before ++ operand :: after ∧
          FirstDecides policy dot line decides before operand vars value reached) ∧
        ∃ error, evalCommand policy dot none first vars = .error error := by
  cases short : deciding? builtin with
  | none =>
    exact ⟨fun result => (eager_passes inner still bare short result).mp,
      fun result done => .inl ((eager_passes inner still bare short result).mpr done)⟩
  | some decides =>
    rcases operands_cases policy dot line decides operands vars with ⟨left, undecided⟩ |
      ⟨before, operand, after, value, reached, same, decided⟩ |
      ⟨before, operand, after, error, same, fails⟩
    · have equal := undecided_passes inner still bare short undecided
      rw [equal]
      exact ⟨fun result done => done, fun result done => .inl done⟩
    · obtain ⟨passed, piped⟩ := decided_passes inner still short same decided
      rw [passed, piped]
      cases evaluated : evalCommand policy dot none first vars with
      | ok given => exact ⟨fun result done => done, fun result done => .inl done⟩
      | error error =>
        refine ⟨nofun, fun result done => .inr ⟨?_, error, rfl⟩⟩
        exact ⟨decides, before, operand, after, value, reached, rfl, same, decided⟩
    · obtain ⟨passed, piped⟩ := failed_passes inner still short same fails
      refine ⟨fun result done => (piped result done).elim, fun result done => ?_⟩
      cases passed.symm.trans done

omit still

section Onward

variable (policy dot) (names : List String) (assigns : Bool) (rest : List Command)

def onward (given : Json × Vars) : Except (Halt ExecError) (Json × Vars) :=
  (do
    let value ← evalCommands policy dot (some given.1) rest
    modify fun vars => names.foldl (·.bind assigns · value) vars
    pure value : Eval Json) given.2

theorem evalPipeline_cons (row : Nat) (command : Command) (vars : Vars) :
    evalPipeline policy dot (.mk row names assigns (command :: rest)) vars =
      (evalCommand policy dot none command vars >>= onward policy dot names assigns rest) := by
  rw [evalPipeline, evalCommands, eval_bind, eval_bind, bind_assoc]
  rfl

theorem evalPipeline_piped (row : Nat) (vars : Vars) :
    evalPipeline policy dot
        (.mk row names assigns (first :: .mk line (.function builtin :: operands) :: rest)) vars =
      (pipedInto policy dot line builtin operands first vars >>=
        onward policy dot names assigns rest) := by
  rw [evalPipeline_cons, pipedInto, bind_assoc]
  congr 1
  funext given
  rw [onward, evalCommands, eval_bind, eval_bind, bind_assoc]
  rfl

end Onward

-- The other command is evaluated before the operands or behind them, and where an operand decides
-- it need not be: a value the one way is the value the other way.
theorem piped_as_last_argument (policy : MissingKey) (dot : Json) (first : Command)
    (builtin : Builtin) (operands : List Operand) (rest : List Command)
    (still : first.named = []) (bare : operandsNamed operands = []) (row line inner : Nat)
    (names : List String) (assigns : Bool) (vars : Vars) :
    let piped := Pipeline.mk row names assigns
      (first :: .mk line (.function builtin :: operands) :: rest)
    let passed := Pipeline.mk row names assigns
      (.mk line (.function builtin :: (operands ++ [enclosing inner first])) :: rest)
    (∀ result, evalPipeline policy dot piped vars = .ok result →
      evalPipeline policy dot passed vars = .ok result) ∧
    ∀ result, evalPipeline policy dot passed vars = .ok result →
      evalPipeline policy dot piped vars = .ok result ∨
        (∃ decides before operand after value reached, deciding? builtin = some decides ∧
          operands = before ++ operand :: after ∧
          FirstDecides policy dot line decides before operand vars value reached) ∧
        ∃ error, evalCommand policy dot none first vars = .error error := by
  intro piped passed
  have both : evalPipeline policy dot passed vars =
      (passedTo policy dot line builtin operands first inner vars >>=
        onward policy dot names assigns rest) := evalPipeline_cons ..
  rw [evalPipeline_piped, both]
  constructor
  · intro result done
    obtain ⟨given, called, later⟩ := bind_eq_ok.mp done
    exact bind_eq_ok.mpr ⟨given, (passes inner still bare vars).1 given called, later⟩
  · intro result done
    obtain ⟨given, called, later⟩ := bind_eq_ok.mp done
    rcases (passes inner still bare vars).2 given called with same | apart
    · exact .inl (bind_eq_ok.mpr ⟨given, same, later⟩)
    · exact .inr apart

theorem piped_as_last_argument_or :
    let dot : Json := .obj [("Name", .str "n"), ("Other", .str "")]
    let name : Command := .mk 1 [.field ["Name"]]
    let other : Operand := .field ["Other"]
    let printing : List Command := [.mk 1 [.function .print]]
    let vars : Vars := [("$", dot)]
    let result : Json × Vars := (.str "n", [("$v", .str "n"), ("$", dot)])
    name.named = [] ∧ operandsNamed [other] = [] ∧
      evalPipeline .empty dot
        (.mk 1 ["$v"] false (name :: .mk 1 [.function .or, other] :: printing)) vars = .ok result ∧
      evalPipeline .empty dot
        (.mk 1 ["$v"] false (.mk 1 [.function .or, other, enclosing 1 name] :: printing)) vars =
          .ok result := by
  intro dot name other printing vars result
  have piped : evalPipeline .empty dot
      (.mk 1 ["$v"] false (name :: .mk 1 [.function .or, other] :: printing)) vars = .ok result :=
    rfl
  exact ⟨rfl, rfl, piped, (piped_as_last_argument .empty dot name .or [other] printing rfl rfl 1 1
    1 ["$v"] false vars).1 result piped⟩

-- A name that the first command binds is not bound yet where that is passed.
example :
    let binding : Command := .mk 1 [.group (.mk 1 ["$x"] false [.mk 1 [.literal (.str "v")]])]
    let reading : List Operand := [.var "$x" []]
    evalPipeline .empty .null
        (.mk 1 [] false [binding, .mk 1 (.function .print :: reading)]) [] =
          .ok (.str "vv", [("$x", .str "v")]) ∧
      evalPipeline .empty .null
        (.mk 1 [] false [.mk 1 (.function .print :: (reading ++ [enclosing 1 binding]))]) [] =
          .error (.fault ⟨1, .undefinedVariable "$x"⟩) :=
  ⟨rfl, rfl⟩

end Piping

end PagePress.Template
