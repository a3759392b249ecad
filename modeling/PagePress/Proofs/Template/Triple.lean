import Mathlib
import PagePress.Template.Exec

namespace PagePress.Template

variable {α β : Type}

-- From variables that are as `before` says, a result comes with variables as `after` says, or an
-- error comes as `failed` says.
def Evaluates (before : Vars → Prop) (e : Eval α) (after : α → Vars → Prop)
    (failed : Halt ExecError → Prop) : Prop :=
  ∀ vars, before vars →
    match e vars with
    | .ok (a, left) => after a left
    | .error error => failed error

namespace Evaluates

variable {before : Vars → Prop} {after : α → Vars → Prop} {failed : Halt ExecError → Prop}
  {e : Eval α}

theorem imp {before' : Vars → Prop} {after' : α → Vars → Prop} {failed' : Halt ExecError → Prop}
    (done : Evaluates before e after failed) (enter : ∀ vars, before' vars → before vars)
    (leave : ∀ a vars, after a vars → after' a vars)
    (fail : ∀ error, failed error → failed' error) :
    Evaluates before' e after' failed' := by
  intro vars holds
  have ended := done vars (enter vars holds)
  split at ended
  · exact leave _ _ ended
  · exact fail _ ended

theorem imp_before {before' : Vars → Prop} (done : Evaluates before e after failed)
    (enter : ∀ vars, before' vars → before vars) : Evaluates before' e after failed :=
  done.imp enter (fun _ _ holds => holds) fun _ holds => holds

theorem imp_after {after' : α → Vars → Prop} (done : Evaluates before e after failed)
    (leave : ∀ a vars, after a vars → after' a vars) : Evaluates before e after' failed :=
  done.imp (fun _ holds => holds) leave fun _ holds => holds

theorem imp_failed {failed' : Halt ExecError → Prop} (done : Evaluates before e after failed)
    (fail : ∀ error, failed error → failed' error) : Evaluates before e after failed' :=
  done.imp (fun _ holds => holds) (fun _ _ holds => holds) fail

theorem pure {a : α} (holds : ∀ vars, before vars → after a vars) :
    Evaluates before (Pure.pure a) after failed := holds

theorem refuse {line : Nat} {fault : ExecFault} (holds : failed (.fault ⟨line, fault⟩)) :
    Evaluates before (Template.refuse line fault) after failed := fun _ _ => holds

theorem stop {stop : Halt ExecError} (holds : failed stop) :
    Evaluates before (throw stop : Eval α) after failed := fun _ _ => holds

theorem bind {middle : α → Vars → Prop} {next : α → Eval β} {final : β → Vars → Prop}
    (first : Evaluates before e middle failed)
    (second : ∀ a, Evaluates (middle a) (next a) final failed) :
    Evaluates before (e >>= next) final failed := by
  intro vars holds
  have ended := first vars holds
  have chain : (e >>= next) vars = (e vars >>= fun p => next p.1 p.2) := rfl
  rw [chain]
  cases result : e vars with
  | error error =>
    rw [result] at ended
    exact ended
  | ok p =>
    rw [result] at ended
    exact second p.1 p.2 ended

theorem get {after : Vars → Vars → Prop} (holds : ∀ vars, before vars → after vars vars) :
    Evaluates before MonadState.get after failed := holds

theorem update {change : Vars → Vars} {after : Unit → Vars → Prop}
    (holds : ∀ vars, before vars → after () (change vars)) :
    Evaluates before (modify change) after failed := holds

end Evaluates

def perform (run : Run α) (vars : Vars) (sink : Sink) : Except Failure (α × Vars) × Sink :=
  (run vars).run sink

-- What the sink holds counts on both sides, after a failure as well.
def Performs (before : Vars → Sink → Prop) (run : Run α) (after : α → Vars → Sink → Prop)
    (failed : Failure → Sink → Prop) : Prop :=
  ∀ vars sink, before vars sink →
    match perform run vars sink with
    | (.ok (a, left), sink) => after a left sink
    | (.error failure, sink) => failed failure sink

theorem perform_bind (run : Run α) (next : α → Run β) (vars : Vars) (sink : Sink) :
    perform (run >>= next) vars sink =
      match perform run vars sink with
      | (.ok (a, left), sink) => perform (next a) left sink
      | (.error failure, sink) => (.error failure, sink) := by
  have chain : perform (run >>= next) vars sink =
      match perform run vars sink with
      | (result, sink) => (ExceptT.bindCont (fun p => next p.1 p.2) result) sink := rfl
  rw [chain]
  obtain ⟨outcome, left⟩ := perform run vars sink
  cases outcome <;> rfl

theorem perform_evaluate (e : Eval α) (vars : Vars) (sink : Sink) :
    perform (evaluate e) vars sink =
      match e vars with
      | .ok result => (.ok result, sink)
      | .error error => (.error (.exec error), sink) := by
  rw [perform, evaluate]
  cases e vars <;> rfl

theorem perform_emit (piece : Piece) (vars : Vars) (sink : Sink) :
    perform (emit piece) vars sink =
      match sink.write piece with
      | (.ok (), sink) => (.ok ((), vars), sink)
      | (.error fault, sink) => (.error (.write fault), sink) := by
  have written : perform (modifyGetThe Sink fun sink => sink.write piece) vars sink =
      (.ok ((sink.write piece).1, vars), (sink.write piece).2) := rfl
  rw [emit, perform_bind, written]
  obtain ⟨outcome, left⟩ := sink.write piece
  cases outcome <;> rfl

theorem perform_enclosed (run : Run α) (vars : Vars) (sink : Sink) :
    perform (enclosed run) vars sink =
      match perform run vars sink with
      | (.ok (a, left), sink) => (.ok (a, left.leave vars.length), sink)
      | (.error failure, sink) => (.error failure, sink) := by
  have chain : perform (enclosed run) vars sink =
      perform (run >>= fun a => do modify (·.leave vars.length); pure a) vars sink := rfl
  rw [chain, perform_bind]
  obtain ⟨outcome, left⟩ := perform run vars sink
  cases outcome <;> rfl

namespace Performs

variable {before : Vars → Sink → Prop} {run : Run α} {after : α → Vars → Sink → Prop}
  {failed : Failure → Sink → Prop}

theorem imp {before' : Vars → Sink → Prop} {after' : α → Vars → Sink → Prop}
    {failed' : Failure → Sink → Prop} (done : Performs before run after failed)
    (enter : ∀ vars sink, before' vars sink → before vars sink)
    (leave : ∀ a vars sink, after a vars sink → after' a vars sink)
    (fail : ∀ failure sink, failed failure sink → failed' failure sink) :
    Performs before' run after' failed' := by
  intro vars sink holds
  have ended := done vars sink (enter vars sink holds)
  split at ended
  · exact leave _ _ _ ended
  · exact fail _ _ ended

theorem imp_before {before' : Vars → Sink → Prop} (done : Performs before run after failed)
    (enter : ∀ vars sink, before' vars sink → before vars sink) :
    Performs before' run after failed :=
  done.imp enter (fun _ _ _ holds => holds) fun _ _ holds => holds

theorem imp_after {after' : α → Vars → Sink → Prop} (done : Performs before run after failed)
    (leave : ∀ a vars sink, after a vars sink → after' a vars sink) :
    Performs before run after' failed :=
  done.imp (fun _ _ holds => holds) leave fun _ _ holds => holds

theorem imp_failed {failed' : Failure → Sink → Prop} (done : Performs before run after failed)
    (fail : ∀ failure sink, failed failure sink → failed' failure sink) :
    Performs before run after failed' :=
  done.imp (fun _ _ holds => holds) (fun _ _ _ holds => holds) fail

theorem assuming {fact : Prop} (done : fact → Performs before run after failed) :
    Performs (fun vars sink => fact ∧ before vars sink) run after failed :=
  fun vars sink holds => done holds.1 vars sink holds.2

theorem pure {a : α} (holds : ∀ vars sink, before vars sink → after a vars sink) :
    Performs before (Pure.pure a) after failed := holds

theorem fail {failure : Failure} (holds : ∀ vars sink, before vars sink → failed failure sink) :
    Performs before (throw failure) after failed := holds

theorem bind {middle : α → Vars → Sink → Prop} {next : α → Run β}
    {final : β → Vars → Sink → Prop} (first : Performs before run middle failed)
    (second : ∀ a, Performs (middle a) (next a) final failed) :
    Performs before (run >>= next) final failed := by
  intro vars sink holds
  have ended := first vars sink holds
  rw [perform_bind]
  cases result : perform run vars sink with
  | mk outcome sink =>
    rw [result] at ended
    cases outcome with
    | error failure => exact ended
    | ok p => exact second p.1 p.2 sink ended

theorem get {after : Vars → Vars → Sink → Prop}
    (holds : ∀ vars sink, before vars sink → after vars vars sink) :
    Performs before MonadState.get after failed := holds

theorem update {change : Vars → Vars} {after : Unit → Vars → Sink → Prop}
    (holds : ∀ vars sink, before vars sink → after () (change vars) sink) :
    Performs before (modify change) after failed := holds

theorem evaluate {e : Eval α}
    (holds : ∀ vars sink, before vars sink →
      match e vars with
      | .ok (a, left) => after a left sink
      | .error error => failed (.exec error) sink) :
    Performs before (Template.evaluate e) after failed := by
  intro vars sink entered
  have ended := holds vars sink entered
  rw [perform_evaluate]
  cases result : e vars with
  | error error =>
    rw [result] at ended
    exact ended
  | ok p =>
    rw [result] at ended
    exact ended

theorem emit {piece : Piece} {after : Unit → Vars → Sink → Prop}
    (holds : ∀ vars sink, before vars sink →
      match sink.write piece with
      | (.ok (), sink) => after () vars sink
      | (.error fault, sink) => failed (.write fault) sink) :
    Performs before (Template.emit piece) after failed := by
  intro vars sink entered
  have ended := holds vars sink entered
  rw [perform_emit]
  cases result : sink.write piece with
  | mk outcome sink =>
    rw [result] at ended
    cases outcome with
    | error fault => exact ended
    | ok done => exact ended

theorem enclosed {inner : Vars → α → Vars → Sink → Prop}
    (inside : ∀ outer, Performs (fun vars sink => vars = outer ∧ before vars sink) run (inner outer)
      failed)
    (leave : ∀ outer a vars sink, inner outer a vars sink →
      after a (vars.leave outer.length) sink) :
    Performs before (Template.enclosed run) after failed := by
  intro vars sink holds
  have ended := inside vars vars sink ⟨rfl, holds⟩
  rw [perform_enclosed]
  cases result : perform run vars sink with
  | mk outcome sink =>
    rw [result] at ended
    cases outcome with
    | error failure => exact ended
    | ok p => exact leave vars p.1 p.2 sink ended

-- An invariant of the loop: every element of it starts and ends there, and a break ends it there.
theorem overRows {invariant : Vars → Sink → Prop} {body : Json → Json → Run Flow}
    (each : ∀ key element, Performs invariant (body key element) (fun _ => invariant) failed)
    (pairs : List (Json × Json)) :
    Performs invariant (Template.overRows body pairs) (fun _ => invariant) failed := by
  induction pairs with
  | nil => exact pure fun _ _ holds => holds
  | cons pair rest ih =>
    refine bind (each pair.1 pair.2) fun flow => ?_
    split
    · exact pure fun _ _ holds => holds
    · exact ih

theorem overCount {invariant : Vars → Sink → Prop} {body : Json → Json → Run Flow}
    (each : ∀ key element, Performs invariant (body key element) (fun _ => invariant) failed)
    (i left : Nat) :
    Performs invariant (Template.overCount body i left) (fun _ => invariant) failed := by
  induction left generalizing i with
  | zero => exact pure fun _ _ holds => holds
  | succ left ih =>
    refine bind (each (.ofNat i) (.ofNat i)) fun flow => ?_
    split
    · exact pure fun _ _ holds => holds
    · exact ih (i + 1)

theorem forEach {invariant : Vars → Sink → Prop} {body : Json → Json → Run Flow}
    (each : ∀ key element, Performs invariant (body key element) (fun _ => invariant) failed)
    (items : Items) :
    Performs invariant (items.forEach body) (fun _ => invariant) failed := by
  cases items with
  | rows pairs => exact overRows each pairs
  | count n => exact overCount each 0 n

end Performs

end PagePress.Template
