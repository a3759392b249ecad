import PagePress.Proofs.Template.Triple
import PagePress.Template.Compiled

namespace PagePress.Template

variable {α β : Type}

namespace Sink

def deliver (sink : Sink) : List Piece → Except WriteFault Unit × Sink
  | [] => (.ok (), sink)
  | piece :: rest =>
    match sink.write piece with
    | (.ok (), after) => after.deliver rest
    | (.error fault, after) => (.error fault, after)

theorem deliver_append (sink : Sink) (pieces more : List Piece) :
    sink.deliver (pieces ++ more) =
      match sink.deliver pieces with
      | (.ok (), after) => after.deliver more
      | (.error fault, after) => (.error fault, after) := by
  induction pieces generalizing sink with
  | nil => rfl
  | cons piece rest ih =>
    rw [List.cons_append, deliver, deliver]
    obtain ⟨outcome, after⟩ := sink.write piece
    cases outcome with
    | error fault => rfl
    | ok => exact ih after

theorem deliver_flush (sink : Sink) (fails : Bool) (pieces : List Piece) :
    deliver { sink with failsToFlush := fails } pieces =
      ((sink.deliver pieces).1, { (sink.deliver pieces).2 with failsToFlush := fails }) := by
  induction pieces generalizing sink with
  | nil => rfl
  | cons piece rest ih =>
    have same : write { sink with failsToFlush := fails } piece =
        ((sink.write piece).1, { (sink.write piece).2 with failsToFlush := fails }) := by
      cases room : sink.room with
      | none => simp only [write, room]
      | some room' =>
        simp only [write, room]
        split <;> rfl
    rw [deliver, deliver, same]
    obtain ⟨outcome, after⟩ := sink.write piece
    cases outcome with
    | error fault => rfl
    | ok => exact ih after

theorem written_cons (sink : Sink) (room : Option Nat) (piece : Piece) :
    written { sink with room := room, pieces := piece :: sink.pieces } =
      sink.written ++ piece.bytes := by
  simp [written]

theorem deliver_unlimited (sink : Sink) (unlimited : sink.room = none) (pieces : List Piece) :
    (sink.deliver pieces).1 = .ok () ∧
      (sink.deliver pieces).2.written = sink.written ++ pieces.flatMap Piece.bytes ∧
      (sink.deliver pieces).2.failsToFlush = sink.failsToFlush := by
  induction pieces generalizing sink with
  | nil => simp [deliver]
  | cons piece rest ih =>
    have step : sink.write piece = (.ok (), { sink with pieces := piece :: sink.pieces }) := by
      simp only [write, unlimited]
    rw [deliver, step]
    obtain ⟨done, all, flush⟩ := ih { sink with pieces := piece :: sink.pieces } unlimited
    refine ⟨done, all.trans ?_, flush⟩
    have one := written_cons sink sink.room piece
    rw [one, List.flatMap_cons, List.append_assoc]

theorem deliver_limited (sink : Sink) {room : Nat} (limited : sink.room = some room)
    (pieces : List Piece) :
    (sink.deliver pieces).1 =
        (if (pieces.flatMap Piece.bytes).length ≤ room then .ok () else .error .full) ∧
      (sink.deliver pieces).2.written =
        sink.written ++ (pieces.flatMap Piece.bytes).take room ∧
      (sink.deliver pieces).2.failsToFlush = sink.failsToFlush := by
  induction pieces generalizing sink room with
  | nil => simp [deliver]
  | cons piece rest ih =>
    have one := fun left => written_cons sink left piece
    rw [deliver, List.flatMap_cons, List.length_append]
    by_cases fits : piece.bytes.length ≤ room
    · have step : sink.write piece = (.ok (),
          { sink with
            room := some (room - piece.bytes.length), pieces := piece :: sink.pieces }) := by
        simp only [write, limited, if_pos fits]
      rw [step]
      dsimp only
      obtain ⟨done, all, flush⟩ := ih { sink with
        room := some (room - piece.bytes.length), pieces := piece :: sink.pieces } rfl
      have same : (rest.flatMap Piece.bytes).length ≤ room - piece.bytes.length ↔
          piece.bytes.length + (rest.flatMap Piece.bytes).length ≤ room := by omega
      refine ⟨?_, ?_, flush⟩
      · rw [done]
        simp only [same]
      · rw [all, one, List.take_append, List.take_of_length_le fits, List.append_assoc]
    · have step : sink.write piece = (.error .full,
          { sink with room := some 0, pieces := piece.take room :: sink.pieces }) := by
        simp only [write, limited, if_neg fits]
      have cut : (piece.take room).bytes = piece.bytes.take room := by
        cases piece <;> rfl
      rw [step]
      refine ⟨?_, ?_, rfl⟩
      · rw [if_neg (by omega)]
      · have short : room - piece.bytes.length = 0 := by omega
        rw [written_cons sink (some 0) (piece.take room), cut, List.take_append, short,
          List.take_zero, List.append_nil]

end Sink

-- To every sink that takes them the run writes the same pieces, and then it ends the same way. A
-- piece that is not taken ends it there.
def Delivers (run : Run α) : Prop :=
  ∀ vars, ∃ (pieces : List Piece) (outcome : Except (Halt ExecError) (α × Vars)), ∀ sink,
    perform run vars sink =
      match sink.deliver pieces with
      | (.ok (), after) => (outcome.mapError .exec, after)
      | (.error fault, after) => (.error (.write fault), after)

namespace Delivers

theorem pure (a : α) : Delivers (Pure.pure a) := fun vars => ⟨[], .ok (a, vars), fun _ => rfl⟩

theorem fail (stop : Halt ExecError) : Delivers (throw (.exec stop) : Run α) :=
  fun _ => ⟨[], .error stop, fun _ => rfl⟩

theorem get : Delivers MonadState.get := fun vars => ⟨[], .ok (vars, vars), fun _ => rfl⟩

theorem update (change : Vars → Vars) : Delivers (modify change) :=
  fun vars => ⟨[], .ok ((), change vars), fun _ => rfl⟩

theorem evaluate (e : Eval α) : Delivers (Template.evaluate e) := by
  intro vars
  refine ⟨[], e vars, fun sink => ?_⟩
  rw [perform_evaluate]
  cases e vars <;> rfl

theorem emit (piece : Piece) : Delivers (Template.emit piece) := by
  intro vars
  refine ⟨[piece], .ok ((), vars), fun sink => ?_⟩
  rw [perform_emit, Sink.deliver]
  obtain ⟨outcome, after⟩ := sink.write piece
  cases outcome <;> rfl

theorem bind {run : Run α} {next : α → Run β} (first : Delivers run)
    (later : ∀ a, Delivers (next a)) : Delivers (run >>= next) := by
  intro vars
  obtain ⟨pieces, outcome, told⟩ := first vars
  cases outcome with
  | error error =>
    refine ⟨pieces, .error error, fun sink => ?_⟩
    rw [perform_bind, told]
    obtain ⟨taken, after⟩ := sink.deliver pieces
    cases taken <;> rfl
  | ok p =>
    obtain ⟨more, outcome, behind⟩ := later p.1 p.2
    refine ⟨pieces ++ more, outcome, fun sink => ?_⟩
    rw [perform_bind, told, Sink.deliver_append]
    obtain ⟨taken, after⟩ := sink.deliver pieces
    cases taken with
    | error fault => rfl
    | ok => exact behind after

theorem enclosed {run : Run α} (inside : Delivers run) : Delivers (Template.enclosed run) :=
  .bind .get fun _ => .bind inside fun _ => .bind (.update _) fun _ => .pure _

theorem rows {body : Json → Json → Run Flow} (each : ∀ key element, Delivers (body key element))
    (pairs : List (Json × Json)) : Delivers (overRows body pairs) := by
  induction pairs with
  | nil => exact pure ()
  | cons pair rest ih =>
    refine bind (each pair.1 pair.2) fun flow => ?_
    split
    · exact pure ()
    · exact ih

theorem count {body : Json → Json → Run Flow} (each : ∀ key element, Delivers (body key element))
    (i left : Nat) : Delivers (overCount body i left) := by
  induction left generalizing i with
  | zero => exact pure ()
  | succ left ih =>
    refine bind (each (.ofNat i) (.ofNat i)) fun flow => ?_
    split
    · exact pure ()
    · exact ih (i + 1)

theorem forEach {body : Json → Json → Run Flow} (each : ∀ key element, Delivers (body key element))
    (items : Items) : Delivers (items.forEach body) := by
  cases items with
  | rows pairs => exact rows each pairs
  | count n => exact count each 0 n

end Delivers

section Running

variable (options : Options)

section Branches

variable {pipe : Pipeline} {body : List Node} {otherwise : Option (List Node)}
  (inBody : ∀ dot, Delivers (runNodes options dot body))
  (inElse : ∀ dot, Delivers (runOtherwise options dot otherwise))
include inBody inElse

theorem range_delivers (line : Nat) (dot : Json) :
    Delivers (runNode options dot (.branch .rangeBranch line pipe body otherwise)) := by
  rw [runNode]
  refine .enclosed (.bind .get fun seen => .bind (.evaluate _) fun value => ?_)
  cases itemsOf value with
  | error fault => exact .fail _
  | ok items =>
    dsimp only
    split
    · exact inElse dot
    · refine .bind (.forEach (fun key element => ?_) items) fun _ => .pure _
      refine .bind (.update _) fun _ => .bind (inBody element) fun flow => ?_
      exact .bind (.update _) fun _ => .pure flow

theorem branch_delivers {kind : BranchKind} (ranges : kind ≠ .rangeBranch) (line : Nat)
    (dot : Json) : Delivers (runNode options dot (.branch kind line pipe body otherwise)) := by
  have inside : Delivers (do
      let value ← evaluate (evalPipeline options.missingKey dot pipe)
      if truth value then runNodes options (if kind = .withBranch then value else dot) body
      else runOtherwise options dot otherwise) := by
    refine .bind (.evaluate _) fun value => ?_
    cases truth value with
    | true => exact inBody _
    | false => exact inElse dot
  rw [runNode]
  · exact .enclosed inside
  · exact ranges

end Branches

mutual
theorem runNode_delivers : (node : Node) → (dot : Json) → Delivers (runNode options dot node)
  | .text bytes, dot => by
    rw [runNode]
    exact .bind (.emit _) fun _ => .pure _
  | .action pipe, dot => by
    rw [runNode]
    refine .bind (.evaluate _) fun value => ?_
    split
    · exact .bind (.emit _) fun _ => .pure _
    · exact .pure _
  | .branch kind line pipe body otherwise, dot => by
    have inBody := runNodes_delivers body
    have inElse := runOtherwise_delivers otherwise
    by_cases ranges : kind = .rangeBranch
    · subst ranges
      exact range_delivers options inBody inElse line dot
    · exact branch_delivers options inBody inElse ranges line dot
  | .breakRange, dot => by
    rw [runNode]
    exact .pure _
  | .continueRange, dot => by
    rw [runNode]
    exact .pure _

theorem runNodes_delivers : (nodes : List Node) → (dot : Json) →
    Delivers (runNodes options dot nodes)
  | [], dot => by
    rw [runNodes]
    exact .pure _
  | node :: rest, dot => by
    have later := runNodes_delivers rest dot
    rw [runNodes]
    refine .bind (runNode_delivers node dot) fun flow => ?_
    split
    · exact later
    · exact .pure _

theorem runOtherwise_delivers : (otherwise : Option (List Node)) → (dot : Json) →
    Delivers (runOtherwise options dot otherwise)
  | none, dot => by
    rw [runOtherwise]
    exact .pure _
  | some nodes, dot => by
    rw [runOtherwise]
    exact runNodes_delivers nodes dot
end

end Running

def answerBehind (name : String) (after : Sink) :
    Except WriteFault Unit → Except (Halt ExecError) Unit → Except (Halt Error) Unit
  | .error fault, _ => .error (.fault ⟨name, .write fault⟩)
  | .ok (), .error stop => .error (stop.map fun e => ⟨name, .exec e⟩)
  | .ok (), .ok () => after.flush.mapError fun fault => .fault ⟨name, .write fault⟩

theorem execute_delivers (template : Template) (options : Options) (values : Json) :
    ∃ (pieces : List Piece) (outcome : Except (Halt ExecError) Unit), ∀ sink,
      let left := sink.deliver pieces
      template.execute options values sink =
        (answerBehind template.name left.2 left.1 outcome, left.2) := by
  obtain ⟨pieces, outcome, told⟩ := runNodes_delivers options template.nodes values [("$", values)]
  refine ⟨pieces, outcome.map fun _ => (), fun sink => ?_⟩
  have whole : runTree options values template.nodes sink =
      match perform (runNodes options values template.nodes) [("$", values)] sink with
      | (.ok _, sink) => (sink.flush.mapError .write, sink)
      | (.error failure, sink) => (.error failure, sink) := rfl
  rw [execute, whole, told]
  obtain ⟨taken, after⟩ := sink.deliver pieces
  cases taken with
  | error fault => rfl
  | ok =>
    cases outcome with
    | error error => rfl
    | ok p =>
      dsimp only [Except.map, Except.mapError, answerBehind]
      cases after.flush <;> rfl

theorem flush_steady {sink : Sink} (steady : sink.failsToFlush = false) : sink.flush = .ok () := by
  simp [Sink.flush, steady]

theorem limited_sees_prefix (template : Template) (options : Options) (values : Json) (n : Nat) :
    let free := template.execute options values {}
    let limited := template.execute options values { room := some n }
    limited.2.written = free.2.written.take n ∧
      limited.1 = (if free.2.written.length ≤ n then free.1
        else .error (.fault ⟨template.name, .write .full⟩)) ∧
      ∀ sink : Sink,
        let steady := template.execute options values { sink with failsToFlush := false }
        let failing := template.execute options values { sink with failsToFlush := true }
        failing.2 = { steady.2 with failsToFlush := true } ∧
          failing.1 =
            match steady.1 with
            | .ok () => .error (.fault ⟨template.name, .write .notFlushed⟩)
            | .error stop => .error stop := by
  obtain ⟨pieces, outcome, told⟩ := execute_delivers template options values
  obtain ⟨taken, all, flushes⟩ := Sink.deliver_unlimited {} rfl pieces
  obtain ⟨room, cut, flushesToo⟩ := Sink.deliver_limited { room := some n } rfl pieces
  have whole : (Sink.deliver {} pieces).2.written = pieces.flatMap Piece.bytes := all
  simp only [told]
  refine ⟨?_, ?_, fun sink => ?_⟩
  · rw [whole, cut]
    rfl
  · rw [whole, room, taken]
    split
    · cases outcome with
      | error error => rfl
      | ok => rw [answerBehind, answerBehind, flush_steady flushes, flush_steady flushesToo]
    · rfl
  · rw [Sink.deliver_flush sink true, Sink.deliver_flush sink false]
    refine ⟨rfl, ?_⟩
    cases (sink.deliver pieces).1 with
    | error fault => rfl
    | ok => cases outcome <;> rfl

end PagePress.Template
