import PagePress.Proofs.Template.Triple

namespace PagePress.Template

inductive Within (node : Node) : List Node → Prop where
  | here {nodes : List Node} : node ∈ nodes → Within node nodes
  | inBody {nodes body : List Node} {kind : BranchKind} {line : Nat} {pipe : Pipeline}
      {otherwise : Option (List Node)} :
      .branch kind line pipe body otherwise ∈ nodes → Within node body → Within node nodes
  | inElse {nodes body other : List Node} {kind : BranchKind} {line : Nat} {pipe : Pipeline} :
      .branch kind line pipe body (some other) ∈ nodes → Within node other → Within node nodes

theorem Within.of_subset {node : Node} {few many : List Node} (within : Within node few)
    (subset : few ⊆ many) : Within node many := by
  cases within with
  | here member => exact .here (subset member)
  | inBody member inside => exact .inBody (subset member) inside
  | inElse member inside => exact .inElse (subset member) inside

theorem Within.of_else {node : Node} {body nodes : List Node} {otherwise : Option (List Node)}
    {kind : BranchKind} {line : Nat} {pipe : Pipeline} (within : Within node nodes)
    (same : otherwise = some nodes) :
    Within node [.branch kind line pipe body otherwise] := by
  subst same
  exact .inElse (List.mem_singleton_self _) within

inductive Writes (options : Options) (nodes : List Node) : Piece → Prop where
  | text {bytes : Bytes} : Within (.text bytes) nodes → Writes options nodes (.text bytes)
  | printed {pipe : Pipeline} {dot value : Json} {vars left : Vars} :
      Within (.action pipe) nodes →
      evalPipeline options.missingKey dot pipe vars = .ok (value, left) →
      Writes options nodes (.printed (Text.utf8Chars (printedText options pipe value)))

theorem Writes.within {options : Options} {few many : List Node} {piece : Piece}
    (writes : Writes options few piece) (within : ∀ node, Within node few → Within node many) :
    Writes options many piece := by
  cases writes with
  | text inside => exact .text (within _ inside)
  | printed inside evaluated => exact .printed (within _ inside) evaluated

-- Only a sink with a limit cuts pieces.
structure Holds (limited : Bool) (written : Piece → Prop) (sink : Sink) : Prop where
  room : sink.room.isSome = limited
  pieces : ∀ piece ∈ sink.pieces, written piece ∨
    limited ∧ ∃ whole n, written whole ∧ piece = whole.take n

theorem Holds.write {limited : Bool} {written : Piece → Prop} {sink : Sink}
    (holds : Holds limited written sink) {piece : Piece} (may : written piece) :
    Holds limited written (sink.write piece).2 := by
  rw [Sink.write]
  split
  · exact ⟨holds.room, List.forall_mem_cons.mpr ⟨.inl may, holds.pieces⟩⟩
  · rename_i room found
    have bounded : limited = true := by rw [← holds.room, found, Option.isSome_some]
    dsimp only
    split
    · exact ⟨bounded.symm, List.forall_mem_cons.mpr ⟨.inl may, holds.pieces⟩⟩
    · have cut : limited = true ∧ ∃ whole n, written whole ∧ piece.take room = whole.take n :=
        ⟨bounded, piece, room, may, rfl⟩
      exact ⟨bounded.symm, List.forall_mem_cons.mpr ⟨.inr cut, holds.pieces⟩⟩

def Obeys {α : Type} (written : Piece → Prop) (run : Run α) : Prop :=
  ∀ limited, Performs (fun _ => Holds limited written) run (fun _ _ => Holds limited written)
    (fun _ => Holds limited written)

variable {written : Piece → Prop}

theorem obeys_pure {α : Type} (a : α) : Obeys written (pure a : Run α) :=
  fun _ => .pure fun _ _ holds => holds

theorem obeys_update (change : Vars → Vars) : Obeys written (modify change : Run Unit) :=
  fun _ => .update fun _ _ holds => holds

theorem obeys_evaluate {α : Type} (e : Eval α) : Obeys written (evaluate e) := by
  refine fun limited => .evaluate fun vars sink holds => ?_
  split <;> exact holds

theorem obeys_emit {piece : Piece} (may : written piece) : Obeys written (emit piece) := by
  refine fun limited => .emit fun vars sink holds => ?_
  have after := holds.write may
  split
  · rename_i result
    rwa [result] at after
  · rename_i result
    rwa [result] at after

theorem Obeys.bind {α β : Type} {run : Run α} {next : α → Run β} (first : Obeys written run)
    (second : ∀ a, Obeys written (next a)) : Obeys written (run >>= next) :=
  fun limited => Performs.bind (first limited) fun a => second a limited

theorem obeys_enclosed {α : Type} {run : Run α} (inside : Obeys written run) :
    Obeys written (enclosed run) := by
  intro limited
  have known : ∀ outer, Performs (fun vars sink => vars = outer ∧ Holds limited written sink) run
      (fun _ _ sink => Holds limited written sink) (fun _ sink => Holds limited written sink) :=
    fun outer => (inside limited).imp_before fun _ _ entered => entered.2
  exact .enclosed known fun _ _ _ _ holds => holds

section Running

variable (options : Options)

theorem action_obeys (dot : Json) (pipe : Pipeline)
    (may : ∀ piece, Writes options [.action pipe] piece → written piece) :
    Obeys written (runNode options dot (.action pipe)) := by
  intro limited
  rw [runNode]
  have evaluated : Performs (fun _ => Holds limited written)
      (evaluate (evalPipeline options.missingKey dot pipe))
      (fun value _ sink => (∃ vars left, evalPipeline options.missingKey dot pipe vars =
        .ok (value, left)) ∧ Holds limited written sink)
      (fun _ => Holds limited written) := by
    refine .evaluate fun vars sink holds => ?_
    cases result : evalPipeline options.missingKey dot pipe vars with
    | ok p => exact ⟨⟨vars, p.2, result⟩, holds⟩
    | error error => exact holds
  refine .bind evaluated fun value => .assuming fun known => ?_
  obtain ⟨vars, left, result⟩ := known
  have may_print := may _ (.printed (.here (List.mem_singleton_self _)) result)
  split
  · exact (obeys_emit may_print).bind (fun done => obeys_pure _) limited
  · exact obeys_pure _ limited

theorem branch_obeys {kind : BranchKind} {line : Nat} {pipe : Pipeline} {body : List Node}
    {otherwise : Option (List Node)} (inBody : ∀ dot, Obeys written (runNodes options dot body))
    (inElse : ∀ dot, Obeys written (runOtherwise options dot otherwise)) (dot : Json) :
    Obeys written (runNode options dot (.branch kind line pipe body otherwise)) := by
  have either : ∀ (inner : Json) (holds : Bool), Obeys written
      (if holds then runNodes options inner body else runOtherwise options dot otherwise) := by
    intro inner holds
    split
    · exact inBody inner
    · exact inElse dot
  cases kind with
  | rangeBranch =>
    rw [runNode]
    have size : Obeys written (MonadState.get : Run Vars) := fun _ => .get fun _ _ holds => holds
    refine obeys_enclosed (.bind size fun seen => ?_)
    refine .bind (obeys_evaluate _) fun value => ?_
    split
    · exact fun _ => .fail fun _ _ holds => holds
    · rename_i items found
      have each : ∀ element, Obeys written (do
          let flow ← runNodes options element body
          modify (·.leave seen.length)
          pure flow) := fun element =>
        (inBody element).bind fun flow => (obeys_update _).bind fun done => obeys_pure flow
      split
      · exact inElse dot
      · exact .bind (fun limited => .forEach (fun key element =>
          (obeys_update _).bind (fun done => each element) limited) items) fun done => obeys_pure _
  | ifBranch =>
    rw [runNode]
    · exact obeys_enclosed (.bind (obeys_evaluate _) fun value => either dot (truth value))
    · intro same
      cases same
  | withBranch =>
    rw [runNode]
    · exact obeys_enclosed (.bind (obeys_evaluate _) fun value => either value (truth value))
    · intro same
      cases same

mutual
theorem runNode_obeys : (node : Node) → (dot : Json) →
    (∀ piece, Writes options [node] piece → written piece) →
      Obeys written (runNode options dot node)
  | .text bytes, dot, may => by
    rw [runNode]
    refine .bind (obeys_emit (may _ (.text (.here ?_)))) fun done => obeys_pure _
    exact List.mem_singleton_self _
  | .action pipe, dot, may => action_obeys options dot pipe may
  | .branch kind line pipe body otherwise, dot, may => by
    have inBody := fun inner => runNodes_obeys body inner fun piece writes =>
      may piece (writes.within fun node inside => .inBody (List.mem_singleton_self _) inside)
    have inElse := fun inner => runOtherwise_obeys otherwise inner fun nodes same piece writes =>
      may piece (writes.within fun node inside => inside.of_else same)
    exact branch_obeys options inBody inElse dot
  | .breakRange, dot, may => by
    rw [runNode]
    exact obeys_pure _
  | .continueRange, dot, may => by
    rw [runNode]
    exact obeys_pure _

theorem runNodes_obeys : (nodes : List Node) → (dot : Json) →
    (∀ piece, Writes options nodes piece → written piece) →
      Obeys written (runNodes options dot nodes)
  | [], dot, may => by
    rw [runNodes]
    exact obeys_pure _
  | node :: rest, dot, may => by
    have first := runNode_obeys node dot fun piece writes =>
      may piece (writes.within fun inner within =>
        within.of_subset (List.cons_subset_cons node (List.nil_subset rest)))
    have later := runNodes_obeys rest dot fun piece writes =>
      may piece (writes.within fun inner within =>
        within.of_subset (List.subset_cons_self node rest))
    rw [runNodes]
    refine .bind first fun flow => ?_
    split
    · exact later
    · exact obeys_pure _

theorem runOtherwise_obeys : (otherwise : Option (List Node)) → (dot : Json) →
    (∀ nodes, otherwise = some nodes → ∀ piece, Writes options nodes piece → written piece) →
    Obeys written (runOtherwise options dot otherwise)
  | none, dot, may => by
    rw [runOtherwise]
    exact obeys_pure _
  | some nodes, dot, may => by
    rw [runOtherwise]
    exact runNodes_obeys nodes dot (may nodes rfl)
end

theorem runTree_holds (values : Json) (nodes : List Node) {sink : Sink} (empty : sink.pieces = []) :
    Holds sink.room.isSome (Writes options nodes) (runTree options values nodes sink).2 := by
  have start : Holds sink.room.isSome (Writes options nodes) sink := by
    refine ⟨rfl, fun piece member => ?_⟩
    rw [empty] at member
    cases member
  have ended := runNodes_obeys options nodes values (fun _ writes => writes) _ [("$", values)] sink
    start
  have whole : runTree options values nodes sink =
      match perform (runNodes options values nodes) [("$", values)] sink with
      | (.ok _, sink) => (sink.flush.mapError .write, sink)
      | (.error failure, sink) => (.error failure, sink) := rfl
  rw [whole]
  cases result : perform (runNodes options values nodes) [("$", values)] sink with
  | mk outcome left =>
    rw [result] at ended
    cases outcome with
    | ok p => exact ended
    | error failure => exact ended

end Running

end PagePress.Template
