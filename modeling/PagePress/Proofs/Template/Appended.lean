import PagePress.Proofs.Template.Concatenation
import PagePress.Proofs.Template.Simulation
import PagePress.Proofs.Template.Trace

namespace PagePress.Template

namespace Vars

theorem get?_append (vars others : Vars) (name : String) :
    get? (vars ++ others) name = (vars.get? name).or (others.get? name) := by
  rw [get?, List.find?_append, get?, get?]
  cases vars.find? (·.1 == name) <;> rfl

theorem get?_none {vars : Vars} {name : String} (unbound : name ∉ vars.names) :
    vars.get? name = none := by
  rw [get?, Option.map_eq_none_iff, List.find?_eq_none]
  intro entry member same
  exact unbound (List.mem_map.mpr ⟨entry, member, beq_iff_eq.mp same⟩)

theorem assign_none {vars : Vars} {name : String} (unbound : name ∉ vars.names) (value : Json) :
    vars.assign name value = vars := by
  induction vars with
  | nil => rfl
  | cons entry rest ih =>
    obtain ⟨other, later⟩ := not_or.mp (fun member => unbound (List.mem_cons.mpr member))
    rw [assign, if_neg (fun same => other same.symm), ih later]

theorem assign_append_of_mem {vars : Vars} {name : String} (bound : name ∈ vars.names)
    (others : Vars) (value : Json) :
    assign (vars ++ others) name value = vars.assign name value ++ others := by
  induction vars with
  | nil => cases bound
  | cons entry rest ih =>
    rw [List.cons_append, assign, assign]
    split
    · rfl
    · rename_i other
      rw [ih ((List.mem_cons.mp bound).resolve_left fun same => other same.symm), List.cons_append]

theorem assign_append {vars : Vars} {name : String} (unbound : name ∉ vars.names) (others : Vars)
    (value : Json) : assign (vars ++ others) name value = vars ++ others.assign name value := by
  induction vars with
  | nil => rfl
  | cons entry rest ih =>
    obtain ⟨other, later⟩ := not_or.mp (fun member => unbound (List.mem_cons.mpr member))
    rw [List.cons_append, assign, if_neg (fun same => other same.symm), ih later, List.cons_append]

end Vars

section Relations

-- The values are bound at the bottom and nowhere else.
def Rooted (root : Json) (vars : Vars) : Prop :=
  ∃ top : Vars, vars = top ++ [("$", root)] ∧ "$" ∉ top.names

-- Some more variables lie right above the values.
def Buried (size : Nat) (vars vars' : Vars) : Prop :=
  ∃ (top under : Vars) (root : Json), under.length = size ∧ "$" ∉ under.names ∧
    vars = top ++ [("$", root)] ∧ vars' = top ++ (under ++ [("$", root)])

theorem leave_top {top outer behind below : Vars} (same : behind.length = below.length) :
    Vars.leave (top ++ behind) (outer ++ below).length =
      top.drop (top.length - outer.length) ++ behind := by
  have taken : (top ++ behind).length - (outer ++ below).length = top.length - outer.length := by
    simp only [List.length_append]
    omega
  rw [Vars.leave, taken, List.drop_append_of_le_length (Nat.sub_le ..)]

theorem not_mem_cons {name other : String} {value : Json} {vars : Vars} (differs : name ≠ other)
    (apart : name ∉ vars.names) : name ∉ Vars.names ((other, value) :: vars) := by
  rintro (_ | ⟨_, member⟩)
  · exact differs rfl
  · exact apart member

theorem not_mem_drop {name : String} {vars : Vars} (apart : name ∉ vars.names) (n : Nat) :
    name ∉ Vars.names (vars.drop n) := by
  rw [Vars.names, List.map_drop]
  exact fun member => apart (List.mem_of_mem_drop member)

theorem rooted_carries (root : Json) :
    Carries (· ≠ "$") fun vars vars' => vars' = vars ∧ Rooted root vars where
  get := by
    rintro vars _ name value ⟨rfl, -⟩ found
    exact found
  bind := by
    rintro _ _ name ⟨rfl, top, rfl, apart⟩ other assigns value
    refine ⟨rfl, ?_⟩
    cases assigns with
    | false => exact ⟨(name, value) :: top, rfl, not_mem_cons other.symm apart⟩
    | true =>
      by_cases bound : name ∈ top.names
      · refine ⟨top.assign name value, Vars.assign_append_of_mem bound _ value, ?_⟩
        rwa [Vars.names_assign]
      · refine ⟨top, ?_, apart⟩
        have missing : name ∉ Vars.names [("$", root)] := by
          simpa [Vars.names] using other
        rw [Vars.bind, if_pos rfl, Vars.assign_append bound, Vars.assign_none missing]
  leave := by
    rintro _ _ _ _ ⟨rfl, outer, rfl, -⟩ ⟨rfl, top, rfl, apart⟩
    exact ⟨rfl, _, leave_top rfl, not_mem_drop apart _⟩

theorem buried_carries (size : Nat) : Carries (fun _ => True) (Buried size) where
  get := by
    rintro _ _ name value ⟨top, under, root, -, apart, rfl, rfl⟩ found
    rw [Vars.get?_append] at found ⊢
    cases here : top.get? name with
    | some value => rwa [here] at found
    | none =>
      rw [here] at found
      obtain ⟨rfl, rfl⟩ : "$" = name ∧ root = value := by simpa [Vars.get?] using found
      rw [Vars.get?_append, Vars.get?_none apart]
      rfl
  bind := by
    rintro _ _ name ⟨top, under, root, length, apart, rfl, rfl⟩ - assigns value
    cases assigns with
    | false => exact ⟨(name, value) :: top, under, root, length, apart, rfl, rfl⟩
    | true =>
      rw [Vars.bind, if_pos rfl, Vars.bind, if_pos rfl]
      by_cases bound : name ∈ top.names
      · exact ⟨top.assign name value, under, root, length, apart,
          Vars.assign_append_of_mem bound _ value, Vars.assign_append_of_mem bound _ value⟩
      · rw [Vars.assign_append bound, Vars.assign_append bound]
        by_cases isRoot : name = "$"
        · subst isRoot
          rw [Vars.assign_append apart]
          exact ⟨top, under, value, length, apart, rfl, rfl⟩
        · have missing : name ∉ Vars.names [("$", root)] := by
            simpa [Vars.names] using isRoot
          rw [Vars.assign_none missing]
          by_cases lower : name ∈ under.names
          · refine ⟨top, under.assign name value, root, ?_, ?_, rfl, ?_⟩
            · rw [Vars.length_assign, length]
            · rwa [Vars.names_assign]
            · rw [Vars.assign_append_of_mem lower]
          · refine ⟨top, under, root, length, apart, rfl, ?_⟩
            rw [Vars.assign_append lower, Vars.assign_none missing]
  leave := by
    rintro _ _ _ _ ⟨outer, lower, bottom, same, -, rfl, rfl⟩
      ⟨top, under, root, length, apart, rfl, rfl⟩
    refine ⟨_, under, root, length, apart, leave_top rfl, leave_top ?_⟩
    rw [List.length_append, List.length_append, length, same]
    rfl

theorem same_carries : Carries (fun _ => True) (Eq : Vars → Vars → Prop) where
  get := by
    rintro vars _ name value rfl found
    exact found
  bind := by
    rintro vars _ name rfl - assigns value
    rfl
  leave := by
    rintro _ _ _ _ rfl rfl
    rfl

end Relations

section Flows

-- Outside a range no list is left early.
def Ends (run : Run Flow) : Prop :=
  Performs (fun _ _ => True) run (fun flow _ _ => flow = .normal) fun _ _ => True

theorem ends_bind {α : Type} {run : Run α} {next : α → Run Flow} (later : ∀ a, Ends (next a)) :
    Ends (run >>= next) := by
  have any : Performs (fun _ _ => True) run (fun _ _ _ => True) fun _ _ => True := by
    intro vars sink start
    split <;> trivial
  exact any.bind fun a => later a

theorem ends_pure : Ends (pure .normal) := Performs.pure fun _ _ _ => rfl

theorem ends_enclosed {run : Run Flow} (inside : Ends run) : Ends (enclosed run) :=
  .enclosed (fun _ => inside.imp_before fun _ _ _ => trivial) fun _ _ _ _ ended => ended

variable (options : Options)

mutual
theorem runNode_ends (room : Nat) (scope : Scope) (dot : Json) :
    (node : Node) → node.WellFormed room false scope → Ends (runNode options dot node)
  | .text _, _ => by
    rw [runNode]
    exact ends_bind fun _ => ends_pure
  | .action _, _ => by
    rw [runNode]
    refine ends_bind fun value => ?_
    split
    · exact ends_bind fun _ => ends_pure
    · exact ends_pure
  | .branch .rangeBranch _ _ _ otherwise, ⟨_, _, _, fits⟩ => by
    rw [runNode]
    refine ends_enclosed (ends_bind fun _ => ends_bind fun value => ?_)
    cases itemsOf value with
    | error fault => exact Performs.fail fun _ _ _ => trivial
    | ok items =>
      dsimp only
      split
      · exact runOtherwise_ends _ _ dot otherwise fits
      · exact ends_bind fun _ => ends_pure
  | .branch .ifBranch _ _ body otherwise, ⟨_, _, inside, fits⟩ => by
    rw [runNode]
    · refine ends_enclosed (ends_bind fun value => ?_)
      split
      · exact runNodes_ends _ _ _ body inside
      · exact runOtherwise_ends _ _ dot otherwise fits
    · rintro ⟨⟩
  | .branch .withBranch _ _ body otherwise, ⟨_, _, inside, fits⟩ => by
    rw [runNode]
    · refine ends_enclosed (ends_bind fun value => ?_)
      split
      · exact runNodes_ends _ _ _ body inside
      · exact runOtherwise_ends _ _ dot otherwise fits
    · rintro ⟨⟩
  | .breakRange, fits => by cases fits
  | .continueRange, fits => by cases fits

theorem runNodes_ends (room : Nat) (scope : Scope) (dot : Json) :
    (nodes : List Node) → nodesWellFormed room false scope nodes → Ends (runNodes options dot nodes)
  | [], _ => by
    rw [runNodes]
    exact ends_pure
  | node :: rest, ⟨fits, others⟩ => by
    have later := runNodes_ends _ _ dot rest others
    rw [runNodes]
    refine Performs.bind (runNode_ends room scope dot node fits) fun flow => ?_
    split
    · exact later.imp_before fun _ _ _ => trivial
    · rename_i left
      exact fun _ _ ended => (left ended).elim

theorem runOtherwise_ends (room : Nat) (scope : Scope) (dot : Json) :
    (otherwise : Option (List Node)) → otherwiseWellFormed room false scope otherwise →
      Ends (runOtherwise options dot otherwise)
  | none, _ => by
    rw [runOtherwise]
    exact ends_pure
  | some nodes, fits => by
    rw [runOtherwise]
    exact runNodes_ends room scope dot nodes fits
end

end Flows

section Printing

variable (options : Options) (dot : Json)

def holding (pieces : List Piece) : Sink := ⟨none, false, pieces⟩

def Fills {α : Type} (run : Run α) (vars : Vars) (pieces : List Piece) (result : α × Vars) : Prop :=
  ∀ earlier, perform run vars (holding earlier) = (.ok result, holding (pieces ++ earlier))

def Prints (nodes : List Node) (vars : Vars) (pieces : List Piece) (left : Vars) : Prop :=
  ∀ earlier, perform (runNodes options dot nodes) vars (holding earlier) =
    (.ok (.normal, left), holding (pieces ++ earlier))

variable {options dot}

theorem fills_of_done {nodes : List Node} {vars : Vars} {result : Flow × Vars}
    {earlier : List Piece} {sink : Sink}
    (done : perform (runNodes options dot nodes) vars (holding earlier) = (.ok result, sink)) :
    ∃ pieces, Fills (runNodes options dot nodes) vars pieces result ∧
      sink = holding (pieces ++ earlier) := by
  have mirrored := fun earlier => runNodes_mirrors options nodes dot vars [] false earlier
  have start (earlier : List Piece) : sinkOf options false earlier [] = holding earlier := rfl
  simp only [start] at mirrored
  rw [mirrored earlier] at done
  cases followed : follow (traceNodes options.missingKey dot nodes) vars [] with
  | mk outcome events =>
    rw [followed] at done
    simp only [followed] at mirrored
    cases outcome with
    | error error => cases done
    | ok p =>
      cases done
      exact ⟨events.filterMap (Event.piece? options), mirrored, rfl⟩

theorem prints_of_done {nodes : List Node} {vars left : Vars} {earlier : List Piece} {sink : Sink}
    (done : perform (runNodes options dot nodes) vars (holding earlier) =
      (.ok (.normal, left), sink)) :
    ∃ pieces, Prints options dot nodes vars pieces left ∧ sink = holding (pieces ++ earlier) :=
  fills_of_done done

theorem perform_append (nodes others : List Node) (vars : Vars) (sink : Sink) :
    perform (runNodes options dot (nodes ++ others)) vars sink =
      match perform (runNodes options dot nodes) vars sink with
      | (.ok (.normal, left), sink) => perform (runNodes options dot others) left sink
      | ended => ended := by
  induction nodes generalizing vars sink with
  | nil =>
    rw [List.nil_append, runNodes]
    rfl
  | cons node rest ih =>
    rw [List.cons_append, runNodes, runNodes, perform_bind, perform_bind]
    cases perform (runNode options dot node) vars sink with
    | mk outcome after =>
      cases outcome with
      | error failure => rfl
      | ok p =>
        obtain ⟨flow, left⟩ := p
        cases flow with
        | normal => exact ih left after
        | broken => rfl
        | continued => rfl

theorem Prints.append {nodes others : List Node} {vars middle left : Vars} {ps qs : List Piece}
    (first : Prints options dot nodes vars ps middle)
    (second : Prints options dot others middle qs left) :
    Prints options dot (nodes ++ others) vars (qs ++ ps) left := by
  intro earlier
  rw [perform_append, first earlier]
  dsimp only
  rw [second, List.append_assoc]

theorem Prints.split {nodes others : List Node} {vars left : Vars} {pieces : List Piece}
    (whole : Prints options dot (nodes ++ others) vars pieces left) :
    ∃ ps qs middle, Prints options dot nodes vars ps middle ∧
      Prints options dot others middle qs left ∧ pieces = qs ++ ps := by
  have done := whole []
  rw [perform_append] at done
  cases first : perform (runNodes options dot nodes) vars (holding []) with
  | mk outcome sink =>
    rw [first] at done
    cases outcome with
    | error failure => cases done
    | ok p =>
      obtain ⟨flow, middle⟩ := p
      cases flow with
      | broken => cases done
      | continued => cases done
      | normal =>
        obtain ⟨ps, printed, rfl⟩ := prints_of_done first
        obtain ⟨qs, behind, same⟩ := prints_of_done done
        have pieces := congrArg Sink.pieces same
        simp only [holding, List.append_nil] at pieces
        exact ⟨ps, qs, middle, printed, behind, pieces⟩

theorem Prints.tracked {related : Vars → Vars → Prop} {nodes nodes' : List Node}
    {vars vars' left : Vars} {pieces : List Piece}
    (printed : Prints options dot nodes vars pieces left)
    (tracks : Tracks Eq related Eq (runNodes options dot nodes) (runNodes options dot nodes'))
    (start : related vars vars') :
    ∃ left', Prints options dot nodes' vars' pieces left' ∧ related left left' := by
  obtain ⟨flow, left', sink, done, same, held, rfl⟩ :=
    tracks _ _ _ _ _ _ _ start rfl (printed [])
  subst same
  obtain ⟨others, printed', same⟩ := prints_of_done done
  have pieces := congrArg Sink.pieces same
  simp only [holding, List.append_nil] at pieces
  exact ⟨left', pieces ▸ printed', held⟩

theorem Prints.unique {nodes : List Node} {vars left left' : Vars} {ps qs : List Piece}
    (one : Prints options dot nodes vars ps left) (two : Prints options dot nodes vars qs left') :
    qs = ps ∧ left' = left := by
  have same := (two []).symm.trans (one [])
  simpa [holding, and_comm] using same

def textPieces (s : Bytes) : List Piece := if s.isEmpty then [] else [.text s]

theorem prints_text (s : Bytes) (vars : Vars) :
    Prints options dot (textNodes s) vars (textPieces s) vars := by
  intro earlier
  rw [textNodes, textPieces]
  split
  · rw [runNodes]
    rfl
  · rw [runNodes, runNode, perform_bind, perform_bind, perform_emit]
    rw [runNodes]
    rfl

def bytesOf (pieces : List Piece) : Bytes := pieces.reverse.flatMap Piece.bytes

theorem bytesOf_append (later earlier : List Piece) :
    bytesOf (later ++ earlier) = bytesOf earlier ++ bytesOf later := by
  rw [bytesOf, List.reverse_append, List.flatMap_append, bytesOf, bytesOf]

theorem bytesOf_text (s : Bytes) : bytesOf (textPieces s) = s := by
  rw [textPieces]
  split
  · rename_i empty
    rw [List.isEmpty_iff.mp empty]
    rfl
  · simp [bytesOf, Piece.bytes]

theorem runTree_eq (values : Json) (nodes : List Node) :
    runTree options values nodes {} =
      match perform (runNodes options values nodes) [("$", values)] (holding []) with
      | (.ok _, sink) => (sink.flush.mapError .write, sink)
      | (.error failure, sink) => (.error failure, sink) := rfl

theorem render_of_prints {template : Template} {values : Json} {pieces : List Piece} {left : Vars}
    (printed : Prints options values template.nodes [("$", values)] pieces left) :
    template.render options values = .ok (bytesOf pieces) := by
  rw [render, execute, runTree_eq, printed []]
  simp only [holding, List.append_nil]
  rfl

theorem prints_of_render {template : Template} {values : Json} {out : Bytes}
    (fits : WellFormed template.nodes) (rendered : template.render options values = .ok out) :
    ∃ pieces left, Prints options values template.nodes [("$", values)] pieces left ∧
      out = bytesOf pieces := by
  have ends := runNodes_ends options _ _ values template.nodes fits [("$", values)] (holding [])
    trivial
  rw [render, execute, runTree_eq] at rendered
  cases done : perform (runNodes options values template.nodes) [("$", values)] (holding []) with
  | mk outcome sink =>
    rw [done] at rendered ends
    cases outcome with
    | error failure => cases failure <;> cases rendered
    | ok p =>
      obtain ⟨flow, left⟩ := p
      obtain rfl : flow = .normal := ends
      obtain ⟨pieces, printed, rfl⟩ := prints_of_done done
      simp only [holding, List.append_nil] at rendered
      exact ⟨pieces, left, printed, (Except.ok.inj rendered).symm⟩

end Printing

section Appending

variable {options : Options} {values : Json}

theorem nodesNamed_append (nodes others : List Node) :
    nodesNamed (nodes ++ others) = nodesNamed nodes ++ nodesNamed others := by
  induction nodes with
  | nil => rfl
  | cons node rest ih => rw [List.cons_append, nodesNamed, nodesNamed, ih, List.append_assoc]

theorem prints_behind {before behind : List Node} {ps qs : List Piece} {leftOne leftTwo : Vars}
    (free : "$" ∉ nodesNamed before)
    (first : Prints options values before [("$", values)] ps leftOne)
    (second : Prints options values behind [("$", values)] qs leftTwo) (s : Bytes) :
    ∃ left, Prints options values (before ++ (textNodes s ++ behind)) [("$", values)]
      (qs ++ (textPieces s ++ ps)) left := by
  have named : ∀ name ∈ nodesNamed before, name ≠ "$" := by
    rintro name member rfl
    exact free member
  have rooted : Rooted values [("$", values)] := ⟨[], rfl, List.not_mem_nil⟩
  obtain ⟨left, again, rfl, under, rfl, apart⟩ := first.tracked
    (runNodes_tracks options (rooted_carries values) values before before rfl named) ⟨rfl, rooted⟩
  have buried : Buried under.length [("$", values)] (under ++ [("$", values)]) :=
    ⟨[], under, values, rfl, apart, rfl, rfl⟩
  obtain ⟨left, later, -⟩ := second.tracked
    (runNodes_tracks options (buried_carries _) values behind behind rfl fun _ _ => trivial) buried
  have whole := first.append ((prints_text s _).append later)
  rw [List.append_assoc] at whole
  exact ⟨left, whole⟩

theorem render_append {one two : Bytes} {nameOne nameTwo : String} {first second : Template}
    (compiledOne : compile one nameOne = .ok first) (compiledTwo : compile two nameTwo = .ok second)
    (apart : Apart one two) (keepsEnd : trimsEnd one = false) (keepsStart : trimsStart two = false)
    (free : "$" ∉ nodesNamed first.nodes) (name : String) :
    ∃ whole, compile (one ++ two) name = .ok whole ∧
      ∀ options values outOne outTwo, first.render options values = .ok outOne →
        second.render options values = .ok outTwo →
        whole.render options values = .ok (outOne ++ outTwo) := by
  obtain ⟨whole, before, behind, x, y, compiled, splitOne, splitTwo, same⟩ :=
    compile_append name compiledOne compiledTwo apart keepsEnd keepsStart
  refine ⟨whole, compiled, fun options values outOne outTwo renderedOne renderedTwo => ?_⟩
  obtain ⟨piecesOne, leftOne, printedOne, rfl⟩ :=
    prints_of_render (compile_wellFormed compiledOne) renderedOne
  obtain ⟨piecesTwo, leftTwo, printedTwo, rfl⟩ :=
    prints_of_render (compile_wellFormed compiledTwo) renderedTwo
  rw [splitOne] at printedOne free
  rw [splitTwo] at printedTwo
  rw [nodesNamed_append] at free
  obtain ⟨ps, _, middle, earlier, ofX, rfl⟩ := printedOne.split
  obtain ⟨rfl, rfl⟩ := (prints_text x middle).unique ofX
  obtain ⟨_, qs, start, ofY, later, rfl⟩ := printedTwo.split
  obtain ⟨rfl, rfl⟩ := (prints_text y _).unique ofY
  obtain ⟨left, printed⟩ :=
    prints_behind (fun member => free (List.mem_append_left _ member)) earlier later (x ++ y)
  obtain ⟨_, again, -⟩ := printed.tracked
    (runNodes_tracks options same_carries values _ whole.nodes same fun _ _ => trivial) rfl
  rw [render_of_prints again]
  simp only [bytesOf_append, bytesOf_text, List.append_assoc]

-- Two sources with a character cut between them. The second sets the variable that lies under the
-- one the first declares.
def cutBefore : Bytes := Text.utf8 "{{$x := .a}}{{$x}}" ++ [0xC3]

def cutBehind : Bytes := 0xA9 :: Text.utf8 "{{$ = .b}}{{$}}"

set_option maxRecDepth 100000 in
theorem render_append_cut :
    let values : Json := .obj [("a", .str "1"), ("b", .str "2")]
    ∃ first second whole, compile cutBefore "t" = .ok first ∧ compile cutBehind "t" = .ok second ∧
      Apart cutBefore cutBehind ∧ trimsEnd cutBefore = false ∧ trimsStart cutBehind = false ∧
      "$" ∉ nodesNamed first.nodes ∧ compile (cutBefore ++ cutBehind) "t" = .ok whole ∧
      first.render {} values = .ok [0x31, 0xC3] ∧ second.render {} values = .ok [0xA9, 0x32] ∧
      whole.render {} values = .ok [0x31, 0xC3, 0xA9, 0x32] := by
  intro values
  have compiledOne : compile cutBefore "t" = .ok ⟨"t",
      [.action (.mk 1 ["$x"] false [.mk 1 [.field ["a"]]]),
        .action (.mk 1 [] false [.mk 1 [.var "$x" []]]), .text [0xC3]]⟩ := by cbv
  have compiledTwo : compile cutBehind "t" = .ok ⟨"t",
      [.text [0xA9], .action (.mk 1 ["$"] true [.mk 1 [.field ["b"]]]),
        .action (.mk 1 [] false [.mk 1 [.var "$" []]])]⟩ := by cbv
  have apart : Apart cutBefore cutBehind := by
    rintro ⟨-, first⟩
    revert first
    decide
  have keepsEnd : trimsEnd cutBefore = false := by cbv
  have keepsStart : trimsStart cutBehind = false := by cbv
  obtain ⟨whole, compiled, renders⟩ :=
    render_append compiledOne compiledTwo apart keepsEnd keepsStart (by decide) "t"
  exact ⟨_, _, whole, compiledOne, compiledTwo, apart, keepsEnd, keepsStart, by decide, compiled,
    rfl, rfl, renders {} values _ _ rfl rfl⟩

end Appending

end PagePress.Template
