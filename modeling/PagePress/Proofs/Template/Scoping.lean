import PagePress.Proofs.Template.Productions
import PagePress.Proofs.Template.Reach

namespace PagePress.Template

open Chain

structure Keeps (scope after : Scope) (adds : Reach) (uses : Reach → List Use) : Prop where
  after : after = adds.names ++ scope
  inScope : ∀ reach : Reach, reach.names = scope → ∀ use ∈ uses reach, use.InScope

namespace Keeps

variable {scope middle after : Scope} {adds later : Reach} {uses more : Reach → List Use}

theorem next (first : Keeps scope middle adds uses) (second : Keeps middle after later more) :
    Keeps scope after (later ++ adds) fun reach => uses reach ++ more (adds ++ reach) := by
  refine ⟨?_, fun reach names use member => ?_⟩
  · rw [second.after, first.after, Reach.names_append, List.append_assoc]
  · rcases List.mem_append.mp member with here | there
    · exact first.inScope reach names use here
    · refine second.inScope (adds ++ reach) ?_ use there
      rw [Reach.names_append, names, first.after]

theorem nothing (scope : Scope) : Keeps scope scope [] fun _ => [] :=
  ⟨rfl, fun _ _ _ member => (List.not_mem_nil member).elim⟩

end Keeps

theorem wordOperand_plain {word : String} {operand : Operand}
    (found : wordOperand word = .ok operand) :
    operand.adds = [] ∧ ∀ line reach, operand.uses line reach = [] := by
  rw [wordOperand.eq_def] at found
  split at found
  · cases found
    exact ⟨rfl, fun _ _ => rfl⟩
  · cases found
    exact ⟨rfl, fun _ _ => rfl⟩
  · cases found
    exact ⟨rfl, fun _ _ => rfl⟩
  · split at found
    · cases found
    · split at found
      · cases found
        exact ⟨rfl, fun _ _ => rfl⟩
      · cases found

theorem simpleTerm_keeps {scope : Scope} {lexeme : Lexeme} {term : Operand}
    (found : simpleTerm scope lexeme = .ok term) (line : Nat) :
    Keeps scope scope term.adds (term.uses line) := by
  rw [simpleTerm.eq_def] at found
  split at found
  · cases found
    exact .nothing scope
  · cases found
    exact .nothing scope
  · split at found
    · rename_i name held
      cases found
      refine ⟨rfl, fun reach names use member => ?_⟩
      cases List.mem_singleton.mp member
      rw [Use.InScope, names]
      exact List.contains_iff_mem.mp held
    · cases found
  · cases found
    exact .nothing scope
  · cases found
    exact .nothing scope
  · split at found
    · cases found
      exact .nothing scope
    · cases found
  · obtain ⟨adds, uses⟩ := wordOperand_plain found
    refine ⟨by rw [adds]; rfl, fun reach _ use member => ?_⟩
    rw [uses line reach] at member
    cases member
  · cases found

theorem withFields_same {term operand : Operand} {path : List String}
    (found : withFields? term path = some operand) :
    operand.adds = term.adds ∧ ∀ line reach, operand.uses line reach = term.uses line reach := by
  rw [withFields?.eq_def] at found
  split at found
  · cases found
    exact ⟨rfl, fun _ _ => rfl⟩
  · cases term with
    | function builtin => cases found
    | literal value => cases found
    | _ =>
      cases found
      exact ⟨rfl, fun _ _ => rfl⟩

theorem namesAt_few {place : Place} {ts : List Token} {names : List String} {assigns : Bool}
    {width : Nat} (found : namesAt place ts = .ok (names, assigns, width)) : names.length ≤ 2 := by
  rw [namesAt.eq_def] at found
  split at found
  · cases found
    exact Nat.le_succ 1
  · cases found
    exact Nat.le_succ 1
  · split at found
    · split at found
      · cases found
        exact Nat.le_refl 2
      · cases found
        exact Nat.le_refl 2
      · cases found
      · cases found
    · cases found
  · cases found
    exact Nat.zero_le 2

theorem bindNames_scope {names : List String} {assigns : Bool} {scope after : Scope}
    (found : names.foldlM (bindName · assigns ·) scope = .ok after) :
    after = declared names assigns ++ scope := by
  induction names generalizing scope with
  | nil =>
    cases found
    cases assigns <;> rfl
  | cons name rest ih =>
    rw [List.foldlM_cons] at found
    obtain ⟨next, bound, found⟩ := bind_eq_ok.mp found
    rw [ih found]
    rw [bindName] at bound
    split at bound
    · rename_i assigned
      split at bound
      · cases bound
        rw [declared, if_pos assigned, declared, if_pos assigned]
      · cases bound
    · rename_i declares
      cases bound
      rw [declared, if_neg declares, declared, if_neg declares]
      simp

theorem elementNames_few {names : List String} (few : names.length ≤ 2) :
    elementNames names = names := by
  rcases names with _ | ⟨first, _ | ⟨second, _ | ⟨third, rest⟩⟩⟩
  · rfl
  · rfl
  · rfl
  · simp at few

theorem parseBinding_scope {endLine : Nat} {place : Place} {scope : Scope} {ts : List Token}
    {binding : Binding} (found : parseBinding endLine place scope ts = .ok binding) :
    binding.scope = declared binding.names binding.assigns ++ scope ∧ binding.names.length ≤ 2 := by
  rw [parseBinding] at found
  split at found
  · cases found
  · rename_i names assigns width taken
    split at found
    · cases found
    · rename_i after bound
      cases found
      exact ⟨bindNames_scope bound, namesAt_few taken⟩

def Collects {α : Type} (scope after : Scope) (before all : List α) (adds : List α → Reach)
    (uses : Reach → List α → List Use) : Prop :=
  ∃ new, all = before.reverse ++ new ∧ Keeps scope after (adds new) (uses · new)

namespace Collects

variable {α : Type} {scope middle after : Scope} {before all : List α} {adds : List α → Reach}
  {uses : Reach → List α → List Use}

theorem nil (keeps : Keeps scope scope (adds []) (uses · [])) :
    Collects scope scope before before.reverse adds uses :=
  ⟨[], (List.append_nil _).symm, keeps⟩

theorem cons {item : α} (tail : Collects middle after (item :: before) all adds uses)
    (joined : ∀ new, Keeps middle after (adds new) (uses · new) →
      Keeps scope after (adds (item :: new)) (uses · (item :: new))) :
    Collects scope after before all adds uses := by
  obtain ⟨new, same, keeps⟩ := tail
  exact ⟨item :: new, by simpa using same, joined new keeps⟩

theorem keeps (whole : Collects scope after [] all adds uses) :
    Keeps scope after (adds all) (uses · all) := by
  obtain ⟨new, same, keeps⟩ := whole
  rw [List.reverse_nil, List.nil_append] at same
  rwa [same]

end Collects

mutual
theorem parseTerm_keeps (endLine room : Nat) (scope : Scope) (ts : List Token)
    {p : Parsed Operand ts.length} (accepted : parseTerm endLine room scope ts = .ok p)
    (line : Nat) : Keeps scope p.scope p.value.adds (p.value.uses line) := by
  cases ts with
  | nil =>
    rw [parseTerm] at accepted
    cases accepted
  | cons t r =>
    rw [parseTerm.eq_def] at accepted
    dsimp only at accepted
    split at accepted
    · split at accepted
      · cases accepted
      · obtain ⟨q, inner, done⟩ := bind_eq_ok.mp accepted
        cases done
        exact (parsePipeline_keeps endLine _ .parentheses scope r inner).1
    · split at accepted
      · rename_i term found
        cases accepted
        exact simpleTerm_keeps found line
      · cases accepted
termination_by (ts.length, 0)

theorem parseOperand_keeps (endLine room : Nat) (scope : Scope) (ts : List Token)
    {p : Parsed Operand ts.length} (accepted : parseOperand endLine room scope ts = .ok p)
    (line : Nat) : Keeps scope p.scope p.value.adds (p.value.uses line) := by
  rw [parseOperand] at accepted
  obtain ⟨q, inner, done⟩ := bind_eq_ok.mp accepted
  have keeps := parseTerm_keeps endLine room scope ts inner line
  dsimp only at done
  split at done
  · rename_i operand found
    cases done
    obtain ⟨adds, uses⟩ := withFields_same found
    refine ⟨adds ▸ keeps.after, fun reach names use member => keeps.inScope reach names use ?_⟩
    exact uses line reach ▸ member
  · cases done
termination_by (ts.length, 1)

theorem parseOperands_keeps (endLine room bound : Nat) (before : List Operand) (scope : Scope)
    (ts : List Token) (less : ts.length < bound) {p : Parsed (List Operand) bound}
    (accepted : parseOperands endLine room bound before scope ts less = .ok p) (line : Nat) :
    Collects scope p.scope before p.value operandsAdds (operandsUses line) := by
  rw [parseOperands] at accepted
  split at accepted
  · cases accepted
    exact .nil (.nothing scope)
  · obtain ⟨first, inner, done⟩ := bind_eq_ok.mp accepted
    have head := parseOperand_keeps endLine room scope ts inner line
    have shorter := first.shorter
    exact (parseOperands_keeps endLine room bound _ _ _ _ done line).cons fun _ => head.next
termination_by (ts.length, 2)

theorem parseCommand_keeps (endLine room : Nat) (scope : Scope) (ts : List Token)
    {p : Parsed Command ts.length} (accepted : parseCommand endLine room scope ts = .ok p) :
    Keeps scope p.scope p.value.adds p.value.uses := by
  rw [parseCommand] at accepted
  split at accepted
  · cases accepted
  · obtain ⟨first, inner, done⟩ := bind_eq_ok.mp accepted
    obtain ⟨q, rest, done⟩ := bind_eq_ok.mp done
    have head := parseOperand_keeps endLine room scope ts inner
    have shorter := first.shorter
    have tail := parseOperands_keeps endLine room _ _ _ _ _ rest
    have whole (line : Nat) :
        Keeps scope q.scope (operandsAdds q.value) (operandsUses line · q.value) :=
      ((tail line).cons fun _ => (head line).next).keeps
    have command : ∀ line, Keeps scope q.scope (Command.mk line q.value).adds
        (Command.mk line q.value).uses := fun line =>
      ⟨names_command_adds line q.value ▸ (whole line).after, (whole line).inScope⟩
    split at done
    · rename_i operand found
      rw [found] at command
      split at done
      · cases done
      · cases done
        exact command _
    · cases done
      exact command _
termination_by (ts.length, 3)

theorem parseCommands_keeps (endLine room : Nat) (place : Place) (bound : Nat)
    (before : List Command) (scope : Scope) (ts : List Token) (le : ts.length ≤ bound)
    {p : Parsed (List Command) bound}
    (accepted : parseCommands endLine room place bound before scope ts le = .ok p) :
    Collects scope p.scope before p.value commandsAdds commandsUses := by
  by_cases closes : nextLexeme ts = some (closer place)
  · obtain ⟨l, s, r, rfl⟩ := nextLexeme_sound closes
    rw [parseCommands_closer] at accepted
    cases accepted
    exact .nil (.nothing scope)
  · rw [parseCommands_next closes] at accepted
    split at accepted
    · cases accepted
    · obtain ⟨first, inner, done⟩ := bind_eq_ok.mp accepted
      obtain ⟨later, -, done⟩ := bind_eq_ok.mp done
      have head := parseCommand_keeps endLine room scope ts inner
      have shorter := later.property.trans_lt first.shorter
      exact (parseCommands_keeps endLine room place bound _ _ _ _ done).cons fun _ => head.next
termination_by (ts.length, 4)

theorem parsePipeline_keeps (endLine room : Nat) (place : Place) (scope : Scope) (ts : List Token)
    {p : Parsed Pipeline ts.length} (accepted : parsePipeline endLine room place scope ts = .ok p) :
    Keeps scope p.scope p.value.adds p.value.uses ∧ p.value.names.length ≤ 2 := by
  rw [parsePipeline] at accepted
  obtain ⟨binding, bound, done⟩ := bind_eq_ok.mp accepted
  obtain ⟨q, inner, done⟩ := bind_eq_ok.mp done
  obtain ⟨named, few⟩ := parseBinding_scope bound
  have keeps := (parseCommands_keeps endLine room place _ _ _ _ _ inner).keeps
  split at done
  · cases done
  · cases done
    refine ⟨⟨?_, fun reach names use member => ?_⟩, few⟩
    · rw [Pipeline.adds, Reach.names_append, Reach.names_sure, List.append_assoc, ← named]
      exact keeps.after
    · refine keeps.inScope (.loose (declared binding.names binding.assigns) ++ reach) ?_ use ?_
      · rw [Reach.names_append, Reach.names_loose, names, named]
      · exact member
termination_by (ts.length, 5)
decreasing_by
  all_goals simp_wf
  all_goals omega
end

theorem names_bodyReach {pipe : Pipeline} (few : pipe.names.length ≤ 2) (kind : BranchKind)
    (reach : Reach) : (bodyReach kind pipe reach).names = pipe.adds.names ++ reach.names := by
  rw [bodyReach]
  split
  · rw [elementNames_few few, Pipeline.names_adds]
    simp
  · exact Reach.names_append pipe.adds reach

theorem names_elseReach (kind : BranchKind) (pipe : Pipeline) (body : List Node) (reach : Reach) :
    (elseReach kind pipe body reach).names =
      (nodesAdds body).names ++ (pipe.adds.names ++ reach.names) := by
  rw [elseReach, Reach.names_append, Reach.names_loosened]
  split
  · rw [Pipeline.names_adds]
    simp
  · rw [Reach.names_append]

theorem leave_append (scope : Scope) (inner : List String) :
    scope.leave (inner ++ scope) = scope := by
  simp [Scope.leave]

theorem branch_keeps {scope header inner : Scope} {kind : BranchKind} {line : Nat} {pipe : Pipeline}
    {body : List Node} {otherwise : Option (List Node)} {after : List String}
    (head : Keeps scope header pipe.adds pipe.uses) (few : pipe.names.length ≤ 2)
    (main : Keeps header inner (nodesAdds body) (nodesUses · body))
    (other : ∀ reach : Reach, reach.names = inner →
      ∀ use ∈ otherwiseUses reach otherwise, use.InScope) :
    Keeps scope (scope.leave (after ++ inner)) (Node.branch kind line pipe body otherwise).adds
      (Node.branch kind line pipe body otherwise).uses := by
  refine ⟨?_, fun reach names use member => ?_⟩
  · rw [main.after, head.after, ← List.append_assoc, ← List.append_assoc]
    exact leave_append scope _
  · rcases List.mem_append.mp member with here | inside
    · exact head.inScope reach names use here
    · rcases List.mem_append.mp inside with first | last
      · refine main.inScope _ ?_ use first
        rw [names_bodyReach few, names, head.after]
      · refine other _ ?_ use last
        rw [names_elseReach, names, main.after, head.after]

def PartKeeps (scope after : Scope) : Part → Prop
  | .node node => Keeps scope after node.adds node.uses
  | .stop _ => after = scope

section Parts

variable {endLine room : Nat} {inRange : Bool} {scope : Scope} {ts : List Token}

theorem parsePlain_keeps {p : Parsed Part ts.length}
    (accepted : parsePlain endLine room scope ts = .ok p) : PartKeeps scope p.scope p.value := by
  obtain ⟨pipe, inner, done⟩ := bind_eq_ok.mp accepted
  cases done
  exact (parsePipeline_keeps endLine room .command scope ts inner).1

theorem parseAlone_keeps {part : Part} {place : Place} {p : Parsed Part (ts.length + 1)}
    (accepted : parseAlone endLine part place scope ts = .ok p)
    (keeps : PartKeeps scope scope part) : PartKeeps scope p.scope p.value := by
  obtain ⟨rest, -, done⟩ := bind_eq_ok.mp accepted
  cases done
  exact keeps

theorem parseLeaving_keeps {node : Node} {place : Place} {p : Parsed Part (ts.length + 1)}
    (accepted : parseLeaving endLine inRange node place scope ts = .ok p)
    (keeps : Keeps scope scope node.adds node.uses) : PartKeeps scope p.scope p.value := by
  rw [parseLeaving] at accepted
  split at accepted
  · exact parseAlone_keeps accepted keeps
  · cases accepted

end Parts

mutual
theorem parseNodes_keeps (endLine room : Nat) (inRange : Bool) (bound : Nat) :
    (before : List Node) → (scope : Scope) → (ts : List Token) → (less : ts.length < bound) →
    (p : Parsed (List Node × Stop) bound) →
    parseNodes endLine room inRange bound before scope ts less = .ok p →
    Collects scope p.scope before p.value.1 nodesAdds nodesUses
  | before, scope, [], less, p, accepted => by
    rw [parseNodes] at accepted
    cases accepted
    exact .nil (.nothing scope)
  | before, scope, t :: r, less, p, accepted => by
    rw [parseNodes.eq_def] at accepted
    dsimp only at accepted
    split at accepted
    · rename_i bytes text
      have tail := parseNodes_keeps endLine room inRange bound _ _ _ _ p accepted
      exact tail.cons fun _ => (Keeps.nothing scope).next
    · obtain ⟨q, inner, done⟩ := bind_eq_ok.mp accepted
      have part := parseAction_keeps endLine room inRange t.line scope r inner
      have shorter := q.shorter
      split at done
      · rename_i node found
        rw [found] at part
        have tail := parseNodes_keeps endLine room inRange bound _ _ _ _ p done
        exact tail.cons fun _ => Keeps.next part
      · rename_i stop found
        rw [found] at part
        cases done
        cases part
        exact .nil (.nothing _)
    · cases accepted
termination_by _ _ ts _ _ _ => (ts.length, 3)

theorem parseAction_keeps (endLine room : Nat) (inRange : Bool) (line : Nat) (scope : Scope)
    (ts : List Token) {p : Parsed Part ts.length}
    (accepted : parseAction endLine room inRange line scope ts = .ok p) :
    PartKeeps scope p.scope p.value := by
  rcases headWord?_cases ts with wordless | ⟨word, l, s, r, rfl⟩
  · rw [parseAction_wordless wordless] at accepted
    exact parsePlain_keeps accepted
  · rw [parseAction_word] at accepted
    split at accepted
    · obtain ⟨q, inner, done⟩ := bind_eq_ok.mp accepted
      cases done
      exact parseBranch_keeps endLine room inRange _ line scope r inner
    · split at accepted
      · exact parseAlone_keeps accepted rfl
      · cases accepted
        rfl
      · exact parseLeaving_keeps accepted (.nothing scope)
      · exact parseLeaving_keeps accepted (.nothing scope)
      · split at accepted
        · cases accepted
        · exact parsePlain_keeps accepted
termination_by (ts.length, 1)

theorem parseBranch_keeps (endLine room : Nat) (inRange : Bool) (kind : BranchKind) (line : Nat)
    (scope : Scope) (ts : List Token) {p : Parsed Node ts.length}
    (accepted : parseBranch endLine room inRange kind line scope ts = .ok p) :
    Keeps scope p.scope p.value.adds p.value.uses := by
  cases room with
  | zero =>
    rw [parseBranch] at accepted
    cases accepted
  | succ room =>
    rw [parseBranch] at accepted
    obtain ⟨header, inner, done⟩ := bind_eq_ok.mp accepted
    obtain ⟨head, few⟩ := parsePipeline_keeps endLine room kind.header scope ts inner
    have shorter := header.shorter
    obtain ⟨body, inside, done⟩ := bind_eq_ok.mp done
    have main := (parseNodes_keeps endLine room _ _ _ _ _ _ _ inside).keeps
    have shorter := body.shorter
    split at done
    · cases done
    · cases done
      have none : ∀ reach : Reach, reach.names = body.scope →
          ∀ use ∈ otherwiseUses reach none, use.InScope := fun _ _ _ member => by cases member
      show Keeps scope (scope.leave ([] ++ body.scope)) _ _
      exact branch_keeps head few main none
    · obtain ⟨otherwise, last, done⟩ := bind_eq_ok.mp done
      have other := parseElse_keeps endLine room inRange kind _ _ last
      cases done
      rw [other.after]
      exact branch_keeps head few main other.inScope
termination_by (ts.length, 0)

theorem parseElse_keeps (endLine room : Nat) (inRange : Bool) (kind : BranchKind) (scope : Scope)
    (ts : List Token) {p : Parsed (List Node) ts.length}
    (accepted : parseElse endLine room inRange kind scope ts = .ok p) :
    Keeps scope p.scope (nodesAdds p.value) (nodesUses · p.value) := by
  rcases chained_or_apart kind ts with ⟨word, l, s, r, rfl, chained⟩ | apart
  · rw [parseElse_chain chained] at accepted
    obtain ⟨branch, inner, done⟩ := bind_eq_ok.mp accepted
    have keeps := parseBranch_keeps endLine room inRange kind l scope r inner
    cases done
    exact keeps.next (.nothing branch.scope)
  · rw [parseElse_apart apart] at accepted
    exact parseElseList_keeps endLine room inRange kind scope ts accepted
termination_by (ts.length, 2)

theorem parseElseList_keeps (endLine room : Nat) (inRange : Bool) (kind : BranchKind)
    (scope : Scope) (ts : List Token) {p : Parsed (List Node) ts.length}
    (accepted : parseElseList endLine room inRange kind scope ts = .ok p) :
    Keeps scope p.scope (nodesAdds p.value) (nodesUses · p.value) := by
  obtain ⟨⟨rest, shorter⟩, -, done⟩ := bind_eq_ok.mp accepted
  obtain ⟨⟨⟨nodes, stop⟩, after, left, less⟩, inner, done⟩ := bind_eq_ok.mp done
  have keeps := (parseNodes_keeps endLine room inRange _ _ _ _ _ _ inner).keeps
  cases stop with
  | endMark =>
    cases done
    exact keeps
  | elseMark => cases done
  | endOfInput => cases done
termination_by (ts.length, 0)
end

theorem parse_inScope {endLine : Nat} {ts : List Token} {nodes : List Node}
    (accepted : parse endLine ts = .ok nodes) :
    ∀ use ∈ nodesUses (.sure ["$"]) nodes, use.InScope := by
  rw [parse] at accepted
  obtain ⟨p, inner, done⟩ := bind_eq_ok.mp accepted
  have keeps := (parseNodes_keeps endLine maxDepth false _ _ _ _ _ _ inner).keeps
  split at done
  · cases done
    exact keeps.inScope (.sure ["$"]) rfl
  · cases done
  · cases done

end PagePress.Template
