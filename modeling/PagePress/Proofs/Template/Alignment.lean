import PagePress.Proofs.Template.Completeness
import PagePress.Proofs.Template.Silence
import PagePress.Proofs.Template.Soundness

namespace PagePress.Template

-- Where a token stands: outside of actions, first in one, or further inside.
inductive Spot where
  | between
  | opening
  | inside

def Spot.behind (spot : Spot) (lexeme : Lexeme) : Spot :=
  match lexeme, spot with
  | .openAction, _ => .opening
  | .closeAction, _ => .between
  | _, .between => .between
  | _, _ => .inside

-- A silent action may be more on the right where the lists are muted.
inductive Aligned (mutes : Bool) : Spot → List Token → List Token → Prop
  | nil {spot : Spot} : Aligned mutes spot [] []
  | cons {spot : Spot} {lexeme : Lexeme} {l l' : Nat} {s s' : Bool} {ts ts' : List Token}
      (spaced : spot = .inside → s' = s) (later : Aligned mutes (spot.behind lexeme) ts ts') :
      Aligned mutes spot (⟨lexeme, l, s⟩ :: ts) (⟨lexeme, l', s'⟩ :: ts')
  | silent {l₁ l₂ l₃ : Nat} {s₁ s₂ s₃ : Bool} {ts ts' : List Token} (muted : mutes = true)
      (later : Aligned mutes .between ts ts') :
      Aligned mutes .between ts
        (⟨.openAction, l₁, s₁⟩ :: ⟨.str "", l₂, s₂⟩ :: ⟨.closeAction, l₃, s₃⟩ :: ts')

inductive Agree {α β : Type} (related : α → β → Prop) :
    Except ParseError α → Except ParseError β → Prop
  | ok {a : α} {b : β} (given : related a b) : Agree related (.ok a) (.ok b)
  | error {l l' : Nat} {fault : ParseFault} :
      Agree related (.error ⟨l, fault⟩) (.error ⟨l', fault⟩)

theorem Agree.bind {α β γ δ : Type} {related : α → β → Prop} {final : γ → δ → Prop}
    {step : Except ParseError α} {step' : Except ParseError β} {next : α → Except ParseError γ}
    {next' : β → Except ParseError δ} (first : Agree related step step')
    (later : ∀ a b, related a b → Agree final (next a) (next' b)) :
    Agree final (step >>= next) (step' >>= next') := by
  cases first with
  | ok given => exact later _ _ given
  | error => exact .error

structure LeftAlike {α : Type} (mutes : Bool) (spot : α → Spot) (same : α → α → Prop) {n m : Nat}
    (p : Parsed α n) (q : Parsed α m) : Prop where
  value : same p.value q.value
  scope : q.scope = p.scope
  rest : Aligned mutes (spot p.value) p.rest q.rest

section Pipelines

variable {mutes : Bool} {spot : Spot} {ts ts' : List Token}

theorem inside_within : Spot.inside ≠ .between := nofun

theorem Aligned.nil_left (within : spot ≠ .between) (aligned : Aligned mutes spot [] ts') :
    ts' = [] := by
  cases aligned with
  | nil => rfl
  | silent => exact (within rfl).elim

theorem behind_within (within : spot ≠ .between) (lexeme : Lexeme) :
    spot.behind lexeme = Spot.inside.behind lexeme := by
  cases spot with
  | between => exact (within rfl).elim
  | opening => cases lexeme <;> rfl
  | inside => rfl

theorem Aligned.head {t : Token} (within : spot ≠ .between)
    (aligned : Aligned mutes spot (t :: ts) ts') :
    ∃ l' s' rest', ts' = ⟨t.lexeme, l', s'⟩ :: rest' ∧ (spot = .inside → s' = t.spaced) ∧
      Aligned mutes (Spot.inside.behind t.lexeme) ts rest' := by
  cases aligned with
  | cons spaced later => exact ⟨_, _, _, rfl, spaced, behind_within within _ ▸ later⟩
  | silent => exact (within rfl).elim

theorem nextLexeme_aligned (within : spot ≠ .between) (aligned : Aligned mutes spot ts ts') :
    nextLexeme ts' = nextLexeme ts := by
  cases ts with
  | nil => rw [aligned.nil_left within]
  | cons t rest =>
    obtain ⟨l', s', rest', rfl, -, -⟩ := aligned.head within
    rfl

theorem endsCommand_aligned (within : spot ≠ .between) (aligned : Aligned mutes spot ts ts') :
    endsCommand ts' = endsCommand ts := by
  rw [endsCommand, endsCommand, nextLexeme_aligned within aligned]

theorem takeFields_aligned (aligned : Aligned mutes .inside ts ts') :
    (takeFields ts').1 = (takeFields ts).1 ∧
      Aligned mutes .inside (takeFields ts).2 (takeFields ts').2 := by
  induction ts generalizing ts' with
  | nil =>
    rw [aligned.nil_left inside_within]
    exact ⟨rfl, .nil⟩
  | cons t rest ih =>
    obtain ⟨l', s', rest', rfl, spaced, later⟩ := aligned.head inside_within
    obtain rfl := spaced rfl
    rw [takeFields, takeFields]
    dsimp only
    split
    · rename_i name isField joined
      rw [isField] at later
      obtain ⟨fields, behind⟩ := ih later
      exact ⟨congrArg (name :: ·) fields, behind⟩
    · exact ⟨rfl, aligned⟩

theorem secondName_aligned (first : String) {l₁ l₂ l₃ l₄ : Nat} {s₁ s₂ s₃ s₄ : Bool}
    (aligned : Aligned mutes .inside ts ts') :
    let before := fun r => ⟨.var first, l₁, s₁⟩ :: ⟨.comma, l₂, s₂⟩ :: r
    let before' := fun r => ⟨.var first, l₃, s₃⟩ :: ⟨.comma, l₄, s₄⟩ :: r
    namesAt .rangeHeader (before' ts') = namesAt .rangeHeader (before ts) ∧
      ∀ names assigns width, namesAt .rangeHeader (before ts) = .ok (names, assigns, width) →
        Aligned mutes .inside ((before ts).drop width) ((before' ts').drop width) := by
  intro before before'
  cases ts with
  | nil =>
    rw [aligned.nil_left inside_within]
    exact ⟨rfl, nofun⟩
  | cons t rest =>
    obtain ⟨l, s, others, rfl, -, later⟩ := aligned.head inside_within
    obtain ⟨lexeme, _, _⟩ := t
    cases lexeme with
    | var second =>
      cases rest with
      | nil =>
        obtain rfl := later.nil_left inside_within
        exact ⟨rfl, nofun⟩
      | cons t rest =>
        obtain ⟨l, s, rest', rfl, -, behind⟩ := later.head inside_within
        obtain ⟨lexeme, _, _⟩ := t
        cases lexeme with
        | declare =>
          refine ⟨rfl, fun names assigns width found => ?_⟩
          cases found
          exact behind
        | assign =>
          refine ⟨rfl, fun names assigns width found => ?_⟩
          cases found
          exact behind
        | _ => exact ⟨rfl, nofun⟩
    | _ => exact ⟨rfl, nofun⟩

theorem namesAt_aligned (place : Place) (within : spot ≠ .between)
    (aligned : Aligned mutes spot ts ts') :
    namesAt place ts' = namesAt place ts ∧
      ∀ names assigns width, namesAt place ts = .ok (names, assigns, width) →
        ∃ spot, spot ≠ .between ∧ Aligned mutes spot (ts.drop width) (ts'.drop width) := by
  have plain (none : namesAt place ts = .ok ([], false, 0))
      (none' : namesAt place ts' = .ok ([], false, 0)) :
      namesAt place ts' = namesAt place ts ∧
        ∀ names assigns width, namesAt place ts = .ok (names, assigns, width) →
          ∃ spot, spot ≠ .between ∧ Aligned mutes spot (ts.drop width) (ts'.drop width) := by
    refine ⟨none'.trans none.symm, fun names assigns width found => ?_⟩
    cases none.symm.trans found
    exact ⟨spot, within, aligned⟩
  cases ts with
  | nil =>
    obtain rfl := aligned.nil_left within
    exact plain rfl rfl
  | cons t rest =>
    obtain ⟨l, s, rest', rfl, -, later⟩ := aligned.head within
    obtain ⟨lexeme, _, _⟩ := t
    cases lexeme with
    | var first =>
      cases rest with
      | nil =>
        obtain rfl := later.nil_left inside_within
        exact plain rfl rfl
      | cons t rest =>
        obtain ⟨l, s, rest', rfl, -, behind⟩ := later.head inside_within
        obtain ⟨lexeme, _, _⟩ := t
        cases lexeme with
        | declare =>
          refine ⟨rfl, fun names assigns width found => ?_⟩
          cases found
          exact ⟨.inside, inside_within, behind⟩
        | assign =>
          refine ⟨rfl, fun names assigns width found => ?_⟩
          cases found
          exact ⟨.inside, inside_within, behind⟩
        | comma =>
          cases place with
          | rangeHeader =>
            obtain ⟨same, split⟩ := secondName_aligned first behind
            exact ⟨same, fun _ _ _ found => ⟨.inside, inside_within, split _ _ _ found⟩⟩
          | _ => exact ⟨rfl, nofun⟩
        | _ => exact plain rfl rfl
    | _ => exact plain rfl rfl

theorem parseBinding_aligned (endLine endLine' : Nat) (place : Place) (scope : Scope)
    (within : spot ≠ .between) (aligned : Aligned mutes spot ts ts') :
    Agree (fun binding binding' => binding = binding' ∧
        ∃ spot, spot ≠ .between ∧
          Aligned mutes spot (ts.drop binding.width) (ts'.drop binding.width))
      (parseBinding endLine place scope ts) (parseBinding endLine' place scope ts') := by
  obtain ⟨same, split⟩ := namesAt_aligned place within aligned
  rw [parseBinding, parseBinding, same]
  cases found : namesAt place ts with
  | error fault => exact .error
  | ok p =>
    obtain ⟨names, assigns, width⟩ := p
    dsimp only
    cases names.foldlM (bindName · assigns ·) scope with
    | error fault => exact .error
    | ok scope => exact .ok ⟨rfl, split _ _ _ found⟩

theorem afterCommand_aligned (endLine endLine' : Nat) (place : Place)
    (aligned : Aligned mutes .inside ts ts') :
    Agree (fun next next' => Aligned mutes .inside next.val next'.val)
      (afterCommand endLine place ts) (afterCommand endLine' place ts') := by
  cases ts with
  | nil =>
    obtain rfl := aligned.nil_left inside_within
    exact .error
  | cons t rest =>
    obtain ⟨l', s', rest', rfl, -, later⟩ := aligned.head inside_within
    rw [afterCommand, afterCommand]
    dsimp only
    split
    · rename_i isPipe
      rw [isPipe] at later
      rw [nextLexeme_aligned inside_within later]
      split
      · exact .error
      · exact .ok later
    · exact .ok aligned

theorem simpleTerm_inside {scope : Scope} {lexeme : Lexeme} {term : Operand}
    (read : simpleTerm scope lexeme = .ok term) : Spot.inside.behind lexeme = .inside := by
  cases lexeme with
  | openAction => cases read
  | closeAction => cases read
  | _ => rfl

theorem operandsUnlined_map (operands : List Operand) :
    operandsUnlined operands = operands.map Operand.unlined := by
  induction operands with
  | nil => rfl
  | cons operand rest ih => rw [operandsUnlined, ih, List.map_cons]

theorem commandsUnlined_map (commands : List Command) :
    commandsUnlined commands = commands.map Command.unlined := by
  induction commands with
  | nil => rfl
  | cons command rest ih => rw [commandsUnlined, ih, List.map_cons]

theorem withFields?_unlined {term term' : Operand} (same : term.unlined = term'.unlined)
    (path : List String) :
    (withFields? term path).map Operand.unlined = (withFields? term' path).map Operand.unlined := by
  cases path with
  | nil => exact congrArg some same
  | cons name path =>
    cases term with
    | field before =>
      cases term' with
      | field before' =>
        cases same
        rfl
      | _ => cases same
    | var name before =>
      cases term' with
      | var name' before' =>
        cases same
        rfl
      | _ => cases same
    | group pipe =>
      cases term' with
      | group pipe' => exact congrArg (fun inner => some (Operand.chain inner (name :: path))) same
      | _ => cases same
    | chain inner before =>
      cases term' with
      | chain inner' before' =>
        exact congrArg (fun inner => some (Operand.chain inner (name :: path))) same
      | _ => cases same
    | dot | function | literal =>
      cases term' <;> cases same
      rfl

theorem isNil_unlined {operand operand' : Operand} (same : operand.unlined = operand'.unlined) :
    isNil operand' = isNil operand := by
  have alike (operand : Operand) : isNil operand.unlined = isNil operand := by
    cases operand <;> rfl
  rw [← alike operand', ← same, alike]

mutual
theorem parseTerm_aligned (endLine endLine' room : Nat) (scope : Scope) {spot : Spot}
    (ts ts' : List Token) (within : spot ≠ .between) (aligned : Aligned mutes spot ts ts') :
    Agree (LeftAlike mutes (fun _ => .inside) (·.unlined = ·.unlined))
      (parseTerm endLine room scope ts) (parseTerm endLine' room scope ts') := by
  cases ts with
  | nil =>
    obtain rfl := aligned.nil_left within
    rw [parseTerm, parseTerm]
    exact .error
  | cons t rest =>
    obtain ⟨l', s', rest', rfl, -, later⟩ := aligned.head within
    rw [parseTerm.eq_def, parseTerm.eq_def]
    dsimp only
    split
    · rename_i opens
      rw [opens] at later
      cases room with
      | zero => exact .error
      | succ room =>
        refine .bind (parsePipeline_aligned endLine endLine' room .parentheses scope rest rest'
          inside_within later) fun p q alike => .ok ⟨?_, alike.scope, alike.rest⟩
        exact congrArg Operand.group alike.value
    · cases read : simpleTerm scope t.lexeme with
      | error fault => exact .error
      | ok term =>
        rw [simpleTerm_inside read] at later
        exact .ok ⟨rfl, rfl, later⟩
termination_by (ts.length, 0)

theorem parseOperand_aligned (endLine endLine' room : Nat) (scope : Scope) {spot : Spot}
    (ts ts' : List Token) (within : spot ≠ .between) (aligned : Aligned mutes spot ts ts') :
    Agree (LeftAlike mutes (fun _ => .inside) (·.unlined = ·.unlined))
      (parseOperand endLine room scope ts) (parseOperand endLine' room scope ts') := by
  rw [parseOperand, parseOperand]
  refine .bind (parseTerm_aligned endLine endLine' room scope ts ts' within aligned)
    fun p q alike => ?_
  obtain ⟨fields, behind⟩ := takeFields_aligned alike.rest
  have made := withFields?_unlined alike.value (takeFields p.rest).1
  dsimp only
  rw [fields]
  cases one : withFields? p.value (takeFields p.rest).1 with
  | none =>
    rw [one] at made
    rw [Option.map_eq_none_iff.mp made.symm]
    exact .error
  | some operand =>
    rw [one] at made
    obtain ⟨operand', two, same⟩ := Option.map_eq_some_iff.mp made.symm
    rw [two]
    exact .ok ⟨same.symm, alike.scope, behind⟩
termination_by (ts.length, 1)

theorem parseOperands_aligned (endLine endLine' room : Nat) {bound bound' : Nat}
    {before before' : List Operand} (scope : Scope) (ts ts' : List Token)
    (aligned : Aligned mutes .inside ts ts')
    (earlier : before.map Operand.unlined = before'.map Operand.unlined)
    (less : ts.length < bound) (less' : ts'.length < bound') :
    Agree (LeftAlike mutes (fun _ => .inside) (·.map Operand.unlined = ·.map Operand.unlined))
      (parseOperands endLine room bound before scope ts less)
      (parseOperands endLine' room bound' before' scope ts' less') := by
  rw [parseOperands, parseOperands, endsCommand_aligned inside_within aligned]
  split
  · refine .ok ⟨?_, rfl, aligned⟩
    rw [List.map_reverse, earlier, ← List.map_reverse]
  · refine .bind (parseOperand_aligned endLine endLine' room scope ts ts' inside_within aligned)
      fun p q alike => ?_
    have shorter := p.shorter
    have longer : (p.value :: before).map Operand.unlined =
        (q.value :: before').map Operand.unlined := by
      rw [List.map_cons, alike.value, earlier, List.map_cons]
    rw [alike.scope]
    exact parseOperands_aligned endLine endLine' room p.scope p.rest q.rest alike.rest longer _ _
termination_by (ts.length, 2)

theorem parseCommand_aligned (endLine endLine' room : Nat) (scope : Scope) {spot : Spot}
    (ts ts' : List Token) (within : spot ≠ .between) (aligned : Aligned mutes spot ts ts') :
    Agree (LeftAlike mutes (fun _ => .inside) (·.unlined = ·.unlined))
      (parseCommand endLine room scope ts) (parseCommand endLine' room scope ts') := by
  rw [parseCommand, parseCommand, endsCommand_aligned within aligned]
  split
  · exact .error
  · refine .bind (parseOperand_aligned endLine endLine' room scope ts ts' within aligned)
      fun first first' alike => ?_
    have shorter := first.shorter
    have alone : [first.value].map Operand.unlined = [first'.value].map Operand.unlined := by
      rw [List.map_singleton, alike.value, List.map_singleton]
    rw [alike.scope]
    refine .bind (parseOperands_aligned endLine endLine' room first.scope first.rest first'.rest
      alike.rest alone _ _) fun p q others => ?_
    obtain ⟨operands, scope, rest, _⟩ := p
    obtain ⟨operands', scope', rest', _⟩ := q
    obtain ⟨same, rfl, behind⟩ := others
    dsimp only at same
    have made : (Command.mk (lineAt endLine ts) operands).unlined =
        (Command.mk (lineAt endLine' ts') operands').unlined := by
      rw [Command.unlined, operandsUnlined_map, same, ← operandsUnlined_map, Command.unlined]
    rcases operands with _ | ⟨operand, _ | ⟨second, others⟩⟩
    · obtain rfl : operands' = [] := List.map_eq_nil_iff.mp same.symm
      exact .ok ⟨made, rfl, behind⟩
    · obtain ⟨operand', _, rfl, one, none⟩ := List.map_eq_cons_iff.mp same.symm
      obtain rfl := List.map_eq_nil_iff.mp none
      dsimp only
      rw [isNil_unlined one.symm]
      split
      · exact .error
      · exact .ok ⟨made, rfl, behind⟩
    · obtain ⟨operand', _, rfl, -, more⟩ := List.map_eq_cons_iff.mp same.symm
      obtain ⟨second', others', rfl, -, -⟩ := List.map_eq_cons_iff.mp more
      exact .ok ⟨made, rfl, behind⟩
termination_by (ts.length, 3)

theorem parseCommands_aligned (endLine endLine' room : Nat) (place : Place) {bound bound' : Nat}
    {before before' : List Command} (scope : Scope) {spot : Spot} (ts ts' : List Token)
    (within : spot ≠ .between) (aligned : Aligned mutes spot ts ts')
    (earlier : before.map Command.unlined = before'.map Command.unlined)
    (le : ts.length ≤ bound) (le' : ts'.length ≤ bound') :
    Agree (LeftAlike mutes (fun _ => Spot.inside.behind (closer place))
        (·.map Command.unlined = ·.map Command.unlined))
      (parseCommands endLine room place bound before scope ts le)
      (parseCommands endLine' room place bound' before' scope ts' le') := by
  have next := nextLexeme_aligned within aligned
  by_cases closes : nextLexeme ts = some (closer place)
  · obtain ⟨l, s, r, rfl⟩ := nextLexeme_sound closes
    obtain ⟨l', s', r', rfl, -, later⟩ := aligned.head within
    rw [parseCommands_closer, parseCommands_closer]
    refine .ok ⟨?_, rfl, later⟩
    rw [List.map_reverse, earlier, ← List.map_reverse]
  · rw [parseCommands_next closes, parseCommands_next (next ▸ closes), next]
    split
    · exact .error
    · refine .bind (parseCommand_aligned endLine endLine' room scope ts ts' within aligned)
        fun p q alike => ?_
      refine .bind (afterCommand_aligned endLine endLine' place alike.rest)
        fun rest rest' behind => ?_
      have shorter := rest.property.trans_lt p.shorter
      have longer : (p.value :: before).map Command.unlined =
          (q.value :: before').map Command.unlined := by
        rw [List.map_cons, alike.value, earlier, List.map_cons]
      rw [alike.scope]
      exact parseCommands_aligned endLine endLine' room place p.scope rest.val rest'.val
        inside_within behind longer _ _
termination_by (ts.length, 4)

theorem parsePipeline_aligned (endLine endLine' room : Nat) (place : Place) (scope : Scope)
    {spot : Spot} (ts ts' : List Token) (within : spot ≠ .between)
    (aligned : Aligned mutes spot ts ts') :
    Agree (LeftAlike mutes (fun _ => Spot.inside.behind (closer place)) (·.unlined = ·.unlined))
      (parsePipeline endLine room place scope ts)
      (parsePipeline endLine' room place scope ts') := by
  rw [parsePipeline, parsePipeline]
  refine .bind (parseBinding_aligned endLine endLine' place scope within aligned)
    fun binding binding' given => ?_
  obtain ⟨rfl, spot, within, behind⟩ := given
  refine .bind (parseCommands_aligned endLine endLine' room place binding.scope _ _ within behind
    rfl _ _) fun p q alike => ?_
  have same := alike.value
  have empty : q.value.isEmpty = p.value.isEmpty := by
    rw [← List.isEmpty_map, ← same, List.isEmpty_map]
  rw [empty]
  split
  · exact .error
  · refine .ok ⟨?_, alike.scope, alike.rest⟩
    dsimp only
    rw [Pipeline.unlined, commandsUnlined_map, same, ← commandsUnlined_map, Pipeline.unlined]
termination_by (ts.length, 5)
decreasing_by
  simp_wf
  omega
end

end Pipelines

section Nodes

def Stop.spot : Stop → Spot
  | .endOfInput | .endMark => .between
  | .elseMark => .inside

def Part.spot : Part → Spot
  | .node _ => .between
  | .stop found => found.spot

variable {mutes : Bool} {spot : Spot} {ts ts' : List Token}

inductive SamePart (mutes : Bool) : Part → Part → Prop
  | node {node node' : Node} (same : nodesPruned mutes [node] = nodesPruned mutes [node']) :
    SamePart mutes (.node node) (.node node')
  | stop {stop : Stop} : SamePart mutes (.stop stop) (.stop stop)

theorem pruned_action {pipe pipe' : Pipeline} (same : pipe.unlined = pipe'.unlined) :
    nodesPruned mutes [.action pipe] = nodesPruned mutes [.action pipe'] := by
  have silent : pipe.isSilent = pipe'.isSilent := by
    rw [← pipe.silent_unlined, same, pipe'.silent_unlined]
  rw [nodesPruned_cons, nodesPruned_cons, Node.isSilent, silent, Node.pruned, same]
  rfl

theorem pruned_branch (kind : BranchKind) (line : Nat) (pipe : Pipeline) (body : List Node)
    (otherwise : Option (List Node)) :
    nodesPruned mutes [.branch kind line pipe body otherwise] =
      [.branch kind 0 pipe.unlined (nodesPruned mutes body) (otherwisePruned mutes otherwise)] :=
  if_neg (by simp [Node.isSilent])

theorem headWord_aligned (within : spot ≠ .between) (aligned : Aligned mutes spot ts ts') :
    headWord? ts' = headWord? ts := by
  rw [headWord?, headWord?, nextLexeme_aligned within aligned]

theorem expectClose_aligned (endLine endLine' : Nat) (place : Place)
    (aligned : Aligned mutes .inside ts ts') :
    Agree (fun rest rest' => Aligned mutes .between rest.val rest'.val)
      (expectClose endLine place ts) (expectClose endLine' place ts') := by
  cases ts with
  | nil =>
    obtain rfl := aligned.nil_left inside_within
    exact .error
  | cons t rest =>
    obtain ⟨l', s', rest', rfl, -, later⟩ := aligned.head inside_within
    rw [expectClose, expectClose]
    dsimp only
    split
    · rename_i closes
      rw [closes] at later
      exact .ok later
    · exact .error

theorem parsePlain_aligned (endLine endLine' room : Nat) (scope : Scope) (within : spot ≠ .between)
    (aligned : Aligned mutes spot ts ts') :
    Agree (LeftAlike mutes Part.spot (SamePart mutes)) (parsePlain endLine room scope ts)
      (parsePlain endLine' room scope ts') :=
  .bind (parsePipeline_aligned endLine endLine' room .command scope ts ts' within aligned)
    fun _ _ alike => .ok ⟨.node (pruned_action alike.value), alike.scope, alike.rest⟩

theorem parseAlone_aligned (endLine endLine' : Nat) {part : Part} (place : Place) (scope : Scope)
    (same : SamePart mutes part part) (outside : part.spot = .between)
    (aligned : Aligned mutes .inside ts ts') :
    Agree (LeftAlike mutes Part.spot (SamePart mutes)) (parseAlone endLine part place scope ts)
      (parseAlone endLine' part place scope ts') := by
  refine .bind (expectClose_aligned endLine endLine' place aligned) fun rest rest' left => ?_
  rw [← outside] at left
  exact .ok ⟨same, rfl, left⟩

theorem parseLeaving_aligned (endLine endLine' : Nat) (inRange : Bool) (node : Node) (place : Place)
    (scope : Scope) (aligned : Aligned mutes .inside ts ts') :
    Agree (LeftAlike mutes Part.spot (SamePart mutes))
      (parseLeaving endLine inRange node place scope ts)
      (parseLeaving endLine' inRange node place scope ts') := by
  rw [parseLeaving, parseLeaving]
  split
  · exact parseAlone_aligned endLine endLine' place scope (.node rfl) rfl aligned
  · exact .error

theorem parseAction_silent (endLine room line l l' : Nat) (inRange s s' : Bool) (scope : Scope)
    (rest : List Token) :
    Yields (parseAction endLine room inRange line scope
        (⟨.str "", l, s⟩ :: ⟨.closeAction, l', s'⟩ :: rest))
      (fun part => ∃ node, nodesPruned true [node] = [] ∧ part = .node node) scope rest := by
  have apart : ¬Glued [] := by
    intro glued
    obtain ⟨t, member, -⟩ := glued
    cases member
  have spelled : SpellsNode (.action .silent)
      [⟨.openAction, 0, false⟩, ⟨.str "", l, s⟩, ⟨.closeAction, l', s'⟩] :=
    .action (.mk .none (.last (.cons (.literal .str) apart .nil)))
  have fits : Node.WellFormed room inRange scope (.action .silent) := by
    refine ⟨Nat.zero_le _, nofun, List.cons_ne_nil _ _, ⟨List.cons_ne_nil _ _, ?_, ?_⟩, trivial⟩
    · intro null
      cases null
    · exact ⟨trivial, trivial⟩
  refine (parseAction_spelled endLine room inRange line 0 false scope _ rest rfl spelled fits).imp
    fun part found => ?_
  obtain ⟨read, same, rfl⟩ := found
  cases read with
  | action pipe =>
    refine ⟨_, ?_, rfl⟩
    exact pruned_action (Node.action.inj same)
  | _ => cases same

theorem parseNodes_silent (endLine room : Nat) (inRange : Bool) {bound l₁ l₂ l₃ : Nat}
    {s₁ s₂ s₃ : Bool} {before : List Node} (scope : Scope) (rest : List Token)
    (less : (⟨.openAction, l₁, s₁⟩ :: ⟨.str "", l₂, s₂⟩ :: ⟨.closeAction, l₃, s₃⟩ :: rest :
      List Token).length < bound) :
    ∃ node shorter, nodesPruned true [node] = [] ∧
      parseNodes endLine room inRange bound before scope _ less =
        parseNodes endLine room inRange bound (node :: before) scope rest shorter := by
  obtain ⟨⟨part, scope', rest', shorter⟩, read, ⟨node, none, isNode⟩, sameScope, left⟩ :=
    parseAction_silent endLine room l₁ l₂ l₃ inRange s₂ s₃ scope rest
  dsimp only at isNode sameScope left
  subst isNode sameScope left
  refine ⟨node, ?_, none, ?_⟩
  · simp only [List.length_cons] at less
    omega
  · rw [parseNodes.eq_def]
    dsimp only
    rw [read]
    rfl

mutual
theorem parseNodes_aligned (endLine endLine' room : Nat) (inRange : Bool) {bound bound' : Nat}
    {before before' : List Node} (scope : Scope) (ts ts' : List Token)
    (aligned : Aligned mutes .between ts ts')
    (earlier : nodesPruned mutes before.reverse = nodesPruned mutes before'.reverse)
    (less : ts.length < bound) (less' : ts'.length < bound') :
    Agree (LeftAlike mutes (·.2.spot)
        (fun part part' => nodesPruned mutes part.1 = nodesPruned mutes part'.1 ∧ part.2 = part'.2))
      (parseNodes endLine room inRange bound before scope ts less)
      (parseNodes endLine' room inRange bound' before' scope ts' less') := by
  have longer {node node' : Node} (same : nodesPruned mutes [node] = nodesPruned mutes [node']) :
      nodesPruned mutes (node :: before).reverse =
        nodesPruned mutes (node' :: before').reverse := by
    rw [List.reverse_cons, pruned_append, earlier, same, ← pruned_append, ← List.reverse_cons]
  cases aligned with
  | nil =>
    rw [parseNodes, parseNodes]
    exact .ok ⟨⟨earlier, rfl⟩, rfl, .nil⟩
  | @cons _ lexeme l l' s s' ts ts' spaced later =>
    rw [parseNodes.eq_def, parseNodes.eq_def]
    cases lexeme with
    | text bytes =>
      exact parseNodes_aligned endLine endLine' room inRange scope ts ts' later (longer rfl) _ _
    | openAction =>
      refine .bind (parseAction_aligned endLine endLine' room inRange l l' scope ts ts' later)
        fun p q alike => ?_
      obtain ⟨part, scope, rest, _⟩ := p
      obtain ⟨part', scope', rest', shorter⟩ := q
      obtain ⟨same, sameScope, behind⟩ := alike
      dsimp only at same sameScope behind
      subst sameScope
      cases same with
      | node same =>
        exact parseNodes_aligned endLine endLine' room inRange scope' rest rest' behind
          (longer same) _ _
      | stop => exact .ok ⟨⟨earlier, rfl⟩, rfl, behind⟩
    | _ => exact .error
  | @silent l₁ l₂ l₃ s₁ s₂ s₃ _ ts' muted later =>
    obtain ⟨node, less', none, read⟩ := parseNodes_silent endLine' room inRange scope ts' less'
    rw [← muted] at none
    rw [read]
    refine parseNodes_aligned endLine endLine' room inRange scope ts ts' later ?_ _ _
    rw [List.reverse_cons, pruned_append, none, List.append_nil, earlier]
termination_by (ts'.length, 3)
decreasing_by
  all_goals subst_vars
  all_goals simp_wf
  all_goals omega

theorem parseAction_aligned (endLine endLine' room : Nat) (inRange : Bool) (line line' : Nat)
    (scope : Scope) (ts ts' : List Token) (aligned : Aligned mutes .opening ts ts') :
    Agree (LeftAlike mutes Part.spot (SamePart mutes))
      (parseAction endLine room inRange line scope ts)
      (parseAction endLine' room inRange line' scope ts') := by
  have within : Spot.opening ≠ .between := nofun
  rcases headWord?_cases ts with wordless | ⟨word, l, s, r, rfl⟩
  · have wordless' := (headWord_aligned within aligned).trans wordless
    rw [parseAction_wordless wordless, parseAction_wordless wordless']
    exact parsePlain_aligned endLine endLine' room scope within aligned
  · obtain ⟨l', s', r', rfl, -, behind⟩ := aligned.head within
    rw [parseAction_word, parseAction_word]
    cases branchOf? word with
    | some kind =>
      refine .bind (parseBranch_aligned endLine endLine' room inRange kind line line' scope r r'
        behind) fun p q alike => ?_
      exact .ok ⟨.node alike.value, alike.scope, alike.rest⟩
    | none =>
      dsimp only
      split
      · exact parseAlone_aligned endLine endLine' .endMark scope .stop rfl behind
      · exact .ok ⟨.stop, rfl, behind⟩
      · exact parseLeaving_aligned endLine endLine' inRange .breakRange _ scope behind
      · exact parseLeaving_aligned endLine endLine' inRange .continueRange _ scope behind
      · split
        · exact .error
        · exact parsePlain_aligned endLine endLine' room scope within aligned
termination_by (ts'.length, 1)

theorem parseBranch_aligned (endLine endLine' room : Nat) (inRange : Bool) (kind : BranchKind)
    (line line' : Nat) (scope : Scope) (ts ts' : List Token)
    (aligned : Aligned mutes .inside ts ts') :
    Agree (LeftAlike mutes (fun _ => .between)
        (fun node node' => nodesPruned mutes [node] = nodesPruned mutes [node']))
      (parseBranch endLine room inRange kind line scope ts)
      (parseBranch endLine' room inRange kind line' scope ts') := by
  cases room with
  | zero =>
    rw [parseBranch, parseBranch]
    exact .error
  | succ room =>
    rw [parseBranch, parseBranch]
    refine .bind (parsePipeline_aligned endLine endLine' room kind.header scope ts ts' inside_within
      aligned) fun header header' alike => ?_
    have outside : Spot.inside.behind (closer kind.header) = .between := by cases kind <;> rfl
    have inBody := alike.rest
    rw [outside] at inBody
    have shorter := header'.shorter
    rw [alike.scope]
    refine .bind (parseNodes_aligned endLine endLine' room (inRange || kind = .rangeBranch)
      header.scope header.rest header'.rest inBody rfl _ _) fun body body' nodes => ?_
    have shorter := body'.shorter
    obtain ⟨sameNodes, sameStop⟩ := nodes.value
    have behind := nodes.rest
    dsimp only
    rw [← sameStop, nodes.scope]
    cases stopped : body.value.2 with
    | endOfInput => exact .error
    | endMark =>
      rw [stopped] at behind
      refine .ok ⟨?_, rfl, behind⟩
      rw [pruned_branch, pruned_branch, alike.value, sameNodes]
    | elseMark =>
      rw [stopped] at behind
      refine .bind (parseElse_aligned endLine endLine' room inRange kind body.scope body.rest
        body'.rest behind) fun otherwise otherwise' others => .ok ⟨?_, ?_, others.rest⟩
      · rw [pruned_branch, pruned_branch, alike.value, sameNodes, otherwisePruned, others.value]
        rfl
      · rw [others.scope]
termination_by (ts'.length, 0)

theorem parseElse_aligned (endLine endLine' room : Nat) (inRange : Bool) (kind : BranchKind)
    (scope : Scope) (ts ts' : List Token) (aligned : Aligned mutes .inside ts ts') :
    Agree (LeftAlike mutes (fun _ => .between) (nodesPruned mutes · = nodesPruned mutes ·))
      (parseElse endLine room inRange kind scope ts)
      (parseElse endLine' room inRange kind scope ts') := by
  rcases chained_or_apart kind ts with ⟨word, l, s, r, rfl, chained⟩ | apart
  · obtain ⟨l', s', r', rfl, -, behind⟩ := aligned.head inside_within
    rw [parseElse_chain chained, parseElse_chain chained]
    refine .bind (parseBranch_aligned endLine endLine' room inRange kind l l' scope r r' behind)
      fun p q alike => ?_
    exact .ok ⟨alike.value, alike.scope, alike.rest⟩
  · have apart' : ∀ word, headWord? ts' = some word → kind.chainWord? ≠ some word := by
      rw [headWord_aligned inside_within aligned]
      exact apart
    rw [parseElse_apart apart, parseElse_apart apart']
    exact parseElseList_aligned endLine endLine' room inRange kind scope ts ts' aligned
termination_by (ts'.length, 2)

theorem parseElseList_aligned (endLine endLine' room : Nat) (inRange : Bool) (kind : BranchKind)
    (scope : Scope) (ts ts' : List Token) (aligned : Aligned mutes .inside ts ts') :
    Agree (LeftAlike mutes (fun _ => .between) (nodesPruned mutes · = nodesPruned mutes ·))
      (parseElseList endLine room inRange kind scope ts)
      (parseElseList endLine' room inRange kind scope ts') := by
  refine .bind (expectClose_aligned endLine endLine' .elseMark aligned)
    fun ⟨rest, _⟩ ⟨rest', shorter⟩ left => ?_
  refine .bind (parseNodes_aligned endLine endLine' room inRange scope rest rest' left rfl _ _)
    fun ⟨⟨_, stop⟩, _, _, _⟩ ⟨⟨_, stop'⟩, _, _, _⟩ nodes => ?_
  obtain ⟨⟨sameNodes, sameStop⟩, sameScope, behind⟩ := nodes
  obtain rfl : stop = stop' := sameStop
  cases stop with
  | endOfInput => exact .error
  | elseMark => exact .error
  | endMark => exact .ok ⟨sameNodes, sameScope, behind⟩
termination_by (ts'.length, 0)
end

end Nodes

theorem parse_aligned {mutes : Bool} {ts ts' : List Token} (endLine endLine' : Nat)
    (aligned : Aligned mutes .between ts ts') :
    Agree (nodesPruned mutes · = nodesPruned mutes ·) (parse endLine ts) (parse endLine' ts') := by
  rw [parse, parse]
  refine .bind (parseNodes_aligned endLine endLine' maxDepth false ["$"] ts ts' aligned rfl _ _)
    fun p q alike => ?_
  obtain ⟨sameNodes, sameStop⟩ := alike.value
  rw [← sameStop]
  cases p.value.2 with
  | endOfInput => exact .ok sameNodes
  | endMark => exact .error
  | elseMark => exact .error

end PagePress.Template
