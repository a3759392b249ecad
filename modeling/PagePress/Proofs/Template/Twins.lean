import PagePress.Proofs.Template.Matching

namespace PagePress.Template

open Chain

def ParseFault.named? : ParseFault → Option Lexeme
  | .unexpected found => some found
  | .unexpectedIn found _ | .unexpectedOperand found => found
  | .unsupported word | .undefinedFunction word => some (.word word)
  | .undefinedVariable name => some (.var name)
  | .badNumber literal => some (.number literal)
  | _ => none

def Place.isMark (place : Place) : Bool :=
  place ∈ [.endMark, .elseMark, .breakMark, .continueMark]

def ParseFault.ahead : ParseFault → Bool
  | .unsupported _ => true
  | .unexpectedIn _ place => !place.isMark
  | _ => false

-- What is consumed behind the token: nothing, or the rest of a refused assignment.
inductive ParseFault.Skips : ParseFault → List Lexeme → Prop
  | nothing {fault : ParseFault} : Skips fault []
  | assign {name : String} : Skips (.undefinedVariable name) [.assign]
  | second {name second : String} :
    Skips (.undefinedVariable name) [.comma, .var second, .assign]

inductive Accused (fault : ParseFault) (lexeme : Lexeme) : List Token → List Token → Prop
  | ahead {used rest : List Token} {l : Nat} {s : Bool} (looks : fault.ahead = true) :
    Accused fault lexeme used (⟨lexeme, l, s⟩ :: rest)
  | behind {before skipped rest : List Token} {l : Nat} {s : Bool} (reads : fault.ahead = false)
      (skips : fault.Skips (skipped.map (·.lexeme))) :
    Accused fault lexeme (before ++ ⟨lexeme, l, s⟩ :: skipped) rest

def Accuses (fault : ParseFault) (used rest : List Token) : Prop :=
  ∀ lexeme, fault.named? = some lexeme → Accused fault lexeme used rest

def Parallel (ts ts' rest rest' : List Token) : Prop :=
  ∃ used used', ts = used ++ rest ∧ ts' = used' ++ rest' ∧ used'.length = used.length ∧
    tokensUnlined rest' = tokensUnlined rest

inductive Twin {α β : Type} (endLine endLine' : Nat) (ts ts' : List Token)
    (related : α → β → Prop) : Except ParseError α → Except ParseError β → Prop
  | ok {a : α} {b : β} (given : related a b) : Twin endLine endLine' ts ts' related (.ok a) (.ok b)
  | error {fault : ParseFault} {used used' rest rest' : List Token} (whole : ts = used ++ rest)
      (whole' : ts' = used' ++ rest') (long : used'.length = used.length)
      (accuses : Accuses fault used rest) :
      Twin endLine endLine' ts ts' related (.error ⟨lineAt endLine rest, fault⟩)
        (.error ⟨lineAt endLine' rest', fault⟩)

structure LeftTwin {α : Type} (ts ts' : List Token) (same : α → α → Prop) {n m : Nat}
    (p : Parsed α n) (q : Parsed α m) : Prop where
  value : same p.value q.value
  scope : q.scope = p.scope
  rest : Parallel ts ts' p.rest q.rest

section Rules

variable {α β γ δ : Type} {endLine endLine' : Nat} {ts ts' us us' vs vs' : List Token}
  {fault : ParseFault}

theorem Accuses.after {used rest : List Token} (accuses : Accuses fault used rest)
    (before : List Token) : Accuses fault (before ++ used) rest := by
  intro lexeme named
  cases accuses lexeme named with
  | ahead looks => exact .ahead looks
  | behind reads skips =>
    rw [← List.append_assoc]
    exact .behind reads skips

theorem Accuses.nothing {used rest : List Token} (none : fault.named? = none) :
    Accuses fault used rest := by
  intro lexeme named
  cases none.symm.trans named

theorem Accuses.ahead {used rest : List Token} {t : Token} (looks : fault.ahead = true)
    (named : fault.named? = some t.lexeme) : Accuses fault used (t :: rest) := by
  intro lexeme same
  cases named.symm.trans same
  exact .ahead looks

theorem Accuses.behind {before rest : List Token} {t : Token} (reads : fault.ahead = false)
    (named : fault.named? = some t.lexeme) : Accuses fault (before ++ [t]) rest := by
  intro lexeme same
  cases named.symm.trans same
  exact .behind reads .nothing

namespace Parallel

theorem refl (same : tokensUnlined ts' = tokensUnlined ts) : Parallel ts ts' ts ts' :=
  ⟨[], [], rfl, rfl, rfl, same⟩

theorem unlined (parallel : Parallel ts ts' us us') : tokensUnlined us' = tokensUnlined us := by
  obtain ⟨-, -, -, -, -, same⟩ := parallel
  exact same

theorem trans (first : Parallel ts ts' us us') (second : Parallel us us' vs vs') :
    Parallel ts ts' vs vs' := by
  obtain ⟨used, used', rfl, rfl, long, -⟩ := first
  obtain ⟨more, more', rfl, rfl, longer, same⟩ := second
  refine ⟨used ++ more, used' ++ more', by simp, by simp, ?_, same⟩
  rw [List.length_append, List.length_append, long, longer]

theorem step {t t' : Token} (same : tokensUnlined us' = tokensUnlined us) :
    Parallel (t :: us) (t' :: us') us us' := ⟨[t], [t'], rfl, rfl, rfl, same⟩

end Parallel

namespace Twin

variable {related : α → β → Prop}

theorem bind {final : γ → δ → Prop} {step : Except ParseError α} {step' : Except ParseError β}
    {next : α → Except ParseError γ} {next' : β → Except ParseError δ}
    (first : Twin endLine endLine' ts ts' related step step')
    (later : ∀ a b, related a b → Twin endLine endLine' ts ts' final (next a) (next' b)) :
    Twin endLine endLine' ts ts' final (step >>= next) (step' >>= next') := by
  cases first with
  | ok given => exact later _ _ given
  | error whole whole' long accuses => exact .error whole whole' long accuses

theorem after {step : Except ParseError α} {step' : Except ParseError β}
    (parallel : Parallel ts ts' us us') (twin : Twin endLine endLine' us us' related step step') :
    Twin endLine endLine' ts ts' related step step' := by
  obtain ⟨before, before', rfl, rfl, long, -⟩ := parallel
  cases twin with
  | ok given => exact .ok given
  | error whole whole' longer accuses =>
    subst whole whole'
    refine .error (List.append_assoc ..).symm (List.append_assoc ..).symm ?_ (accuses.after before)
    rw [List.length_append, List.length_append, long, longer]

theorem fails {rest rest' : List Token} (parallel : Parallel ts ts' rest rest')
    (none : fault.named? = none) :
    Twin endLine endLine' ts ts' related (failAt endLine rest fault)
      (failAt endLine' rest' fault) := by
  obtain ⟨used, used', whole, whole', long, -⟩ := parallel
  exact .error whole whole' long (.nothing none)

theorem fails_ahead {t t' : Token} {rest rest' : List Token} (looks : fault.ahead = true)
    (named : fault.named? = some t.lexeme) :
    Twin endLine endLine' (t :: rest) (t' :: rest') related (failAt endLine (t :: rest) fault)
      (failAt endLine' (t' :: rest') fault) :=
  .error (List.nil_append _).symm (List.nil_append _).symm rfl (.ahead looks named)

theorem fails_behind {t t' : Token} {rest rest' : List Token} (reads : fault.ahead = false)
    (named : fault.named? = some t.lexeme) :
    Twin endLine endLine' (t :: rest) (t' :: rest') related (failAt endLine rest fault)
      (failAt endLine' rest' fault) :=
  .error List.singleton_append.symm List.singleton_append.symm rfl
    (show Accuses fault ([] ++ [t]) rest from .behind reads named)

end Twin

-- What is left, counted from where the lists begin and not from where these parsers did.
theorem Twin.onward {α : Type} {same : α → α → Prop} {n m : Nat} {step : Parse α n}
    {step' : Parse α m} (parallel : Parallel ts ts' us us')
    (twin : Twin endLine endLine' us us' (LeftTwin us us' same) step step') :
    Twin endLine endLine' ts ts' (LeftTwin ts ts' same) step step' := by
  cases twin.after parallel with
  | ok left => exact .ok ⟨left.value, left.scope, parallel.trans left.rest⟩
  | error whole whole' long accuses => exact .error whole whole' long accuses

end Rules

section Terms

variable {endLine endLine' : Nat} {scope : Scope} {ts ts' : List Token}

theorem unlined_head {t : Token} {rest : List Token}
    (same : tokensUnlined ts' = tokensUnlined (t :: rest)) :
    ∃ l rest', ts' = ⟨t.lexeme, l, t.spaced⟩ :: rest' ∧
      tokensUnlined rest' = tokensUnlined rest := unlined_cons same

theorem nextLexeme_unlined (same : tokensUnlined ts' = tokensUnlined ts) :
    nextLexeme ts' = nextLexeme ts :=
  nextLexeme_aligned inside_within (show Aligned false .inside ts ts' from .of_unlined same)

theorem simpleTerm_named {lexeme : Lexeme} {fault : ParseFault}
    (refused : simpleTerm scope lexeme = .error fault) :
    fault.ahead = false ∧ fault.named? = some lexeme := by
  rw [simpleTerm.eq_def] at refused
  split at refused
  · cases refused
  · cases refused
  · split at refused <;> cases refused
    exact ⟨rfl, rfl⟩
  · cases refused
  · cases refused
  · split at refused <;> cases refused
    exact ⟨rfl, rfl⟩
  · rw [wordOperand.eq_def] at refused
    split at refused
    · cases refused
    · cases refused
    · cases refused
    · split at refused
      · cases refused
        exact ⟨rfl, rfl⟩
      · split at refused <;> cases refused
        exact ⟨rfl, rfl⟩
  · cases refused
    exact ⟨rfl, rfl⟩

theorem namesAt_named {place : Place} {fault : ParseFault}
    (refused : namesAt place ts = .error fault) : fault.named? = none := by
  rw [namesAt.eq_def] at refused
  split at refused
  · cases refused
  · cases refused
  · split at refused
    · split at refused <;> cases refused <;> rfl
    · cases refused
      rfl
  · cases refused

-- A refused assignment is found behind all its tokens.
theorem bindNames_named {names : List String} {assigns : Bool} {fault : ParseFault}
    (refused : names.foldlM (bindName · assigns ·) scope = .error fault) :
    assigns = true ∧ ∃ name ∈ names, fault = .undefinedVariable name := by
  induction names generalizing scope with
  | nil => cases refused
  | cons name rest ih =>
    rw [List.foldlM_cons] at refused
    rcases bind_eq_error.mp refused with failed | ⟨next, -, later⟩
    · rw [bindName] at failed
      split at failed
      · rename_i assigned
        split at failed <;> cases failed
        exact ⟨assigned, name, List.mem_cons_self, rfl⟩
      · cases failed
    · obtain ⟨assigned, other, member, same⟩ := ih later
      exact ⟨assigned, other, List.mem_cons_of_mem _ member, same⟩

theorem names_accused {names : List String} {used rest : List Token} {name : String}
    (spelled : SpellsNames names true used) (member : name ∈ names) :
    Accuses (.undefinedVariable name) used rest := by
  have behind (before skipped : List Token) {l : Nat} {s : Bool}
      (skips : (ParseFault.undefinedVariable name).Skips (skipped.map (·.lexeme))) :
      Accused (.undefinedVariable name) (.var name) (before ++ ⟨.var name, l, s⟩ :: skipped) rest :=
    .behind rfl skips
  intro lexeme named
  cases named
  cases spelled with
  | one =>
    obtain rfl := List.mem_singleton.mp member
    exact behind [] _ .assign
  | two =>
    rcases List.mem_cons.mp member with rfl | member
    · exact behind [] _ .second
    · obtain rfl := List.mem_singleton.mp member
      exact behind [_, _] _ .assign

theorem parseBinding_twin (place : Place) (same : tokensUnlined ts' = tokensUnlined ts) :
    Twin endLine endLine' ts ts'
      (fun binding binding' => binding' = binding ∧
        Parallel ts ts' (ts.drop binding.width) (ts'.drop binding.width))
      (parseBinding endLine place scope ts) (parseBinding endLine' place scope ts') := by
  have dropped (width : Nat) : tokensUnlined (ts'.drop width) = tokensUnlined (ts.drop width) := by
    rw [tokensUnlined, tokensUnlined, List.map_drop, List.map_drop]
    exact congrArg (List.drop width) same
  have long (width : Nat) : (ts'.take width).length = (ts.take width).length := by
    have lengths := congrArg List.length same
    rw [tokensUnlined, tokensUnlined, List.length_map, List.length_map] at lengths
    rw [List.length_take, List.length_take, lengths]
  have aligned : Aligned false .inside ts ts' := .of_unlined same
  have names := (namesAt_aligned place inside_within aligned).1
  rw [parseBinding, parseBinding, names]
  cases found : namesAt place ts with
  | error fault => exact .fails (.refl same) (namesAt_named found)
  | ok taken =>
    obtain ⟨names, assigns, width⟩ := taken
    dsimp only
    cases bound : names.foldlM (bindName · assigns ·) scope with
    | error fault =>
      obtain ⟨rfl, name, member, rfl⟩ := bindNames_named bound
      exact .error (List.take_append_drop width ts).symm (List.take_append_drop width ts').symm
        (long width) (names_accused (namesAt_sound found).1 member)
    | ok after =>
      exact .ok ⟨rfl, ts.take width, ts'.take width, (List.take_append_drop width ts).symm,
        (List.take_append_drop width ts').symm, long width, dropped width⟩

theorem takeFields_twin (same : tokensUnlined ts' = tokensUnlined ts) :
    (takeFields ts').1 = (takeFields ts).1 ∧
      Parallel ts ts' (takeFields ts).2 (takeFields ts').2 := by
  induction ts generalizing ts' with
  | nil =>
    rw [unlined_nil same]
    exact ⟨rfl, .refl rfl⟩
  | cons t rest ih =>
    obtain ⟨l, rest', rfl, later⟩ := unlined_head same
    rw [takeFields, takeFields]
    dsimp only
    split
    · obtain ⟨fields, parallel⟩ := ih later
      exact ⟨by rw [fields], (Parallel.step later).trans parallel⟩
    · exact ⟨rfl, .refl same⟩

theorem afterCommand_twin (place : Place) (same : tokensUnlined ts' = tokensUnlined ts) :
    Twin endLine endLine' ts ts' (fun next next' => Parallel ts ts' next.val next'.val)
      (afterCommand endLine place ts) (afterCommand endLine' place ts') := by
  cases ts with
  | nil =>
    obtain rfl := unlined_nil same
    exact .fails (.refl rfl) rfl
  | cons t rest =>
    obtain ⟨l, rest', rfl, later⟩ := unlined_head same
    rw [afterCommand, afterCommand]
    dsimp only
    split
    · rw [nextLexeme_unlined later]
      split
      · exact .fails (.step later) rfl
      · exact .ok (.step later)
    · exact .ok (.refl same)

def Similar (operand operand' : Operand) : Prop :=
  isNil operand' = isNil operand ∧
    ∀ path, (withFields? operand' path).isSome = (withFields? operand path).isSome

theorem similar_groups (pipe pipe' : Pipeline) : Similar (.group pipe) (.group pipe') := by
  refine ⟨rfl, fun path => ?_⟩
  cases path <;> rfl

theorem isNil_withFields {operand operand' term term' : Operand} {path : List String}
    (similar : Similar term term') (made : withFields? term path = some operand)
    (made' : withFields? term' path = some operand') : isNil operand' = isNil operand := by
  have plain {term operand : Operand} {name : String} {path : List String}
      (made : withFields? term (name :: path) = some operand) : isNil operand = false := by
    cases term <;> cases made <;> rfl
  cases path with
  | nil =>
    cases made
    cases made'
    exact similar.1
  | cons name path => rw [plain made, plain made']

end Terms

mutual
theorem parseTerm_twin (endLine endLine' room : Nat) (scope : Scope) (ts ts' : List Token)
    (same : tokensUnlined ts' = tokensUnlined ts) :
    Twin endLine endLine' ts ts' (LeftTwin ts ts' Similar) (parseTerm endLine room scope ts)
      (parseTerm endLine' room scope ts') := by
  cases ts with
  | nil =>
    obtain rfl := unlined_nil same
    rw [parseTerm, parseTerm]
    exact .fails (.refl rfl) rfl
  | cons t rest =>
    obtain ⟨l, rest', rfl, later⟩ := unlined_head same
    rw [parseTerm.eq_def, parseTerm.eq_def]
    dsimp only
    split
    · cases room with
      | zero => exact .fails (.step later) rfl
      | succ room =>
        refine .bind (.onward (.step later) (parsePipeline_twin endLine endLine' room .parentheses
          scope rest rest' rfl later)) fun p q left => .ok ?_
        exact ⟨similar_groups _ _, left.scope, left.rest⟩
    · cases read : simpleTerm scope t.lexeme with
      | error fault =>
        obtain ⟨reads, named⟩ := simpleTerm_named read
        exact .fails_behind reads named
      | ok term => exact .ok ⟨⟨rfl, fun _ => rfl⟩, rfl, .step later⟩
termination_by (ts.length, 0)

theorem parseOperand_twin (endLine endLine' room : Nat) (scope : Scope) (ts ts' : List Token)
    (same : tokensUnlined ts' = tokensUnlined ts) :
    Twin endLine endLine' ts ts' (LeftTwin ts ts' fun p q => isNil q = isNil p)
      (parseOperand endLine room scope ts) (parseOperand endLine' room scope ts') := by
  rw [parseOperand, parseOperand]
  refine .bind (parseTerm_twin endLine endLine' room scope ts ts' same) fun p q left => ?_
  obtain ⟨fields, behind⟩ := takeFields_twin left.rest.unlined
  have behind := left.rest.trans behind
  have made := left.value.2 (takeFields p.rest).1
  dsimp only
  rw [fields]
  cases one : withFields? p.value (takeFields p.rest).1 with
  | none =>
    rw [one] at made
    rw [Option.isSome_eq_false_iff.mp made |> Option.isNone_iff_eq_none.mp]
    exact .fails behind rfl
  | some operand =>
    rw [one] at made
    obtain ⟨operand', two⟩ := Option.isSome_iff_exists.mp made
    rw [two]
    exact .ok ⟨isNil_withFields left.value one two, left.scope, behind⟩
termination_by (ts.length, 1)

theorem parseOperands_twin (endLine endLine' room : Nat) {bound bound' : Nat}
    {before before' : List Operand} (scope : Scope) (ts ts' : List Token)
    (same : tokensUnlined ts' = tokensUnlined ts)
    (earlier : before'.map isNil = before.map isNil) (less : ts.length < bound)
    (less' : ts'.length < bound') :
    Twin endLine endLine' ts ts' (LeftTwin ts ts' fun p q => q.map isNil = p.map isNil)
      (parseOperands endLine room bound before scope ts less)
      (parseOperands endLine' room bound' before' scope ts' less') := by
  have ends : endsCommand ts' = endsCommand ts := by
    rw [endsCommand, endsCommand, nextLexeme_unlined same]
  rw [parseOperands, parseOperands, ends]
  split
  · refine .ok ⟨?_, rfl, .refl same⟩
    rw [List.map_reverse, earlier, ← List.map_reverse]
  · refine .bind (parseOperand_twin endLine endLine' room scope ts ts' same) fun p q left => ?_
    have shorter := p.shorter
    rw [left.scope]
    refine .onward left.rest (parseOperands_twin endLine endLine' room p.scope p.rest q.rest
      left.rest.unlined ?_ _ _)
    rw [List.map_cons, List.map_cons, left.value, earlier]
termination_by (ts.length, 2)

theorem parseCommand_twin (endLine endLine' room : Nat) (scope : Scope) (ts ts' : List Token)
    (same : tokensUnlined ts' = tokensUnlined ts) :
    Twin endLine endLine' ts ts' (LeftTwin ts ts' fun _ _ => True)
      (parseCommand endLine room scope ts) (parseCommand endLine' room scope ts') := by
  have ends : endsCommand ts' = endsCommand ts := by
    rw [endsCommand, endsCommand, nextLexeme_unlined same]
  rw [parseCommand, parseCommand, ends]
  split
  · exact .fails (.refl same) rfl
  · have operand := parseOperand_twin endLine endLine' room scope ts ts' same
    refine .bind operand fun first first' left => ?_
    have shorter := first.shorter
    rw [left.scope]
    refine .bind (.onward left.rest (parseOperands_twin endLine endLine' room first.scope first.rest
      first'.rest left.rest.unlined (by simp [left.value]) first.shorter first'.shorter))
      fun p q final => ?_
    obtain ⟨operands, after, rest, _⟩ := p
    obtain ⟨operands', after', rest', _⟩ := q
    obtain ⟨alike, sameScope, behind⟩ := final
    dsimp only at alike sameScope behind
    cases operands with
    | nil =>
      obtain rfl := List.map_eq_nil_iff.mp alike
      exact .ok ⟨trivial, sameScope, behind⟩
    | cons operand more =>
      obtain ⟨operand', more', rfl, nil, others⟩ := List.map_eq_cons_iff.mp alike
      cases more with
      | nil =>
        obtain rfl := List.map_eq_nil_iff.mp others
        dsimp only
        rw [nil]
        split
        · exact .fails behind rfl
        · exact .ok ⟨trivial, sameScope, behind⟩
      | cons =>
        obtain ⟨-, -, rfl, -, -⟩ := List.map_eq_cons_iff.mp others
        exact .ok ⟨trivial, sameScope, behind⟩
termination_by (ts.length, 3)

theorem parseCommands_twin (endLine endLine' room : Nat) (place : Place) {bound bound' : Nat}
    {before before' : List Command} (scope : Scope) (ts ts' : List Token)
    (holds : place.isMark = false) (same : tokensUnlined ts' = tokensUnlined ts)
    (earlier : before'.length = before.length) (le : ts.length ≤ bound)
    (le' : ts'.length ≤ bound') :
    Twin endLine endLine' ts ts' (LeftTwin ts ts' fun p q => q.length = p.length)
      (parseCommands endLine room place bound before scope ts le)
      (parseCommands endLine' room place bound' before' scope ts' le') := by
  have next := nextLexeme_unlined same
  by_cases closes : nextLexeme ts = some (closer place)
  · obtain ⟨l, s, r, rfl⟩ := nextLexeme_sound closes
    obtain ⟨l', r', rfl, later⟩ := unlined_head same
    rw [parseCommands_closer, parseCommands_closer]
    refine .ok ⟨?_, rfl, .step later⟩
    rw [List.length_reverse, List.length_reverse, earlier]
  · rw [parseCommands_next closes, parseCommands_next (next ▸ closes), next]
    split
    · cases ts with
      | nil => exact .fails (.refl same) rfl
      | cons t rest =>
        obtain ⟨l, rest', rfl, later⟩ := unlined_head same
        exact .fails_ahead (by rw [ParseFault.ahead, holds]; rfl) rfl
    · refine .bind (parseCommand_twin endLine endLine' room scope ts ts' same) fun p q left => ?_
      refine .bind ((afterCommand_twin place left.rest.unlined).after left.rest)
        fun rest rest' further => ?_
      have shorter := rest.property.trans_lt p.shorter
      have beyond := left.rest.trans further
      have longer : (q.value :: before').length = (p.value :: before).length :=
        congrArg Nat.succ earlier
      rw [left.scope]
      exact .onward beyond (parseCommands_twin endLine endLine' room place p.scope rest.val
        rest'.val holds beyond.unlined longer _ _)
termination_by (ts.length, 4)

theorem parsePipeline_twin (endLine endLine' room : Nat) (place : Place) (scope : Scope)
    (ts ts' : List Token) (holds : place.isMark = false)
    (same : tokensUnlined ts' = tokensUnlined ts) :
    Twin endLine endLine' ts ts' (LeftTwin ts ts' fun _ _ => True)
      (parsePipeline endLine room place scope ts)
      (parsePipeline endLine' room place scope ts') := by
  rw [parsePipeline, parsePipeline]
  refine .bind (parseBinding_twin place same) fun binding binding' given => ?_
  obtain ⟨rfl, behind⟩ := given
  refine .bind (.onward behind (parseCommands_twin endLine endLine' room place binding'.scope _ _
    holds behind.unlined rfl _ _)) fun p q left => ?_
  have empty : q.value.isEmpty = p.value.isEmpty := by
    rw [Bool.eq_iff_iff, List.isEmpty_iff_length_eq_zero, List.isEmpty_iff_length_eq_zero,
      left.value]
  rw [empty]
  split
  · exact .fails left.rest rfl
  · exact .ok ⟨trivial, left.scope, left.rest⟩
termination_by (ts.length, 5)
decreasing_by
  simp_wf
  omega
end

section Marks

variable {endLine endLine' : Nat} {ts ts' : List Token}

def Part.stop? : Part → Option Stop
  | .node _ => none
  | .stop found => some found

theorem headWord_unlined (same : tokensUnlined ts' = tokensUnlined ts) :
    headWord? ts' = headWord? ts := by
  rw [headWord?, headWord?, nextLexeme_unlined same]

theorem expectClose_twin (place : Place) (mark : place.isMark = true)
    (same : tokensUnlined ts' = tokensUnlined ts) :
    Twin endLine endLine' ts ts' (fun rest rest' => Parallel ts ts' rest.val rest'.val)
      (expectClose endLine place ts) (expectClose endLine' place ts') := by
  cases ts with
  | nil =>
    obtain rfl := unlined_nil same
    exact .fails (.refl rfl) rfl
  | cons t rest =>
    obtain ⟨l, rest', rfl, later⟩ := unlined_head same
    rw [expectClose, expectClose]
    dsimp only
    split
    · exact .ok (.step later)
    · exact .fails_behind (by rw [ParseFault.ahead, mark]; rfl) rfl

theorem parsePlain_twin (room : Nat) (scope : Scope) (same : tokensUnlined ts' = tokensUnlined ts) :
    Twin endLine endLine' ts ts' (LeftTwin ts ts' fun part part' => part'.stop? = part.stop?)
      (parsePlain endLine room scope ts) (parsePlain endLine' room scope ts') :=
  .bind (parsePipeline_twin endLine endLine' room .command scope ts ts' rfl same)
    fun _ _ left => .ok ⟨rfl, left.scope, left.rest⟩

theorem parseAlone_twin {part : Part} {scope : Scope} (place : Place) (mark : place.isMark = true)
    (same : tokensUnlined ts' = tokensUnlined ts) :
    Twin endLine endLine' ts ts' (LeftTwin ts ts' fun part part' => part'.stop? = part.stop?)
      (parseAlone endLine part place scope ts) (parseAlone endLine' part place scope ts') :=
  .bind (expectClose_twin place mark same) fun _ _ left => .ok ⟨rfl, rfl, left⟩

theorem parseLeaving_twin {inRange : Bool} {node : Node} {scope : Scope} (place : Place)
    (mark : place.isMark = true) (same : tokensUnlined ts' = tokensUnlined ts) :
    Twin endLine endLine' ts ts' (LeftTwin ts ts' fun part part' => part'.stop? = part.stop?)
      (parseLeaving endLine inRange node place scope ts)
      (parseLeaving endLine' inRange node place scope ts') := by
  rw [parseLeaving, parseLeaving]
  split
  · exact parseAlone_twin place mark same
  · exact .fails (.refl same) rfl

end Marks

mutual
theorem parseNodes_twin (endLine endLine' room : Nat) (inRange : Bool) {bound bound' : Nat}
    {before before' : List Node} (scope : Scope) (ts ts' : List Token)
    (same : tokensUnlined ts' = tokensUnlined ts) (less : ts.length < bound)
    (less' : ts'.length < bound') :
    Twin endLine endLine' ts ts' (LeftTwin ts ts' fun part part' => part'.2 = part.2)
      (parseNodes endLine room inRange bound before scope ts less)
      (parseNodes endLine' room inRange bound' before' scope ts' less') := by
  cases ts with
  | nil =>
    obtain rfl := unlined_nil same
    rw [parseNodes, parseNodes]
    exact .ok ⟨rfl, rfl, .refl rfl⟩
  | cons t rest =>
    obtain ⟨l, rest', rfl, later⟩ := unlined_head same
    have behind : Parallel (t :: rest) (⟨t.lexeme, l, t.spaced⟩ :: rest') rest rest' := .step later
    obtain ⟨lexeme, _, _⟩ := t
    rw [parseNodes.eq_def, parseNodes.eq_def]
    cases lexeme with
    | text bytes =>
      exact .onward behind (parseNodes_twin endLine endLine' room inRange scope rest rest' later
        _ _)
    | openAction =>
      refine .bind (.onward behind (parseAction_twin endLine endLine' room inRange _ l scope rest
        rest' later)) fun p q left => ?_
      obtain ⟨part, scope, left', _⟩ := p
      obtain ⟨part', scope', right', shorter⟩ := q
      obtain ⟨stops, sameScope, beyond⟩ := left
      dsimp only at stops sameScope beyond
      subst sameScope
      cases part with
      | node node =>
        cases part' with
        | node node' =>
          exact .onward beyond (parseNodes_twin endLine endLine' room inRange scope' left' right'
            beyond.unlined _ _)
        | stop => cases stops
      | stop =>
        cases part' with
        | node => cases stops
        | stop => exact .ok ⟨Option.some.inj stops, rfl, beyond⟩
    | _ => exact .fails_behind rfl rfl
termination_by (ts.length, 3)
decreasing_by
  all_goals subst_vars
  all_goals simp_wf
  all_goals omega

theorem parseAction_twin (endLine endLine' room : Nat) (inRange : Bool) (line line' : Nat)
    (scope : Scope) (ts ts' : List Token) (same : tokensUnlined ts' = tokensUnlined ts) :
    Twin endLine endLine' ts ts' (LeftTwin ts ts' fun part part' => part'.stop? = part.stop?)
      (parseAction endLine room inRange line scope ts)
      (parseAction endLine' room inRange line' scope ts') := by
  rcases headWord?_cases ts with wordless | ⟨word, l, s, r, rfl⟩
  · have wordless' := (headWord_unlined same).trans wordless
    rw [parseAction_wordless wordless, parseAction_wordless wordless']
    exact parsePlain_twin room scope same
  · obtain ⟨l', r', rfl, later⟩ := unlined_head same
    have behind : Parallel (⟨.word word, l, s⟩ :: r) (⟨.word word, l', s⟩ :: r') r r' := .step later
    rw [parseAction_word, parseAction_word]
    cases branchOf? word with
    | some kind =>
      exact .bind (.onward behind (parseBranch_twin endLine endLine' room inRange kind line line'
        scope r r' later)) fun p q left => .ok ⟨rfl, left.scope, left.rest⟩
    | none =>
      dsimp only
      split
      · exact .onward behind (parseAlone_twin .endMark rfl later)
      · exact .ok ⟨rfl, rfl, behind⟩
      · exact .onward behind (parseLeaving_twin .breakMark rfl later)
      · exact .onward behind (parseLeaving_twin .continueMark rfl later)
      · split
        · exact .fails_ahead rfl rfl
        · exact parsePlain_twin room scope same
termination_by (ts.length, 1)

theorem parseBranch_twin (endLine endLine' room : Nat) (inRange : Bool) (kind : BranchKind)
    (line line' : Nat) (scope : Scope) (ts ts' : List Token)
    (same : tokensUnlined ts' = tokensUnlined ts) :
    Twin endLine endLine' ts ts' (LeftTwin ts ts' fun _ _ => True)
      (parseBranch endLine room inRange kind line scope ts)
      (parseBranch endLine' room inRange kind line' scope ts') := by
  cases room with
  | zero =>
    rw [parseBranch, parseBranch]
    exact .fails (.refl same) rfl
  | succ room =>
    have holds : kind.header.isMark = false := by cases kind <;> rfl
    rw [parseBranch, parseBranch]
    refine .bind (parsePipeline_twin endLine endLine' room kind.header scope ts ts' holds same)
      fun header header' left => ?_
    have shorter := header.shorter
    rw [left.scope]
    refine .bind (.onward left.rest (parseNodes_twin endLine endLine' room
      (inRange || kind = .rangeBranch) header.scope header.rest header'.rest left.rest.unlined _ _))
      fun body body' nodes => ?_
    have shorter := body.shorter
    have behind := nodes.rest
    dsimp only
    rw [nodes.value, nodes.scope]
    cases body.value.2 with
    | endOfInput => exact .fails behind rfl
    | endMark => exact .ok ⟨trivial, rfl, behind⟩
    | elseMark =>
      refine .bind (.onward behind (parseElse_twin endLine endLine' room inRange kind body.scope
        body.rest body'.rest behind.unlined)) fun otherwise otherwise' others => ?_
      exact .ok ⟨trivial, congrArg scope.leave others.scope, others.rest⟩
termination_by (ts.length, 0)

theorem parseElse_twin (endLine endLine' room : Nat) (inRange : Bool) (kind : BranchKind)
    (scope : Scope) (ts ts' : List Token) (same : tokensUnlined ts' = tokensUnlined ts) :
    Twin endLine endLine' ts ts' (LeftTwin ts ts' fun _ _ => True)
      (parseElse endLine room inRange kind scope ts)
      (parseElse endLine' room inRange kind scope ts') := by
  rcases chained_or_apart kind ts with ⟨word, l, s, r, rfl, chained⟩ | apart
  · obtain ⟨l', r', rfl, later⟩ := unlined_head same
    have behind : Parallel (⟨.word word, l, s⟩ :: r) (⟨.word word, l', s⟩ :: r') r r' := .step later
    rw [parseElse_chain chained, parseElse_chain chained]
    exact .bind (.onward behind (parseBranch_twin endLine endLine' room inRange kind l l' scope r r'
      later)) fun p q left => .ok ⟨trivial, left.scope, left.rest⟩
  · have apart' : ∀ word, headWord? ts' = some word → kind.chainWord? ≠ some word := by
      rw [headWord_unlined same]
      exact apart
    rw [parseElse_apart apart, parseElse_apart apart']
    exact parseElseList_twin endLine endLine' room inRange kind scope ts ts' same
termination_by (ts.length, 2)

theorem parseElseList_twin (endLine endLine' room : Nat) (inRange : Bool) (kind : BranchKind)
    (scope : Scope) (ts ts' : List Token) (same : tokensUnlined ts' = tokensUnlined ts) :
    Twin endLine endLine' ts ts' (LeftTwin ts ts' fun _ _ => True)
      (parseElseList endLine room inRange kind scope ts)
      (parseElseList endLine' room inRange kind scope ts') := by
  refine .bind (expectClose_twin .elseMark rfl same) fun ⟨rest, shorter⟩ ⟨rest', _⟩ left => ?_
  refine .bind (.onward left (parseNodes_twin endLine endLine' room inRange scope rest rest'
    left.unlined _ _)) fun ⟨⟨_, stop⟩, _, _, _⟩ ⟨⟨_, stop'⟩, _, _, _⟩ nodes => ?_
  obtain ⟨sameStop, sameScope, behind⟩ := nodes
  obtain rfl : stop' = stop := sameStop
  cases stop' with
  | endOfInput => exact .fails behind rfl
  | elseMark => exact .fails behind rfl
  | endMark => exact .ok ⟨trivial, sameScope, behind⟩
termination_by (ts.length, 0)
end

theorem parse_twin (endLine endLine' : Nat) {ts ts' : List Token}
    (same : tokensUnlined ts' = tokensUnlined ts) :
    Twin endLine endLine' ts ts' (fun _ _ => True) (parse endLine ts) (parse endLine' ts') := by
  rw [parse, parse]
  refine .bind (parseNodes_twin endLine endLine' maxDepth false ["$"] ts ts' same _ _)
    fun p q left => ?_
  rw [left.value]
  cases p.value.2 with
  | endOfInput => exact .ok trivial
  | endMark => exact .fails left.rest rfl
  | elseMark => exact .fails left.rest rfl

end PagePress.Template
