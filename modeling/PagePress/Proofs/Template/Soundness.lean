import PagePress.Proofs.Template.PipelineCompleteness

namespace PagePress.Template

open Chain

def Ranged (ts : List Token) : Prop :=
  ∀ t ∈ ts, ∀ literal, t.lexeme = .number literal → ∀ n, Literal.value? literal = some n →
    IsLiteral (.num n)

theorem Ranged.behind {ts us : List Token} (ranged : Ranged (ts ++ us)) : Ranged us :=
  fun t member => ranged t (List.mem_append_right ts member)

theorem Ranged.tail {t : Token} {ts : List Token} (ranged : Ranged (t :: ts)) : Ranged ts :=
  fun u member => ranged u (List.mem_cons_of_mem t member)

section Operands

theorem takeFields_sound (ts : List Token) :
    ∃ behind, ts = behind ++ (takeFields ts).2 ∧ SpellsFields (takeFields ts).1 behind ∧
      ¬Glued (takeFields ts).2 := by
  induction ts with
  | nil =>
    refine ⟨[], rfl, .nil, ?_⟩
    rintro ⟨t, member, -⟩
    cases member
  | cons t r ih =>
    obtain ⟨behind, whole, fields, apart⟩ := ih
    rw [takeFields]
    split
    · rename_i name isField joined
      exact ⟨t :: behind, congrArg (t :: ·) whole, .cons ⟨isField, joined⟩ fields, apart⟩
    · rename_i other
      refine ⟨[], rfl, .nil, ?_⟩
      rintro ⟨u, member, joined, name, isField⟩
      cases member
      exact other name isField joined

theorem isLiteral_ofNat (c : Char) : IsLiteral (.ofNat c.toNat) := by
  have small : c.toNat < 2 ^ 32 := c.val.toNat_lt
  show -2 ^ 63 < ((c.toNat % 2 ^ 64 : Nat) : Int) ∧ ((c.toNat % 2 ^ 64 : Nat) : Int) < 2 ^ 63
  omega

theorem operand_of_literal {scope : Scope} {room : Nat} {value : Json} {lexeme : Lexeme} {l : Nat}
    {s : Bool} {path : List String} {behind : List Token} {operand : Operand}
    (spelled : SpellsLiteral value lexeme) (ranged : IsLiteral value)
    (fields : SpellsFields path behind)
    (made : withFields? (.literal value) path = some operand) :
    SpellsOperand operand (⟨lexeme, l, s⟩ :: behind) ∧ operand.WellFormed room scope := by
  cases path with
  | cons name path => cases made
  | nil =>
    cases made
    cases fields
    exact ⟨.literal spelled, ranged⟩

theorem operand_of_word {scope : Scope} {room : Nat} {word : String} {l : Nat} {s : Bool}
    {path : List String} {behind : List Token} {term operand : Operand}
    (read : wordOperand word = .ok term) (fields : SpellsFields path behind)
    (made : withFields? term path = some operand) :
    SpellsOperand operand (⟨.word word, l, s⟩ :: behind) ∧ operand.WellFormed room scope := by
  rw [wordOperand.eq_def] at read
  split at read
  · cases read
    exact operand_of_literal .holds trivial fields made
  · cases read
    exact operand_of_literal .fails trivial fields made
  · cases read
    exact operand_of_literal .null trivial fields made
  · split at read
    · cases read
    · split at read
      · rename_i builtin found
        cases read
        cases path with
        | cons name path => cases made
        | nil =>
          cases made
          cases fields
          have named : builtin.name = word := by
            simpa using List.find?_some found
          subst named
          exact ⟨.function, trivial⟩
      · cases read

theorem operand_of_simple (room l : Nat) (s : Bool) {scope : Scope} {lexeme : Lexeme}
    {path : List String} {behind : List Token} {term operand : Operand}
    (read : simpleTerm scope lexeme = .ok term) (fields : SpellsFields path behind)
    (made : withFields? term path = some operand)
    (ranged : ∀ literal, lexeme = .number literal → ∀ n, Literal.value? literal = some n →
      IsLiteral (.num n)) :
    SpellsOperand operand (⟨lexeme, l, s⟩ :: behind) ∧ operand.WellFormed room scope := by
  rw [simpleTerm.eq_def] at read
  split at read
  · cases read
    cases path with
    | nil =>
      cases made
      cases fields
      exact ⟨.dot, trivial⟩
    | cons name path =>
      cases made
      exact ⟨.dotted (List.cons_ne_nil name path) fields, List.cons_ne_nil name path⟩
  · rename_i name
    cases read
    cases path with
    | nil =>
      cases made
      exact ⟨.field fields, List.cons_ne_nil name []⟩
    | cons first path =>
      cases made
      exact ⟨.field fields, List.cons_ne_nil name _⟩
  · split at read
    · rename_i name held
      cases read
      cases path with
      | nil =>
        cases made
        exact ⟨.var fields, List.contains_iff_mem.mp held⟩
      | cons first path =>
        cases made
        exact ⟨.var fields, List.contains_iff_mem.mp held⟩
    · cases read
  · cases read
    exact operand_of_literal .str trivial fields made
  · cases read
    exact operand_of_literal .char (isLiteral_ofNat _) fields made
  · rename_i literal
    split at read
    · rename_i n found
      cases read
      exact operand_of_literal (.number found) (ranged literal rfl n found) fields made
    · cases read
  · exact operand_of_word read fields made
  · cases read

end Operands

theorem operand_of_group (l : Nat) (s : Bool) {scope : Scope} {room : Nat} {pipe : Pipeline}
    {path : List String} {used behind : List Token} {operand : Operand}
    (spelled : SpellsPipeline .parentheses pipe used)
    (fits : 0 < room ∧ pipe.WellFormed (room - 1) .parentheses scope)
    (fields : SpellsFields path behind) (made : withFields? (.group pipe) path = some operand) :
    SpellsOperand operand (⟨.leftParen, l, s⟩ :: (used ++ behind)) ∧
      operand.WellFormed room scope := by
  cases path with
  | nil =>
    cases made
    cases fields
    rw [List.append_nil]
    exact ⟨.group spelled, fits⟩
  | cons name path =>
    cases made
    exact ⟨.chain spelled (List.cons_ne_nil name path) fields, List.cons_ne_nil name path, fits⟩

theorem glued_of_append {ts us : List Token} (apart : ¬Glued (ts ++ us)) : ¬Glued ts := by
  rintro ⟨t, member, joined⟩
  cases ts with
  | nil => cases member
  | cons u r => exact apart ⟨t, member, joined⟩

theorem one_le_mostNames (place : Place) : 1 ≤ place.mostNames := by
  cases place <;> decide

theorem namesAt_sound {place : Place} {ts : List Token} {names : List String} {assigns : Bool}
    {width : Nat} (found : namesAt place ts = .ok (names, assigns, width)) :
    SpellsNames names assigns (ts.take width) ∧ names.length ≤ place.mostNames ∧
      (names = [] → assigns = false) := by
  rw [namesAt.eq_def] at found
  split at found
  · cases found
    exact ⟨.one, one_le_mostNames place, fun none => by cases none⟩
  · cases found
    exact ⟨.one, one_le_mostNames place, fun none => by cases none⟩
  · split at found
    · rename_i ranges
      subst ranges
      split at found
      · cases found
        exact ⟨.two, Nat.le_refl 2, fun none => by cases none⟩
      · cases found
        exact ⟨.two, Nat.le_refl 2, fun none => by cases none⟩
      · cases found
      · cases found
    · cases found
  · cases found
    exact ⟨.none, Nat.zero_le _, fun _ => rfl⟩

theorem bindNames_held {names : List String} {scope after : Scope}
    (found : names.foldlM (bindName · true ·) scope = .ok after) :
    ∀ name ∈ names, name ∈ scope := by
  induction names generalizing scope with
  | nil => exact nofun
  | cons name rest ih =>
    rw [List.foldlM_cons] at found
    obtain ⟨next, bound, found⟩ := bind_eq_ok.mp found
    rw [bindName, if_pos rfl] at bound
    split at bound
    · rename_i held
      cases bound
      exact List.forall_mem_cons.mpr ⟨List.contains_iff_mem.mp held, ih found⟩
    · cases bound

theorem parseBinding_sound {endLine : Nat} {place : Place} {scope : Scope} {ts : List Token}
    {binding : Binding} (found : parseBinding endLine place scope ts = .ok binding) :
    SpellsNames binding.names binding.assigns (ts.take binding.width) ∧
      binding.names.length ≤ place.mostNames ∧
      (binding.assigns = true → binding.names ≠ [] ∧ ∀ name ∈ binding.names, name ∈ scope) := by
  rw [parseBinding] at found
  split at found
  · cases found
  · rename_i names assigns width taken
    split at found
    · cases found
    · rename_i after bound
      cases found
      obtain ⟨spelled, few, unnamed⟩ := namesAt_sound taken
      refine ⟨spelled, few, fun assigned => ⟨fun none => ?_, ?_⟩⟩
      · cases (unnamed none).symm.trans assigned
      · obtain rfl : assigns = true := assigned
        exact bindNames_held bound

def SpellsTail (place : Place) (commands : List Command) (ts : List Token) : Prop :=
  if commands = [] then ∃ l s, ts = [⟨closer place, l, s⟩] else SpellsCommands place commands ts

theorem SpellsCommands.of_last {place : Place} {command : Command} {l : Nat} {s : Bool}
    {ts : List Token} (only : SpellsOperands command.operands ts) :
    SpellsCommands place [command] (ts ++ [⟨closer place, l, s⟩]) := by
  cases command
  exact .last only

theorem SpellsCommands.of_piped {place : Place} {command : Command} {rest : List Command} {l : Nat}
    {s : Bool} {ts us : List Token} (first : SpellsOperands command.operands ts)
    (later : SpellsCommands place rest us) :
    SpellsCommands place (command :: rest) (ts ++ ⟨.pipe, l, s⟩ :: us) := by
  cases command
  exact .piped first later

theorem parseCommands_closes {endLine room bound : Nat} {place : Place} {before : List Command}
    {scope : Scope} {ts : List Token} {le : ts.length ≤ bound} {p : Parsed (List Command) bound}
    (accepted : parseCommands endLine room place bound before scope ts le = .ok p)
    (closes : isCloser (nextLexeme ts) = true) : nextLexeme ts = some (closer place) := by
  by_contra other
  rw [parseCommands_next other, if_pos (.inr closes)] at accepted
  cases accepted

theorem afterCommand_sound {endLine : Nat} {place : Place} {ts : List Token}
    {next : { r : List Token // r.length ≤ ts.length }} (ends : endsCommand ts = true)
    (follows : afterCommand endLine place ts = .ok next) :
    (∃ l s, ts = ⟨.pipe, l, s⟩ :: next.val ∧ isCloser (nextLexeme next.val) = false) ∨
      next.val = ts ∧ isCloser (nextLexeme ts) = true := by
  rw [afterCommand.eq_def] at follows
  split at follows
  · cases follows
  · rename_i t r
    obtain ⟨lexeme, l, s⟩ := t
    split at follows
    · rename_i isPipe
      obtain rfl : lexeme = .pipe := isPipe
      split at follows
      · cases follows
      · rename_i goesOn
        cases follows
        exact .inl ⟨l, s, rfl, Bool.eq_false_iff.mpr goesOn⟩
    · rename_i notPipe
      cases follows
      refine .inr ⟨rfl, ?_⟩
      simp_all [endsCommand, nextLexeme]

mutual
theorem parseTerm_sound (endLine room : Nat) (scope : Scope) (ts : List Token) (ranged : Ranged ts)
    {p : Parsed Operand ts.length} (accepted : parseTerm endLine room scope ts = .ok p) :
    (∃ lexeme l s, ts = ⟨lexeme, l, s⟩ :: p.rest ∧ simpleTerm scope lexeme = .ok p.value) ∨
      ∃ l s used pipe, ts = ⟨.leftParen, l, s⟩ :: (used ++ p.rest) ∧ p.value = .group pipe ∧
        SpellsPipeline .parentheses pipe used ∧
        0 < room ∧ pipe.WellFormed (room - 1) .parentheses scope := by
  cases ts with
  | nil =>
    rw [parseTerm] at accepted
    cases accepted
  | cons t r =>
    rw [parseTerm.eq_def] at accepted
    dsimp only at accepted
    split at accepted
    · rename_i opens
      split at accepted
      · cases accepted
      · rename_i room
        obtain ⟨q, inner, done⟩ := bind_eq_ok.mp accepted
        cases done
        obtain ⟨used, whole, spelled, fits⟩ :=
          parsePipeline_sound endLine room .parentheses scope r ranged.tail inner
        obtain ⟨lexeme, l, s⟩ := t
        cases opens
        exact .inr ⟨l, s, used, q.value, congrArg _ whole, rfl, spelled, Nat.succ_pos room, fits⟩
    · split at accepted
      · rename_i term found
        cases accepted
        exact .inl ⟨t.lexeme, t.line, t.spaced, rfl, found⟩
      · cases accepted
termination_by (ts.length, 0)

theorem parseOperand_sound (endLine room : Nat) (scope : Scope) (ts : List Token)
    (ranged : Ranged ts) {p : Parsed Operand ts.length}
    (accepted : parseOperand endLine room scope ts = .ok p) :
    ∃ used, ts = used ++ p.rest ∧ SpellsOperand p.value used ∧ ¬Glued p.rest ∧
      p.value.WellFormed room scope := by
  rw [parseOperand] at accepted
  obtain ⟨q, inner, done⟩ := bind_eq_ok.mp accepted
  have term := parseTerm_sound endLine room scope ts ranged inner
  obtain ⟨behind, taken, fields, apart⟩ := takeFields_sound q.rest
  dsimp only at done
  split at done
  · rename_i operand made
    cases done
    rcases term with ⟨lexeme, l, s, whole, read⟩ | ⟨l, s, used, pipe, whole, isGroup, spelled, fits⟩
    · obtain ⟨spells, fits⟩ := operand_of_simple room l s read fields made
        fun literal isNumber =>
          ranged ⟨lexeme, l, s⟩ (by rw [whole]; exact .head _) literal isNumber
      refine ⟨⟨lexeme, l, s⟩ :: behind, ?_, spells, apart, fits⟩
      rw [List.cons_append, ← taken, ← whole]
    · obtain ⟨spells, fits⟩ := operand_of_group l s spelled fits fields (isGroup ▸ made)
      refine ⟨⟨.leftParen, l, s⟩ :: (used ++ behind), ?_, spells, apart, fits⟩
      rw [List.cons_append, List.append_assoc, ← taken, ← whole]
  · cases done
termination_by (ts.length, 1)

theorem parseOperands_sound (endLine room bound : Nat) (before : List Operand) (scope : Scope)
    (ts : List Token) (ranged : Ranged ts) (less : ts.length < bound)
    {p : Parsed (List Operand) bound}
    (accepted : parseOperands endLine room bound before scope ts less = .ok p) :
    ∃ used new, ts = used ++ p.rest ∧ p.value = before.reverse ++ new ∧ SpellsOperands new used ∧
      operandsWellFormed room scope new ∧ endsCommand p.rest = true := by
  rw [parseOperands] at accepted
  split at accepted
  · rename_i ends
    cases accepted
    exact ⟨[], [], rfl, (List.append_nil _).symm, .nil, trivial, ends⟩
  · obtain ⟨first, inner, done⟩ := bind_eq_ok.mp accepted
    obtain ⟨here, whole, spelled, apart, fits⟩ :=
      parseOperand_sound endLine room scope ts ranged inner
    have after := (parseOperand_keeps endLine room scope ts inner 0).after
    have shorter := first.shorter
    rw [whole] at ranged
    obtain ⟨used, new, rest, all, later, others, ends⟩ :=
      parseOperands_sound endLine room bound _ _ _ ranged.behind _ done
    rw [rest] at apart
    refine ⟨here ++ used, first.value :: new, ?_, by simpa using all,
      .cons spelled (glued_of_append apart) later, ⟨fits, after ▸ others⟩, ends⟩
    rw [List.append_assoc, ← rest, ← whole]
termination_by (ts.length, 2)

theorem parseCommand_sound (endLine room : Nat) (scope : Scope) (ts : List Token)
    (ranged : Ranged ts) {p : Parsed Command ts.length}
    (accepted : parseCommand endLine room scope ts = .ok p) :
    ∃ used, ts = used ++ p.rest ∧ SpellsOperands p.value.operands used ∧
      p.value.WellFormed room scope ∧ endsCommand p.rest = true := by
  rw [parseCommand] at accepted
  split at accepted
  · cases accepted
  · obtain ⟨first, inner, done⟩ := bind_eq_ok.mp accepted
    obtain ⟨q, rest, done⟩ := bind_eq_ok.mp done
    obtain ⟨here, whole, spelled, apart, fits⟩ :=
      parseOperand_sound endLine room scope ts ranged inner
    have after := (parseOperand_keeps endLine room scope ts inner 0).after
    have shorter := first.shorter
    rw [whole] at ranged
    obtain ⟨used, new, last, all, later, others, ends⟩ :=
      parseOperands_sound endLine room _ _ _ _ ranged.behind _ rest
    rw [last] at apart
    have all : q.value = first.value :: new := by simpa using all
    have whole : ts = here ++ used ++ q.rest := by rw [List.append_assoc, ← last, ← whole]
    have spells : SpellsOperands q.value (here ++ used) :=
      all ▸ .cons spelled (glued_of_append apart) later
    have fit : operandsWellFormed room scope q.value := all ▸ ⟨fits, after ▸ others⟩
    have some : q.value ≠ [] := by
      rw [all]
      exact List.cons_ne_nil _ _
    split at done
    · rename_i operand found
      rw [found] at spells fit
      split at done
      · cases done
      · rename_i notNil
        cases done
        refine ⟨_, whole, spells, ⟨List.cons_ne_nil _ _, ?_, fit⟩, ends⟩
        rintro ⟨⟩
        exact notNil rfl
    · rename_i many
      cases done
      exact ⟨_, whole, spells, ⟨some, many _, fit⟩, ends⟩
termination_by (ts.length, 3)

theorem parseCommands_sound (endLine room : Nat) (place : Place) (bound : Nat)
    (before : List Command) (scope : Scope) (ts : List Token) (ranged : Ranged ts)
    (le : ts.length ≤ bound) {p : Parsed (List Command) bound}
    (accepted : parseCommands endLine room place bound before scope ts le = .ok p) :
    ∃ used new, ts = used ++ p.rest ∧ p.value = before.reverse ++ new ∧
      SpellsTail place new used ∧ commandsWellFormed room scope new ∧
      (new = [] ↔ nextLexeme ts = some (closer place)) := by
  by_cases closes : nextLexeme ts = some (closer place)
  · obtain ⟨l, s, r, rfl⟩ := nextLexeme_sound closes
    rw [parseCommands_closer] at accepted
    cases accepted
    exact ⟨[_], [], rfl, (List.append_nil _).symm, ⟨l, s, rfl⟩, trivial, iff_of_true rfl closes⟩
  · rw [parseCommands_next closes] at accepted
    split at accepted
    · cases accepted
    · obtain ⟨first, inner, done⟩ := bind_eq_ok.mp accepted
      obtain ⟨next, follows, done⟩ := bind_eq_ok.mp done
      obtain ⟨here, whole, spelled, fits, ends⟩ :=
        parseCommand_sound endLine room scope ts ranged inner
      have after := (parseCommand_keeps endLine room scope ts inner).after
      have shorter := next.property.trans_lt first.shorter
      have behind : Ranged first.rest := (whole ▸ ranged).behind
      rcases afterCommand_sound ends follows with ⟨l, s, piped, goesOn⟩ | ⟨stays, closed⟩
      · obtain ⟨used, new, rest, all, later, others, same⟩ :=
          parseCommands_sound endLine room place bound _ _ _ (piped ▸ behind).tail _ done
        have some : new ≠ [] := by
          intro none
          rw [same.mp none, isCloser_closer] at goesOn
          cases goesOn
        rw [SpellsTail, if_neg some] at later
        refine ⟨here ++ ⟨.pipe, l, s⟩ :: used, first.value :: new, ?_, by simpa using all, ?_,
          ⟨fits, after ▸ others⟩, iff_of_false (List.cons_ne_nil _ _) closes⟩
        · rw [List.append_assoc, List.cons_append, ← rest, ← piped, ← whole]
        · rw [SpellsTail, if_neg (List.cons_ne_nil _ _)]
          exact .of_piped spelled later
      · rw [← stays] at behind closed
        obtain ⟨used, new, rest, all, later, -, same⟩ :=
          parseCommands_sound endLine room place bound _ _ _ behind _ done
        obtain rfl := same.mpr (parseCommands_closes done closed)
        obtain ⟨l, s, rfl⟩ := later
        refine ⟨here ++ [⟨closer place, l, s⟩], [first.value], ?_, by simpa using all, ?_,
          ⟨fits, trivial⟩, iff_of_false (List.cons_ne_nil _ _) closes⟩
        · rw [List.append_assoc, ← rest, stays, ← whole]
        · exact .of_last spelled
termination_by (ts.length, 4)

theorem parsePipeline_sound (endLine room : Nat) (place : Place) (scope : Scope) (ts : List Token)
    (ranged : Ranged ts) {p : Parsed Pipeline ts.length}
    (accepted : parsePipeline endLine room place scope ts = .ok p) :
    ∃ used, ts = used ++ p.rest ∧ SpellsPipeline place p.value used ∧
      p.value.WellFormed room place scope := by
  rw [parsePipeline] at accepted
  obtain ⟨binding, bound, done⟩ := bind_eq_ok.mp accepted
  obtain ⟨q, inner, done⟩ := bind_eq_ok.mp done
  obtain ⟨named, -⟩ := parseBinding_scope bound
  obtain ⟨spelled, few, held⟩ := parseBinding_sound bound
  have split := List.take_append_drop binding.width ts
  rw [← split] at ranged
  obtain ⟨used, new, rest, all, later, fits, -⟩ :=
    parseCommands_sound endLine room place _ _ _ _ ranged.behind _ inner
  split at done
  · cases done
  · rename_i some
    cases done
    rw [List.reverse_nil, List.nil_append] at all
    have notNil : new ≠ [] := fun none => some (by rw [all, none]; rfl)
    rw [SpellsTail, if_neg notNil] at later
    refine ⟨ts.take binding.width ++ used, ?_, .mk spelled (all ▸ later),
      few, held, all ▸ notNil, all ▸ named ▸ fits⟩
    rw [List.append_assoc, ← rest, split]
termination_by (ts.length, 5)
decreasing_by
  all_goals simp_wf
  all_goals omega
end

def SpellsStop : Stop → List Token → Prop
  | .endOfInput, ts => ts = []
  | .endMark, ts => IsMark "end" ts
  | .elseMark, ts => ts.map (·.lexeme) = [.openAction, .word "else"]

def PartSound (room : Nat) (inRange : Bool) (scope : Scope) (ts : List Token) : Part → Prop
  | .node node => SpellsNode node ts ∧ node.WellFormed room inRange scope
  | .stop stop => stop ≠ .endOfInput ∧ SpellsStop stop ts

theorem expectClose_sound {endLine : Nat} {place : Place} {ts : List Token}
    {rest : { r : List Token // r.length < ts.length }}
    (accepted : expectClose endLine place ts = .ok rest) :
    ∃ l s, ts = ⟨.closeAction, l, s⟩ :: rest.val := by
  rw [expectClose.eq_def] at accepted
  split at accepted
  · cases accepted
  · rename_i t r
    split at accepted
    · rename_i closes
      cases accepted
      obtain ⟨lexeme, l, s⟩ := t
      cases closes
      exact ⟨l, s, rfl⟩
    · cases accepted

theorem branchOf?_sound {word : String} {kind : BranchKind} (found : branchOf? word = some kind) :
    word = kind.keyword := by
  rw [branchOf?.eq_def] at found
  split at found <;> cases found <;> rfl

theorem chainWord?_sound {word : String} {kind : BranchKind} (found : kind.chainWord? = some word) :
    kind ≠ .rangeBranch ∧ kind.keyword = word := by
  cases kind <;> cases found
  · exact ⟨nofun, rfl⟩
  · exact ⟨nofun, rfl⟩

theorem else_cases {ts : List Token} (isElse : SpellsStop .elseMark ts) :
    ∃ l₁ s₁ l₂ s₂, ts = [⟨.openAction, l₁, s₁⟩, ⟨.word "else", l₂, s₂⟩] := by
  rcases ts with _ | ⟨⟨a, l₁, s₁⟩, _ | ⟨⟨b, l₂, s₂⟩, _ | ⟨c, r⟩⟩⟩
  · cases isElse
  · cases isElse
  · cases isElse
    exact ⟨l₁, s₁, l₂, s₂, rfl⟩
  · cases isElse

section Actions

variable {endLine room : Nat} {inRange : Bool} {scope : Scope} {ts : List Token}

theorem parsePlain_sound (ranged : Ranged ts) {p : Parsed Part ts.length}
    (accepted : parsePlain endLine room scope ts = .ok p) :
    ∃ used, ts = used ++ p.rest ∧
      ∀ l s, PartSound room inRange scope (⟨.openAction, l, s⟩ :: used) p.value := by
  obtain ⟨pipe, inner, done⟩ := bind_eq_ok.mp accepted
  cases done
  obtain ⟨used, whole, spelled, fits⟩ :=
    parsePipeline_sound endLine room .command scope ts ranged inner
  exact ⟨used, whole, fun l s => ⟨.action spelled, fits⟩⟩

theorem parseAlone_sound (word : String) (l : Nat) (s : Bool) {part : Part} {place : Place}
    {p : Parsed Part (ts.length + 1)} (accepted : parseAlone endLine part place scope ts = .ok p)
    (sound : ∀ mark, IsMark word mark → PartSound room inRange scope mark part) :
    ∃ used, ⟨.word word, l, s⟩ :: ts = used ++ p.rest ∧
      ∀ l s, PartSound room inRange scope (⟨.openAction, l, s⟩ :: used) p.value := by
  obtain ⟨rest, closes, done⟩ := bind_eq_ok.mp accepted
  cases done
  obtain ⟨l₂, s₂, whole⟩ := expectClose_sound closes
  exact ⟨[_, ⟨.closeAction, l₂, s₂⟩], congrArg _ whole, fun l s => sound _ rfl⟩

theorem parseLeaving_sound (word : String) (l : Nat) (s : Bool) {node : Node} {place : Place}
    {p : Parsed Part (ts.length + 1)}
    (accepted : parseLeaving endLine inRange node place scope ts = .ok p)
    (spelled : ∀ mark, IsMark word mark → SpellsNode node mark)
    (fits : inRange = true → node.WellFormed room inRange scope) :
    ∃ used, ⟨.word word, l, s⟩ :: ts = used ++ p.rest ∧
      ∀ l s, PartSound room inRange scope (⟨.openAction, l, s⟩ :: used) p.value := by
  rw [parseLeaving] at accepted
  split at accepted
  · rename_i inside
    exact parseAlone_sound word l s accepted fun mark isMark => ⟨spelled mark isMark, fits inside⟩
  · cases accepted

end Actions

mutual
theorem parseNodes_sound (endLine room : Nat) (inRange : Bool) (bound : Nat) :
    (before : List Node) → (scope : Scope) → (ts : List Token) → (ranged : Ranged ts) →
    (less : ts.length < bound) → (p : Parsed (List Node × Stop) bound) →
    parseNodes endLine room inRange bound before scope ts less = .ok p →
    ∃ used mark new, ts = used ++ (mark ++ p.rest) ∧ p.value.1 = before.reverse ++ new ∧
      SpellsNodes new used ∧ nodesWellFormed room inRange scope new ∧ SpellsStop p.value.2 mark ∧
      (p.value.2 = .endOfInput → p.rest = [])
  | before, scope, [], ranged, less, p, accepted => by
    rw [parseNodes] at accepted
    cases accepted
    exact ⟨[], [], [], rfl, (List.append_nil _).symm, .nil, trivial, rfl, fun _ => rfl⟩
  | before, scope, ⟨lexeme, l, s⟩ :: r, ranged, less, p, accepted => by
    rw [parseNodes.eq_def] at accepted
    dsimp only at accepted
    split at accepted
    · rename_i bytes
      obtain ⟨used, mark, new, rest, all, later, fits, stops, ended⟩ :=
        parseNodes_sound endLine room inRange bound _ _ r ranged.tail _ p accepted
      exact ⟨_, mark, .text bytes :: new, congrArg _ rest, by simpa using all, .cons .text later,
        ⟨trivial, fits⟩, stops, ended⟩
    · obtain ⟨q, inner, done⟩ := bind_eq_ok.mp accepted
      obtain ⟨here, whole, part⟩ :=
        parseAction_sound endLine room inRange l scope r ranged.tail inner
      have keeps := parseAction_keeps endLine room inRange l scope r inner
      have shorter := q.shorter
      split at done
      · rename_i node found
        rw [found] at part keeps
        obtain ⟨spelled, fit⟩ := part l s
        have behind : Ranged q.rest := (whole ▸ ranged.tail).behind
        obtain ⟨used, mark, new, rest, all, later, fits, stops, ended⟩ :=
          parseNodes_sound endLine room inRange bound _ _ _ behind _ p done
        refine ⟨_, mark, node :: new, ?_, by simpa using all, .cons spelled later,
          ⟨fit, keeps.after ▸ fits⟩, stops, ended⟩
        rw [List.append_assoc, ← rest, List.cons_append, ← whole]
      · rename_i stop found
        rw [found] at part
        obtain ⟨more, stops⟩ := part l s
        cases done
        exact ⟨[], _, [], congrArg _ whole, (List.append_nil _).symm, .nil, trivial, stops,
          fun last => absurd last more⟩
    · cases accepted
termination_by _ _ ts _ _ _ _ => (ts.length, 3)

theorem parseAction_sound (endLine room : Nat) (inRange : Bool) (line : Nat) (scope : Scope)
    (ts : List Token) (ranged : Ranged ts) {p : Parsed Part ts.length}
    (accepted : parseAction endLine room inRange line scope ts = .ok p) :
    ∃ used, ts = used ++ p.rest ∧
      ∀ l s, PartSound room inRange scope (⟨.openAction, l, s⟩ :: used) p.value := by
  rcases headWord?_cases ts with wordless | ⟨word, l, s, r, rfl⟩
  · rw [parseAction_wordless wordless] at accepted
    exact parsePlain_sound ranged accepted
  · rw [parseAction_word] at accepted
    split at accepted
    · rename_i kind isBranch
      obtain ⟨q, inner, done⟩ := bind_eq_ok.mp accepted
      cases done
      obtain ⟨used, -, -, -, whole, -, spelled, fits⟩ :=
        parseBranch_sound endLine room inRange kind line scope r ranged.tail inner
      obtain rfl := branchOf?_sound isBranch
      exact ⟨_ :: used, congrArg _ whole, fun l s => ⟨.branch (spelled _ _), fits⟩⟩
    · split at accepted
      · exact parseAlone_sound _ l s accepted fun mark isEnd => ⟨nofun, isEnd⟩
      · cases accepted
        exact ⟨[_], rfl, fun l s => ⟨nofun, rfl⟩⟩
      · exact parseLeaving_sound _ l s accepted (fun mark => .breakRange) id
      · exact parseLeaving_sound _ l s accepted (fun mark => .continueRange) id
      · split at accepted
        · cases accepted
        · exact parsePlain_sound ranged accepted
termination_by (ts.length, 1)

theorem parseBranch_sound (endLine room : Nat) (inRange : Bool) (kind : BranchKind) (line : Nat)
    (scope : Scope) (ts : List Token) (ranged : Ranged ts) {p : Parsed Node ts.length}
    (accepted : parseBranch endLine room inRange kind line scope ts = .ok p) :
    ∃ used pipe body otherwise, ts = used ++ p.rest ∧
      p.value = .branch kind line pipe body otherwise ∧
      (∀ l s, SpellsBranch p.value (⟨.word kind.keyword, l, s⟩ :: used)) ∧
      p.value.WellFormed room inRange scope := by
  cases room with
  | zero =>
    rw [parseBranch] at accepted
    cases accepted
  | succ room =>
    rw [parseBranch] at accepted
    obtain ⟨header, inner, done⟩ := bind_eq_ok.mp accepted
    obtain ⟨here, whole, head, fit⟩ :=
      parsePipeline_sound endLine room kind.header scope ts ranged inner
    have headed := (parsePipeline_keeps endLine room kind.header scope ts inner).1.after
    have shorter := header.shorter
    obtain ⟨body, inside, done⟩ := bind_eq_ok.mp done
    have behind : Ranged header.rest := (whole ▸ ranged).behind
    obtain ⟨used, mark, new, rest, all, later, fits, stops, -⟩ :=
      parseNodes_sound endLine room _ _ _ _ _ behind _ _ inside
    have bodied := (parseNodes_keeps endLine room _ _ _ _ _ _ _ inside).keeps.after
    have shorter := body.shorter
    obtain rfl : body.value.1 = new := all
    rw [headed] at fits bodied
    split at done
    · cases done
    · rename_i isEnd
      cases done
      rw [isEnd] at stops
      refine ⟨here ++ (used ++ mark), _, _, _, ?_, rfl, fun l s => .mk head later (.none stops),
        Nat.succ_pos room, fit, fits, trivial⟩
      rw [List.append_assoc, List.append_assoc, ← rest, ← whole]
    · rename_i isElse
      obtain ⟨otherwise, last, done⟩ := bind_eq_ok.mp done
      rw [isElse] at stops
      obtain ⟨final, taken, spells, others⟩ := parseElse_sound endLine room inRange kind _ _
        (rest ▸ behind).behind.behind last
      rw [bodied] at others
      cases done
      refine ⟨here ++ (used ++ (mark ++ final)), _, _, _, ?_, rfl,
        fun l s => .mk head later (spells mark stops), Nat.succ_pos room, fit, fits, others⟩
      rw [List.append_assoc, List.append_assoc, List.append_assoc, ← taken, ← rest, ← whole]
termination_by (ts.length, 0)

theorem parseElse_sound (endLine room : Nat) (inRange : Bool) (kind : BranchKind) (scope : Scope)
    (ts : List Token) (ranged : Ranged ts) {p : Parsed (List Node) ts.length}
    (accepted : parseElse endLine room inRange kind scope ts = .ok p) :
    ∃ used, ts = used ++ p.rest ∧
      (∀ mark, SpellsStop .elseMark mark → SpellsElse kind (some p.value) (mark ++ used)) ∧
      nodesWellFormed room inRange scope p.value := by
  rcases chained_or_apart kind ts with ⟨word, l, s, r, rfl, chained⟩ | apart
  · rw [parseElse_chain chained] at accepted
    obtain ⟨branch, inner, done⟩ := bind_eq_ok.mp accepted
    obtain ⟨used, pipe, body, otherwise, whole, isBranch, spelled, fits⟩ :=
      parseBranch_sound endLine room inRange kind l scope r ranged.tail inner
    cases done
    obtain ⟨shares, rfl⟩ := chainWord?_sound chained
    refine ⟨_ :: used, congrArg _ whole, fun opens isElse => ?_, fits, trivial⟩
    obtain ⟨_, _, _, _, rfl⟩ := else_cases isElse
    rw [isBranch] at spelled ⊢
    exact .chained shares (spelled _ _)
  · rw [parseElse_apart apart] at accepted
    exact parseElseList_sound endLine room inRange kind scope ts ranged accepted
termination_by (ts.length, 2)

theorem parseElseList_sound (endLine room : Nat) (inRange : Bool) (kind : BranchKind)
    (scope : Scope) (ts : List Token) (ranged : Ranged ts) {p : Parsed (List Node) ts.length}
    (accepted : parseElseList endLine room inRange kind scope ts = .ok p) :
    ∃ used, ts = used ++ p.rest ∧
      (∀ mark, SpellsStop .elseMark mark → SpellsElse kind (some p.value) (mark ++ used)) ∧
      nodesWellFormed room inRange scope p.value := by
  obtain ⟨⟨rest, shorter⟩, closes, done⟩ := bind_eq_ok.mp accepted
  obtain ⟨⟨⟨nodes, stop⟩, after, left, less⟩, inner, done⟩ := bind_eq_ok.mp done
  obtain ⟨l, s, starts⟩ := expectClose_sound closes
  have behind : Ranged rest := (starts ▸ ranged).tail
  obtain ⟨used, mark, new, whole, all, later, fits, stops, -⟩ :=
    parseNodes_sound endLine room inRange _ _ _ _ behind _ _ inner
  obtain rfl : nodes = new := all
  cases stop with
  | endMark =>
    cases done
    refine ⟨⟨.closeAction, l, s⟩ :: (used ++ mark), ?_, fun opens isElse => ?_, fits⟩
    · rw [List.cons_append, List.append_assoc, ← whole, ← starts]
    · rw [← List.singleton_append, ← List.append_assoc]
      refine .plain ?_ later stops
      rw [IsMark, List.map_append, isElse]
      rfl
  | elseMark => cases done
  | endOfInput => cases done
termination_by (ts.length, 0)
end

theorem parse_sound {endLine : Nat} {ts : List Token} {nodes : List Node} (ranged : Ranged ts)
    (accepted : parse endLine ts = .ok nodes) : WellFormed nodes ∧ SpellsNodes nodes ts := by
  rw [parse] at accepted
  obtain ⟨p, inner, done⟩ := bind_eq_ok.mp accepted
  obtain ⟨used, mark, new, whole, all, spelled, fits, stops, ended⟩ :=
    parseNodes_sound endLine maxDepth false _ _ _ _ ranged _ _ inner
  obtain rfl : p.value.1 = new := all
  split at done
  · rename_i last
    cases done
    rw [last] at stops
    obtain rfl : mark = [] := stops
    rw [ended last, List.append_nil, List.append_nil] at whole
    exact ⟨fits, whole ▸ spelled⟩
  · cases done
  · cases done

end PagePress.Template
