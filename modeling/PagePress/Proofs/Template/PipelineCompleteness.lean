import PagePress.Proofs.Template.Grammar
import PagePress.Proofs.Template.Scoping

namespace PagePress.Template

def Yields {α : Type} {bound : Nat} (parse : Parse α bound) (value : α → Prop) (scope : Scope)
    (rest : List Token) : Prop :=
  ∃ p, parse = .ok p ∧ value p.value ∧ p.scope = scope ∧ p.rest = rest

theorem Yields.imp {α : Type} {bound : Nat} {parse : Parse α bound} {value value' : α → Prop}
    {scope : Scope} {rest : List Token} (yields : Yields parse value scope rest)
    (weaker : ∀ a, value a → value' a) : Yields parse value' scope rest := by
  obtain ⟨p, read, same, left, last⟩ := yields
  exact ⟨p, read, weaker _ same, left, last⟩

theorem not_glued_nil : ¬Glued [] := by
  rintro ⟨t, member, -⟩
  cases member

theorem takeFields_of_not_glued {rest : List Token} (apart : ¬Glued rest) :
    takeFields rest = ([], rest) := by
  cases rest with
  | nil => rfl
  | cons t r =>
    rw [takeFields]
    split
    · rename_i name isField joined
      exact absurd ⟨t, rfl, joined, name, isField⟩ apart
    · rfl

theorem takeFields_spelled {path : List String} {behind rest : List Token}
    (fields : SpellsFields path behind) (apart : ¬Glued rest) :
    takeFields (behind ++ rest) = (path, rest) := by
  induction fields with
  | nil => exact takeFields_of_not_glued apart
  | cons first later ih =>
    rename_i name t path behind
    obtain ⟨lexeme, line, spaced⟩ := t
    obtain ⟨rfl, rfl⟩ := first
    simp only [List.cons_append, takeFields, ih]

def IsBinder (lexeme : Lexeme) : Prop := lexeme = .declare ∨ lexeme = .assign ∨ lexeme = .comma

def reserved : List String :=
  ["if", "range", "with", "end", "else", "break", "continue", "define", "template", "block"]

-- What an operand may begin with ends no command, is no pipe and binds no name, and no action of
-- another kind begins with it.
def begins : Lexeme → Bool
  | .pipe | .closeAction | .rightParen | .declare | .assign | .comma => false
  | .word word => word ∉ reserved
  | _ => true

theorem not_isBinder_of_begins {lexeme : Lexeme} (first : begins lexeme = true) :
    ¬IsBinder lexeme := by
  rintro (rfl | rfl | rfl) <;> cases first

theorem endsCommand_cons {t : Token} (ts : List Token) (first : begins t.lexeme = true) :
    endsCommand (t :: ts) = false := by
  rw [endsCommand]
  cases lexeme : t.lexeme <;> simp_all [begins, nextLexeme, isCloser]

theorem begins_function (builtin : Builtin) : begins (.word builtin.name) = true := by
  cases builtin <;> decide

theorem SpellsLiteral.begins {value : Json} {lexeme : Lexeme}
    (spelled : SpellsLiteral value lexeme) : begins lexeme = true := by
  cases spelled with
  | null | holds | fails => decide
  | _ => rfl

theorem SpellsFields.head {path : List String} {t : Token} {ts : List Token}
    (fields : SpellsFields path (t :: ts)) : ∃ name, t.lexeme = .field name := by
  cases fields with
  | cons first later => exact ⟨_, first.1⟩

theorem SpellsOperand.begins {operand : Operand} {ts : List Token}
    (spelled : SpellsOperand operand ts) : ∃ t r, ts = t :: r ∧ begins t.lexeme = true ∧
      ∀ name, t.lexeme = .var name → ∀ u us, r = u :: us → ¬IsBinder u.lexeme := by
  cases spelled with
  | literal spelled =>
    refine ⟨_, _, rfl, spelled.begins, ?_⟩
    rintro name - u us ⟨⟩
  | function =>
    refine ⟨_, _, rfl, begins_function _, ?_⟩
    rintro name ⟨⟩
  | var fields =>
    refine ⟨_, _, rfl, rfl, ?_⟩
    rintro name - u us rfl
    obtain ⟨field, same⟩ := fields.head
    rw [same]
    exact nofun
  | dot | field | dotted | group | chain =>
    refine ⟨_, _, rfl, rfl, ?_⟩
    rintro name ⟨⟩

theorem wordOperand_name (builtin : Builtin) :
    wordOperand builtin.name = .ok (.function builtin) := by
  cases builtin <;> rfl

theorem simpleTerm_literal {value : Json} {lexeme : Lexeme} (spelled : SpellsLiteral value lexeme)
    (scope : Scope) : simpleTerm scope lexeme = .ok (.literal value) := by
  cases spelled with
  | number read => simp only [simpleTerm, read]
  | _ => rfl

section Operand

variable {endLine room : Nat} {scope : Scope} {ts rest : List Token}

theorem parseTerm_simple {lexeme : Lexeme} {l : Nat} {s : Bool} {term : Operand}
    (read : simpleTerm scope lexeme = .ok term) :
    parseTerm endLine room scope (⟨lexeme, l, s⟩ :: ts) =
      .ok ⟨term, scope, ts, Nat.lt_succ_self _⟩ := by
  have simple : lexeme ≠ .leftParen := by
    rintro rfl
    cases read
  rw [parseTerm.eq_def]
  simp only [if_neg simple, read]

theorem parseOperand_fields {p : Parsed Operand ts.length} {path : List String} {operand : Operand}
    (read : parseTerm endLine room scope ts = .ok p) (taken : takeFields p.rest = (path, rest))
    (made : withFields? p.value path = some operand) :
    Yields (parseOperand endLine room scope ts) (· = operand) p.scope rest := by
  have first : (takeFields p.rest).1 = path := congrArg Prod.fst taken
  have last : (takeFields p.rest).2 = rest := congrArg Prod.snd taken
  rw [parseOperand, read]
  simp only [Chain.ok_bind]
  split
  · rename_i other found
    rw [first, made] at found
    exact ⟨_, rfl, (Option.some.inj found).symm, rfl, last⟩
  · rename_i found
    rw [first, made] at found
    cases found

theorem parseOperand_simple {lexeme : Lexeme} {l : Nat} {s : Bool} {term operand : Operand}
    {path : List String} {behind : List Token}
    (read : simpleTerm scope lexeme = .ok term) (fields : SpellsFields path behind)
    (apart : ¬Glued rest) (made : withFields? term path = some operand) :
    Yields (parseOperand endLine room scope (⟨lexeme, l, s⟩ :: (behind ++ rest))) (· = operand)
      scope rest :=
  parseOperand_fields (parseTerm_simple read) (takeFields_spelled fields apart) made

theorem parseOperand_group {l : Nat} {s : Bool} {pipe : Pipeline} {path : List String}
    {behind : List Token} {after : Scope}
    (inside : Yields (parsePipeline endLine room .parentheses scope (ts ++ (behind ++ rest)))
      (·.unlined = pipe.unlined) after (behind ++ rest))
    (fields : SpellsFields path behind) (apart : ¬Glued rest) {operand : Pipeline → Operand}
    (made : ∀ read, withFields? (.group read) path = some (operand read)) :
    Yields (parseOperand endLine (room + 1) scope (⟨.leftParen, l, s⟩ :: (ts ++ (behind ++ rest))))
      (fun read => ∃ inner, inner.unlined = pipe.unlined ∧ read = operand inner) after rest := by
  obtain ⟨⟨inner, within, _, shorter⟩, read, same, rfl, rfl⟩ := inside
  have term : parseTerm endLine (room + 1) scope (⟨.leftParen, l, s⟩ :: (ts ++ (behind ++ rest))) =
      .ok ⟨.group inner, within, behind ++ rest, Nat.lt_succ_of_lt shorter⟩ := by
    rw [parseTerm.eq_def]
    simp only [↓reduceIte, read]
    rfl
  obtain ⟨p, done, value, scope, last⟩ :=
    parseOperand_fields term (takeFields_spelled fields apart) (made inner)
  exact ⟨p, done, ⟨inner, same, value⟩, scope, last⟩

end Operand

theorem not_glued_of_endsCommand {rest : List Token} (ends : endsCommand rest = true) :
    ¬Glued rest := by
  rintro ⟨t, first, joined, name, isField⟩
  cases rest with
  | nil => cases first
  | cons u r =>
    cases first
    rw [endsCommand_cons] at ends
    · cases ends
    · rw [isField]
      rfl

theorem not_glued_append {us rest : List Token} (apart : ¬Glued us) (last : ¬Glued rest) :
    ¬Glued (us ++ rest) := by
  cases us with
  | nil => exact last
  | cons t r => exact apart

theorem field_of_path {name : String} (path : List String) :
    withFields? (.field [name]) path = some (.field (name :: path)) := by
  cases path <;> rfl

theorem var_of_path (name : String) (path : List String) :
    withFields? (.var name []) path = some (.var name path) := by
  cases path <;> rfl

theorem dot_of_path {path : List String} (fields : path ≠ []) :
    withFields? .dot path = some (.field path) := by
  rw [withFields?, if_neg (by simpa using fields)]

theorem group_of_path {path : List String} (fields : path ≠ []) (pipe : Pipeline) :
    withFields? (.group pipe) path = some (.chain (.group pipe) path) := by
  rw [withFields?, if_neg (by simpa using fields)]

theorem simpleTerm_function (builtin : Builtin) (scope : Scope) :
    simpleTerm scope (.word builtin.name) = .ok (.function builtin) := wordOperand_name builtin

theorem simpleTerm_var {name : String} {scope : Scope} (held : name ∈ scope) :
    simpleTerm scope (.var name) = .ok (.var name []) := if_pos (List.contains_iff_mem.mpr held)

theorem isCloser_closer (place : Place) : isCloser (some (closer place)) = true := by
  rw [closer]
  split <;> rfl

theorem endsCommand_closer (place : Place) (l : Nat) (s : Bool) (rest : List Token) :
    endsCommand (⟨closer place, l, s⟩ :: rest) = true := by
  simp [endsCommand, nextLexeme_cons, isCloser_closer]

theorem endsCommand_pipe (l : Nat) (s : Bool) (rest : List Token) :
    endsCommand (⟨.pipe, l, s⟩ :: rest) = true := rfl

section Commands

variable {endLine room bound : Nat} {place : Place} {scope : Scope} {before : List Command}
  {ts : List Token}

theorem afterCommand_pipe {l : Nat} {s : Bool} (goesOn : isCloser (nextLexeme ts) = false) :
    afterCommand endLine place (⟨.pipe, l, s⟩ :: ts) = .ok ⟨ts, Nat.le_succ _⟩ := by
  rw [afterCommand, if_pos rfl, if_neg (Bool.eq_false_iff.mp goesOn)]

theorem afterCommand_closer {l : Nat} {s : Bool} :
    afterCommand endLine place (⟨closer place, l, s⟩ :: ts) = .ok ⟨_, Nat.le_refl _⟩ := by
  have notPipe : closer place ≠ .pipe := by
    rw [closer]
    split <;> nofun
  rw [afterCommand, if_neg notPipe]

theorem parseCommands_command {le : ts.length ≤ bound} {p : Parsed Command ts.length}
    {next : { r : List Token // r.length ≤ p.rest.length }}
    (first : ∃ t r, ts = t :: r ∧ begins t.lexeme = true)
    (read : parseCommand endLine room scope ts = .ok p)
    (follows : afterCommand endLine place p.rest = .ok next) {value : List Command → Prop}
    {after : Scope} {rest : List Token}
    (later : ∀ less, Yields (parseCommands endLine room place bound (p.value :: before) p.scope
      next.val less) value after rest) :
    Yields (parseCommands endLine room place bound before scope ts le) value after rest := by
  obtain ⟨u, us, rfl, first⟩ := first
  have inside : nextLexeme (u :: us) ≠ some (closer place) := by
    intro same
    rw [nextLexeme_cons] at same
    rw [Option.some.inj same, closer] at first
    split at first <;> cases first
  have goesOn : ¬(nextLexeme (u :: us) = none ∨ isCloser (nextLexeme (u :: us)) = true) := by
    have stays := endsCommand_cons us first
    simp_all [endsCommand, nextLexeme]
  rw [parseCommands_next inside, if_neg goesOn, read, Chain.ok_bind, follows, Chain.ok_bind]
  exact later _

end Commands

theorem isNil_iff {operand : Operand} : isNil operand = true ↔ operand = .literal .null := by
  constructor
  · intro nil
    rw [isNil.eq_def] at nil
    split at nil
    · rfl
    · cases nil
  · rintro rfl
    rfl

theorem unlined_eq_literal {operand : Operand} {value : Json}
    (same : operand.unlined = .literal value) : operand = .literal value := by
  cases operand <;> simp_all [Operand.unlined]

theorem operandsUnlined_eq_nil {operands : List Operand} (same : operandsUnlined operands = []) :
    operands = [] := by
  cases operands with
  | nil => rfl
  | cons operand rest => cases same

theorem isCloser_of_begins {t : Token} {ts : List Token} (first : begins t.lexeme = true) :
    isCloser (nextLexeme (t :: ts)) = false := by
  have goesOn := endsCommand_cons ts first
  simp_all [endsCommand, nextLexeme]

theorem not_isBinder_closer (place : Place) : ¬IsBinder (closer place) := by
  rw [closer]
  split <;> exact nofun

theorem SpellsOperands.begins {operands : List Operand} {ts : List Token}
    (spelled : SpellsOperands operands ts) (some : operands ≠ []) (next : Token) (rest : List Token)
    (apart : ¬IsBinder next.lexeme) :
    ∃ t r, ts ++ next :: rest = t :: r ∧ begins t.lexeme = true ∧
      ∀ name, t.lexeme = .var name → ∃ u us, r = u :: us ∧ ¬IsBinder u.lexeme := by
  cases spelled with
  | nil => exact absurd rfl some
  | cons first joint later =>
    rename_i operand others ts us
    obtain ⟨t, r, rfl, starts, behind⟩ := first.begins
    refine ⟨t, r ++ (us ++ next :: rest), by simp, starts, fun name isVar => ?_⟩
    cases r with
    | cons u r => exact ⟨u, _, rfl, behind name isVar u r rfl⟩
    | nil =>
      cases later with
      | nil => exact ⟨next, rest, rfl, apart⟩
      | cons second _ _ =>
        obtain ⟨u, r, rfl, starts, -⟩ := second.begins
        exact ⟨u, _, rfl, not_isBinder_of_begins starts⟩

theorem SpellsCommands.begins {place : Place} {commands : List Command} {ts : List Token}
    (spelled : SpellsCommands place commands ts) {room : Nat} {scope : Scope}
    (wellFormed : commandsWellFormed room scope commands) (rest : List Token) :
    ∃ t r, ts ++ rest = t :: r ∧ begins t.lexeme = true ∧
      ∀ name, t.lexeme = .var name → ∃ u us, r = u :: us ∧ ¬IsBinder u.lexeme := by
  cases spelled with
  | last only =>
    rw [List.append_assoc]
    exact only.begins wellFormed.1.1 _ rest (not_isBinder_closer place)
  | piped first later =>
    rw [List.append_assoc]
    exact first.begins wellFormed.1.1 _ _ nofun

theorem namesAt_unnamed (place : Place) {t : Token} {r : List Token}
    (behind : ∀ name, t.lexeme = .var name → ∃ u us, r = u :: us ∧ ¬IsBinder u.lexeme) :
    namesAt place (t :: r) = .ok ([], false, 0) := by
  rw [namesAt.eq_def]
  split
  · rename_i same
    cases same
    obtain ⟨u, us, next, apart⟩ := behind _ rfl
    cases next
    exact absurd (.inl rfl) apart
  · rename_i same
    cases same
    obtain ⟨u, us, next, apart⟩ := behind _ rfl
    cases next
    exact absurd (.inr (.inl rfl)) apart
  · rename_i same
    cases same
    obtain ⟨u, us, next, apart⟩ := behind _ rfl
    cases next
    exact absurd (.inr (.inr rfl)) apart
  · rfl

theorem namesAt_spelled {place : Place} {names : List String} {assigns : Bool} {ts : List Token}
    (spelled : SpellsNames names assigns ts) (few : names.length ≤ place.mostNames)
    (rest : List Token) (unnamed : names = [] → namesAt place rest = .ok ([], false, 0)) :
    namesAt place (ts ++ rest) = .ok (names, assigns, ts.length) := by
  cases spelled with
  | none => exact unnamed rfl
  | one => cases assigns <;> rfl
  | two =>
    have range : place = .rangeHeader := by
      cases place <;> simp_all [Place.mostNames]
    subst range
    cases assigns <;> rfl

theorem bindNames_declared {names : List String} {assigns : Bool} {scope : Scope}
    (held : assigns = true → ∀ name ∈ names, name ∈ scope) :
    names.foldlM (bindName · assigns ·) scope = .ok (declared names assigns ++ scope) := by
  cases assigns with
  | true =>
    have stays : ∀ {some : List String}, (∀ name ∈ some, name ∈ scope) →
        some.foldlM (bindName · true ·) scope = .ok scope := by
      intro some inside
      induction some with
      | nil => rfl
      | cons name rest ih =>
        have found : bindName scope true name = .ok scope :=
          if_pos (List.contains_iff_mem.mpr (inside name (.head _)))
        rw [List.foldlM_cons, found, Chain.ok_bind]
        exact ih fun name member => inside name (.tail _ member)
    exact stays (held rfl)
  | false =>
    clear held
    induction names generalizing scope with
    | nil => rfl
    | cons name rest ih =>
      have bound : bindName scope false name = .ok (name :: scope) := rfl
      rw [List.foldlM_cons, bound, Chain.ok_bind, ih]
      simp [declared]

theorem parseBinding_spelled (endLine : Nat) {place : Place} {scope : Scope} {names : List String}
    {assigns : Bool} {ts : List Token} (spelled : SpellsNames names assigns ts)
    (few : names.length ≤ place.mostNames)
    (held : assigns = true → names ≠ [] ∧ ∀ name ∈ names, name ∈ scope) (rest : List Token)
    (unnamed : names = [] → namesAt place rest = .ok ([], false, 0)) :
    parseBinding endLine place scope (ts ++ rest) =
      .ok ⟨names, assigns, declared names assigns ++ scope, ts.length⟩ := by
  rw [parseBinding, namesAt_spelled spelled few rest unnamed]
  simp only [bindNames_declared fun assigned => (held assigned).2]

-- The recursion is on how many tokens there are: `size` still says so when they are taken apart.
mutual
theorem parseOperand_spelled (endLine room : Nat) (scope : Scope) (ts rest : List Token) {n : Nat}
    (size : ts.length = n) {operand : Operand} (spelled : SpellsOperand operand ts)
    (wellFormed : operand.WellFormed room scope) (apart : ¬Glued rest) :
    Yields (parseOperand endLine room scope (ts ++ rest)) (·.unlined = operand.unlined)
      (operand.adds.names ++ scope) rest := by
  have same : ∀ read : Operand, read = operand → read.unlined = operand.unlined :=
    fun read same => congrArg Operand.unlined same
  cases spelled with
  | dot => exact (parseOperand_simple rfl .nil apart rfl).imp same
  | field fields => exact (parseOperand_simple rfl fields apart (field_of_path _)).imp same
  | dotted some fields => exact (parseOperand_simple rfl fields apart (dot_of_path some)).imp same
  | var fields =>
    exact (parseOperand_simple (simpleTerm_var wellFormed) fields apart (var_of_path _ _)).imp same
  | function => exact (parseOperand_simple (simpleTerm_function _ scope) .nil apart rfl).imp same
  | literal spelled =>
    exact (parseOperand_simple (simpleTerm_literal spelled scope) .nil apart rfl).imp same
  | group inside =>
    obtain ⟨levels, wellFormed⟩ := wellFormed
    obtain ⟨less, rfl⟩ := Nat.exists_eq_succ_of_ne_zero levels.ne'
    have read := parsePipeline_spelled endLine less .parentheses scope _ rest rfl inside wellFormed
    refine (parseOperand_group read .nil apart fun _ => rfl).imp ?_
    rintro _ ⟨inner, same, rfl⟩
    rw [Operand.unlined, Operand.unlined, same]
  | chain inside some fields =>
    rename_i behind
    obtain ⟨-, levels, wellFormed⟩ := wellFormed
    obtain ⟨less, rfl⟩ := Nat.exists_eq_succ_of_ne_zero levels.ne'
    have read := parsePipeline_spelled endLine less .parentheses scope _ (behind ++ rest) rfl inside
      wellFormed
    rw [List.cons_append, List.append_assoc]
    refine (parseOperand_group read fields apart (group_of_path some)).imp ?_
    rintro _ ⟨inner, same, rfl⟩
    simp only [Operand.unlined, same]
termination_by (n, 1)
decreasing_by
  all_goals simp at size
  all_goals omega

theorem parseOperands_spelled (endLine room bound : Nat) (before : List Operand) (scope : Scope)
    (ts rest : List Token) {n : Nat} (size : ts.length = n) {all : List Token}
    (whole : all = ts ++ rest) {operands : List Operand} (spelled : SpellsOperands operands ts)
    (wellFormed : operandsWellFormed room scope operands)
    (ends : endsCommand rest = true) (less : all.length < bound) :
    Yields (parseOperands endLine room bound before scope all less)
      (fun read => ∃ new, read = before.reverse ++ new ∧
        operandsUnlined new = operandsUnlined operands)
      ((operandsAdds operands).names ++ scope) rest := by
  cases spelled with
  | nil =>
    subst whole
    rw [parseOperands.eq_def, if_pos ends]
    exact ⟨_, rfl, ⟨[], (List.append_nil _).symm, rfl⟩, rfl, rfl⟩
  | cons first apart later =>
    rename_i operand others ts us
    obtain ⟨fit, fits⟩ := wellFormed
    obtain ⟨t, r, rfl, starts, -⟩ := first.begins
    rw [List.append_assoc] at whole
    subst whole
    obtain ⟨⟨value, within, _, shorter⟩, read, same, rfl, rfl⟩ :=
      parseOperand_spelled endLine room scope (t :: r) (us ++ rest) rfl first fit
        (not_glued_append apart (not_glued_of_endsCommand ends))
    obtain ⟨p, tail, ⟨new, all, alike⟩, after, last⟩ :=
      parseOperands_spelled endLine room bound (value :: before) _ us rest rfl rfl later fits ends
        (Nat.lt_trans shorter less)
    have goesOn : endsCommand (t :: r ++ (us ++ rest)) = false := endsCommand_cons _ starts
    rw [parseOperands.eq_def, if_neg (Bool.eq_false_iff.mp goesOn), read, Chain.ok_bind]
    refine ⟨p, tail, ⟨value :: new, by simpa using all, ?_⟩, ?_, last⟩
    · rw [operandsUnlined, operandsUnlined, alike, same]
    · rw [after, operandsAdds, Reach.names_append, List.append_assoc]
termination_by (n, 2)
decreasing_by
  all_goals simp_wf
  all_goals simp at size
  all_goals omega

theorem parseCommand_spelled (endLine room : Nat) (scope : Scope) (ts rest : List Token) {n : Nat}
    (size : ts.length = n) {line : Nat} {operands : List Operand}
    (spelled : SpellsOperands operands ts)
    (wellFormed : (Command.mk line operands).WellFormed room scope)
    (ends : endsCommand rest = true) :
    Yields (parseCommand endLine room scope (ts ++ rest))
      (·.unlined = .mk 0 (operandsUnlined operands))
      ((operandsAdds operands).names ++ scope) rest := by
  obtain ⟨some, notNil, fits⟩ := wellFormed
  cases spelled with
  | nil => exact absurd rfl some
  | cons first apart later =>
    rename_i operand others ts us
    obtain ⟨fit, fits⟩ := fits
    obtain ⟨t, r, rfl, starts, -⟩ := first.begins
    rw [List.append_assoc]
    obtain ⟨⟨value, within, _, shorter⟩, read, same, rfl, rfl⟩ :=
      parseOperand_spelled endLine room scope (t :: r) (us ++ rest) rfl first fit
        (not_glued_append apart (not_glued_of_endsCommand ends))
    obtain ⟨p, tail, ⟨new, all, alike⟩, after, last⟩ :=
      parseOperands_spelled endLine room _ [value] _ us rest rfl rfl later fits ends shorter
    have goesOn : endsCommand (t :: r ++ (us ++ rest)) = false := endsCommand_cons _ starts
    have whole : operandsUnlined p.value = operandsUnlined (operand :: others) := by
      rw [all, operandsUnlined, ← alike, ← same]
      rfl
    rw [parseCommand.eq_def, if_neg (Bool.eq_false_iff.mp goesOn), read, Chain.ok_bind, tail,
      Chain.ok_bind]
    have within : p.scope = (operandsAdds (operand :: others)).names ++ scope := by
      rw [after, operandsAdds, Reach.names_append, List.append_assoc]
    split
    · rename_i single alone
      rw [alone] at whole
      have notNull : ¬isNil single = true := by
        intro null
        rw [isNil_iff.mp null] at whole
        obtain ⟨one, none⟩ := List.cons.inj whole
        rw [unlined_eq_literal one.symm, operandsUnlined_eq_nil none.symm] at notNil
        exact notNil rfl
      rw [if_neg notNull]
      exact ⟨_, rfl, congrArg (Command.mk 0) whole, within, last⟩
    · exact ⟨_, rfl, congrArg (Command.mk 0) whole, within, last⟩
termination_by (n, 3)
decreasing_by
  all_goals simp_wf
  all_goals simp at size
  all_goals omega

theorem parseCommands_spelled (endLine room bound : Nat) (place : Place) (before : List Command)
    (scope : Scope) (ts rest : List Token) {n : Nat} (size : ts.length = n) {all : List Token}
    (whole : all = ts ++ rest) {commands : List Command}
    (spelled : SpellsCommands place commands ts)
    (wellFormed : commandsWellFormed room scope commands) (le : all.length ≤ bound) :
    Yields (parseCommands endLine room place bound before scope all le)
      (fun read => ∃ new, read = before.reverse ++ new ∧
        commandsUnlined new = commandsUnlined commands)
      ((commandsAdds commands).names ++ scope) rest := by
  cases spelled with
  | last only =>
    rename_i line l s operands ts
    obtain ⟨fit, -⟩ := wellFormed
    obtain ⟨t, r, starts, first, -⟩ := only.begins fit.1 ⟨closer place, l, s⟩ rest
      (not_isBinder_closer place)
    rw [List.append_assoc] at whole
    subst whole
    obtain ⟨⟨command, _, _, _⟩, read, same, rfl, rfl⟩ :=
      parseCommand_spelled endLine room scope ts _ rfl only fit (endsCommand_closer place l s rest)
    refine parseCommands_command ⟨t, r, starts, first⟩ read afterCommand_closer fun less => ?_
    rw [parseCommands_closer]
    refine ⟨_, rfl, ⟨[command], by simp, ?_⟩, ?_, rfl⟩
    · rw [commandsUnlined, same]
      rfl
    · rw [commandsAdds, commandsAdds, List.nil_append, names_command_adds]
  | piped first later =>
    rename_i line l s operands others ts us
    obtain ⟨fit, fits⟩ := wellFormed
    obtain ⟨t, r, starts, begins, -⟩ := first.begins fit.1 ⟨.pipe, l, s⟩ (us ++ rest)
      nofun
    rw [List.append_assoc, List.cons_append] at whole
    subst whole
    obtain ⟨⟨command, _, _, _⟩, read, same, rfl, rfl⟩ :=
      parseCommand_spelled endLine room scope ts _ rfl first fit (endsCommand_pipe l s (us ++ rest))
    have goesOn : isCloser (nextLexeme (us ++ rest)) = false := by
      obtain ⟨u, r, next, begins, -⟩ := later.begins fits rest
      rw [next]
      exact isCloser_of_begins begins
    refine parseCommands_command ⟨t, r, starts, begins⟩ read (afterCommand_pipe goesOn)
      fun less => ?_
    rw [← names_command_adds line operands]
    obtain ⟨q, tail, ⟨new, all, alike⟩, last, left⟩ :=
      parseCommands_spelled endLine room bound place (command :: before) _ us rest rfl rfl later
        fits less
    refine ⟨q, tail, ⟨command :: new, by simpa using all, ?_⟩, ?_, left⟩
    · rw [commandsUnlined, commandsUnlined, alike, same, Command.unlined]
    · rw [last, commandsAdds, Reach.names_append, List.append_assoc]
termination_by (n, 4)
decreasing_by
  all_goals simp at size
  all_goals omega

theorem parsePipeline_spelled (endLine room : Nat) (place : Place) (scope : Scope)
    (ts rest : List Token) {n : Nat} (size : ts.length = n) {pipe : Pipeline}
    (spelled : SpellsPipeline place pipe ts)
    (wellFormed : pipe.WellFormed room place scope) :
    Yields (parsePipeline endLine room place scope (ts ++ rest)) (·.unlined = pipe.unlined)
      (pipe.adds.names ++ scope) rest := by
  cases spelled with
  | mk named inside =>
    rename_i line names assigns commands ts us
    obtain ⟨few, held, some, fits⟩ := wellFormed
    obtain ⟨t, r, starts, -, behind⟩ := inside.begins fits rest
    have bound := parseBinding_spelled endLine named few held (us ++ rest) fun _ => by
      rw [starts]
      exact namesAt_unnamed place behind
    rw [List.append_assoc, parsePipeline.eq_def, bound, Chain.ok_bind]
    obtain ⟨p, read, ⟨new, all, alike⟩, after, last⟩ :=
      parseCommands_spelled endLine room (ts ++ (us ++ rest)).length place [] _ us rest rfl
        List.drop_left inside fits (by simp)
    rw [read, Chain.ok_bind]
    have whole : commandsUnlined p.value = commandsUnlined commands := by
      rw [all, ← alike]
      rfl
    split
    · rename_i none
      rw [List.isEmpty_iff.mp none] at whole
      cases commands with
      | nil => exact absurd rfl some
      | cons command others => cases whole
    · refine ⟨_, rfl, congrArg (Pipeline.mk 0 names assigns) whole, ?_, last⟩
      rw [after, Pipeline.names_adds, List.append_assoc]
      rfl
termination_by (n, 5)
decreasing_by
  all_goals simp at size
  all_goals omega
end

end PagePress.Template
