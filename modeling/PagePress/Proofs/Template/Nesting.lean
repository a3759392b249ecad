import PagePress.Proofs.Template.Levels

namespace PagePress.Template

open Chain

def Meets {α : Type} (bad : ParseError → Prop) (good : α → Prop) : Except ParseError α → Prop
  | .ok a => good a
  | .error error => bad error

-- The error stands behind what was read, with no more than `limit` levels on the way. Only the
-- last token of a template that is too deep opens one more.
def Stops (limit endLine : Nat) (p : Position) (ts : List Token) (error : ParseError) : Prop :=
  ∃ q rest top, Climbs p ts q rest top ∧ top ≤ limit ∧
    if error.fault = .tooDeep then
      ∃ t behind, rest = t :: behind ∧ (q.read t.lexeme).level = limit + 1 ∧
        error.line = lineAt endLine behind
    else error.line = lineAt endLine rest

-- What was read is as deep as what was made of it, and that fits the room. Four evaluations go
-- with each level: a parenthesis with the fields behind it, its pipeline and a command.
structure Spans (p : Position) (room : Nat) (ts : List Token) (q : Position) (rest : List Token)
    (depth height slack : Nat) : Prop where
  climbs : Climbs p ts q rest (p.level + depth)
  fits : depth ≤ room
  shallow : height ≤ 4 * depth + slack

section Rules

variable {α β : Type} {limit endLine room : Nat} {p q r : Position} {ts us vs : List Token}
  {top depth height slack depth' height' slack' : Nat} {error : ParseError} {fault : ParseFault}

theorem Meets.bind {bad : ParseError → Prop} {good : α → Prop} {good' : β → Prop}
    {step : Except ParseError α} {next : α → Except ParseError β} (first : Meets bad good step)
    (second : ∀ a, good a → Meets bad good' (next a)) : Meets bad good' (step >>= next) := by
  cases step with
  | ok a => exact second a first
  | error error => exact first

theorem Meets.imp {bad : ParseError → Prop} {good good' : α → Prop} {step : Except ParseError α}
    (meets : Meets bad good step) (leave : ∀ a, good a → good' a) : Meets bad good' step := by
  cases step with
  | ok a => exact leave a meets
  | error error => exact meets

theorem Meets.imp_bad {bad bad' : ParseError → Prop} {good : α → Prop} {step : Except ParseError α}
    (meets : Meets bad good step) (fail : ∀ error, bad error → bad' error) :
    Meets bad' good step := by
  cases step with
  | ok a => exact meets
  | error error => exact fail error meets

theorem Stops.after (climbs : Climbs p ts q us top) (low : top ≤ limit)
    (stops : Stops limit endLine q us error) : Stops limit endLine p ts error := by
  obtain ⟨r, rest, top', further, low', located⟩ := stops
  exact ⟨r, rest, _, climbs.trans further, Nat.max_le.mpr ⟨low, low'⟩, located⟩

theorem Stops.here (climbs : Climbs p ts q us top) (low : top ≤ limit) (other : fault ≠ .tooDeep) :
    Stops limit endLine p ts ⟨lineAt endLine us, fault⟩ :=
  ⟨q, us, top, climbs, low, by rw [if_neg other]⟩

theorem Meets.after {good : α → Prop} {step : Except ParseError α} (climbs : Climbs p ts q us top)
    (low : top ≤ limit) (meets : Meets (Stops limit endLine q us) good step) :
    Meets (Stops limit endLine p ts) good step := by
  cases step with
  | ok a => exact meets
  | error error => exact Stops.after climbs low meets

theorem Meets.deeper {good : α → Prop} {step : Except ParseError α} {t : Token}
    (opens : p.read t.lexeme = q) (above : q.level = p.level + 1) (low : q.level ≤ limit)
    (meets : Meets (Stops limit endLine q us) good step) :
    Meets (Stops limit endLine p (t :: us)) good step := by
  have enters := Climbs.step (p := p) t us
  rw [opens, Nat.max_eq_right (by omega)] at enters
  exact meets.after enters low

theorem Stops.tooDeep {t : Token} (full : p.level = limit)
    (opens : (p.read t.lexeme).level = p.level + 1) :
    Stops limit endLine p (t :: us) ⟨lineAt endLine us, .tooDeep⟩ :=
  ⟨p, t :: us, p.level, .refl p _, Nat.le_of_eq full, by
    rw [if_pos rfl]
    exact ⟨t, us, rfl, full ▸ opens, rfl⟩⟩

namespace Spans

theorem top_le (spans : Spans p room ts q us depth height slack) (whole : p.level + room = limit) :
    p.level + depth ≤ limit := by
  have fits := spans.fits
  omega

theorem trans (first : Spans p room ts q us depth height slack)
    (second : Spans q room us r vs depth' height' slack) (same : q.level = p.level) :
    Spans p room ts r vs (max depth depth') (max height height') slack := by
  refine ⟨?_, Nat.max_le.mpr ⟨first.fits, second.fits⟩, ?_⟩
  · have both := first.climbs.trans second.climbs
    rwa [same, Nat.add_max_add_left] at both
  · have shallow := first.shallow
    have shallow' := second.shallow
    omega

theorem ahead (climbs : Climbs p ts q us p.level) (same : q.level = p.level)
    (spans : Spans q room us r vs depth height slack) :
    Spans p room ts r vs depth height slack := by
  refine ⟨?_, spans.fits, spans.shallow⟩
  have both := climbs.trans spans.climbs
  rwa [same, Nat.max_eq_right (Nat.le_add_right ..)] at both

theorem behind (spans : Spans p room ts q us depth height slack)
    (climbs : Climbs q us r vs q.level) : Spans p room ts r vs depth height slack := by
  refine ⟨?_, spans.fits, spans.shallow⟩
  have both := spans.climbs.trans climbs
  rwa [Nat.max_eq_left spans.climbs.level_le] at both

theorem loosen (spans : Spans p room ts q us depth height slack) (more : slack ≤ slack') :
    Spans p room ts q us depth height slack' :=
  ⟨spans.climbs, spans.fits, spans.shallow.trans (Nat.add_le_add_left more _)⟩

theorem nothing (climbs : Climbs p ts q us p.level) : Spans p room ts q us 0 0 slack :=
  ⟨climbs, Nat.zero_le _, Nat.zero_le _⟩

theorem deeper {t : Token} (opens : p.read t.lexeme = q) (above : q.level = p.level + 1)
    (spans : Spans q room us r vs depth height slack) (fits : height' ≤ 4 * (depth + 1) + slack') :
    Spans p (room + 1) (t :: us) r vs (depth + 1) height' slack' := by
  refine ⟨?_, Nat.succ_le_succ spans.fits, fits⟩
  have both := (Climbs.step (p := p) t us).trans (opens ▸ spans.climbs)
  rw [opens, above] at both
  rwa [Nat.max_eq_right (Nat.le_succ _), Nat.max_eq_right (by omega),
    Nat.add_right_comm, Nat.add_assoc] at both

theorem wrap (spans : Spans p room ts q us depth height slack) :
    Spans p room ts q us depth (height + 1) (slack + 1) :=
  ⟨spans.climbs, spans.fits, Nat.succ_le_succ spans.shallow⟩

end Spans

end Rules

section Terms

variable {limit endLine room : Nat} {scope : Scope} {ts : List Token}

theorem simpleTerm_fault {lexeme : Lexeme} {fault : ParseFault}
    (refused : simpleTerm scope lexeme = .error fault) : fault ≠ .tooDeep := by
  rintro rfl
  rw [simpleTerm.eq_def] at refused
  split at refused
  · cases refused
  · cases refused
  · split at refused <;> cases refused
  · cases refused
  · cases refused
  · split at refused <;> cases refused
  · rw [wordOperand.eq_def] at refused
    split at refused
    · cases refused
    · cases refused
    · cases refused
    · split at refused
      · cases refused
      · split at refused <;> cases refused
  · cases refused

theorem namesAt_fault {place : Place} {fault : ParseFault}
    (refused : namesAt place ts = .error fault) : fault ≠ .tooDeep := by
  rintro rfl
  rw [namesAt.eq_def] at refused
  split at refused
  · cases refused
  · cases refused
  · split at refused
    · split at refused <;> cases refused
    · cases refused
  · cases refused

theorem bindNames_fault {names : List String} {assigns : Bool} {fault : ParseFault}
    (refused : names.foldlM (bindName · assigns ·) scope = .error fault) : fault ≠ .tooDeep := by
  induction names generalizing scope with
  | nil => cases refused
  | cons name rest ih =>
    rw [List.foldlM_cons] at refused
    rcases bind_eq_error.mp refused with failed | ⟨next, -, later⟩
    · rintro rfl
      rw [bindName] at failed
      split at failed
      · split at failed <;> cases failed
      · cases failed
    · exact ih later

theorem group_height {pipe : Pipeline} {operand : Operand} {path : List String}
    (made : withFields? (.group pipe) path = some operand) : operand.height ≤ pipe.height + 2 := by
  rw [withFields?.eq_def] at made
  split at made <;> cases made
  · exact Nat.le_succ _
  · exact Nat.le_refl _

theorem parseBinding_meets (place : Place) (opened : List Bracket)
    (whole : opened.length + room = limit) :
    Meets (Stops limit endLine ⟨opened, .inside⟩ ts)
      (fun binding => Climbs ⟨opened, .inside⟩ ts ⟨opened, .inside⟩ (ts.drop binding.width)
        opened.length)
      (parseBinding endLine place scope ts) := by
  have low : opened.length ≤ limit := by omega
  have passed {names : List String} {assigns : Bool} {width : Nat}
      (found : namesAt place ts = .ok (names, assigns, width)) :
      Climbs ⟨opened, .inside⟩ ts ⟨opened, .inside⟩ (ts.drop width) opened.length := by
    have stays := Climbs.stay (ts.drop width) (names_stay (namesAt_sound found).1 opened)
    rwa [List.take_append_drop] at stays
  rw [parseBinding]
  split
  · rename_i fault refused
    exact Stops.here (.refl _ ts) low (namesAt_fault refused)
  · rename_i names assigns width found
    split
    · rename_i fault refused
      exact Stops.here (passed found) low (bindNames_fault refused)
    · exact passed found

theorem afterCommand_meets (place : Place) {opened : List Bracket} (low : opened.length ≤ limit) :
    Meets (Stops limit endLine ⟨opened, .inside⟩ ts)
      (fun next => Climbs ⟨opened, .inside⟩ ts ⟨opened, .inside⟩ next.val opened.length)
      (afterCommand endLine place ts) := by
  rw [afterCommand.eq_def]
  split
  · exact Stops.here (.refl _ []) low nofun
  · rename_i t r
    split
    · rename_i piped
      have stays : Climbs ⟨opened, .inside⟩ (t :: r) ⟨opened, .inside⟩ r opened.length :=
        .stay_one r (by rw [piped]; rfl)
      split
      · exact Stops.here stays low nofun
      · exact stays
    · exact Climbs.refl _ (t :: r)

theorem commands_joined {opened : List Bracket} {q : Position} {us : List Token} {first : Command}
    {before : List Command} {n : Nat} {p : Parsed (List Command) n}
    (spans : Spans ⟨opened, .inside⟩ room ts ⟨opened, .inside⟩ us first.depth first.height 2)
    (later : ∃ new, p.value = (first :: before).reverse ++ new ∧
      Spans ⟨opened, .inside⟩ room us q p.rest (commandsDepth new) (commandsHeight new) 2) :
    ∃ new, p.value = before.reverse ++ new ∧
      Spans ⟨opened, .inside⟩ room ts q p.rest (commandsDepth new) (commandsHeight new) 2 := by
  obtain ⟨new, same, later⟩ := later
  exact ⟨first :: new, by simpa using same, spans.trans later rfl⟩

end Terms

mutual
theorem parseTerm_meets {limit : Nat} (endLine room : Nat) (scope : Scope) (ts : List Token)
    (opened : List Bracket) (whole : opened.length + room = limit) :
    Meets (Stops limit endLine ⟨opened, .inside⟩ ts)
      (fun p => Spans ⟨opened, .inside⟩ room ts ⟨opened, .inside⟩ p.rest p.value.depth 0 0 ∧
        ∀ path operand, withFields? p.value path = some operand →
          operand.height ≤ 4 * p.value.depth + 1)
      (parseTerm endLine room scope ts) := by
  have low : opened.length ≤ limit := by omega
  cases ts with
  | nil =>
    rw [parseTerm]
    exact Stops.here (.refl _ []) low nofun
  | cons t r =>
    rw [parseTerm.eq_def]
    dsimp only
    split
    · rename_i opens
      have inner : Position.read ⟨opened, .inside⟩ t.lexeme =
          ⟨.parenthesis :: opened, .inside⟩ := by
        rw [opens]
        rfl
      split
      · exact Stops.tooDeep whole (congrArg Position.level inner)
      · rename_i room
        have most : opened.length + 1 + room = limit := by omega
        have meets := parsePipeline_meets endLine room .parentheses scope r
          (.parenthesis :: opened) most
        refine Meets.bind (meets.deeper inner rfl (most ▸ Nat.le_add_right ..)) fun p spans => ?_
        refine ⟨spans.deeper inner rfl (Nat.zero_le _), fun path operand made => ?_⟩
        have shallow := spans.shallow
        have high := group_height made
        show _ ≤ 4 * (p.value.depth + 1) + 1
        omega
    · rename_i other
      split
      · rename_i term found
        have stays := simpleTerm_stays found opened
        have climbs := Climbs.stay_one r stays
        obtain ⟨flat, -⟩ := simpleTerm_flat found (show withFields? term [] = some term from rfl)
        refine ⟨?_, fun path operand made => ?_⟩
        · rw [flat]
          exact .nothing climbs
        · rw [(simpleTerm_flat found made).2]
          exact Nat.le_add_left ..
      · rename_i fault refused
        exact Stops.here (.step_le (read_inside_le other)) low (simpleTerm_fault refused)
termination_by (ts.length, 0)

theorem parseOperand_meets {limit : Nat} (endLine room : Nat) (scope : Scope) (ts : List Token)
    (opened : List Bracket) (whole : opened.length + room = limit) :
    Meets (Stops limit endLine ⟨opened, .inside⟩ ts)
      (fun p => Spans ⟨opened, .inside⟩ room ts ⟨opened, .inside⟩ p.rest p.value.depth
        p.value.height 1)
      (parseOperand endLine room scope ts) := by
  rw [parseOperand]
  refine Meets.bind (parseTerm_meets endLine room scope ts opened whole) fun p ⟨spans, flat⟩ => ?_
  have spans := spans.behind (takeFields_climbs opened p.rest)
  dsimp only
  split
  · rename_i operand made
    have same := withFields?_depth made
    refine ⟨?_, same ▸ spans.fits, same ▸ flat _ _ made⟩
    rw [same]
    exact spans.climbs
  · exact Stops.here spans.climbs (spans.top_le whole) nofun
termination_by (ts.length, 1)

theorem parseOperands_meets {limit : Nat} (endLine room bound : Nat) (before : List Operand)
    (scope : Scope) (ts : List Token) (less : ts.length < bound) (opened : List Bracket)
    (whole : opened.length + room = limit) :
    Meets (Stops limit endLine ⟨opened, .inside⟩ ts)
      (fun p => ∃ new, p.value = before.reverse ++ new ∧ Spans ⟨opened, .inside⟩ room ts
        ⟨opened, .inside⟩ p.rest (operandsDepth new) (operandsHeight new) 1)
      (parseOperands endLine room bound before scope ts less) := by
  rw [parseOperands]
  split
  · exact ⟨[], (List.append_nil _).symm, .nothing (.refl _ ts)⟩
  · refine Meets.bind (parseOperand_meets endLine room scope ts opened whole) fun first spans => ?_
    have shorter := first.shorter
    have tail := parseOperands_meets endLine room bound (first.value :: before) first.scope
      first.rest (Nat.lt_trans first.shorter less) opened whole
    refine (tail.after spans.climbs (spans.top_le whole)).imp fun p ⟨new, same, later⟩ => ?_
    exact ⟨first.value :: new, by simpa using same, spans.trans later rfl⟩
termination_by (ts.length, 2)

theorem parseCommand_meets {limit : Nat} (endLine room : Nat) (scope : Scope) (ts : List Token)
    (opened : List Bracket) (whole : opened.length + room = limit) :
    Meets (Stops limit endLine ⟨opened, .inside⟩ ts)
      (fun p => Spans ⟨opened, .inside⟩ room ts ⟨opened, .inside⟩ p.rest p.value.depth
        p.value.height 2)
      (parseCommand endLine room scope ts) := by
  rw [parseCommand]
  split
  · exact Stops.here (.refl _ ts) (whole ▸ Nat.le_add_right ..) nofun
  · refine Meets.bind (parseOperand_meets endLine room scope ts opened whole) fun first spans => ?_
    have shorter := first.shorter
    have tail := parseOperands_meets endLine room ts.length [first.value] first.scope first.rest
      first.shorter opened whole
    refine Meets.bind (tail.after spans.climbs (spans.top_le whole)) fun p ⟨new, same, later⟩ => ?_
    have both := spans.trans later rfl
    have command (line : Nat) : Spans ⟨opened, .inside⟩ room ts ⟨opened, .inside⟩ p.rest
        (Command.mk line p.value).depth (Command.mk line p.value).height 2 := by
      rw [same]
      exact both.wrap
    split
    · rename_i operand found
      rw [found] at command
      split
      · exact Stops.here both.climbs (both.top_le whole) nofun
      · exact command _
    · exact command _
termination_by (ts.length, 3)

theorem parseCommands_meets {limit : Nat} (endLine room : Nat) (place : Place) (bound : Nat)
    (before : List Command) (scope : Scope) (ts : List Token) (le : ts.length ≤ bound)
    (opened : List Bracket) (whole : opened.length + room = limit) :
    Meets (Stops limit endLine ⟨opened, .inside⟩ ts)
      (fun p => ∃ new, p.value = before.reverse ++ new ∧ Spans ⟨opened, .inside⟩ room ts
        (Position.read ⟨opened, .inside⟩ (closer place)) p.rest (commandsDepth new)
        (commandsHeight new) 2)
      (parseCommands endLine room place bound before scope ts le) := by
  have low : opened.length ≤ limit := by omega
  by_cases closes : nextLexeme ts = some (closer place)
  · obtain ⟨l, s, r, rfl⟩ := nextLexeme_sound closes
    have other : closer place ≠ .leftParen := by
      rw [closer]
      split <;> nofun
    rw [parseCommands_closer]
    exact ⟨[], (List.append_nil _).symm, .nothing (.step_le (read_inside_le other))⟩
  · rw [parseCommands_next closes]
    split
    · exact Stops.here (.refl _ ts) low nofun
    · have command := parseCommand_meets endLine room scope ts opened whole
      refine Meets.bind command fun first spans => ?_
      refine Meets.bind ((afterCommand_meets place low).after spans.climbs (spans.top_le whole))
        fun next climbs => ?_
      have shorter := next.property.trans_lt first.shorter
      have spans := spans.behind climbs
      have tail := parseCommands_meets endLine room place bound (first.value :: before) first.scope
        next.val ((next.property.trans first.shorter.le).trans le) opened whole
      exact (tail.after spans.climbs (spans.top_le whole)).imp fun _ => commands_joined spans
termination_by (ts.length, 4)

theorem parsePipeline_meets {limit : Nat} (endLine room : Nat) (place : Place) (scope : Scope)
    (ts : List Token) (opened : List Bracket) (whole : opened.length + room = limit) :
    Meets (Stops limit endLine ⟨opened, .inside⟩ ts)
      (fun p => Spans ⟨opened, .inside⟩ room ts
        (Position.read ⟨opened, .inside⟩ (closer place)) p.rest p.value.depth p.value.height 3)
      (parsePipeline endLine room place scope ts) := by
  rw [parsePipeline]
  refine Meets.bind (parseBinding_meets place opened whole) fun binding named => ?_
  have commands := parseCommands_meets endLine room place ts.length [] binding.scope
    (ts.drop binding.width) (by simp) opened whole
  refine Meets.bind (commands.after named (whole ▸ Nat.le_add_right ..)) fun p found => ?_
  obtain ⟨new, same, spans⟩ := found
  obtain rfl : p.value = new := same
  have spans := Spans.ahead named rfl spans
  split
  · exact Stops.here spans.climbs (spans.top_le whole) nofun
  · exact spans.wrap
termination_by (ts.length, 5)
decreasing_by
  all_goals simp_wf
  all_goals omega
end

section Actions

variable {limit endLine room : Nat} {place : Place} {opened : List Bracket} {ts : List Token}

def Stop.behind (opened : List Bracket) : Stop → Position
  | .endOfInput => ⟨opened, .outside⟩
  | .endMark => ⟨closeBranch opened, .outside⟩
  | .elseMark => ⟨opened, .behindElse⟩

-- At the start of an action the first token is read as any other, unless it is a head.
theorem Climbs.opening {q : Position} {rest : List Token} {top : Nat}
    (plain : ∀ word, headWord? ts = some word → ¬IsHead word)
    (climbs : Climbs ⟨opened, .inside⟩ ts q rest top) :
    (q = ⟨opened, .inside⟩ ∧ rest = ts) ∨ Climbs ⟨opened, .opening⟩ ts q rest top := by
  obtain ⟨used, rfl, rfl, rfl⟩ := climbs
  cases used with
  | nil => exact .inl ⟨rfl, rfl⟩
  | cons t used =>
    have same : Position.read ⟨opened, .opening⟩ t.lexeme =
        Position.read ⟨opened, .inside⟩ t.lexeme :=
      read_opening fun word found => plain word (by rw [headWord?, nextLexeme]; simp [found])
    refine .inr ⟨t :: used, rfl, ?_, ?_⟩
    · show Position.through (Position.read _ _) used = _
      rw [same]
      rfl
    · rw [Position.peak, Position.peak, same]
      rfl

theorem Stops.opening {error : ParseError} (plain : ∀ word, headWord? ts = some word → ¬IsHead word)
    (stops : Stops limit endLine ⟨opened, .inside⟩ ts error) :
    Stops limit endLine ⟨opened, .opening⟩ ts error := by
  obtain ⟨q, rest, top, climbs, low, located⟩ := stops
  rcases climbs.opening plain with ⟨rfl, rfl⟩ | climbs
  · refine ⟨_, rest, _, .refl _ rest, climbs.level_le.trans low, ?_⟩
    split
    · rename_i deep
      rw [if_pos deep] at located
      obtain ⟨t, behind, rfl, high, line⟩ := located
      refine ⟨t, behind, rfl, ?_, line⟩
      rw [read_opening fun word found => plain word (by rw [headWord?, nextLexeme]; simp [found])]
      exact high
    · rename_i other
      rwa [if_neg other] at located
  · exact ⟨q, rest, top, climbs, low, located⟩

theorem read_else_le {kind : BranchKind} {lexeme : Lexeme}
    (top : opened.head?.bind Bracket.kind? = some kind)
    (unlinked : ∀ word, lexeme = .word word → kind.chainWord? ≠ some word) :
    (Position.read ⟨opened, .behindElse⟩ lexeme).level ≤ opened.length := by
  cases lexeme with
  | word word =>
    show (Position.behindLink opened word).level ≤ _
    rw [Position.behindLink, linked?_none top (unlinked word rfl)]
    exact Nat.le_refl _
  | _ => exact Nat.le_refl _

theorem expectClose_meets {p : Position} (low : p.level ≤ limit)
    (closes : p.read .closeAction = ⟨opened, .outside⟩)
    (flat : ∀ t r, ts = t :: r → (p.read t.lexeme).level ≤ p.level) :
    Meets (Stops limit endLine p ts)
      (fun rest => Climbs p ts ⟨opened, .outside⟩ rest.val p.level)
      (expectClose endLine place ts) := by
  rw [expectClose.eq_def]
  split
  · exact Stops.here (.refl p []) low nofun
  · rename_i t r
    have climbs : Climbs p (t :: r) _ r _ := .step_le (flat t r rfl)
    split
    · rename_i close
      rw [close, closes] at climbs
      exact climbs
    · exact Stops.here climbs low nofun

def PartSpans (room : Nat) (opened : List Bracket) (ts : List Token) {n : Nat}
    (p : Parsed Part n) : Prop :=
  match p.value with
  | .node node =>
    Spans ⟨opened, .opening⟩ room ts ⟨opened, .outside⟩ p.rest node.depth node.height 4
  | .stop stop =>
    stop ≠ .endOfInput ∧ Spans ⟨opened, .opening⟩ room ts (stop.behind opened) p.rest 0 0 4

theorem parsePlain_meets (scope : Scope) (whole : opened.length + room = limit)
    (plain : ∀ word, headWord? ts = some word → ¬IsHead word) :
    Meets (Stops limit endLine ⟨opened, .opening⟩ ts) (PartSpans room opened ts)
      (parsePlain endLine room scope ts) := by
  have meets := parsePipeline_meets endLine room .command scope ts opened whole
  refine Meets.bind (meets.imp_bad fun error => Stops.opening plain) fun p spans => ?_
  rcases spans.climbs.opening plain with ⟨stays, -⟩ | climbs
  · cases stays
  · exact (⟨climbs, spans.fits, spans.shallow⟩ : Spans ⟨opened, .opening⟩ ..).wrap

section Head

variable {word : String} {l : Nat} {s : Bool}

theorem Climbs.head {q : Position} (reads : Position.read ⟨opened, .opening⟩ (.word word) = q)
    (lower : q.level ≤ opened.length) :
    Climbs ⟨opened, .opening⟩ (⟨.word word, l, s⟩ :: ts) q ts opened.length := by
  have climbs : Climbs ⟨opened, .opening⟩ (⟨.word word, l, s⟩ :: ts) _ ts _ :=
    .step_le (reads ▸ lower)
  rwa [reads] at climbs

theorem parseAlone_meets (low : opened.length ≤ limit) (place : Place) {part : Part} {scope : Scope}
    {after : List Bracket}
    (reads : Position.read ⟨opened, .opening⟩ (.word word) = ⟨after, .closing⟩)
    (lower : after.length ≤ opened.length) :
    Meets (Stops limit endLine ⟨opened, .opening⟩ (⟨.word word, l, s⟩ :: ts))
      (fun p => p.value = part ∧ Climbs ⟨opened, .opening⟩ (⟨.word word, l, s⟩ :: ts)
        ⟨after, .outside⟩ p.rest opened.length)
      (parseAlone endLine part place scope ts) := by
  have climbs : Climbs _ (⟨.word word, l, s⟩ :: ts) _ ts _ := Climbs.head reads lower
  have closes : Meets (Stops limit endLine ⟨after, .closing⟩ ts) _ (expectClose endLine place ts) :=
    expectClose_meets (lower.trans low) rfl fun t r _ => read_closing_le
  refine Meets.bind (closes.after climbs low) fun rest further => ⟨rfl, ?_⟩
  have both : Climbs _ (⟨.word word, l, s⟩ :: ts) _ rest.val (max opened.length after.length) :=
    climbs.trans further
  rwa [Nat.max_eq_left lower] at both

theorem parseLeaving_meets (low : opened.length ≤ limit) (place : Place) {node : Node}
    {scope : Scope} (inRange : Bool) (flat : node.depth = 0) (single : node.height = 1)
    (reads : Position.read ⟨opened, .opening⟩ (.word word) = ⟨opened, .closing⟩) :
    Meets (Stops limit endLine ⟨opened, .opening⟩ (⟨.word word, l, s⟩ :: ts))
      (PartSpans room opened (⟨.word word, l, s⟩ :: ts))
      (parseLeaving endLine inRange node place scope ts) := by
  rw [parseLeaving]
  split
  · refine (parseAlone_meets low place reads (Nat.le_refl _)).imp fun p done => ?_
    obtain ⟨same, climbs⟩ := done
    rw [PartSpans, same]
    dsimp only
    rw [flat, single]
    exact ⟨climbs, Nat.zero_le _, by decide⟩
  · exact Stops.here (Climbs.head reads (Nat.le_refl _)) low fun same => by cases same

end Head

end Actions

mutual
theorem parseNodes_meets {limit : Nat} (endLine room : Nat) (inRange : Bool) (bound : Nat)
    (opened : List Bracket) (whole : opened.length + room = limit) :
    (before : List Node) → (scope : Scope) → (ts : List Token) → (less : ts.length < bound) →
    Meets (Stops limit endLine ⟨opened, .outside⟩ ts)
      (fun p => (p.value.2 = .endOfInput → p.rest = []) ∧
        ∃ new, p.value.1 = before.reverse ++ new ∧ Spans ⟨opened, .outside⟩ room ts
          (p.value.2.behind opened) p.rest (nodesDepth new) (nodesHeight new) 4)
      (parseNodes endLine room inRange bound before scope ts less)
  | before, scope, [], less => by
    rw [parseNodes]
    exact ⟨fun _ => rfl, [], (List.append_nil _).symm, .nothing (.refl _ [])⟩
  | before, scope, t :: r, less => by
    have low : opened.length ≤ limit := by omega
    have passed : Climbs ⟨opened, .outside⟩ (t :: r) _ r _ := .step_le read_outside_le
    rw [parseNodes.eq_def]
    dsimp only
    split
    · rename_i bytes text
      rw [text] at passed
      have tail := parseNodes_meets endLine room inRange bound opened whole (.text bytes :: before)
        scope r (Nat.lt_of_succ_lt less)
      refine (tail.after passed low).imp fun p ⟨ended, new, same, later⟩ => ?_
      have text : Spans ⟨opened, .outside⟩ room (t :: r) ⟨opened, .outside⟩ r
          (Node.text bytes).depth (Node.text bytes).height 4 :=
        ⟨passed, Nat.zero_le _, Nat.le_add_left 1 3⟩
      exact ⟨ended, .text bytes :: new, by simpa using same, text.trans later rfl⟩
    · rename_i opens
      rw [opens] at passed
      refine Meets.bind ((parseAction_meets endLine room inRange t.line scope r opened whole).after
        passed low) fun p part => ?_
      have shorter := p.shorter
      split
      · rename_i node found
        rw [PartSpans, found] at part
        have spans : Spans ⟨opened, .outside⟩ room (t :: r) ⟨opened, .outside⟩ p.rest node.depth
            node.height 4 := .ahead passed rfl part
        have tail := parseNodes_meets endLine room inRange bound opened whole
          (node :: before) p.scope
          p.rest (by simp only [List.length_cons] at less; omega)
        have onward := tail.after spans.climbs (spans.top_le whole)
        refine onward.imp fun q ⟨ended, new, same, later⟩ => ?_
        exact ⟨ended, node :: new, by simpa using same, spans.trans later rfl⟩
      · rename_i stop found
        rw [PartSpans, found] at part
        obtain ⟨mark, spans⟩ := part
        exact ⟨fun ends => absurd ends mark, [], (List.append_nil _).symm, .ahead passed rfl spans⟩
    · exact Stops.here passed low nofun
termination_by _ _ ts _ => (ts.length, 3)

theorem parseAction_meets {limit : Nat} (endLine room : Nat) (inRange : Bool) (line : Nat)
    (scope : Scope) (ts : List Token) (opened : List Bracket)
    (whole : opened.length + room = limit) :
    Meets (Stops limit endLine ⟨opened, .opening⟩ ts) (PartSpans room opened ts)
      (parseAction endLine room inRange line scope ts) := by
  have low : opened.length ≤ limit := by omega
  rcases headWord?_cases ts with wordless | ⟨word, l, s, r, rfl⟩
  · rw [parseAction_wordless wordless]
    exact parsePlain_meets scope whole fun word found => by cases wordless.symm.trans found
  · rw [parseAction_word]
    split
    · rename_i kind branch
      have opens : Position.read ⟨opened, .opening⟩ (.word word) =
          ⟨.branch kind :: opened, .inside⟩ := by
        show Position.behindHead opened word = _
        rw [Position.behindHead.eq_def, branch]
      have meets := parseBranch_meets endLine room inRange kind line scope r ⟨opened, .opening⟩
        ⟨.word word, l, s⟩ (.branch kind) opens rfl whole
      exact Meets.bind meets fun p spans => spans.loosen (by decide)
    · rename_i noBranch
      split
      · refine Meets.imp (parseAlone_meets low .endMark rfl (closeBranch_le opened))
          fun p ⟨same, climbs⟩ => ?_
        rw [PartSpans, same]
        exact ⟨nofun, .nothing climbs⟩
      · exact ⟨nofun, .nothing (Climbs.head rfl (Nat.le_refl _))⟩
      · exact parseLeaving_meets low .breakMark inRange rfl rfl rfl
      · exact parseLeaving_meets low .continueMark inRange rfl rfl rfl
      · rename_i notEnd notElse notBreak notContinue
        split
        · exact Stops.here (.refl _ _) low nofun
        · refine parsePlain_meets scope whole fun other found => ?_
          cases found
          rw [IsHead, noBranch]
          simpa using And.intro notEnd ⟨notElse, notBreak, notContinue⟩
termination_by (ts.length, 1)

theorem parseBranch_meets {limit : Nat} (endLine room : Nat) (inRange : Bool) (kind : BranchKind)
    (line : Nat) (scope : Scope) (ts : List Token) (p : Position) (t : Token) (bracket : Bracket)
    (opens : p.read t.lexeme = ⟨bracket :: p.opened, .inside⟩) (kinded : bracket.kind? = some kind)
    (whole : p.level + room = limit) :
    Meets (Stops limit endLine p (t :: ts))
      (fun q => Spans p room (t :: ts) ⟨closeBranch (bracket :: p.opened), .outside⟩ q.rest
        q.value.depth q.value.height 1)
      (parseBranch endLine room inRange kind line scope ts) := by
  cases room with
  | zero =>
    rw [parseBranch]
    exact Stops.tooDeep whole (congrArg Position.level opens)
  | succ room =>
    rw [parseBranch]
    have most : (bracket :: p.opened).length + room = limit := by
      rw [List.length_cons, Nat.add_assoc, Nat.add_comm 1]
      exact whole
    have header := parsePipeline_meets endLine room kind.header scope ts _ most
    have outside : Position.read ⟨bracket :: p.opened, .inside⟩ (closer kind.header) =
        ⟨bracket :: p.opened, .outside⟩ := by
      cases kind <;> rfl
    rw [outside] at header
    have low : (Position.mk (bracket :: p.opened) .inside).level ≤ limit :=
      most ▸ Nat.le_add_right ..
    refine Meets.bind (header.deeper opens rfl low) fun header spans => ?_
    have shorter := header.shorter
    have body := parseNodes_meets endLine room (inRange || kind = .rangeBranch) ts.length _ most []
      header.scope header.rest header.shorter
    refine Meets.bind ((body.after spans.climbs (spans.top_le most)).deeper opens rfl low)
      fun body ⟨_, new, same, inner⟩ => ?_
    have shorter := body.shorter
    obtain rfl : body.value.1 = new := same
    have spans := spans.loosen (Nat.le_succ 3)
    have branch {q : Position} {rest : List Token} {depth height : Nat}
        (spans : Spans ⟨bracket :: p.opened, .inside⟩ room ts q rest depth height 4) :
        Spans p (room + 1) (t :: ts) q rest (depth + 1) (height + 1) 1 := by
      have shallow := spans.shallow
      exact spans.deeper opens rfl (by omega)
    have both := branch (spans.trans inner rfl)
    split
    · exact Stops.here both.climbs (both.top_le whole) nofun
    · rename_i ends
      rw [ends, Stop.behind] at both
      simpa only [Meets, Node.depth, Node.height, otherwiseDepth, otherwiseHeight, Nat.max_zero]
        using both
    · rename_i ends
      rw [ends] at both inner
      have meets := parseElse_meets endLine room inRange kind body.scope body.rest
        (bracket :: p.opened) kinded most
      refine Meets.bind ((meets.after inner.climbs (inner.top_le most)).after spans.climbs
        (spans.top_le most) |>.deeper opens rfl low) fun otherwise last => ?_
      exact branch (spans.trans (inner.trans last rfl) rfl)
termination_by (ts.length, 0)

theorem parseElse_meets {limit : Nat} (endLine room : Nat) (inRange : Bool) (kind : BranchKind)
    (scope : Scope) (ts : List Token) (opened : List Bracket)
    (top : opened.head?.bind Bracket.kind? = some kind) (whole : opened.length + room = limit) :
    Meets (Stops limit endLine ⟨opened, .behindElse⟩ ts)
      (fun p => Spans ⟨opened, .behindElse⟩ room ts ⟨closeBranch opened, .outside⟩ p.rest
        (nodesDepth p.value) (nodesHeight p.value) 4)
      (parseElse endLine room inRange kind scope ts) := by
  rcases chained_or_apart kind ts with ⟨word, l, s, r, rfl, chained⟩ | apart
  · have opens : Position.read ⟨opened, .behindElse⟩ (.word word) =
        ⟨.link kind :: opened, .inside⟩ := by
      show Position.behindLink opened word = _
      rw [Position.behindLink, linked?_some top chained]
    have meets := parseBranch_meets endLine room inRange kind l scope r ⟨opened, .behindElse⟩
      ⟨.word word, l, s⟩ (.link kind) opens rfl whole
    rw [parseElse_chain chained]
    refine Meets.bind meets fun p spans => ?_
    rw [closeBranch] at spans
    simpa only [Meets, nodesDepth, nodesHeight, Nat.max_zero] using spans.loosen (by decide)
  · rw [parseElse_apart apart]
    exact parseElseList_meets endLine room inRange kind scope ts opened top whole apart
termination_by (ts.length, 2)

theorem parseElseList_meets {limit : Nat} (endLine room : Nat) (inRange : Bool) (kind : BranchKind)
    (scope : Scope) (ts : List Token) (opened : List Bracket)
    (top : opened.head?.bind Bracket.kind? = some kind) (whole : opened.length + room = limit)
    (apart : ∀ word, headWord? ts = some word → kind.chainWord? ≠ some word) :
    Meets (Stops limit endLine ⟨opened, .behindElse⟩ ts)
      (fun p => Spans ⟨opened, .behindElse⟩ room ts ⟨closeBranch opened, .outside⟩ p.rest
        (nodesDepth p.value) (nodesHeight p.value) 4)
      (parseElseList endLine room inRange kind scope ts) := by
  have low : opened.length ≤ limit := by omega
  have closes : Meets (Stops limit endLine ⟨opened, .behindElse⟩ ts) _
      (expectClose endLine .elseMark ts) :=
    expectClose_meets low rfl fun t r starts => read_else_le top fun word isWord =>
      apart word (by rw [starts, headWord?, nextLexeme_cons, isWord])
  refine Meets.bind closes fun ⟨rest, shorter⟩ climbs => ?_
  have nodes := parseNodes_meets endLine room inRange ts.length opened whole [] scope rest shorter
  refine Meets.bind (nodes.after climbs low)
    fun ⟨⟨nodes, stop⟩, _, _, _⟩ ⟨_, new, same, spans⟩ => ?_
  obtain rfl : nodes = new := same
  have spans := Spans.ahead climbs rfl spans
  cases stop with
  | endMark => exact spans
  | elseMark => exact Stops.here spans.climbs (spans.top_le whole) nofun
  | endOfInput => exact Stops.here spans.climbs (spans.top_le whole) nofun
termination_by (ts.length, 0)
end

theorem parse_meets (endLine : Nat) (ts : List Token) :
    Meets (Stops maxDepth endLine .start ts)
      (fun nodes => Spans .start maxDepth ts .start [] (nodesDepth nodes) (nodesHeight nodes) 4)
      (parse endLine ts) := by
  rw [parse]
  have nodes := parseNodes_meets endLine maxDepth false (ts.length + 1) []
    (Nat.zero_add maxDepth) []
    ["$"] ts (Nat.lt_succ_self _)
  refine Meets.bind nodes fun p done => ?_
  obtain ⟨ended, new, same, spans⟩ := done
  obtain rfl : p.value.1 = new := same
  split
  · rename_i ends
    rw [ends, ended ends] at spans
    exact spans
  · exact Stops.here spans.climbs (spans.top_le (Nat.zero_add _)) (by decide)
  · exact Stops.here spans.climbs (spans.top_le (Nat.zero_add _)) (by decide)

theorem Stops.read {limit endLine : Nat} {p : Position} {ts : List Token} {error : ParseError}
    (stops : Stops limit endLine p ts error) :
    ∃ used rest, ts = used ++ rest ∧ error.line = lineAt endLine rest ∧
      if error.fault = .tooDeep then
        ∃ before t, used = before ++ [t] ∧ p.peak before ≤ limit ∧
          (p.through used).level = limit + 1
      else p.peak used ≤ limit := by
  obtain ⟨q, rest, top, ⟨used, rfl, rfl, rfl⟩, low, located⟩ := stops
  split
  · rename_i deep
    rw [if_pos deep] at located
    obtain ⟨t, behind, rfl, high, line⟩ := located
    refine ⟨used ++ [t], behind, by simp, line, used, t, rfl, low, ?_⟩
    rw [Position.through_append]
    exact high
  · rename_i other
    rw [if_neg other] at located
    exact ⟨used, rest, rfl, located, low⟩

theorem Climbs.through {p q : Position} {ts used rest : List Token} {top : Nat}
    (climbs : Climbs p ts q rest top) (whole : ts = used ++ rest) : p.through used = q := by
  obtain ⟨other, same, rfl, -⟩ := climbs
  rw [List.append_cancel_right (whole.symm.trans same)]

theorem Climbs.behind_head {p q : Position} {t : Token} {ts rest : List Token} {top : Nat}
    (climbs : Climbs p (t :: ts) q rest top) (shorter : rest.length < ts.length) :
    ∃ used, ts = used ++ rest := by
  obtain ⟨used, whole, -⟩ := climbs
  cases used with
  | nil =>
    rw [← show t :: ts = rest from whole, List.length_cons] at shorter
    omega
  | cons u used => exact ⟨used, (List.cons.inj whole).2⟩

section Closing

variable {endLine room line : Nat} {inRange : Bool} {kind : BranchKind} {scope : Scope}
  {ts used : List Token} {t : Token}

theorem parseBranch_levels {p : Parsed Node ts.length}
    (parsed : parseBranch endLine room inRange kind line scope ts = .ok p)
    (whole : ts = used ++ p.rest) {q : Position} (bracket : Bracket)
    (opens : q.read t.lexeme = ⟨bracket :: q.opened, .inside⟩)
    (kinded : bracket.kind? = some kind) :
    q.through (t :: used) = ⟨closeBranch (bracket :: q.opened), .outside⟩ := by
  have meets := parseBranch_meets endLine room inRange kind line scope ts q t bracket
    opens kinded rfl
  rw [parsed] at meets
  exact (Spans.climbs meets).through (congrArg (t :: ·) whole)

theorem parentheses_levels {p : Parsed Pipeline ts.length}
    (parsed : parsePipeline endLine room .parentheses scope ts = .ok p)
    (whole : ts = used ++ p.rest) (opens : t.lexeme = .leftParen) (opened : List Bracket) :
    Position.through ⟨opened, .inside⟩ (t :: used) = ⟨opened, .inside⟩ := by
  have meets := parsePipeline_meets endLine room .parentheses scope ts (.parenthesis :: opened) rfl
  rw [parsed] at meets
  have enters : Position.read ⟨opened, .inside⟩ t.lexeme = ⟨.parenthesis :: opened, .inside⟩ := by
    rw [opens]
    rfl
  show Position.through (Position.read _ _) used = _
  rw [enters]
  exact (Spans.climbs meets).through whole

end Closing

-- A template that parses is as deep as its tokens go, which is no deeper than the bound; all levels
-- are closed at its end, and when it is run no more evaluations are in one another than four for
-- each level and four outside. One that is refused is refused as too deep where the tokens read so
-- far open the first level beyond the bound, and only there. What a branch opens is closed behind
-- it, by a link together with the branches that it hangs on, and so is a parenthesis.
theorem parse_depth_bounded (endLine : Nat) (ts : List Token) :
    (match parse endLine ts with
      | .ok nodes => nodesDepth nodes = Position.start.peak ts ∧ nodesDepth nodes ≤ 100 ∧
          nodesHeight nodes ≤ 404 ∧ (Position.start.through ts).level = 0
      | .error error => ∃ used rest, ts = used ++ rest ∧ error.line = lineAt endLine rest ∧
          if error.fault = .tooDeep then
            ∃ before t, used = before ++ [t] ∧ Position.start.peak before ≤ 100 ∧
              (Position.start.through used).level = 101
          else Position.start.peak used ≤ 100) ∧
    (∀ room inRange kind line scope (p : Parsed Node ts.length),
      parseBranch endLine room inRange kind line scope ts = .ok p →
      ∃ used, ts = used ++ p.rest ∧ p.value.depth ≤ room ∧
        ∀ opened t, t.lexeme = .word kind.keyword →
          Position.through ⟨opened, .opening⟩ (t :: used) = ⟨opened, .outside⟩ ∧
            (linked? kind.keyword opened = some kind →
              Position.through ⟨opened, .behindElse⟩ (t :: used) =
                ⟨closeBranch opened, .outside⟩)) ∧
    (∀ room scope (p : Parsed Pipeline ts.length),
      parsePipeline endLine room .parentheses scope ts = .ok p →
      ∃ used, ts = used ++ p.rest ∧ p.value.depth ≤ room ∧
        ∀ opened t, t.lexeme = .leftParen →
          Position.through ⟨opened, .inside⟩ (t :: used) = ⟨opened, .inside⟩) := by
  refine ⟨?_, fun room inRange kind line scope p parsed => ?_, fun room scope p parsed => ?_⟩
  · have meets := parse_meets endLine ts
    split
    · rename_i nodes parsed
      rw [parsed] at meets
      obtain ⟨⟨used, whole, closed, top⟩, fits, shallow⟩ := meets
      rw [List.append_nil] at whole
      subst whole
      refine ⟨(top.trans (Nat.zero_add _)).symm, fits, ?_, congrArg Position.level closed⟩
      have bound : maxDepth = 100 := rfl
      omega
    · rename_i error refused
      rw [refused] at meets
      exact Stops.read meets
  · have opens (opened : List Bracket) : Position.read ⟨opened, .opening⟩ (.word kind.keyword) =
        ⟨.branch kind :: opened, .inside⟩ := by
      cases kind <;> rfl
    have meets := parseBranch_meets endLine room inRange kind line scope ts ⟨[], .opening⟩
      ⟨.word kind.keyword, 0, false⟩ (.branch kind) (opens []) rfl rfl
    rw [parsed] at meets
    obtain ⟨used, whole⟩ := (Spans.climbs meets).behind_head p.shorter
    refine ⟨used, whole, Spans.fits meets, fun opened t head => ⟨?_, fun linked => ?_⟩⟩
    · exact parseBranch_levels parsed whole (.branch kind) (head.symm ▸ opens opened) rfl
    · refine parseBranch_levels parsed whole (.link kind) ?_ rfl
      rw [head]
      show Position.behindLink opened kind.keyword = _
      rw [Position.behindLink.eq_def, linked]
  · have meets := parsePipeline_meets endLine room .parentheses scope ts [] rfl
    rw [parsed] at meets
    obtain ⟨used, whole, -⟩ := Spans.climbs meets
    exact ⟨used, whole, Spans.fits meets, fun opened t opens =>
      parentheses_levels parsed whole opens opened⟩

def branchTokens : List Token :=
  [⟨.leftParen, 1, true⟩, ⟨.number "1", 1, false⟩, ⟨.rightParen, 1, false⟩,
    ⟨.closeAction, 1, false⟩, ⟨.openAction, 1, false⟩, ⟨.word "end", 1, false⟩,
    ⟨.closeAction, 1, false⟩]

theorem parse_depth_bounded_branch :
    let head : List Token := [⟨.openAction, 1, false⟩, ⟨.word "if", 1, false⟩]
    let paren : Token := ⟨.leftParen, 1, true⟩
    (∃ nodes, parse 1 (head ++ branchTokens) = .ok nodes ∧ nodesDepth nodes = 2 ∧
      nodesDepth nodes = Position.start.peak (head ++ branchTokens) ∧
      (Position.start.through (head ++ branchTokens)).level = 0) ∧
    (∃ p used, parseBranch 1 2 false .ifBranch 1 ["$"] branchTokens = .ok p ∧
      branchTokens = used ++ p.rest ∧ p.value.depth ≤ 2 ∧
      Position.through .start (head ++ used) = .start) ∧
    ∃ p used, parsePipeline 1 1 .parentheses ["$"] branchTokens.tail = .ok p ∧
      branchTokens.tail = used ++ p.rest ∧ p.value.depth ≤ 1 ∧
      Position.through ⟨[], .inside⟩ (paren :: used) = ⟨[], .inside⟩ := by
  intro head paren
  refine ⟨?_, ?_, ?_⟩
  · have depth : (parse 1 (head ++ branchTokens)).map nodesDepth = .ok 2 := by cbv
    cases parsed : parse 1 (head ++ branchTokens) with
    | error error =>
      rw [parsed] at depth
      cases depth
    | ok nodes =>
      rw [parsed] at depth
      have bounded := (parse_depth_bounded 1 (head ++ branchTokens)).1
      rw [parsed] at bounded
      exact ⟨nodes, rfl, Except.ok.inj depth, bounded.1, bounded.2.2.2⟩
  · have given : (parseBranch 1 2 false .ifBranch 1 ["$"] branchTokens).isOk = true := by cbv
    cases parsed : parseBranch 1 2 false .ifBranch 1 ["$"] branchTokens with
    | error error =>
      rw [parsed] at given
      cases given
    | ok p =>
      obtain ⟨used, whole, fits, levels⟩ :=
        (parse_depth_bounded 1 branchTokens).2.1 2 false .ifBranch 1 ["$"] p parsed
      exact ⟨p, used, rfl, whole, fits, (levels [] ⟨.word "if", 1, false⟩ rfl).1⟩
  · have given : (parsePipeline 1 1 .parentheses ["$"] branchTokens.tail).isOk = true := by cbv
    cases parsed : parsePipeline 1 1 .parentheses ["$"] branchTokens.tail with
    | error error =>
      rw [parsed] at given
      cases given
    | ok p =>
      obtain ⟨used, whole, fits, levels⟩ :=
        (parse_depth_bounded 1 branchTokens.tail).2.2 1 ["$"] p parsed
      exact ⟨p, used, rfl, whole, fits, levels [] paren rfl⟩

end PagePress.Template
