import PagePress.Proofs.Chain
import PagePress.Template.Parser

namespace PagePress.Template

section Words

theorem nextLexeme_cons (t : Token) (ts : List Token) : nextLexeme (t :: ts) = some t.lexeme := rfl

theorem nextLexeme_sound {ts : List Token} {lexeme : Lexeme} (found : nextLexeme ts = some lexeme) :
    ∃ l s r, ts = ⟨lexeme, l, s⟩ :: r := by
  cases ts with
  | nil => cases found
  | cons t r =>
    cases found
    exact ⟨t.line, t.spaced, r, rfl⟩

theorem headWord?_cases (ts : List Token) :
    headWord? ts = none ∨ ∃ word l s r, ts = ⟨.word word, l, s⟩ :: r := by
  rcases ts with _ | ⟨⟨lexeme, l, s⟩, r⟩
  · exact .inl rfl
  · cases lexeme with
    | word word => exact .inr ⟨word, l, s, r, rfl⟩
    | _ => exact .inl rfl

theorem chained_or_apart (kind : BranchKind) (ts : List Token) :
    (∃ word l s r, ts = ⟨.word word, l, s⟩ :: r ∧ kind.chainWord? = some word) ∨
      ∀ word, headWord? ts = some word → kind.chainWord? ≠ some word := by
  rcases headWord?_cases ts with wordless | ⟨word, l, s, r, rfl⟩
  · exact .inr fun word found => by cases wordless.symm.trans found
  · by_cases chained : kind.chainWord? = some word
    · exact .inl ⟨word, l, s, r, rfl, chained⟩
    · refine .inr fun other found => ?_
      cases found
      exact chained

end Words

section Commands

def afterCommand (endLine : Nat) (place : Place) (ts : List Token) :
    Except ParseError { r : List Token // r.length ≤ ts.length } :=
  match ts with
  | [] => failAt endLine [] (.unexpectedOperand none)
  | t :: r =>
    if t.lexeme = .pipe then
      if isCloser (nextLexeme r) then failAt endLine r (.missingCommand place)
      else .ok ⟨r, Nat.le_succ _⟩
    else .ok ⟨t :: r, Nat.le_refl _⟩

variable {endLine room bound : Nat} {place : Place} {before : List Command} {scope : Scope}
  {ts : List Token}

theorem parseCommands_closer {l : Nat} {s : Bool} {rest : List Token}
    {le : (⟨closer place, l, s⟩ :: rest : List Token).length ≤ bound} :
    parseCommands endLine room place bound before scope (⟨closer place, l, s⟩ :: rest) le =
      .ok ⟨before.reverse, scope, rest, le⟩ := by
  rw [parseCommands.eq_def, nextLexeme_cons, if_pos rfl]

theorem parseCommands_next {le : ts.length ≤ bound} (goesOn : nextLexeme ts ≠ some (closer place)) :
    parseCommands endLine room place bound before scope ts le =
      if nextLexeme ts = none ∨ isCloser (nextLexeme ts) then
        failAt endLine ts (.unexpectedIn (nextLexeme ts) place)
      else (do
        let p ← parseCommand endLine room scope ts
        let later ← afterCommand endLine place p.rest
        parseCommands endLine room place bound (p.value :: before) p.scope later.val
          ((later.property.trans p.shorter.le).trans le)) := by
  rw [parseCommands.eq_def, if_neg goesOn]
  split
  · rfl
  · refine bind_congr fun p => ?_
    obtain ⟨command, scope, rest, shorter⟩ := p
    cases rest with
    | nil => rfl
    | cons t r =>
      dsimp only [afterCommand]
      split
      · split
        · rfl
        · rfl
      · rfl

end Commands

section Actions

def parsePlain (endLine room : Nat) (scope : Scope) (ts : List Token) : Parse Part ts.length := do
  let ⟨pipe, after, rest, shorter⟩ ← parsePipeline endLine room .command scope ts
  .ok ⟨.node (.action pipe), after, rest, shorter⟩

def parseAlone (endLine : Nat) (part : Part) (place : Place) (scope : Scope) (ts : List Token) :
    Parse Part (ts.length + 1) := do
  let ⟨rest, shorter⟩ ← expectClose endLine place ts
  .ok ⟨part, scope, rest, Nat.lt_succ_of_lt shorter⟩

def parseLeaving (endLine : Nat) (inRange : Bool) (node : Node) (place : Place) (scope : Scope)
    (ts : List Token) : Parse Part (ts.length + 1) :=
  if inRange then parseAlone endLine (.node node) place scope ts
  else failAt endLine ts (.outsideRange place)

variable {endLine room line l : Nat} {inRange s : Bool} {scope : Scope} {ts : List Token}

theorem parseAction_wordless (wordless : headWord? ts = none) :
    parseAction endLine room inRange line scope ts = parsePlain endLine room scope ts := by
  rw [parseAction.eq_def]
  dsimp only
  split
  · rfl
  · rename_i found
    cases wordless.symm.trans found

theorem parseAction_word (word : String) :
    parseAction endLine room inRange line scope (⟨.word word, l, s⟩ :: ts) =
      match branchOf? word with
      | some kind => do
        let p ← parseBranch endLine room inRange kind line scope ts
        .ok ⟨.node p.value, p.scope, p.rest, Nat.lt_succ_of_lt p.shorter⟩
      | none =>
        match word with
        | "end" => parseAlone endLine (.stop .endMark) .endMark scope ts
        | "else" => .ok ⟨.stop .elseMark, scope, ts, Nat.lt_succ_self _⟩
        | "break" => parseLeaving endLine inRange .breakRange .breakMark scope ts
        | "continue" => parseLeaving endLine inRange .continueRange .continueMark scope ts
        | word =>
          if word ∈ ["define", "template", "block"] then
            failAt endLine (⟨.word word, l, s⟩ :: ts) (.unsupported word)
          else parsePlain endLine room scope (⟨.word word, l, s⟩ :: ts) := by
  rw [parseAction.eq_def]
  dsimp only
  split
  · rename_i wordless
    cases wordless
  · rename_i found
    cases found
    cases branchOf? word with
    | some kind => rfl
    | none =>
      dsimp only [List.tail_cons]
      split
      · rfl
      · rfl
      · rfl
      · rfl
      · simp only [parsePlain]

end Actions

section Else

def parseElseList (endLine room : Nat) (inRange : Bool) (kind : BranchKind) (scope : Scope)
    (ts : List Token) : Parse (List Node) ts.length := do
  let ⟨rest, less⟩ ← expectClose endLine .elseMark ts
  let ⟨(nodes, stop), after, left, shorter⟩ ←
    parseNodes endLine room inRange ts.length [] scope rest less
  match stop with
  | .endMark => .ok ⟨nodes, after, left, shorter⟩
  | .elseMark => failAt endLine left (.secondElse kind.header)
  | .endOfInput => failAt endLine left .unfinished

variable {endLine room : Nat} {inRange : Bool} {kind : BranchKind} {scope : Scope} {ts : List Token}

theorem parseElse_apart (apart : ∀ word, headWord? ts = some word → kind.chainWord? ≠ some word) :
    parseElse endLine room inRange kind scope ts =
      parseElseList endLine room inRange kind scope ts := by
  rw [parseElse.eq_def]
  dsimp only
  split
  · rfl
  · rename_i found
    rw [if_neg (apart _ found)]
    rfl

theorem parseElse_chain {word : String} {l : Nat} {s : Bool}
    (chained : kind.chainWord? = some word) :
    parseElse endLine room inRange kind scope (⟨.word word, l, s⟩ :: ts) = (do
      let p ← parseBranch endLine room inRange kind l scope ts
      .ok ⟨[p.value], p.scope, p.rest, Nat.lt_succ_of_lt p.shorter⟩) := by
  rw [parseElse.eq_def]
  dsimp only
  split
  · rename_i wordless
    cases wordless
  · rename_i found
    cases found
    rw [if_pos chained]
    rfl

end Else

end PagePress.Template
