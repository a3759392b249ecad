import PagePress.Proofs.Template.PipelineCompleteness

namespace PagePress.Template

section Marks

variable {endLine room : Nat} {inRange : Bool} {line : Nat} {scope : Scope} {ts : List Token}

theorem branchOf?_eq_none {word : String} (free : word ∉ reserved) : branchOf? word = none := by
  rw [branchOf?.eq_def]
  split
  · simp [reserved] at free
  · simp [reserved] at free
  · simp [reserved] at free
  · rfl

theorem branchOf?_keyword (kind : BranchKind) : branchOf? kind.keyword = some kind := by
  cases kind <;> rfl

theorem parseAction_plain (free : ∀ word, headWord? ts = some word → word ∉ reserved)
    {value : Pipeline → Prop} {after : Scope} {rest : List Token}
    (read : Yields (parsePipeline endLine room .command scope ts) value after rest) :
    Yields (parseAction endLine room inRange line scope ts)
      (fun part => ∃ pipe, value pipe ∧ part = .node (.action pipe)) after rest := by
  obtain ⟨p, read, same, rfl, rfl⟩ := read
  have plain : parsePlain endLine room scope ts =
      .ok ⟨.node (.action p.value), p.scope, p.rest, p.shorter⟩ := by
    rw [parsePlain, read, Chain.ok_bind]
  rcases headWord?_cases ts with wordless | ⟨word, l, s, r, rfl⟩
  · rw [parseAction_wordless wordless, plain]
    exact ⟨_, rfl, ⟨p.value, same, rfl⟩, rfl, rfl⟩
  · have other := free word rfl
    rw [parseAction_word, branchOf?_eq_none other]
    simp only [reserved, List.mem_cons, List.not_mem_nil, or_false, not_or] at other
    dsimp only
    split
    · simp at other
    · simp at other
    · simp at other
    · simp at other
    · rw [if_neg (by simp [other]), plain]
      exact ⟨_, rfl, ⟨p.value, same, rfl⟩, rfl, rfl⟩

theorem parseAction_branch {kind : BranchKind} {l : Nat} {s : Bool} {value : Node → Prop}
    {after : Scope} {rest : List Token}
    (read : Yields (parseBranch endLine room inRange kind line scope ts) value after rest) :
    Yields (parseAction endLine room inRange line scope (⟨.word kind.keyword, l, s⟩ :: ts))
      (fun part => ∃ node, value node ∧ part = .node node) after rest := by
  obtain ⟨p, read, same, rfl, rfl⟩ := read
  rw [parseAction_word, branchOf?_keyword]
  dsimp only
  rw [read]
  exact ⟨_, rfl, ⟨p.value, same, rfl⟩, rfl, rfl⟩

theorem parseAction_end {l₁ l₂ : Nat} {s₁ s₂ : Bool} :
    Yields (parseAction endLine room inRange line scope
      (⟨.word "end", l₁, s₁⟩ :: ⟨.closeAction, l₂, s₂⟩ :: ts)) (· = .stop .endMark) scope ts := by
  rw [parseAction_word]
  exact ⟨_, rfl, rfl, rfl, rfl⟩

theorem parseAction_else {l : Nat} {s : Bool} :
    Yields (parseAction endLine room inRange line scope (⟨.word "else", l, s⟩ :: ts))
      (· = .stop .elseMark) scope ts := by
  rw [parseAction_word]
  exact ⟨_, rfl, rfl, rfl, rfl⟩

theorem parseAction_break {l₁ l₂ : Nat} {s₁ s₂ : Bool} :
    Yields (parseAction endLine room true line scope
      (⟨.word "break", l₁, s₁⟩ :: ⟨.closeAction, l₂, s₂⟩ :: ts)) (· = .node .breakRange)
      scope ts := by
  rw [parseAction_word]
  exact ⟨_, rfl, rfl, rfl, rfl⟩

theorem parseAction_continue {l₁ l₂ : Nat} {s₁ s₂ : Bool} :
    Yields (parseAction endLine room true line scope
      (⟨.word "continue", l₁, s₁⟩ :: ⟨.closeAction, l₂, s₂⟩ :: ts)) (· = .node .continueRange)
      scope ts := by
  rw [parseAction_word]
  exact ⟨_, rfl, rfl, rfl, rfl⟩

end Marks

section Lists

variable {endLine room bound : Nat} {inRange : Bool} {before : List Node} {scope : Scope}
  {ts : List Token} {l : Nat} {s : Bool}

theorem parseNodes_text {bytes : Bytes} {less : (⟨.text bytes, l, s⟩ :: ts).length < bound} :
    parseNodes endLine room inRange bound before scope (⟨.text bytes, l, s⟩ :: ts) less =
      parseNodes endLine room inRange bound (.text bytes :: before) scope ts
        (Nat.lt_of_succ_lt less) := by
  rw [parseNodes.eq_def]

theorem parseNodes_node {less : (⟨.openAction, l, s⟩ :: ts).length < bound}
    {good : Node → Prop} {within : Scope} {left : List Token}
    (read : Yields (parseAction endLine room inRange l scope ts)
      (fun part => ∃ node, good node ∧ part = .node node) within left)
    {value : List Node × Stop → Prop} {after : Scope} {rest : List Token}
    (next : ∀ node, good node → ∀ less,
      Yields (parseNodes endLine room inRange bound (node :: before) within left less) value after
        rest) :
    Yields (parseNodes endLine room inRange bound before scope (⟨.openAction, l, s⟩ :: ts) less)
      value after rest := by
  obtain ⟨p, read, ⟨node, same, isNode⟩, rfl, rfl⟩ := read
  rw [parseNodes.eq_def]
  dsimp only
  rw [read, Chain.ok_bind]
  split
  · rename_i other found
    cases isNode.symm.trans found
    exact next node same _
  · rename_i stop found
    cases isNode.symm.trans found

theorem parseNodes_stop {less : (⟨.openAction, l, s⟩ :: ts).length < bound} {stop : Stop}
    {rest : List Token}
    (read : Yields (parseAction endLine room inRange l scope ts) (· = .stop stop) scope rest) :
    Yields (parseNodes endLine room inRange bound before scope (⟨.openAction, l, s⟩ :: ts) less)
      (· = (before.reverse, stop)) scope rest := by
  obtain ⟨p, read, isStop, same, last⟩ := read
  rw [parseNodes.eq_def]
  dsimp only
  rw [read, Chain.ok_bind]
  split
  · rename_i node found
    cases isStop.symm.trans found
  · rename_i other found
    cases isStop.symm.trans found
    exact ⟨_, rfl, rfl, same, last⟩

end Lists

section Branches

variable {endLine room : Nat} {inRange : Bool} {kind : BranchKind}
  {scope after : Scope} {ts rest : List Token} {good : List Node → Prop}
  {head : Pipeline} {within : Scope} {left : List Token} {shorter : left.length < ts.length}

theorem parseBranch_end (line : Nat) (good : List Node → Prop)
    (read : parsePipeline endLine room kind.header scope ts = .ok ⟨head, within, left, shorter⟩)
    (body : Yields (parseNodes endLine room (inRange || kind = .rangeBranch) ts.length []
        within left shorter)
      (fun part => good part.1 ∧ part.2 = .endMark) after rest) :
    Yields (parseBranch endLine (room + 1) inRange kind line scope ts)
      (fun node => ∃ inner, good inner ∧ node = .branch kind line head inner none)
      (scope.leave after) rest := by
  obtain ⟨p, inside, ⟨same, stops⟩, rfl, rfl⟩ := body
  rw [parseBranch.eq_def]
  dsimp only
  rw [read, Chain.ok_bind, inside, Chain.ok_bind]
  split
  · rename_i found
    cases stops.symm.trans found
  · exact ⟨_, rfl, ⟨p.value.1, same, rfl⟩, rfl, rfl⟩
  · rename_i found
    cases stops.symm.trans found

theorem parseBranch_else (line : Nat) (good : List Node → Prop) {final : Scope}
    {last : List Token} {goodElse : List Node → Prop}
    (read : parsePipeline endLine room kind.header scope ts = .ok ⟨head, within, left, shorter⟩)
    (body : Yields (parseNodes endLine room (inRange || kind = .rangeBranch) ts.length []
        within left shorter)
      (fun part => good part.1 ∧ part.2 = .elseMark) after rest)
    (otherwise : Yields (parseElse endLine room inRange kind after rest) goodElse final last) :
    Yields (parseBranch endLine (room + 1) inRange kind line scope ts)
      (fun node => ∃ inner others, good inner ∧ goodElse others ∧
        node = .branch kind line head inner (some others))
      (scope.leave final) last := by
  obtain ⟨p, inside, ⟨same, stops⟩, rfl, rfl⟩ := body
  obtain ⟨q, others, alike, rfl, rfl⟩ := otherwise
  rw [parseBranch.eq_def]
  dsimp only
  rw [read, Chain.ok_bind, inside, Chain.ok_bind]
  split
  · rename_i found
    cases stops.symm.trans found
  · rename_i found
    cases stops.symm.trans found
  · rw [others, Chain.ok_bind]
    exact ⟨_, rfl, ⟨p.value.1, q.value, same, alike, rfl⟩, rfl, rfl⟩

theorem parseElse_plain {l : Nat} {s : Bool}
    (nodes : ∀ less, Yields (parseNodes endLine room inRange (ts.length + 1) [] scope ts less)
      (fun part => good part.1 ∧ part.2 = .endMark) after rest) :
    Yields (parseElse endLine room inRange kind scope (⟨.closeAction, l, s⟩ :: ts)) good after
      rest := by
  obtain ⟨p, read, ⟨same, stops⟩, rfl, rfl⟩ := nodes (Nat.lt_succ_self _)
  have apart : ∀ word, headWord? (⟨.closeAction, l, s⟩ :: ts) = some word →
      kind.chainWord? ≠ some word := nofun
  have closes : expectClose endLine .elseMark (⟨.closeAction, l, s⟩ :: ts) =
      .ok ⟨ts, Nat.lt_succ_self _⟩ := rfl
  rw [parseElse_apart apart, parseElseList, closes, Chain.ok_bind]
  simp only [List.length_cons]
  rw [read, Chain.ok_bind]
  split
  · exact ⟨_, rfl, same, rfl, rfl⟩
  · rename_i found
    cases stops.symm.trans found
  · rename_i found
    cases stops.symm.trans found

theorem parseElse_chained {l : Nat} {s : Bool} (chains : kind ≠ .rangeBranch)
    {goodNode : Node → Prop}
    (branch : ∀ line,
      Yields (parseBranch endLine room inRange kind line scope ts) goodNode after rest) :
    Yields (parseElse endLine room inRange kind scope (⟨.word kind.keyword, l, s⟩ :: ts))
      (fun nodes => ∃ node, goodNode node ∧ nodes = [node]) after rest := by
  obtain ⟨p, read, same, rfl, rfl⟩ := branch l
  have shares : kind.chainWord? = some kind.keyword := by
    cases kind
    · rfl
    · exact absurd rfl chains
    · rfl
  rw [parseElse_chain shares, read]
  exact ⟨_, rfl, ⟨p.value, same, rfl⟩, rfl, rfl⟩

end Branches

theorem isMark_cases {word : String} {ts : List Token} (mark : IsMark word ts) :
    ∃ l₁ s₁ l₂ s₂ l₃ s₃,
      ts = [⟨.openAction, l₁, s₁⟩, ⟨.word word, l₂, s₂⟩, ⟨.closeAction, l₃, s₃⟩] := by
  rcases ts with _ | ⟨⟨a, l₁, s₁⟩, _ | ⟨⟨b, l₂, s₂⟩, _ | ⟨⟨c, l₃, s₃⟩, _ | ⟨d, r⟩⟩⟩⟩
  · cases mark
  · cases mark
  · cases mark
  · cases mark
    exact ⟨l₁, s₁, l₂, s₂, l₃, s₃, rfl⟩
  · cases mark

theorem SpellsPipeline.free {pipe : Pipeline} {place : Place} {ts : List Token}
    (spelled : SpellsPipeline place pipe ts) {room : Nat} {scope : Scope}
    (wellFormed : pipe.WellFormed room place scope) (rest : List Token) :
    ∀ word, headWord? (ts ++ rest) = some word → word ∉ reserved := by
  cases spelled with
  | mk named inside =>
    rename_i names assigns commands ts us
    intro word found
    cases named with
    | none =>
      obtain ⟨t, r, starts, first, -⟩ := inside.begins wellFormed.2.2.2 rest
      rw [List.nil_append, starts] at found
      obtain ⟨lexeme, l, s⟩ := t
      cases lexeme <;> cases found
      simpa [begins] using first
    | one => cases found
    | two => cases found

theorem SpellsNode.text_or_action {node : Node} {ts : List Token} (spelled : SpellsNode node ts) :
    (∃ bytes l s, node = .text bytes ∧ ts = [⟨.text bytes, l, s⟩]) ∨
      ∃ l s r, ts = ⟨.openAction, l, s⟩ :: r := by
  cases spelled with
  | text => exact .inl ⟨_, _, _, rfl, rfl⟩
  | action => exact .inr ⟨_, _, _, rfl⟩
  | branch => exact .inr ⟨_, _, _, rfl⟩
  | breakRange mark =>
    obtain ⟨l, s, _, _, _, _, rfl⟩ := isMark_cases mark
    exact .inr ⟨l, s, _, rfl⟩
  | continueRange mark =>
    obtain ⟨l, s, _, _, _, _, rfl⟩ := isMark_cases mark
    exact .inr ⟨l, s, _, rfl⟩

mutual
theorem parseNodes_spelled (endLine room bound : Nat) (inRange : Bool) (before : List Node)
    (scope : Scope) (ts rest : List Token) {n : Nat} (size : ts.length = n) {all : List Token}
    (whole : all = ts ++ rest) {nodes : List Node} (spelled : SpellsNodes nodes ts)
    (wellFormed : nodesWellFormed room inRange scope nodes) (less : all.length < bound)
    {value : List Node × Stop → Prop} {after : Scope} {last : List Token}
    (next : ∀ read, nodesUnlined read = nodesUnlined nodes → ∀ less,
      Yields (parseNodes endLine room inRange bound (read.reverse ++ before)
        ((nodesAdds nodes).names ++ scope) rest less) value after last) :
    Yields (parseNodes endLine room inRange bound before scope all less) value after last := by
  cases spelled with
  | nil =>
    subst whole
    exact next [] rfl less
  | cons first later =>
    rename_i node others ts us
    obtain ⟨fit, fits⟩ := wellFormed
    have goOn (one : Node) (same : one.unlined = node.unlined) (read : List Node)
        (alike : nodesUnlined read = nodesUnlined others) (less : rest.length < bound) :
        Yields (parseNodes endLine room inRange bound (read.reverse ++ one :: before)
          ((nodesAdds others).names ++ (node.adds.names ++ scope)) rest less) value after last := by
      have whole : nodesUnlined (one :: read) = nodesUnlined (node :: others) := by
        rw [nodesUnlined, nodesUnlined, same, alike]
      simpa [nodesAdds] using next (one :: read) whole less
    rw [List.append_assoc] at whole
    subst whole
    obtain ⟨bytes, l, s, rfl, rfl⟩ | ⟨l, s, r, rfl⟩ := first.text_or_action
    · refine parseNodes_text.symm ▸ ?_
      exact parseNodes_spelled endLine room bound inRange _ scope us rest rfl rfl later fits _
        (goOn _ rfl)
    · refine parseNodes_node (parseAction_spelled endLine room inRange l l s scope r (us ++ rest)
        rfl first fit) fun one same less => ?_
      exact parseNodes_spelled endLine room bound inRange _ _ us rest rfl rfl later fits less
        (goOn one same)
termination_by (n, 2)
decreasing_by
  all_goals simp at size
  all_goals omega

theorem parseAction_spelled (endLine room : Nat) (inRange : Bool) (line l : Nat) (s : Bool)
    (scope : Scope) (ts rest : List Token) {n : Nat} (size : ts.length = n) {node : Node}
    (spelled : SpellsNode node (⟨.openAction, l, s⟩ :: ts))
    (wellFormed : node.WellFormed room inRange scope) :
    Yields (parseAction endLine room inRange line scope (ts ++ rest))
      (fun part => ∃ read, read.unlined = node.unlined ∧ part = .node read)
      (node.adds.names ++ scope) rest := by
  cases spelled with
  | action inside =>
    refine (parseAction_plain (inside.free wellFormed rest)
      (parsePipeline_spelled endLine room .command scope ts rest rfl inside wellFormed)).imp ?_
    rintro part ⟨pipe, same, rfl⟩
    exact ⟨.action pipe, congrArg Node.action same, rfl⟩
  | branch spelled =>
    cases spelled with
    | mk header inside behind =>
      refine parseAction_branch (parseBranch_spelled endLine room inRange line scope _ _ _ rest rfl
        header inside behind wellFormed)
  | breakRange mark =>
    obtain ⟨_, _, l₁, s₁, l₂, s₂, same⟩ := isMark_cases mark
    obtain ⟨-, rfl⟩ := List.cons.inj same
    obtain rfl : inRange = true := wellFormed
    exact parseAction_break.imp fun part isBreak => ⟨.breakRange, rfl, isBreak⟩
  | continueRange mark =>
    obtain ⟨_, _, l₁, s₁, l₂, s₂, same⟩ := isMark_cases mark
    obtain ⟨-, rfl⟩ := List.cons.inj same
    obtain rfl : inRange = true := wellFormed
    exact parseAction_continue.imp fun part isContinue => ⟨.continueRange, rfl, isContinue⟩
termination_by (n, 1)
decreasing_by
  all_goals simp_wf
  all_goals simp at size
  all_goals omega

theorem parseBranch_spelled (endLine room : Nat) (inRange : Bool) (line : Nat) (scope : Scope)
    (ts us vs rest : List Token) {n : Nat} (size : (ts ++ (us ++ vs)).length = n)
    {kind : BranchKind} {given : Nat} {pipe : Pipeline} {body : List Node}
    {otherwise : Option (List Node)} (header : SpellsPipeline kind.header pipe ts)
    (inside : SpellsNodes body us) (behind : SpellsElse kind otherwise vs)
    (wellFormed : (Node.branch kind given pipe body otherwise).WellFormed room inRange scope) :
    Yields (parseBranch endLine room inRange kind line scope (ts ++ (us ++ vs) ++ rest))
      (·.unlined = (Node.branch kind given pipe body otherwise).unlined) scope rest := by
  obtain ⟨positive, fits, bodyFits, elseFits⟩ := wellFormed
  obtain ⟨room, rfl⟩ := Nat.exists_eq_succ_of_ne_zero positive.ne'
  obtain ⟨⟨head, within, _, shorter⟩, read, same, rfl, rfl⟩ :=
    parsePipeline_spelled endLine room kind.header scope ts (us ++ (vs ++ rest)) rfl header fits
  have upTo {stop : Stop} {last : List Token}
      (mark : ∀ before less, Yields (parseNodes endLine room (inRange || kind = .rangeBranch)
          (ts ++ (us ++ (vs ++ rest))).length before
          ((nodesAdds body).names ++ (pipe.adds.names ++ scope)) (vs ++ rest) less)
        (· = (before.reverse, stop)) ((nodesAdds body).names ++ (pipe.adds.names ++ scope)) last) :
      Yields (parseNodes endLine room (inRange || kind = .rangeBranch)
          (ts ++ (us ++ (vs ++ rest))).length [] (pipe.adds.names ++ scope)
          (us ++ (vs ++ rest)) shorter)
        (fun part => nodesUnlined part.1 = nodesUnlined body ∧ part.2 = stop)
        ((nodesAdds body).names ++ (pipe.adds.names ++ scope)) last := by
    refine parseNodes_spelled endLine room _ _ [] _ us (vs ++ rest) rfl rfl inside bodyFits shorter
      fun read same less => (mark _ less).imp ?_
    rintro - rfl
    simpa using same
  rw [List.append_assoc, List.append_assoc]
  cases otherwise with
  | none =>
    cases behind with
    | none mark =>
      obtain ⟨l, s, _, _, _, _, rfl⟩ := isMark_cases mark
      have branch := parseBranch_end line (nodesUnlined · = nodesUnlined body) read
        (upTo fun before less => parseNodes_stop parseAction_end)
      rw [← List.append_assoc (nodesAdds body).names, leave_append] at branch
      refine branch.imp ?_
      rintro _ ⟨inner, alike, rfl⟩
      simp only [Node.unlined, same, alike]
  | some nodes =>
    obtain ⟨l, s, _, _, tail, rfl, others⟩ := parseElse_spelled endLine room inRange
      ((nodesAdds body).names ++ (pipe.adds.names ++ scope)) vs rest rfl behind elseFits
    have branch := parseBranch_else line (nodesUnlined · = nodesUnlined body) read
      (upTo fun before less => parseNodes_stop parseAction_else) others
    rw [← List.append_assoc (nodesAdds body).names, ← List.append_assoc (nodesAdds nodes).names,
      leave_append] at branch
    refine branch.imp ?_
    rintro _ ⟨inner, others, alike, alikeElse, rfl⟩
    simp only [Node.unlined, otherwiseUnlined, same, alike, alikeElse]
termination_by (n, 3)
decreasing_by
  all_goals simp at size
  all_goals omega

theorem parseElse_spelled (endLine room : Nat) (inRange : Bool) (scope : Scope)
    (ts rest : List Token) {n : Nat} (size : ts.length = n) {kind : BranchKind} {nodes : List Node}
    (spelled : SpellsElse kind (some nodes) ts)
    (wellFormed : nodesWellFormed room inRange scope nodes) :
    ∃ l₁ s₁ l₂ s₂ tail, ts = ⟨.openAction, l₁, s₁⟩ :: ⟨.word "else", l₂, s₂⟩ :: tail ∧
      Yields (parseElse endLine room inRange kind scope (tail ++ rest))
        (fun read => nodesUnlined read = nodesUnlined nodes) ((nodesAdds nodes).names ++ scope)
        rest := by
  cases spelled with
  | plain mark inside behind =>
    rename_i us vs ts
    obtain ⟨l₁, s₁, l₂, s₂, l₃, s₃, rfl⟩ := isMark_cases mark
    obtain ⟨_, _, _, _, _, _, rfl⟩ := isMark_cases behind
    refine ⟨l₁, s₁, l₂, s₂, _, rfl, parseElse_plain fun less => ?_⟩
    refine parseNodes_spelled endLine room _ inRange [] scope vs _ rfl (List.append_assoc vs _ rest)
      inside wellFormed less fun read same less => (parseNodes_stop parseAction_end).imp ?_
    rintro - rfl
    simpa using same
  | chained chains spelled =>
    cases spelled with
    | mk header inside behind =>
      refine ⟨_, _, _, _, _, rfl, (parseElse_chained chains fun line => parseBranch_spelled endLine
        room inRange line scope _ _ _ rest rfl header inside behind wellFormed.1).imp ?_⟩
      rintro _ ⟨node, same, rfl⟩
      rw [nodesUnlined, nodesUnlined, same]
      rfl
termination_by (n, 0)
decreasing_by
  all_goals simp_wf
  all_goals simp at size
  all_goals omega
end

theorem parseNodes_nil {endLine room bound : Nat} {inRange : Bool} {before : List Node}
    {scope : Scope} {less : ([] : List Token).length < bound} :
    parseNodes endLine room inRange bound before scope [] less =
      .ok ⟨(before.reverse, .endOfInput), scope, [], less⟩ := by
  rw [parseNodes.eq_def]

theorem parse_complete (endLine : Nat) {nodes : List Node} {ts : List Token}
    (wellFormed : WellFormed nodes) (spelled : SpellsNodes nodes ts) :
    ∃ read, parse endLine ts = .ok read ∧ nodesUnlined read = nodesUnlined nodes := by
  have whole : Yields
      (parseNodes endLine maxDepth false (ts.length + 1) [] ["$"] ts (Nat.lt_succ_self _))
      (fun part => nodesUnlined part.1 = nodesUnlined nodes ∧ part.2 = .endOfInput)
      ((nodesAdds nodes).names ++ ["$"]) [] :=
    parseNodes_spelled endLine maxDepth _ false [] ["$"] ts [] rfl (List.append_nil ts).symm spelled
      wellFormed _ fun read same less => ⟨_, parseNodes_nil, ⟨by simpa using same, rfl⟩, rfl, rfl⟩
  obtain ⟨p, read, ⟨same, stops⟩, -, -⟩ := whole
  rw [parse, read, Chain.ok_bind]
  split
  · exact ⟨_, rfl, same⟩
  · rename_i found
    cases stops.symm.trans found
  · rename_i found
    cases stops.symm.trans found

end PagePress.Template
