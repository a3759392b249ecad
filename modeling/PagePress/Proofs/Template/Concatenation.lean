import PagePress.Proofs.Template.Canonical
import PagePress.Proofs.Template.Seam
import PagePress.Template.Compiled

namespace PagePress.Template

section Relining

variable {ts us : List Token}

theorem unlined_nil (alike : tokensUnlined us = tokensUnlined []) : us = [] :=
  List.map_eq_nil_iff.mp alike

theorem unlined_cons {lexeme : Lexeme} {l : Nat} {s : Bool}
    (alike : tokensUnlined us = tokensUnlined (⟨lexeme, l, s⟩ :: ts)) :
    ∃ l' vs, us = ⟨lexeme, l', s⟩ :: vs ∧ tokensUnlined vs = tokensUnlined ts := by
  obtain ⟨⟨_, l', _⟩, vs, rfl, same, later⟩ := List.map_eq_cons_iff.mp alike
  cases same
  exact ⟨l', vs, rfl, later⟩

theorem unlined_append {vs : List Token}
    (alike : tokensUnlined vs = tokensUnlined (ts ++ us)) :
    ∃ as bs, vs = as ++ bs ∧ tokensUnlined as = tokensUnlined ts ∧
      tokensUnlined bs = tokensUnlined us := by
  rw [tokensUnlined, tokensUnlined, List.map_append] at alike
  exact List.map_eq_append_iff.mp alike

theorem unlined_one {lexeme : Lexeme} {l : Nat} {s : Bool}
    (alike : tokensUnlined us = tokensUnlined [⟨lexeme, l, s⟩]) :
    ∃ l', us = [⟨lexeme, l', s⟩] := by
  obtain ⟨l', vs, rfl, later⟩ := unlined_cons alike
  obtain rfl := unlined_nil later
  exact ⟨l', rfl⟩

theorem SpellsFields.relined {path : List String} (spelled : SpellsFields path ts)
    (alike : tokensUnlined us = tokensUnlined ts) : SpellsFields path us := by
  induction spelled generalizing us with
  | nil =>
    obtain rfl := unlined_nil alike
    exact .nil
  | cons first later ih =>
    obtain ⟨l, vs, rfl, rest⟩ := unlined_cons alike
    exact .cons first (ih rest)

theorem not_glued_relined (apart : ¬Glued ts) (alike : tokensUnlined us = tokensUnlined ts) :
    ¬Glued us := by
  rintro ⟨t, member, joined⟩
  cases us with
  | nil => cases member
  | cons u us =>
    cases member
    obtain ⟨l, vs, rfl, -⟩ := unlined_cons alike.symm
    exact apart ⟨_, rfl, joined⟩

theorem SpellsNames.relined {names : List String} {assigns : Bool}
    (spelled : SpellsNames names assigns ts) (alike : tokensUnlined us = tokensUnlined ts) :
    SpellsNames names assigns us := by
  cases spelled with
  | none =>
    obtain rfl := unlined_nil alike
    exact .none
  | one =>
    obtain ⟨_, vs, rfl, rest⟩ := unlined_cons alike
    obtain ⟨_, rfl⟩ := unlined_one rest
    exact .one
  | two =>
    obtain ⟨_, _, rfl, fromComma⟩ := unlined_cons alike
    obtain ⟨_, _, rfl, fromSecond⟩ := unlined_cons fromComma
    obtain ⟨_, _, rfl, fromBinder⟩ := unlined_cons fromSecond
    obtain ⟨_, rfl⟩ := unlined_one fromBinder
    exact .two

mutual
theorem SpellsOperand.relined {operand : Operand} {ts us : List Token} :
    SpellsOperand operand ts → tokensUnlined us = tokensUnlined ts → SpellsOperand operand us
  | .dot, alike => by
    obtain ⟨_, rfl⟩ := unlined_one alike
    exact .dot
  | .field fields, alike => by
    obtain ⟨_, vs, rfl, rest⟩ := unlined_cons alike
    exact .field (fields.relined rest)
  | .dotted given fields, alike => by
    obtain ⟨_, vs, rfl, rest⟩ := unlined_cons alike
    exact .dotted given (fields.relined rest)
  | .var fields, alike => by
    obtain ⟨_, vs, rfl, rest⟩ := unlined_cons alike
    exact .var (fields.relined rest)
  | .function, alike => by
    obtain ⟨_, rfl⟩ := unlined_one alike
    exact .function
  | .literal spelled, alike => by
    obtain ⟨_, rfl⟩ := unlined_one alike
    exact .literal spelled
  | .group inside, alike => by
    obtain ⟨_, vs, rfl, rest⟩ := unlined_cons alike
    exact .group (inside.relined rest)
  | .chain inside given fields, alike => by
    obtain ⟨_, vs, rfl, rest⟩ := unlined_cons alike
    obtain ⟨as, bs, rfl, first, later⟩ := unlined_append rest
    exact .chain (inside.relined first) given (fields.relined later)

theorem SpellsOperands.relined {operands : List Operand} {ts us : List Token} :
    SpellsOperands operands ts → tokensUnlined us = tokensUnlined ts → SpellsOperands operands us
  | .nil, alike => by
    obtain rfl := unlined_nil alike
    exact .nil
  | .cons first apart later, alike => by
    obtain ⟨as, bs, rfl, one, two⟩ := unlined_append alike
    exact .cons (first.relined one) (not_glued_relined apart two) (later.relined two)

theorem SpellsCommands.relined {place : Place} {commands : List Command} {ts us : List Token} :
    SpellsCommands place commands ts → tokensUnlined us = tokensUnlined ts →
      SpellsCommands place commands us
  | .last only, alike => by
    obtain ⟨as, bs, rfl, one, two⟩ := unlined_append alike
    obtain ⟨_, rfl⟩ := unlined_one two
    exact .last (only.relined one)
  | .piped first later, alike => by
    obtain ⟨as, bs, rfl, one, two⟩ := unlined_append alike
    obtain ⟨_, cs, rfl, rest⟩ := unlined_cons two
    exact .piped (first.relined one) (later.relined rest)

theorem SpellsPipeline.relined {place : Place} {pipe : Pipeline} {ts us : List Token} :
    SpellsPipeline place pipe ts → tokensUnlined us = tokensUnlined ts →
      SpellsPipeline place pipe us
  | .mk named inside, alike => by
    obtain ⟨as, bs, rfl, one, two⟩ := unlined_append alike
    exact .mk (named.relined one) (inside.relined two)
end

theorem isMark_relined {word : String} (mark : IsMark word ts)
    (alike : tokensUnlined us = tokensUnlined ts) : IsMark word us := by
  have lexemes := congrArg (List.map Token.lexeme) alike
  rw [tokensUnlined, tokensUnlined, List.map_map, List.map_map] at lexemes
  exact lexemes.trans mark

mutual
theorem SpellsNode.relined {node : Node} {ts us : List Token} :
    SpellsNode node ts → tokensUnlined us = tokensUnlined ts → SpellsNode node us
  | .text, alike => by
    obtain ⟨_, rfl⟩ := unlined_one alike
    exact .text
  | .action inside, alike => by
    obtain ⟨_, vs, rfl, rest⟩ := unlined_cons alike
    exact .action (inside.relined rest)
  | .branch spelled, alike => by
    obtain ⟨_, vs, rfl, rest⟩ := unlined_cons alike
    exact .branch (spelled.relined rest)
  | .breakRange mark, alike => .breakRange (isMark_relined mark alike)
  | .continueRange mark, alike => .continueRange (isMark_relined mark alike)

theorem SpellsBranch.relined {node : Node} {ts us : List Token} :
    SpellsBranch node ts → tokensUnlined us = tokensUnlined ts → SpellsBranch node us
  | .mk header inside behind, alike => by
    obtain ⟨_, vs, rfl, rest⟩ := unlined_cons alike
    obtain ⟨as, bs, rfl, one, rest⟩ := unlined_append rest
    obtain ⟨cs, ds, rfl, two, three⟩ := unlined_append rest
    exact .mk (header.relined one) (inside.relined two) (behind.relined three)

theorem SpellsElse.relined {kind : BranchKind} {otherwise : Option (List Node)}
    {ts us : List Token} :
    SpellsElse kind otherwise ts → tokensUnlined us = tokensUnlined ts →
      SpellsElse kind otherwise us
  | .none mark, alike => .none (isMark_relined mark alike)
  | .plain mark inside behind, alike => by
    obtain ⟨as, bs, rfl, one, rest⟩ := unlined_append alike
    obtain ⟨cs, ds, rfl, two, three⟩ := unlined_append rest
    exact .plain (isMark_relined mark one) (inside.relined two) (isMark_relined behind three)
  | .chained chains spelled, alike => by
    obtain ⟨_, vs, rfl, rest⟩ := unlined_cons alike
    obtain ⟨_, ws, rfl, behind⟩ := unlined_cons rest
    exact .chained chains (spelled.relined behind)

theorem SpellsNodes.relined {nodes : List Node} {ts us : List Token} :
    SpellsNodes nodes ts → tokensUnlined us = tokensUnlined ts → SpellsNodes nodes us
  | .nil, alike => by
    obtain rfl := unlined_nil alike
    exact .nil
  | .cons first later, alike => by
    obtain ⟨as, bs, rfl, one, two⟩ := unlined_append alike
    exact .cons (first.relined one) (later.relined two)
end

end Relining

section Ends

def EndsIn (lexeme : Lexeme) (ts : List Token) : Prop := ∃ us l s, ts = us ++ [⟨lexeme, l, s⟩]

theorem EndsIn.behind {lexeme : Lexeme} {ts : List Token} (ends : EndsIn lexeme ts)
    (before : List Token) : EndsIn lexeme (before ++ ts) := by
  obtain ⟨us, l, s, rfl⟩ := ends
  exact ⟨before ++ us, l, s, (List.append_assoc ..).symm⟩

theorem isMark_ends {word : String} {ts : List Token} (mark : IsMark word ts) :
    EndsIn .closeAction ts := by
  obtain ⟨l₁, s₁, l₂, s₂, l₃, s₃, rfl⟩ := isMark_cases mark
  exact ⟨[_, _], l₃, s₃, rfl⟩

theorem SpellsCommands.ends {place : Place} {commands : List Command} {ts : List Token} :
    SpellsCommands place commands ts → EndsIn (closer place) ts
  | .last _ => ⟨_, _, _, rfl⟩
  | .piped _ later => (later.ends.behind [_]).behind _

theorem SpellsPipeline.ends {place : Place} {pipe : Pipeline} {ts : List Token} :
    SpellsPipeline place pipe ts → EndsIn (closer place) ts
  | .mk _ inside => inside.ends.behind _

mutual
theorem SpellsBranch.ends {node : Node} {ts : List Token} :
    SpellsBranch node ts → EndsIn .closeAction ts
  | .mk _ _ behind => ((behind.ends.behind _).behind _).behind [_]

theorem SpellsElse.ends {kind : BranchKind} {otherwise : Option (List Node)} {ts : List Token} :
    SpellsElse kind otherwise ts → EndsIn .closeAction ts
  | .none mark => isMark_ends mark
  | .plain _ _ behind => ((isMark_ends behind).behind _).behind _
  | .chained _ spelled => spelled.ends.behind [_, _]
end

theorem SpellsNode.text_or_ends {node : Node} {ts : List Token} (spelled : SpellsNode node ts) :
    (∃ bytes l s, node = .text bytes ∧ ts = [⟨.text bytes, l, s⟩]) ∨ EndsIn .closeAction ts := by
  cases spelled with
  | text => exact .inl ⟨_, _, _, rfl, rfl⟩
  | action inside => exact .inr (inside.ends.behind [_])
  | branch spelled => exact .inr (spelled.ends.behind [_])
  | breakRange mark => exact .inr (isMark_ends mark)
  | continueRange mark => exact .inr (isMark_ends mark)

end Ends

section Seams

-- A text of no bytes is no node.
def textNodes (s : Bytes) : List Node := if s.isEmpty then [] else [.text s]

theorem spells_text (l : Nat) (s : Bytes) : SpellsNodes (textNodes s) (textTokens l s) := by
  rw [textNodes, textTokens]
  split
  · exact .nil
  · exact .cons .text .nil

theorem SpellsNodes.append {nodes others : List Node} {ts us : List Token} :
    SpellsNodes nodes ts → SpellsNodes others us → SpellsNodes (nodes ++ others) (ts ++ us)
  | .nil, behind => behind
  | .cons first later, behind => by
    rw [List.append_assoc]
    exact .cons first (later.append behind)

theorem SpellsNodes.of_nil {nodes : List Node} (spelled : SpellsNodes nodes []) : nodes = [] := by
  generalize empty : ([] : List Token) = ts at spelled
  cases spelled with
  | nil => rfl
  | cons first later =>
    obtain ⟨rfl, -⟩ := List.append_eq_nil_iff.mp empty.symm
    obtain ⟨_, _, _, -, same⟩ | ⟨_, _, _, same⟩ := first.text_or_action
    · cases same
    · cases same

theorem SpellsNodes.of_text {nodes : List Node} {bytes : Bytes} {l : Nat} {s : Bool}
    {us : List Token} (spelled : SpellsNodes nodes (⟨.text bytes, l, s⟩ :: us)) :
    ∃ behind, nodes = .text bytes :: behind ∧ SpellsNodes behind us := by
  generalize whole : Token.mk (.text bytes) l s :: us = ts at spelled
  cases spelled with
  | nil => cases whole
  | cons first later =>
    obtain ⟨_, _, _, rfl, rfl⟩ | ⟨_, _, _, rfl⟩ := first.text_or_action
    · cases whole
      exact ⟨_, rfl, later⟩
    · cases whole

theorem SpellsNodes.of_last_text {nodes : List Node} {bytes : Bytes} {l : Nat} {s : Bool}
    {ts us : List Token} :
    SpellsNodes nodes us → us = ts ++ [⟨.text bytes, l, s⟩] →
      ∃ before, nodes = before ++ [.text bytes] ∧ SpellsNodes before ts
  | .nil, whole => by simp at whole
  | @SpellsNodes.cons _ _ here there first later, whole => by
    rcases List.eq_nil_or_concat there with rfl | ⟨inner, last, rfl⟩
    · obtain rfl := later.of_nil
      rw [List.append_nil] at whole
      subst whole
      obtain ⟨_, _, _, rfl, same⟩ | ⟨_, _, _, same⟩ := first.text_or_ends
      · cases ts with
        | nil =>
          cases same
          exact ⟨[], rfl, .nil⟩
        | cons t r => simp at same
      · cases (List.append_inj' same rfl).2
    · rw [List.concat_eq_append, ← List.append_assoc] at whole
      obtain ⟨rfl, same⟩ := List.append_inj' whole rfl
      cases same
      obtain ⟨before, rfl, spelled⟩ := later.of_last_text (List.concat_eq_append ..)
      exact ⟨_ :: before, rfl, .cons first spelled⟩

theorem SpellsNodes.of_front {nodes : List Node} {l : Nat} {x : Bytes} {us : List Token}
    (spelled : SpellsNodes nodes (textTokens l x ++ us)) :
    ∃ behind, nodes = textNodes x ++ behind ∧ SpellsNodes behind us := by
  cases empty : x.isEmpty with
  | true =>
    simp only [textTokens, empty] at spelled
    exact ⟨nodes, by simp [textNodes, empty], spelled⟩
  | false =>
    simp only [textTokens, empty] at spelled
    obtain ⟨behind, rfl, later⟩ := spelled.of_text
    exact ⟨behind, by simp [textNodes, empty], later⟩

theorem SpellsNodes.of_back {nodes : List Node} {l : Nat} {x : Bytes} {ts : List Token}
    (spelled : SpellsNodes nodes (ts ++ textTokens l x)) :
    ∃ before, nodes = before ++ textNodes x ∧ SpellsNodes before ts := by
  cases empty : x.isEmpty with
  | true =>
    rw [textTokens, if_pos empty, List.append_nil] at spelled
    exact ⟨nodes, by simp [textNodes, empty], spelled⟩
  | false =>
    rw [textTokens, if_neg (by simp [empty])] at spelled
    obtain ⟨before, rfl, earlier⟩ := spelled.of_last_text rfl
    exact ⟨before, by simp [textNodes, empty], earlier⟩

end Seams

section Scopes

theorem subset_behind (names : List String) {scope wider : Scope} (sub : scope ⊆ wider) :
    names ++ scope ⊆ names ++ wider :=
  List.append_subset.mpr
    ⟨List.subset_append_left names wider, List.subset_append_of_subset_right names sub⟩

mutual
theorem Operand.wellFormed_mono (room : Nat) {scope wider : Scope} (sub : scope ⊆ wider) :
    (operand : Operand) → operand.WellFormed room scope → operand.WellFormed room wider
  | .dot, fits => fits
  | .function _, fits => fits
  | .field _, fits => fits
  | .literal _, fits => fits
  | .var _ _, fits => sub fits
  | .group pipe, fits => ⟨fits.1, pipe.wellFormed_mono _ _ sub fits.2⟩
  | .chain (.group pipe) _, fits => ⟨fits.1, fits.2.1, pipe.wellFormed_mono _ _ sub fits.2.2⟩

theorem operandsWellFormed_mono (room : Nat) {scope wider : Scope} (sub : scope ⊆ wider) :
    (operands : List Operand) → operandsWellFormed room scope operands →
      operandsWellFormed room wider operands
  | [], _ => trivial
  | operand :: rest, ⟨fits, others⟩ =>
    ⟨operand.wellFormed_mono room sub fits,
      operandsWellFormed_mono room (subset_behind _ sub) rest others⟩

theorem Command.wellFormed_mono (room : Nat) {scope wider : Scope} (sub : scope ⊆ wider) :
    (command : Command) → command.WellFormed room scope → command.WellFormed room wider
  | .mk _ operands, ⟨given, notNil, fits⟩ =>
    ⟨given, notNil, operandsWellFormed_mono room sub operands fits⟩

theorem commandsWellFormed_mono (room : Nat) {scope wider : Scope} (sub : scope ⊆ wider) :
    (commands : List Command) → commandsWellFormed room scope commands →
      commandsWellFormed room wider commands
  | [], _ => trivial
  | command :: rest, ⟨fits, others⟩ =>
    ⟨command.wellFormed_mono room sub fits,
      commandsWellFormed_mono room (subset_behind _ sub) rest others⟩

theorem Pipeline.wellFormed_mono (room : Nat) (place : Place) {scope wider : Scope}
    (sub : scope ⊆ wider) :
    (pipe : Pipeline) → pipe.WellFormed room place scope → pipe.WellFormed room place wider
  | .mk _ _ _ commands, ⟨few, held, given, fits⟩ =>
    ⟨few, fun assigned => (held assigned).imp_right fun inScope name member =>
        sub (inScope name member),
      given, commandsWellFormed_mono room (subset_behind _ sub) commands fits⟩
end

mutual
theorem Node.wellFormed_mono (room : Nat) (inRange : Bool) {scope wider : Scope}
    (sub : scope ⊆ wider) :
    (node : Node) → node.WellFormed room inRange scope → node.WellFormed room inRange wider
  | .text _, fits => fits
  | .action pipe, fits => pipe.wellFormed_mono room _ sub fits
  | .branch _ _ pipe body otherwise, ⟨positive, fits, bodyFits, elseFits⟩ =>
    have within := subset_behind pipe.adds.names sub
    ⟨positive, pipe.wellFormed_mono _ _ sub fits, nodesWellFormed_mono _ _ within body bodyFits,
      otherwiseWellFormed_mono _ _ (subset_behind _ within) otherwise elseFits⟩
  | .breakRange, fits => fits
  | .continueRange, fits => fits

theorem nodesWellFormed_mono (room : Nat) (inRange : Bool) {scope wider : Scope}
    (sub : scope ⊆ wider) :
    (nodes : List Node) → nodesWellFormed room inRange scope nodes →
      nodesWellFormed room inRange wider nodes
  | [], _ => trivial
  | node :: rest, ⟨fits, others⟩ =>
    ⟨node.wellFormed_mono room inRange sub fits,
      nodesWellFormed_mono room inRange (subset_behind _ sub) rest others⟩

theorem otherwiseWellFormed_mono (room : Nat) (inRange : Bool) {scope wider : Scope}
    (sub : scope ⊆ wider) :
    (otherwise : Option (List Node)) → otherwiseWellFormed room inRange scope otherwise →
      otherwiseWellFormed room inRange wider otherwise
  | none, _ => trivial
  | some nodes, fits => nodesWellFormed_mono room inRange sub nodes fits
end

theorem nodesWellFormed_append {room : Nat} {inRange : Bool} {scope : Scope}
    {nodes others : List Node} :
    nodesWellFormed room inRange scope (nodes ++ others) ↔
      nodesWellFormed room inRange scope nodes ∧
        nodesWellFormed room inRange ((nodesAdds nodes).names ++ scope) others := by
  induction nodes generalizing scope with
  | nil => simp [nodesWellFormed, nodesAdds, Reach.names]
  | cons node rest ih =>
    rw [List.cons_append, nodesWellFormed, nodesWellFormed, ih, nodesAdds, Reach.names_append,
      List.append_assoc, and_assoc]

end Scopes

section Compiling

open Chain

theorem textNodes_adds (s : Bytes) : (nodesAdds (textNodes s)).names = [] := by
  rw [textNodes]
  split <;> rfl

theorem textNodes_wellFormed (room : Nat) (inRange : Bool) (scope : Scope) (s : Bytes) :
    nodesWellFormed room inRange scope (textNodes s) := by
  rw [textNodes]
  split
  · trivial
  · exact ⟨trivial, trivial⟩

theorem wellFormed_joined {before behind : List Node} {x y : Bytes}
    (first : WellFormed (before ++ textNodes x)) (second : WellFormed (textNodes y ++ behind)) :
    WellFormed (before ++ (textNodes (x ++ y) ++ behind)) := by
  have earlier := (nodesWellFormed_append.mp first).1
  have later := (nodesWellFormed_append.mp second).2
  rw [textNodes_adds, List.nil_append] at later
  refine nodesWellFormed_append.mpr ⟨earlier, nodesWellFormed_append.mpr
    ⟨textNodes_wellFormed _ _ _ _, ?_⟩⟩
  rw [textNodes_adds, List.nil_append]
  exact nodesWellFormed_mono _ _ (List.subset_append_right _ _) behind later

theorem parse_append {endOne endTwo : Nat} (endLine : Nat) {ts us whole : List Token} {x y : Bytes}
    {l₁ l₂ l : Nat} {one two : List Node} (rangedOne : Ranged (ts ++ textTokens l₁ x))
    (rangedTwo : Ranged (textTokens l₂ y ++ us))
    (first : parse endOne (ts ++ textTokens l₁ x) = .ok one)
    (second : parse endTwo (textTokens l₂ y ++ us) = .ok two)
    (alike : tokensUnlined whole = tokensUnlined (ts ++ (textTokens l (x ++ y) ++ us))) :
    ∃ before behind read, one = before ++ textNodes x ∧ two = textNodes y ++ behind ∧
      parse endLine whole = .ok read ∧
      nodesUnlined read = nodesUnlined (before ++ (textNodes (x ++ y) ++ behind)) := by
  obtain ⟨fitsOne, spelledOne⟩ := parse_sound rangedOne first
  obtain ⟨fitsTwo, spelledTwo⟩ := parse_sound rangedTwo second
  obtain ⟨before, rfl, earlier⟩ := spelledOne.of_back
  obtain ⟨behind, rfl, later⟩ := spelledTwo.of_front
  have spelled := (earlier.append ((spells_text l (x ++ y)).append later)).relined alike
  obtain ⟨read, accepted, same⟩ :=
    parse_complete endLine (wellFormed_joined fitsOne fitsTwo) spelled
  exact ⟨before, behind, read, rfl, rfl, accepted, same⟩

theorem compile_wellFormed {s : Bytes} {name : String} {template : Template}
    (compiled : compile s name = .ok template) : WellFormed template.nodes := by
  rw [compile] at compiled
  obtain ⟨tokens, lexed, compiled⟩ := bind_eq_ok.mp compiled
  obtain ⟨nodes, parsed, compiled⟩ := bind_eq_ok.mp compiled
  cases compiled
  exact (parse_sound (tokenize_ranged (mapError_eq_ok.mp lexed)) (mapError_eq_ok.mp parsed)).1

-- The tree of two sources together is that of the one and that of the other, apart from lines and
-- from the text at the seam.
theorem compile_append {s t : Bytes} {nameOne nameTwo : String} (name : String)
    {one two : Template} (first : compile s nameOne = .ok one)
    (second : compile t nameTwo = .ok two) (apart : Apart s t) (keepsEnd : trimsEnd s = false)
    (keepsStart : trimsStart t = false) :
    ∃ whole before behind x y, compile (s ++ t) name = .ok whole ∧
      one.nodes = before ++ textNodes x ∧ two.nodes = textNodes y ++ behind ∧
      nodesUnlined whole.nodes = nodesUnlined (before ++ (textNodes (x ++ y) ++ behind)) := by
  rw [compile] at first second
  obtain ⟨tokensOne, lexedOne, first⟩ := bind_eq_ok.mp first
  obtain ⟨nodesOne, parsedOne, first⟩ := bind_eq_ok.mp first
  cases first
  obtain ⟨tokensTwo, lexedTwo, second⟩ := bind_eq_ok.mp second
  obtain ⟨nodesTwo, parsedTwo, second⟩ := bind_eq_ok.mp second
  cases second
  rw [mapError_eq_ok] at lexedOne parsedOne lexedTwo parsedTwo
  obtain ⟨tokens, lexed, ts, us, x, y, l₁, l₂, l, ofOne, ofTwo, alike⟩ :=
    tokenize_append lexedOne lexedTwo apart keepsEnd keepsStart
  have rangedOne := tokenize_ranged lexedOne
  have rangedTwo := tokenize_ranged lexedTwo
  rw [ofOne] at rangedOne parsedOne
  rw [ofTwo] at rangedTwo parsedTwo
  obtain ⟨before, behind, read, splitOne, splitTwo, parsed, same⟩ :=
    parse_append tokens.endLine rangedOne rangedTwo parsedOne parsedTwo alike
  refine ⟨⟨name, read⟩, before, behind, x, y, ?_, splitOne, splitTwo, same⟩
  rw [compile, lexed, Except.mapError, ok_bind, parsed]
  rfl

end Compiling

end PagePress.Template
