import PagePress.Proofs.Template.Alignment
import PagePress.Proofs.Template.Appended
import PagePress.Proofs.Template.Passages

namespace PagePress.Template

section Templates

open Chain

variable {mutes : Bool} {s s' : Bytes}

inductive CompiledAlike (mutes : Bool) (name : String) :
    Except Error Template → Except Error Template → Prop
  | ok {nodes nodes' : List Node} (same : nodesPruned mutes nodes = nodesPruned mutes nodes') :
    CompiledAlike mutes name (.ok ⟨name, nodes⟩) (.ok ⟨name, nodes'⟩)
  | error {l l' : Nat} {fault : ParseFault} :
    CompiledAlike mutes name (.error ⟨name, .parse ⟨l, fault⟩⟩) (.error ⟨name, .parse ⟨l', fault⟩⟩)

theorem compile_aligned (name : String) {tokens tokens' : Tokens}
    (scanned : tokenize s = .ok tokens) (scanned' : tokenize s' = .ok tokens')
    (aligned : Aligned mutes .between tokens.list tokens'.list) :
    CompiledAlike mutes name (compile s name) (compile s' name) := by
  rw [compile, compile, scanned, scanned']
  have parsed := parse_aligned tokens.endLine tokens'.endLine aligned
  simp only [Except.mapError, ok_bind]
  generalize parse tokens.endLine tokens.list = one at parsed ⊢
  generalize parse tokens'.endLine tokens'.list = two at parsed ⊢
  cases parsed with
  | ok same => exact .ok same
  | error => exact .error

-- Sinks without a limit that have got the same bytes, in whatever pieces.
def Level (sink sink' : Sink) : Prop :=
  sink.room = none ∧ sink'.room = none ∧ sink'.failsToFlush = sink.failsToFlush ∧
    sink'.written = sink.written

theorem write_unlimited {sink : Sink} (unlimited : sink.room = none) (piece : Piece) :
    sink.write piece = (.ok (), { sink with pieces := piece :: sink.pieces }) := by
  rw [Sink.write, unlimited]

theorem written_cons (sink : Sink) (piece : Piece) :
    ({ sink with pieces := piece :: sink.pieces } : Sink).written =
      sink.written ++ piece.bytes := by
  rw [Sink.written, List.reverse_cons, List.flatMap_append, Sink.written]
  simp

theorem level_catches : Catches mutes Level where
  write := by
    intro sink sink' after piece level written
    obtain ⟨unlimited, unlimited', flushes, same⟩ := level
    rw [write_unlimited unlimited] at written
    cases written
    refine ⟨_, write_unlimited unlimited' piece, unlimited, unlimited', flushes, ?_⟩
    rw [written_cons, written_cons, same]
  left := by
    intro _ sink sink' after level written
    obtain ⟨unlimited, unlimited', flushes, same⟩ := level
    rw [write_unlimited unlimited] at written
    cases written
    refine ⟨unlimited, unlimited', flushes, ?_⟩
    rw [written_cons, same]
    exact (List.append_nil _).symm
  right := by
    intro _ sink sink' level
    obtain ⟨unlimited, unlimited', flushes, same⟩ := level
    refine ⟨_, write_unlimited unlimited' _, unlimited, unlimited', flushes, ?_⟩
    rw [written_cons, same]
    exact List.append_nil _

theorem render_pruned {template other : Template} {options : Options} {values : Json} {out : Bytes}
    (same : nodesPruned mutes other.nodes = nodesPruned mutes template.nodes)
    (rendered : template.render options values = .ok out) :
    other.render options values = .ok out := by
  rw [render, execute, runTree_eq] at rendered ⊢
  cases done : perform (runNodes options values template.nodes) [("$", values)] (holding []) with
  | mk outcome sink =>
    rw [done] at rendered
    cases outcome with
    | error failure => cases failure <;> cases rendered
    | ok p =>
      have start : Level (holding []) (holding []) := ⟨rfl, rfl, rfl, rfl⟩
      obtain ⟨flow, left, sink', again, -, -, -, -, flushes, written⟩ :=
        runNodes_pruned options level_catches same_carries values _ _ same (fun _ _ => trivial)
          _ _ _ _ _ _ _ rfl start done
      rw [again]
      simp only [Sink.flush] at rendered ⊢
      rw [flushes]
      cases fails : sink.failsToFlush with
      | true =>
        rw [fails] at rendered
        cases rendered
      | false =>
        rw [fails] at rendered
        cases rendered
        exact congrArg Except.ok written

theorem CompiledAlike.unlined {name : String} {one two : Except Error Template}
    (alike : CompiledAlike false name one two) :
    (∃ nodes nodes', one = .ok ⟨name, nodes⟩ ∧ two = .ok ⟨name, nodes'⟩ ∧
        nodesUnlined nodes' = nodesUnlined nodes ∧
        ∀ options values out, render ⟨name, nodes⟩ options values = .ok out ↔
          render ⟨name, nodes'⟩ options values = .ok out) ∨
      ∃ l l' fault, one = .error ⟨name, .parse ⟨l, fault⟩⟩ ∧
        two = .error ⟨name, .parse ⟨l', fault⟩⟩ := by
  cases alike with
  | @ok nodes nodes' same =>
    refine .inl ⟨nodes, nodes', rfl, rfl, ?_, fun options values out => ?_⟩
    · rw [← nodesPruned_false, ← same, nodesPruned_false]
    · exact ⟨render_pruned same.symm, render_pruned same⟩
  | error => exact .inr ⟨_, _, _, rfl, rfl⟩

theorem CompiledAlike.prints {name : String} {one two : Except Error Template}
    (alike : CompiledAlike mutes name one two) :
    ((∃ template, one = .ok template) ↔ ∃ template, two = .ok template) ∧
      ∀ template other, one = .ok template → two = .ok other → ∀ options values out,
        template.render options values = .ok out ↔ other.render options values = .ok out := by
  cases alike with
  | ok same =>
    refine ⟨⟨fun _ => ⟨_, rfl⟩, fun _ => ⟨_, rfl⟩⟩, ?_⟩
    intro template other isOne isTwo options values out
    cases isOne
    cases isTwo
    exact ⟨render_pruned same.symm, render_pruned same⟩
  | error =>
    constructor
    · constructor
      · intro compiled
        obtain ⟨template, same⟩ := compiled
        cases same
      · intro compiled
        obtain ⟨template, same⟩ := compiled
        cases same
    · intro template other isOne
      cases isOne

end Templates

section Passages

open Chain

variable {mutes : Bool} {spot : Spot} {ts ts' us us' : List Token}

def Spot.through (spot : Spot) (ts : List Token) : Spot :=
  ts.foldl (fun spot t => spot.behind t.lexeme) spot

theorem Aligned.append (aligned : Aligned mutes spot ts ts')
    (later : Aligned mutes (spot.through ts) us us') :
    Aligned mutes spot (ts ++ us) (ts' ++ us') := by
  induction aligned with
  | nil => exact later
  | cons spaced _ ih => exact .cons spaced (ih later)
  | silent muted _ ih => exact .silent muted (ih later)

theorem Aligned.of_unlined (same : tokensUnlined ts' = tokensUnlined ts) :
    Aligned mutes spot ts ts' := by
  induction ts generalizing ts' spot with
  | nil =>
    obtain rfl := unlined_nil same
    exact .nil
  | cons t rest ih =>
    obtain ⟨l, rest', rfl, later⟩ := unlined_cons same
    exact .cons (fun _ => rfl) (ih later)

theorem Aligned.lexemes (aligned : Aligned false spot ts ts') :
    ts'.map (·.lexeme) = ts.map (·.lexeme) := by
  generalize unmuted : false = mutes at aligned
  induction aligned with
  | nil => rfl
  | cons _ _ ih => rw [List.map_cons, ih, List.map_cons]
  | silent muted => cases unmuted.trans muted

theorem aligned_texts (line line' : Nat) (s : Bytes) (later : Aligned mutes .between us us') :
    Aligned mutes .between (textTokens line s ++ us) (textTokens line' s ++ us') := by
  rw [textTokens, textTokens]
  split
  · exact later
  · refine .cons (fun inside => ?_) later
    cases inside

def MarksMatch (mutes : Bool) (mark mark' : Mark) : Prop :=
  ∀ n n' us us', Aligned mutes .between us us' →
    Aligned mutes .between (tokensDown n mark.tokens ++ us) (tokensDown n' mark'.tokens ++ us')

theorem through_down (spot : Spot) (n : Nat) (ts : List Token) :
    spot.through (tokensDown n ts) = spot.through ts := by
  rw [Spot.through, tokensDown, List.foldl_map, Spot.through]
  rfl

theorem Inside.through {trims : Bool} {bytes : Bytes} (inside : Inside trims bytes ts)
    (spot : Spot) : spot.through ts = .between := by
  induction inside generalizing spot with
  | close => cases spot <;> rfl
  | lexeme blank dash inner reads later ih =>
    have rest (spot : Spot) (n : Nat) : spot.through (tokensDown n _) = .between :=
      (through_down spot n _).trans (ih spot)
    exact rest _ _

theorem Forms.through {bytes : Bytes} {mark : Mark} (forms : Forms bytes mark) :
    Spot.between.through mark.tokens = .between := by
  cases forms with
  | action blank inside =>
    have rest (n : Nat) : Spot.opening.through (tokensDown n _) = .between :=
      (through_down .opening n _).trans (inside.through .opening)
    exact rest _
  | comment => rfl

theorem marks_match_refl {bytes : Bytes} {mark : Mark} (forms : Forms bytes mark) :
    MarksMatch mutes mark mark := by
  intro n n' us us' behind
  have same : tokensUnlined (tokensDown n' mark.tokens) =
      tokensUnlined (tokensDown n mark.tokens) := by
    rw [tokensUnlined_down, tokensUnlined_down]
  refine (Aligned.of_unlined same).append ?_
  rw [through_down, forms.through]
  exact behind

-- Passages side by side, each with whether the mark before it trims; and the texts behind them.
inductive Matches (mutes : Bool) :
    Bool → List Passage → Bytes → Bool → List Passage → Bytes → Prop
  | last {trims trims' : Bool} {last last' : Bytes}
      (text : trimText trims false last = trimText trims' false last') :
    Matches mutes trims [] last trims' [] last'
  | passage {trims trims' : Bool} {passage passage' : Passage} {rest rest' : List Passage}
      {last last' : Bytes}
      (text : trimText trims (markOf passage.mark).trimsBefore passage.text =
        trimText trims' (markOf passage'.mark).trimsBefore passage'.text)
      (marks : MarksMatch mutes (markOf passage.mark) (markOf passage'.mark))
      (later : Matches mutes (markOf passage.mark).trimsAfter rest last
        (markOf passage'.mark).trimsAfter rest' last') :
    Matches mutes trims (passage :: rest) last trims' (passage' :: rest') last'

theorem Matches.refl {passages : List Passage} (proper : ∀ passage ∈ passages, passage.Proper)
    (trims : Bool) (last : Bytes) : Matches mutes trims passages last trims passages last := by
  induction passages generalizing trims with
  | nil => exact .last rfl
  | cons passage rest ih =>
    obtain ⟨here, later⟩ := List.forall_mem_cons.mp proper
    exact .passage rfl (marks_match_refl here.whole.forms) (ih later _)

theorem Matches.behind {before passages passages' : List Passage} {last last' : Bytes}
    (proper : ∀ passage ∈ before, passage.Proper)
    (later : ∀ trims, Matches mutes trims passages last trims passages' last') (trims : Bool) :
    Matches mutes trims (before ++ passages) last trims (before ++ passages') last' := by
  induction before generalizing trims with
  | nil => exact later trims
  | cons passage rest ih =>
    obtain ⟨here, others⟩ := List.forall_mem_cons.mp proper
    exact .passage rfl (marks_match_refl here.whole.forms) (ih others _)

theorem Matches.aligned {trims trims' : Bool} {passages passages' : List Passage}
    {last last' : Bytes} (same : Matches mutes trims passages last trims' passages' last')
    (line line' : Nat) :
    Aligned mutes .between (tokensAt trims line passages last)
      (tokensAt trims' line' passages' last') := by
  induction same generalizing line line' with
  | last text =>
    rw [tokensAt, tokensAt, text]
    rw [← List.append_nil (textTokens line _), ← List.append_nil (textTokens line' _)]
    exact aligned_texts line line' _ .nil
  | passage text marks later ih =>
    rw [tokensAt, tokensAt, text]
    exact aligned_texts line line' _ (marks _ _ _ _ (ih _ _))

theorem matching_compiled (name : String) {d e : Division} (proper : d.Proper) (proper' : e.Proper)
    (same : Matches mutes false d.passages d.last false e.passages e.last) :
    CompiledAlike mutes name (compile d.bytes name) (compile e.bytes name) :=
  compile_aligned name (tokenize_division proper) (tokenize_division proper') (same.aligned 1 1)

theorem marks_exchanged {x mark mark' : Bytes} {m m' : Mark} {tokens : Tokens}
    (scanned : tokenize x = .ok tokens) (apart : x.getLast? ≠ some 0x7B) (forms : Forms mark m)
    (forms' : Forms mark' m') (before : m.trimsBefore = m'.trimsBefore)
    (after : m.trimsAfter = m'.trimsAfter) (marks : MarksMatch mutes m m') (y : Bytes)
    (name : String) :
    let one := compile (x ++ (opening ++ (mark ++ y))) name
    let two := compile (x ++ (opening ++ (mark' ++ y))) name
    ((∃ template, one = .ok template) ↔ ∃ template, two = .ok template) ∧
      ∀ template other, one = .ok template → two = .ok other → ∀ options values out,
        template.render options values = .ok out ↔ other.render options values = .ok out := by
  obtain ⟨d, proper, rfl, -⟩ := division_of_tokenize scanned
  have ends : d.last.getLast? ≠ some 0x7B := fun last =>
    apart (last_of_suffix (List.suffix_append ..) last)
  have parts := proper_mark proper ends forms.whole.1
  have parts' := proper_mark proper ends forms'.whole.1
  rw [bytes_mark, bytes_mark]
  by_cases divided : ∃ e : Division, e.Proper ∧ e.bytes = y
  · obtain ⟨e, behind, rfl⟩ := divided
    rw [bytes_behind, bytes_behind]
    have same : Matches mutes false (d.passages ++ [⟨d.last, mark⟩] ++ e.passages) e.last false
        (d.passages ++ [⟨d.last, mark'⟩] ++ e.passages) e.last := by
      rw [List.append_assoc, List.append_assoc]
      refine .behind proper.passages (fun trims => .passage ?_ ?_ ?_) false
      · rw [forms.whole.2, forms'.whole.2, before]
      · rwa [forms.whole.2, forms'.whole.2]
      · rw [forms.whole.2, forms'.whole.2, after]
        exact .refl behind.passages _ _
    exact (matching_compiled name (proper_behind parts behind) (proper_behind parts' behind)
      same).prints
  · have refused {passages : List Passage} (parts : ∀ passage ∈ passages, passage.Proper)
        {template : Template}
        (compiled : compile (passagesBytes passages ++ y) name = .ok template) : False := by
      rw [compile] at compiled
      obtain ⟨tokens, lexed, -⟩ := bind_eq_ok.mp compiled
      exact divided (division_behind parts (mapError_eq_ok.mp lexed))
    refine ⟨⟨?_, ?_⟩, ?_⟩
    · rintro ⟨template, compiled⟩
      exact (refused parts compiled).elim
    · rintro ⟨template, compiled⟩
      exact (refused parts' compiled).elim
    · intro template other compiled
      exact (refused parts compiled).elim

end Passages

end PagePress.Template
