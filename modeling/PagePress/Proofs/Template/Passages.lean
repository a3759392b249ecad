import PagePress.Proofs.Template.Seam

namespace PagePress.Template

open Text

structure Passage where
  text : Bytes
  mark : Bytes

structure Division where
  passages : List Passage
  last : Bytes

def opening : Bytes := utf8Chars ['{', '{']

namespace Passage

def bytes (passage : Passage) : Bytes := passage.text ++ (opening ++ passage.mark)

end Passage

def passagesBytes (passages : List Passage) : Bytes := passages.flatMap Passage.bytes

def Division.bytes (d : Division) : Bytes := passagesBytes d.passages ++ d.last

def Unopened (s : Bytes) : Prop := ¬opening <:+: s

def IsWhole (bytes : Bytes) : Prop := ∃ p, scanMark 0 bytes = .ok p ∧ p.rest = []

def markOf (bytes : Bytes) : Mark :=
  match scanMark 0 bytes with
  | .ok p => p.mark
  | .error _ => ⟨false, false, []⟩

structure Passage.Proper (passage : Passage) : Prop where
  unopened : Unopened passage.text
  apart : passage.text.getLast? ≠ some 0x7B
  whole : IsWhole passage.mark

structure Division.Proper (d : Division) : Prop where
  passages : ∀ passage ∈ d.passages, passage.Proper
  last : Unopened d.last

section Cutting

variable {b : UInt8} {s text r : Bytes}

theorem letter_eq_brace : letter b = '{' ↔ b = 0x7B :=
  ⟨fun same => letter_inj same, fun same => congrArg letter same⟩

theorem pair_prefix {d e : UInt8} :
    [d, e] <+: b :: r ↔ letter b = letter d ∧ r.head?.map letter = some (letter e) := by
  have same {b d : UInt8} : letter b = letter d ↔ d = b :=
    ⟨fun letters => (letter_inj letters).symm, fun bytes => congrArg letter bytes.symm⟩
  rw [List.cons_prefix_cons, same]
  cases r with
  | nil => simp
  | cons c u => simp [List.cons_prefix_cons, same]

theorem pair_infix_cons {d e : UInt8} : ¬[d, e] <:+: b :: r ↔
    ¬(letter b = letter d ∧ r.head?.map letter = some (letter e)) ∧ ¬[d, e] <:+: r := by
  rw [List.infix_cons_iff, not_or, pair_prefix]

theorem unopened_cons : Unopened (b :: r) ↔
    ¬(letter b = '{' ∧ r.head?.map letter = some '{') ∧ Unopened r :=
  pair_infix_cons

theorem unopened_iff (s : Bytes) : Unopened s ↔ (cutText [] s).2 = none := by
  induction s with
  | nil => simp [Unopened, opening, cutText]
  | cons b r ih =>
    rw [unopened_cons, ih, cutText]
    split
    · rename_i opens
      simp [opens]
    · rename_i goesOn
      rw [cutText_before [b] r]
      exact and_iff_right goesOn

theorem cutText_unopened (unopened : Unopened s) : cutText [] s = (s, none) := by
  have uncut := (unopened_iff s).mp unopened
  rcases found : cutText [] s with ⟨text, behind⟩
  rw [found] at uncut
  obtain rfl : behind = none := uncut
  rw [cutText_whole found]
  rfl

theorem cutText_opening (unopened : Unopened text) (apart : text.getLast? ≠ some 0x7B)
    (r : Bytes) : cutText [] (text ++ (opening ++ r)) = (text, some r) := by
  have other : Apart text (opening ++ r) := by
    rintro ⟨last, -⟩
    obtain ⟨b, found, same⟩ := Option.map_eq_some_iff.mp last
    exact apart (found.trans (congrArg some (letter_inj same)))
  rw [cutText_behind ((unopened_iff text).mp unopened) other, List.append_nil]
  change (if _ then _ else _) = _
  rw [if_pos ⟨rfl, rfl⟩, List.reverse_reverse]
  rfl

theorem cutText_some (cut : cutText [] s = (text, some r)) :
    s = text ++ (opening ++ r) ∧ Unopened text ∧ text.getLast? ≠ some 0x7B := by
  induction s generalizing text with
  | nil => cases cut
  | cons b u ih =>
    rw [cutText] at cut
    split at cut
    · rename_i opens
      cases cut
      obtain ⟨first, next⟩ := opens
      obtain _ | ⟨d, v⟩ := u
      · cases next
      · rw [letter_eq_brace.mp first, letter_eq_brace.mp (Option.some.inj next)]
        refine ⟨rfl, ?_, ?_⟩ <;> simp [Unopened, opening]
    · rename_i goesOn
      rcases found : cutText [] u with ⟨text, behind⟩
      rw [cutText_before [b] u, found] at cut
      obtain ⟨rfl, rfl⟩ := Prod.mk.inj cut
      obtain ⟨rfl, unopened, apart⟩ := ih found
      refine ⟨rfl, unopened_cons.mpr ⟨?_, unopened⟩, ?_⟩
      · rintro ⟨first, next⟩
        obtain _ | ⟨d, v⟩ := text
        · cases next
        · exact goesOn ⟨first, next⟩
      · obtain _ | ⟨d, v⟩ := text
        · intro last
          exact goesOn ⟨letter_eq_brace.mpr (Option.some.inj last), rfl⟩
        · simpa using apart

end Cutting

section Scanning

theorem isWhole_iff {bytes : Bytes} :
    IsWhole bytes ↔ (scanMark 0 bytes).map (·.rest) = .ok [] := by
  rw [IsWhole]
  cases scanMark 0 bytes with
  | ok p => simp [Except.map]
  | error => simp [Except.map]

theorem IsWhole.forms {bytes : Bytes} (whole : IsWhole bytes) : Forms bytes (markOf bytes) := by
  obtain ⟨p, found, left⟩ := whole
  obtain ⟨front, mark, forms, split, isMark, -⟩ := scanMark_forms found
  rw [left, List.append_nil] at split
  subst split
  rw [Mark.down_zero] at isMark
  rw [markOf, found]
  change Forms bytes p.mark
  rwa [isMark]

theorem Forms.whole {bytes : Bytes} {mark : Mark} (forms : Forms bytes mark) :
    IsWhole bytes ∧ markOf bytes = mark := by
  obtain ⟨p, found, isMark, -, left⟩ := forms.scans 0 []
  rw [Mark.down_zero] at isMark
  have same : bytes ++ [] = bytes := List.append_nil bytes
  have whole : IsWhole bytes := same ▸ ⟨p, found, left⟩
  exact ⟨whole, (whole.forms.unique forms (Eq.refl (bytes ++ []))).2.1⟩

variable {passage : Passage} {passages : List Passage} {d e : Division} {s : Bytes}

theorem passage_append (passage : Passage) (s : Bytes) :
    passage.bytes ++ s = passage.text ++ (opening ++ (passage.mark ++ s)) := by
  rw [Passage.bytes, List.append_assoc, List.append_assoc]

theorem passagesBytes_cons (passage : Passage) (rest : List Passage) :
    passagesBytes (passage :: rest) = passage.bytes ++ passagesBytes rest := List.flatMap_cons

theorem passagesBytes_append (before after : List Passage) :
    passagesBytes (before ++ after) = passagesBytes before ++ passagesBytes after :=
  List.flatMap_append

theorem newlines_passage (passage : Passage) :
    newlines passage.bytes = newlines passage.text + newlines passage.mark := by
  rw [Passage.bytes, newlines_append, newlines_append]
  exact congrArg _ (Nat.zero_add _)

def segmentsAt (line : Nat) : List Passage → List Segment
  | [] => []
  | passage :: rest =>
    ⟨line, passage.text, (markOf passage.mark).down (line + newlines passage.text)⟩ ::
      segmentsAt (line + newlines passage.bytes) rest

theorem scan_passage (proper : passage.Proper) (line : Nat) (before : List Segment) (s : Bytes) :
    Layout.scan line before (passage.bytes ++ s) =
      Layout.scan (line + newlines passage.bytes)
        (⟨line, passage.text, (markOf passage.mark).down (line + newlines passage.text)⟩ ::
          before) s := by
  obtain ⟨p, found, isMark, isLine, left⟩ :=
    proper.whole.forms.scans (line + newlines passage.text) s
  rw [passage_append, scan_mark (cutText_opening proper.unopened proper.apart _) found, isMark,
    isLine, left, newlines_passage, Nat.add_assoc]

theorem scan_passages (proper : ∀ passage ∈ passages, passage.Proper) (line : Nat)
    (before : List Segment) (s : Bytes) :
    Layout.scan line before (passagesBytes passages ++ s) =
      Layout.scan (line + newlines (passagesBytes passages))
        ((segmentsAt line passages).reverse ++ before) s := by
  induction passages generalizing line before with
  | nil => rfl
  | cons passage rest ih =>
    obtain ⟨here, later⟩ := List.forall_mem_cons.mp proper
    rw [passagesBytes_cons, List.append_assoc, scan_passage here, ih later, newlines_append,
      segmentsAt, List.reverse_cons, List.append_assoc, Nat.add_assoc]
    rfl

def Division.layout (d : Division) : Layout :=
  ⟨segmentsAt 1 d.passages, 1 + newlines (passagesBytes d.passages), d.last⟩

theorem scan_division (proper : d.Proper) : Layout.ofBytes d.bytes = .ok d.layout := by
  rw [Layout.ofBytes, Division.bytes, scan_passages proper.passages,
    scan_last (cutText_unopened proper.last), List.append_nil, List.reverse_reverse]
  rfl

theorem exists_division (line : Nat) (before : List Segment) (s : Bytes) {layout : Layout}
    (found : Layout.scan line before s = .ok layout) : ∃ d : Division, d.Proper ∧ d.bytes = s := by
  obtain ⟨cut, -⟩ | ⟨text, r, cut, p, scanned, found⟩ := scan_cases found
  · have unopened : Unopened s := (unopened_iff s).mpr (congrArg Prod.snd cut)
    exact ⟨⟨[], s⟩, ⟨nofun, unopened⟩, rfl⟩
  · have shorter := cutText_lt cut
    have within := p.within
    obtain ⟨d, proper, bytes⟩ := exists_division _ _ p.rest found
    obtain ⟨whole, unopened, apart⟩ := cutText_some cut
    obtain ⟨mark, isMark, forms, split, -⟩ := scanMark_forms scanned
    refine ⟨⟨⟨text, mark⟩ :: d.passages, d.last⟩, ⟨?_, proper.last⟩, ?_⟩
    · exact List.forall_mem_cons.mpr ⟨⟨unopened, apart, forms.whole.1⟩, proper.passages⟩
    · rw [whole, Division.bytes, passagesBytes_cons, List.append_assoc, passage_append, split,
        ← bytes]
      rfl
termination_by s.length

theorem cutText_passages (proper : passage.Proper) (rest : List Passage) (last : Bytes) :
    cutText [] (passagesBytes (passage :: rest) ++ last) =
      (passage.text, some (passage.mark ++ (passagesBytes rest ++ last))) := by
  rw [passagesBytes_cons, List.append_assoc, passage_append]
  exact cutText_opening proper.unopened proper.apart _

theorem division_unique {one two : List Passage} {last last' : Bytes}
    (proper : Division.Proper ⟨one, last⟩) (proper' : Division.Proper ⟨two, last'⟩)
    (same : passagesBytes one ++ last = passagesBytes two ++ last') : one = two ∧ last = last' := by
  induction one generalizing two with
  | nil =>
    cases two with
    | nil => exact ⟨rfl, same⟩
    | cons other later =>
      have uncut : cutText [] (passagesBytes [] ++ last) = (last, none) :=
        cutText_unopened proper.last
      rw [same, cutText_passages (proper'.passages other (.head _))] at uncut
      cases uncut
  | cons passage rest ih =>
    have cut := cutText_passages (proper.passages passage (.head _)) rest last
    cases two with
    | nil =>
      have uncut : cutText [] (passagesBytes [] ++ last') = (last', none) :=
        cutText_unopened proper'.last
      rw [← same, cut] at uncut
      cases uncut
    | cons other later =>
      obtain ⟨here, properRest⟩ := List.forall_mem_cons.mp proper.passages
      obtain ⟨there, properLater⟩ := List.forall_mem_cons.mp proper'.passages
      rw [same, cutText_passages there] at cut
      obtain ⟨text, behind⟩ := Prod.mk.inj cut
      obtain ⟨mark, -, others⟩ :=
        there.whole.forms.unique here.whole.forms (Option.some.inj behind)
      obtain ⟨rfl, sameLast⟩ :=
        ih ⟨properRest, proper.last⟩ ⟨properLater, proper'.last⟩ others.symm
      obtain ⟨_, _⟩ := passage
      obtain ⟨_, _⟩ := other
      dsimp only at text mark
      rw [text, mark]
      exact ⟨rfl, sameLast⟩

end Scanning

section Tokens

def trimText (trimsStart trimsEnd : Bool) (s : Bytes) : Bytes :=
  let s := if trimsStart then trimStart s else s
  if trimsEnd then trimEnd s else s

def tokensAt (trims : Bool) (line : Nat) : List Passage → Bytes → List Token
  | [], last => textTokens line (trimText trims false last)
  | passage :: rest, last =>
    textTokens line (trimText trims (markOf passage.mark).trimsBefore passage.text) ++
      (tokensDown (line + newlines passage.text) (markOf passage.mark).tokens ++
        tokensAt (markOf passage.mark).trimsAfter (line + newlines passage.bytes) rest last)

def Division.tokens (d : Division) : Tokens :=
  ⟨tokensAt false 1 d.passages d.last, 1 + newlines (passagesBytes d.passages) + newlines d.last⟩

def textsAt (trims : Bool) : List Passage → Bytes → List Bytes
  | [], last => [trimText trims false last]
  | passage :: rest, last =>
    trimText trims (markOf passage.mark).trimsBefore passage.text ::
      textsAt (markOf passage.mark).trimsAfter rest last

def actionsAt (line : Nat) : List Passage → List Token
  | [] => []
  | passage :: rest =>
    tokensDown (line + newlines passage.text) (markOf passage.mark).tokens ++
      actionsAt (line + newlines passage.bytes) rest

def Token.text? (t : Token) : Option Bytes :=
  match t.lexeme with
  | .text bytes => some bytes
  | _ => none

def textsOf (ts : List Token) : List Bytes := ts.filterMap Token.text?

def actionsOf (ts : List Token) : List Token := ts.filter (·.text?.isNone)

variable {passage : Passage} {passages : List Passage} {d : Division}

theorem parts_textTokens (line : Nat) (s : Bytes) :
    textsOf (textTokens line s) = [s].filter (!·.isEmpty) ∧ actionsOf (textTokens line s) = [] := by
  rw [textTokens]
  cases s with
  | nil => exact ⟨rfl, rfl⟩
  | cons => exact ⟨rfl, rfl⟩

theorem parts_mark (whole : IsWhole passage.mark) (n : Nat) :
    textsOf (tokensDown n (markOf passage.mark).tokens) = [] ∧
      actionsOf (tokensDown n (markOf passage.mark).tokens) =
        tokensDown n (markOf passage.mark).tokens := by
  have plain : ∀ t ∈ tokensDown n (markOf passage.mark).tokens, t.text? = none := by
    intro t member
    obtain ⟨u, inside, rfl⟩ := List.mem_map.mp member
    have other := whole.forms.not_text u inside
    change u.text? = none
    rw [Token.text?]
    split
    · rename_i text same
      exact (other text same).elim
    · rfl
  refine ⟨List.filterMap_eq_nil_iff.mpr plain, List.filter_eq_self.mpr fun t member => ?_⟩
  rw [plain t member]
  rfl

theorem parts_passages (proper : ∀ passage ∈ passages, passage.Proper) (trims : Bool) (line : Nat)
    (last : Bytes) :
    textsOf (tokensAt trims line passages last) =
        (textsAt trims passages last).filter (!·.isEmpty) ∧
      actionsOf (tokensAt trims line passages last) = actionsAt line passages := by
  induction passages generalizing trims line with
  | nil => exact parts_textTokens _ _
  | cons passage rest ih =>
    obtain ⟨here, later⟩ := List.forall_mem_cons.mp proper
    obtain ⟨texts, none⟩ :=
      parts_textTokens line (trimText trims (markOf passage.mark).trimsBefore passage.text)
    obtain ⟨noText, actions⟩ := parts_mark here.whole (line + newlines passage.text)
    obtain ⟨textsLater, actionsLater⟩ :=
      ih later (markOf passage.mark).trimsAfter (line + newlines passage.bytes)
    simp only [tokensAt, textsOf, actionsOf, List.filterMap_append, List.filter_append] at *
    rw [texts, noText, textsLater, none, actions, actionsLater]
    exact ⟨(List.filter_append ..).symm, rfl⟩

theorem parts_division (proper : d.Proper) :
    textsOf d.tokens.list = (textsAt false d.passages d.last).filter (!·.isEmpty) ∧
      actionsOf d.tokens.list = actionsAt 1 d.passages :=
  parts_passages proper.passages false 1 d.last

theorem layout_tokens (trims : Bool) (line : Nat) (passages : List Passage) (last : Bytes) :
    segmentsTokens trims (segmentsAt line passages) ++
        lastTokens (trimsBehind trims (segmentsAt line passages))
          (line + newlines (passagesBytes passages)) last =
      tokensAt trims line passages last := by
  induction passages generalizing trims line with
  | nil => rfl
  | cons passage rest ih =>
    rw [tokensAt, ← ih, segmentsAt, segmentsTokens_cons, trimsBehind_cons, passagesBytes_cons,
      newlines_append, ← Nat.add_assoc, List.append_assoc, ← List.append_assoc (textTokens _ _)]
    rfl

theorem tokenize_division (proper : d.Proper) : tokenize d.bytes = .ok d.tokens := by
  rw [tokenize, scan_division proper, Chain.ok_bind, tokens_eq, Division.layout]
  simp only [layout_tokens]
  rfl

theorem division_of_tokenize {s : Bytes} {tokens : Tokens} (scanned : tokenize s = .ok tokens) :
    ∃ d : Division, d.Proper ∧ d.bytes = s ∧ ∀ e : Division, e.Proper → e.bytes = s → e = d := by
  obtain ⟨layout, found, -⟩ := Chain.bind_eq_ok.mp scanned
  obtain ⟨d, proper, rfl⟩ := exists_division 1 [] s found
  refine ⟨d, proper, rfl, fun e properToo bytes => ?_⟩
  obtain ⟨passages, last⟩ := division_unique properToo proper bytes
  obtain ⟨_, _⟩ := e
  dsimp only at passages last
  rw [passages, last]

theorem division_behind {passages : List Passage} {s : Bytes} {tokens : Tokens}
    (proper : ∀ passage ∈ passages, passage.Proper)
    (scanned : tokenize (passagesBytes passages ++ s) = .ok tokens) :
    ∃ d : Division, d.Proper ∧ d.bytes = s := by
  obtain ⟨layout, found, -⟩ := Chain.bind_eq_ok.mp scanned
  rw [Layout.ofBytes, scan_passages proper] at found
  exact exists_division _ _ s found

theorem bytes_mark (d : Division) (mark s : Bytes) :
    d.bytes ++ (opening ++ (mark ++ s)) = passagesBytes (d.passages ++ [⟨d.last, mark⟩]) ++ s := by
  rw [passagesBytes_append, passagesBytes_cons, Division.bytes, List.append_assoc,
    List.append_assoc, List.append_assoc, passage_append]
  rfl

theorem proper_mark {mark : Bytes} (proper : d.Proper) (apart : d.last.getLast? ≠ some 0x7B)
    (whole : IsWhole mark) :
    ∀ passage ∈ d.passages ++ [⟨d.last, mark⟩], passage.Proper :=
  List.forall_mem_append.mpr
    ⟨proper.passages, List.forall_mem_singleton.mpr ⟨proper.last, apart, whole⟩⟩

theorem proper_behind (parts : ∀ passage ∈ passages, passage.Proper) (proper : d.Proper) :
    Division.Proper ⟨passages ++ d.passages, d.last⟩ :=
  ⟨List.forall_mem_append.mpr ⟨parts, proper.passages⟩, proper.last⟩

theorem bytes_behind (passages : List Passage) (d : Division) :
    passagesBytes passages ++ d.bytes = Division.bytes ⟨passages ++ d.passages, d.last⟩ := by
  rw [Division.bytes, Division.bytes, passagesBytes_append, List.append_assoc]

theorem actionsAt_append (line : Nat) (before after : List Passage) :
    actionsAt line (before ++ after) =
      actionsAt line before ++ actionsAt (line + newlines (passagesBytes before)) after := by
  induction before generalizing line with
  | nil => rfl
  | cons passage rest ih =>
    rw [List.cons_append, actionsAt, actionsAt, ih, passagesBytes_cons, newlines_append,
      List.append_assoc, Nat.add_assoc]

theorem actionsAt_down (line n : Nat) (passages : List Passage) :
    actionsAt (line + n) passages = tokensDown n (actionsAt line passages) := by
  induction passages generalizing line with
  | nil => rfl
  | cons passage rest ih =>
    rw [actionsAt, actionsAt, tokensDown_append, tokensDown_tokensDown, ← ih,
      Nat.add_right_comm, Nat.add_right_comm line n]

theorem actionsAt_text (line : Nat) (text mark : Bytes) (rest : List Passage) :
    actionsAt line (⟨text, mark⟩ :: rest) =
      tokensDown (newlines text) (actionsAt line (⟨[], mark⟩ :: rest)) := by
  have none : newlines [] = 0 := rfl
  rw [actionsAt, actionsAt, tokensDown_append, tokensDown_tokensDown, ← actionsAt_down,
    newlines_passage, newlines_passage, none, Nat.add_zero, Nat.zero_add, Nat.add_right_comm,
    ← Nat.add_assoc]

theorem last_of_suffix {s t : Bytes} {b : UInt8} (behind : t <:+ s) (last : t.getLast? = some b) :
    s.getLast? = some b := by
  obtain ⟨r, rfl⟩ := behind
  rw [List.getLast?_append, last]
  rfl

theorem plain_text {s : Bytes} (plain : 0x7B ∉ s) : Unopened s ∧ s.getLast? ≠ some 0x7B := by
  constructor
  · intro inside
    exact plain (inside.subset (.head _))
  · intro last
    exact plain (List.mem_of_getLast? last)

theorem lexing_lossless_and_local {s : Bytes} {tokens : Tokens}
    (scanned : tokenize s = .ok tokens) :
    ∃ d : Division, d.Proper ∧ d.bytes = s ∧ (∀ e : Division, e.Proper → e.bytes = s → e = d) ∧
      tokens = d.tokens ∧
      textsOf tokens.list = (textsAt false d.passages d.last).filter (!·.isEmpty) ∧
      actionsOf tokens.list = actionsAt 1 d.passages ∧
      (∀ passage ∈ d.passages, (markOf passage.mark).tokens ≠ [] →
        ∃ cs, passage.mark = utf8Chars cs) ∧
      (∀ before old mark after new, d.passages = before ++ ⟨old, mark⟩ :: after → 0x7B ∉ new →
        let behind := actionsAt (1 + newlines (passagesBytes before)) (⟨[], mark⟩ :: after)
        actionsOf tokens.list = actionsAt 1 before ++ tokensDown (newlines old) behind ∧
        ∃ tokens',
          tokenize (Division.bytes ⟨before ++ ⟨new, mark⟩ :: after, d.last⟩) = .ok tokens' ∧
          actionsOf tokens'.list = actionsAt 1 before ++ tokensDown (newlines new) behind) ∧
      ∀ new, 0x7B ∉ new → ∃ tokens', tokenize (Division.bytes ⟨d.passages, new⟩) = .ok tokens' ∧
        actionsOf tokens'.list = actionsOf tokens.list := by
  obtain ⟨d, proper, rfl, unique⟩ := division_of_tokenize scanned
  cases scanned.symm.trans (tokenize_division proper)
  obtain ⟨texts, actions⟩ := parts_division proper
  refine ⟨d, proper, rfl, unique, rfl, texts, actions, ?_, ?_, ?_⟩
  · intro passage member
    exact (proper.passages passage member).whole.forms.utf8
  · intro before old mark after new split plain behind
    obtain ⟨unopened, apart⟩ := plain_text plain
    rw [split] at actions
    have parts := proper.passages
    rw [split] at parts
    obtain ⟨earlier, later⟩ := List.forall_mem_append.mp parts
    obtain ⟨here, later⟩ := List.forall_mem_cons.mp later
    have replaced : Division.Proper ⟨before ++ ⟨new, mark⟩ :: after, d.last⟩ := by
      refine ⟨List.forall_mem_append.mpr ⟨earlier, List.forall_mem_cons.mpr ⟨?_, later⟩⟩,
        proper.last⟩
      exact ⟨unopened, apart, here.whole⟩
    refine ⟨?_, _, tokenize_division replaced, ?_⟩
    · rw [actions, actionsAt_append, actionsAt_text]
    · rw [(parts_division replaced).2, actionsAt_append, actionsAt_text]
  · intro new plain
    have replaced : Division.Proper ⟨d.passages, new⟩ := ⟨proper.passages, (plain_text plain).1⟩
    exact ⟨_, tokenize_division replaced, (parts_division replaced).2.trans actions.symm⟩

-- The two bytes of one letter with an action between them; another first half, a line further up.
theorem lexing_parted_letter :
    ∃ tokens tokens', tokenize ([0xC3] ++ utf8 "{{. -}}" ++ [0x20, 0xA9]) = .ok tokens ∧
      textsOf tokens.list = [[0xC3], [0xA9]] ∧
      tokenize ([0xE2, 0x0A] ++ utf8 "{{. -}}" ++ [0x20, 0xA9]) = .ok tokens' ∧
      actionsOf tokens'.list = tokensDown 1 (actionsOf tokens.list) := by
  let mark : Bytes := [0x2E, 0x20, 0x2D, 0x7D, 0x7D]
  let parted : Division := ⟨[⟨[0xC3], mark⟩], [0x20, 0xA9]⟩
  have whole : IsWhole mark := isWhole_iff.mpr (by cbv)
  have proper : parted.Proper := by
    refine ⟨List.forall_mem_singleton.mpr ⟨(plain_text ?_).1, (plain_text ?_).2, whole⟩,
      (plain_text ?_).1⟩
    all_goals decide
  have scanned : tokenize ([0xC3] ++ utf8 "{{. -}}" ++ [0x20, 0xA9]) =
      .ok ⟨[⟨.text [0xC3], 1, false⟩, ⟨.openAction, 1, false⟩, ⟨.dot, 1, false⟩,
        ⟨.closeAction, 1, true⟩, ⟨.text [0xA9], 1, false⟩], 1⟩ := by cbv
  obtain ⟨d, -, -, unique, -, -, -, -, replaced, -⟩ := lexing_lossless_and_local scanned
  obtain rfl : parted = d := unique parted proper rfl
  obtain ⟨same, tokens', again, moved⟩ := replaced [] _ mark [] [0xE2, 0x0A] rfl (by decide)
  refine ⟨_, tokens', scanned, rfl, again, moved.trans ?_⟩
  rw [same, actionsAt, List.nil_append, List.nil_append, tokensDown_tokensDown]
  rfl

end Tokens

end PagePress.Template
