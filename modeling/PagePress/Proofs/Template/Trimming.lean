import PagePress.Proofs.Template.Matching

namespace PagePress.Template

open Text

section Markers

def asksTrimAfter (mark : Bytes) : Bool :=
  match mark.reverse with
  | 0x7D :: 0x7D :: 0x2D :: b :: _ => isSpace b
  | _ => false

def plainOpening (mark : Bytes) : Bytes := if asksTrim mark then 0x20 :: mark.drop 2 else mark

def plainClosing (mark : Bytes) : Bytes :=
  if asksTrimAfter mark then mark.take (mark.length - 4) ++ 0x20 :: closingBytes false else mark

def unmarked (mark : Bytes) : Bytes := plainClosing (plainOpening mark)

variable {before mark bytes blanks : Bytes} {b : UInt8} {trims : Bool} {ts : List Token}

theorem asksTrimAfter_behind (before : Bytes) (b : UInt8) :
    asksTrimAfter (before ++ b :: closingBytes true) = isSpace b := by
  have shape : (before ++ b :: closingBytes true).reverse =
      0x7D :: 0x7D :: 0x2D :: b :: before.reverse := by
    rw [List.reverse_append]
    rfl
  rw [asksTrimAfter, shape]
  rfl

theorem asksTrimAfter_split (asks : asksTrimAfter mark = true) :
    ∃ before b, isSpace b = true ∧ mark = before ++ b :: closingBytes true := by
  unfold asksTrimAfter at asks
  split at asks
  · rename_i b front whole
    refine ⟨front.reverse, b, asks, ?_⟩
    have reversed := congrArg List.reverse whole
    rw [List.reverse_reverse] at reversed
    rw [reversed]
    simp [closingBytes]
    rfl
  · cases asks

theorem plainClosing_behind (blank : isSpace b = true) :
    plainClosing (before ++ b :: closingBytes true) = before ++ 0x20 :: closingBytes false := by
  have length : (before ++ b :: closingBytes true).length - 4 = before.length := by
    rw [List.length_append]
    exact Nat.add_sub_cancel _ 4
  rw [plainClosing, asksTrimAfter_behind, if_pos blank, length, List.take_left]

theorem encode_last {c : Char} (last : (String.utf8EncodeChar c).getLast? = some b)
    (ascii : (letter b).toNat < 0x80) : String.utf8EncodeChar c = [b] ∧ letter b = c := by
  have small : c.toNat < 0x80 := by
    by_contra wide
    have high := le_of_mem_encode (Nat.le_of_not_lt wide) (List.mem_of_getLast? last)
    rw [toNat_letter] at ascii
    omega
  have same := letter_ofNat small
  have alone : String.utf8EncodeChar (letter (UInt8.ofNat c.toNat)) = [UInt8.ofNat c.toNat] :=
    encode_letter (by rwa [same])
  rw [same] at alone
  rw [alone] at last
  obtain rfl : UInt8.ofNat c.toNat = b := Option.some.inj last
  exact ⟨alone, same⟩

theorem last_utf8Chars {cs : List Char} (last : (utf8Chars cs).getLast? = some b)
    (ascii : (letter b).toNat < 0x80) : ∃ ds, cs = ds ++ [letter b] := by
  rcases List.eq_nil_or_concat cs with rfl | ⟨ds, c, rfl⟩
  · cases last
  · have some : String.utf8EncodeChar c ≠ [] := String.utf8EncodeChar_ne_nil
    rw [List.concat_eq_append, utf8Chars_append, utf8Chars_cons, utf8Chars_nil, List.append_nil,
      List.getLast?_append_of_ne_nil _ some] at last
    rw [(encode_last last ascii).2]
    exact ⟨ds, List.concat_eq_append ..⟩

theorem utf8Chars_concat (ds : List Char) (ascii : (letter b).toNat < 0x80) :
    utf8Chars (ds ++ [letter b]) = utf8Chars ds ++ [b] := by
  rw [utf8Chars_append, utf8Chars_cons, utf8Chars_nil, List.append_nil, encode_letter ascii]

theorem isSpace_iff : isSpace b = true ↔ b ∈ utf8 " \t\r\n" := by
  constructor
  · intro blank
    have listed : letter b ∈ (utf8 " \t\r\n").map letter := isSpace_letter blank
    obtain ⟨d, member, same⟩ := List.mem_map.mp listed
    exact letter_inj same ▸ member
  · intro member
    have listed : b ∈ [0x20, 0x09, 0x0D, 0x0A] := member
    fin_cases listed <;> rfl

theorem last_not_blank {c : Char} {ds : List Char} (last : c ∈ ds.getLast?)
    (other : c ∉ blankChars) : ∃ b ∈ (utf8Chars ds).getLast?, isSpace b = false := by
  obtain ⟨es, rfl⟩ := List.getLast?_eq_some_iff.mp last
  have some : String.utf8EncodeChar c ≠ [] := String.utf8EncodeChar_ne_nil
  rw [utf8Chars_append, utf8Chars_cons, utf8Chars_nil, List.append_nil,
    List.getLast?_append_of_ne_nil _ some, List.getLast?_eq_some_getLast some]
  refine ⟨_, rfl, Bool.eq_false_iff.mpr fun blank => ?_⟩
  have same := (encode_last (List.getLast?_eq_some_getLast some) (ascii_of_isSpace blank)).2
  exact other (same ▸ isSpace_letter blank)

theorem Inside.ends (inside : Inside trims bytes ts) :
    ∃ before, bytes = before ++ closingBytes trims := by
  induction inside with
  | close => exact ⟨_, rfl⟩
  | lexeme blank dash inner reads later ih =>
    obtain ⟨before, rfl⟩ := ih
    rw [← List.append_assoc, ← List.append_assoc]
    exact ⟨_, rfl⟩

theorem dash_closing (before : Bytes) :
    before ++ closingBytes true = (before ++ [0x2D]) ++ closingBytes false :=
  (List.append_assoc before [0x2D] (closingBytes false)).symm

theorem dash_append {s front : Bytes}
    (whole : s ++ (front ++ closingBytes false) = before ++ closingBytes true) :
    (front = [] ∧ s = before ++ [0x2D]) ∨ ∃ es, front = es ++ [0x2D] ∧ before = s ++ es := by
  rw [dash_closing, ← List.append_assoc] at whole
  have whole := List.append_cancel_right whole
  rcases List.eq_nil_or_concat front with rfl | ⟨es, d, rfl⟩
  · rw [List.append_nil] at whole
    exact .inl ⟨rfl, whole⟩
  · rw [List.concat_eq_append, ← List.append_assoc] at whole
    obtain ⟨rfl, same⟩ := List.append_inj' whole rfl
    exact .inr ⟨es, by rw [List.concat_eq_append, same], rfl⟩

theorem last_behind {es : Bytes} (before : Bytes) (last : ∃ b ∈ es.getLast?, isSpace b = false) :
    ∃ b ∈ (before ++ es).getLast?, isSpace b = false := by
  obtain ⟨b, found, other⟩ := last
  refine ⟨b, ?_, other⟩
  rw [List.getLast?_append, found]
  rfl

-- Behind an action without a marker a dash at the delimiter has a byte before it that is no blank.
theorem Inside.dash (inside : Inside trims bytes ts) (unmarked : trims = false)
    (ends : bytes = before ++ closingBytes true) : ∃ b ∈ before.getLast?, isSpace b = false := by
  subst unmarked
  induction inside generalizing before with
  | @close blanks blank spaced =>
    have alone : blanks ++ ([] ++ closingBytes false) = before ++ closingBytes true := ends
    obtain ⟨-, rfl⟩ | ⟨es, none, -⟩ := dash_append alone
    · cases blank 0x2D (List.mem_append_right _ (.head _))
    · simp at none
  | @lexeme blanks behind cs lexeme ts blank dash inner reads later ih =>
    obtain ⟨front, rfl⟩ := later.ends
    rw [← List.append_assoc] at ends
    obtain ⟨rfl, whole⟩ | ⟨es, rfl, rfl⟩ := dash_append ends
    · by_cases empty : utf8Chars cs = []
      · rw [empty, List.append_nil] at whole
        subst whole
        cases blank 0x2D (List.mem_append_right _ (.head _))
      · have last := congrArg List.getLast? whole
        rw [List.getLast?_append_of_ne_nil _ empty, List.getLast?_concat] at last
        obtain ⟨ds, rfl⟩ := last_utf8Chars last (by decide)
        rw [utf8Chars_concat ds (by decide), ← List.append_assoc] at whole
        obtain ⟨rfl, -⟩ := List.append_inj' whole rfl
        obtain ⟨c, isLast, other⟩ := dash ds rfl
        exact last_behind blanks (last_not_blank isLast other)
    · exact last_behind _ (ih (dash_closing es).symm)

theorem asksTrimAfter_false (dash : ∀ before, mark = before ++ closingBytes true →
    ∃ b ∈ before.getLast?, isSpace b = false) : asksTrimAfter mark = false := by
  rw [Bool.eq_false_iff]
  intro asks
  obtain ⟨before, b, blank, whole⟩ := asksTrimAfter_split asks
  obtain ⟨d, last, other⟩ := dash (before ++ [b]) (by rw [whole, List.append_assoc]; rfl)
  rw [List.getLast?_concat] at last
  obtain rfl := Option.some.inj last
  cases blank.symm.trans other

theorem front_blanks {s : Bytes} (blank : ∀ b ∈ blanks, isSpace b = true) (some : blanks ≠ []) :
    ∃ c ∈ blankChars, front (blanks ++ s) = .some c := by
  obtain ⟨b, r, rfl⟩ := List.exists_cons_of_ne_nil some
  have here := blank b (.head r)
  exact ⟨letter b, isSpace_letter here, front_letter (ascii_of_isSpace here)⟩

theorem Scans.longer {s rest : Bytes} {lexeme : Lexeme} (scans : Scans (s ++ rest) lexeme rest) :
    s ≠ [] := by
  intro none
  subst none
  obtain ⟨p, -, -, left⟩ := scans
  have shorter := p.shorter
  rw [left] at shorter
  exact Nat.lt_irrefl _ shorter

theorem close_plain (blank : ∀ b ∈ blanks, isSpace b = true) (some : blanks ≠ []) :
    ∃ before b ts', isSpace b = true ∧
      blanks ++ closingBytes true = before ++ b :: closingBytes true ∧
      EndsLike (blanks ++ closingBytes true) (before ++ 0x20 :: closingBytes false) ∧
      Inside false (before ++ 0x20 :: closingBytes false) ts' ∧
      tokensUnlined ts' = [⟨.closeAction, 0, true⟩] := by
  rcases List.eq_nil_or_concat blanks with rfl | ⟨before, b, rfl⟩
  · exact (some rfl).elim
  · rw [List.concat_eq_append] at blank ⊢
    obtain ⟨earlier, last⟩ := List.forall_mem_append.mp blank
    have blank' : ∀ b ∈ before ++ [0x20], isSpace b = true :=
      List.forall_mem_append.mpr ⟨earlier, List.forall_mem_singleton.mpr rfl⟩
    have closes : Inside false ((before ++ [0x20]) ++ closingBytes false) _ := .close blank' nofun
    have split : (before ++ [0x20]) ++ closingBytes false = before ++ 0x20 :: closingBytes false :=
      (List.append_cons ..).symm
    refine ⟨before, b, _, last b (.head _), (List.append_cons ..).symm, ?_, split ▸ closes, ?_⟩
    · rw [← split]
      exact .inr (front_blanks blank' (by simp))
    · cases before with
      | nil => rfl
      | cons => rfl

theorem Inside.plain (inside : Inside trims bytes ts) (trimming : trims = true) :
    ∃ before b ts', isSpace b = true ∧ bytes = before ++ b :: closingBytes true ∧
      EndsLike bytes (before ++ 0x20 :: closingBytes false) ∧
      Inside false (before ++ 0x20 :: closingBytes false) ts' ∧
      tokensUnlined ts' = tokensUnlined ts := by
  induction inside with
  | @close blanks blank spaced =>
    subst trimming
    obtain ⟨before, b, ts', isBlank, split, ends, inside, same⟩ := close_plain blank (spaced rfl)
    refine ⟨before, b, ts', isBlank, split, ends, inside, same.trans ?_⟩
    cases blanks with
    | nil => exact (spaced rfl rfl).elim
    | cons => rfl
  | @lexeme blanks behind cs lexeme ts blank dash inner reads later ih =>
    obtain ⟨before, b, ts', isBlank, rfl, ends, inside', same⟩ := ih
    have begins : decodeFirst? (blanks ++ utf8Chars cs) ≠ none := by
      refine begins_blanks blank ?_
      cases cs with
      | nil => exact ((reads _ (.same _)).longer rfl).elim
      | cons c cs =>
        rw [← List.append_nil (utf8Chars _), decodeFirst?_utf8Chars]
        exact nofun
    have again := Inside.lexeme blank dash inner (fun t more => reads t (ends.trans more)) inside'
    have split (r : Bytes) : blanks ++ (utf8Chars cs ++ (before ++ r)) =
        (blanks ++ (utf8Chars cs ++ before)) ++ r := by
      rw [List.append_assoc, List.append_assoc]
    have first (r : Bytes) :
        front (blanks ++ (utf8Chars cs ++ r)) = front (blanks ++ utf8Chars cs) := by
      rw [← List.append_assoc, front_append begins]
    refine ⟨_, b, _, isBlank, split _, .inl ?_, split _ ▸ again, ?_⟩
    · rw [← split, first, first]
    · have rest (n : Nat) : tokensUnlined (tokensDown n ts') = tokensUnlined (tokensDown n ts) := by
        rw [tokensUnlined_down, tokensUnlined_down, same]
      exact congrArg (Token.unlined _ :: ·) (rest _)

theorem Inside.spaced (inside : Inside trims bytes ts) : ∃ t rest,
    ts = t :: rest ∧ Inside trims (0x20 :: bytes) ({ t with spaced := true } :: rest) := by
  have blank' {blanks : Bytes} (blank : ∀ b ∈ blanks, isSpace b = true) :
      ∀ b ∈ 0x20 :: blanks, isSpace b = true := List.forall_mem_cons.mpr ⟨rfl, blank⟩
  have flat (s : Bytes) : newlines (0x20 :: s) = newlines s := by
    rw [newlines_cons, if_neg (by decide), Nat.zero_add]
  cases inside with
  | @close blanks blank spaced =>
    have closes : Inside trims (0x20 :: blanks ++ closingBytes trims) _ :=
      .close (blank' blank) fun _ => List.cons_ne_nil _ _
    rw [flat] at closes
    exact ⟨_, _, rfl, closes⟩
  | @lexeme blanks behind cs lexeme ts blank dash inner reads later =>
    have again := Inside.lexeme (blank' blank) dash inner reads later
    rw [List.cons_append, List.cons_append, flat] at again
    exact ⟨_, _, rfl, again⟩

theorem marks_match {mutes : Bool} {t t' : Token} {rest rest' : List Token} {l l' : Nat}
    {before before' after after' : Bool} (same : t'.lexeme = t.lexeme)
    (later : tokensUnlined rest' = tokensUnlined rest)
    (leads : Spot.through .opening (t :: rest) = .between) :
    MarksMatch mutes ⟨before, after, ⟨.openAction, l, false⟩ :: t :: rest⟩
      ⟨before', after', ⟨.openAction, l', false⟩ :: t' :: rest'⟩ := by
  intro n n' us us' behind
  obtain ⟨_, k, s⟩ := t
  obtain ⟨lexeme, k', s'⟩ := t'
  dsimp only at same
  subst same
  have inner : tokensUnlined (tokensDown n' rest') = tokensUnlined (tokensDown n rest) := by
    rw [tokensUnlined_down, tokensUnlined_down, later]
  have out : Aligned mutes (Spot.opening.behind lexeme) (tokensDown n rest ++ us)
      (tokensDown n' rest' ++ us') := by
    refine (Aligned.of_unlined inner).append ?_
    rw [through_down]
    exact leads ▸ behind
  exact .cons nofun (.cons nofun out)

theorem Inside.trimmed (inside : Inside trims bytes ts) : asksTrimAfter bytes = trims := by
  cases trims with
  | false => exact asksTrimAfter_false fun _ => inside.dash rfl
  | true =>
    obtain ⟨before, b, -, blank, rfl, -⟩ := inside.plain rfl
    rw [asksTrimAfter_behind, blank]

theorem Inside.plainClosing (inside : Inside trims bytes ts) :
    ∃ ts', Inside false (plainClosing bytes) ts' ∧ tokensUnlined ts' = tokensUnlined ts := by
  cases trims with
  | false =>
    rw [Template.plainClosing, inside.trimmed]
    exact ⟨ts, inside, rfl⟩
  | true =>
    obtain ⟨before, b, ts', blank, rfl, -, plain, same⟩ := inside.plain rfl
    rw [plainClosing_behind blank]
    exact ⟨ts', plain, same⟩

theorem plainOpening_marked {blank? : Option UInt8} (blank : ∀ b ∈ blank?, isSpace b = true)
    (inside : Inside trims bytes ts) : ∃ t t' rest, ts = t :: rest ∧ t'.lexeme = t.lexeme ∧
      Inside trims (plainOpening (leftMarker blank? ++ bytes)) (t' :: rest) := by
  obtain ⟨t, rest, rfl, spaced⟩ := inside.spaced
  refine ⟨t, ?_⟩
  cases blank? with
  | none =>
    have plain := (inside.opens []).1
    rw [List.append_nil] at plain
    have same : plainOpening (leftMarker none ++ bytes) = bytes :=
      if_neg (Bool.eq_false_iff.mp plain)
    exact ⟨t, rest, rfl, rfl, by rwa [same]⟩
  | some b =>
    have asks : asksTrim (leftMarker (some b) ++ bytes) = true := blank b rfl
    have same : plainOpening (leftMarker (some b) ++ bytes) = 0x20 :: bytes := if_pos asks
    exact ⟨{ t with spaced := true }, rest, rfl, rfl, by rwa [same]⟩

theorem asksTrimAfter_marked {blank? : Option UInt8} (blank : ∀ b ∈ blank?, isSpace b = true)
    (inside : Inside trims bytes ts) : asksTrimAfter (leftMarker blank? ++ bytes) = trims := by
  cases trims with
  | true =>
    obtain ⟨before, b, -, isBlank, rfl, -⟩ := inside.plain rfl
    rw [← List.append_assoc, asksTrimAfter_behind, isBlank]
  | false =>
    refine asksTrimAfter_false fun before whole => ?_
    obtain ⟨front, rfl⟩ := inside.ends
    obtain ⟨rfl, alone⟩ | ⟨es, rfl, rfl⟩ := dash_append whole
    · have last := congrArg List.getLast? alone
      rw [List.getLast?_concat] at last
      cases blank? with
      | none => cases last
      | some b =>
        obtain rfl : b = 0x2D := Option.some.inj last
        cases blank _ rfl
    · exact last_behind _ (inside.dash rfl (dash_closing es).symm)

theorem unmarked_forms {m : Mark} (forms : Forms mark m) (action : m.tokens ≠ []) :
    asksTrim mark = m.trimsBefore ∧ asksTrimAfter mark = m.trimsAfter ∧
      ∃ tokens, Forms (unmarked mark) ⟨false, false, tokens⟩ ∧
        ∀ mutes, MarksMatch mutes m ⟨false, false, tokens⟩ := by
  cases forms with
  | comment => exact (action rfl).elim
  | @action blank? trims bytes ts blank inside =>
    have leads := inside.through .opening
    have before := (leftMarker_cases blank (inside.opens []).1).1
    rw [List.append_nil] at before
    obtain ⟨t, t', rest, rfl, lexeme, opened⟩ := plainOpening_marked blank inside
    obtain ⟨ts, closed, same⟩ := opened.plainClosing
    obtain ⟨l, rest', rfl, later⟩ := unlined_cons same
    have none : ∀ b ∈ (none : Option UInt8), isSpace b = true := nofun
    refine ⟨before, asksTrimAfter_marked blank inside, _, .action none closed, ?_⟩
    intro mutes
    have inner (n n' : Nat) :
        tokensUnlined (tokensDown n rest') = tokensUnlined (tokensDown n' rest) := by
      rw [tokensUnlined_down, tokensUnlined_down, later]
    exact marks_match lexeme (inner _ _) ((through_down ..).trans leads)

end Markers

section Physical

def trimmedPassages (trims : Bool) : List Passage → List Passage
  | [] => []
  | passage :: rest =>
    ⟨trimText trims (asksTrim passage.mark) passage.text, unmarked passage.mark⟩ ::
      trimmedPassages (asksTrimAfter passage.mark) rest

def trimsLast (trims : Bool) : List Passage → Bool
  | [] => trims
  | passage :: rest => trimsLast (asksTrimAfter passage.mark) rest

def Division.physical (d : Division) : Division :=
  ⟨trimmedPassages false d.passages, trimText (trimsLast false d.passages) false d.last⟩

-- An action, behind a text that does not end in a brace when its blanks are gone.
structure Passage.Trimmable (passage : Passage) : Prop where
  action : (markOf passage.mark).tokens ≠ []
  apart : (trimEnd passage.text).getLast? ≠ some 0x7B

variable {trims : Bool} {s t : Bytes} {passage : Passage} {passages : List Passage} {d : Division}

theorem trimStart_suffix (s : Bytes) : trimStart s <:+ s := List.dropWhile_suffix _

theorem trimEnd_begins (s : Bytes) : trimEnd s <+: s := by
  rw [trimEnd, ← List.reverse_suffix, List.reverse_reverse]
  exact List.dropWhile_suffix _

theorem trimText_inside (trimsStart trimsEnd : Bool) (s : Bytes) :
    trimText trimsStart trimsEnd s <:+: s := by
  have start : (if trimsStart then trimStart s else s) <:+ s := by
    split
    · exact trimStart_suffix s
    · exact List.suffix_rfl
  rw [trimText]
  split
  · exact (trimEnd_begins _).isInfix.trans start.isInfix
  · exact start.isInfix

theorem trimEnd_last {b : UInt8} (behind : t <:+ s) (last : (trimEnd t).getLast? = some b) :
    (trimEnd s).getLast? = some b := by
  obtain ⟨r, rfl⟩ := behind
  rw [trimEnd, List.getLast?_reverse] at last ⊢
  obtain ⟨rest, left⟩ := List.head?_eq_some_iff.mp last
  rw [List.reverse_append, List.dropWhile_append, left]
  rfl

theorem trimText_apart {trimsEnd : Bool} (proper : passage.Proper) (fits : passage.Trimmable) :
    (trimText trims trimsEnd passage.text).getLast? ≠ some 0x7B := by
  have start : (if trims then trimStart passage.text else passage.text) <:+ passage.text := by
    split
    · exact trimStart_suffix _
    · exact List.suffix_rfl
  rw [trimText]
  intro last
  split at last
  · exact fits.apart (trimEnd_last start last)
  · exact proper.apart (last_of_suffix start last)

theorem trimmed_proper (proper : ∀ passage ∈ passages, passage.Proper)
    (fits : ∀ passage ∈ passages, passage.Trimmable) (trims : Bool) :
    ∀ passage ∈ trimmedPassages trims passages, passage.Proper := by
  induction passages generalizing trims with
  | nil => exact nofun
  | cons passage rest ih =>
    obtain ⟨here, later⟩ := List.forall_mem_cons.mp proper
    obtain ⟨fit, others⟩ := List.forall_mem_cons.mp fits
    obtain ⟨-, -, tokens, forms, -⟩ := unmarked_forms here.whole.forms fit.action
    refine List.forall_mem_cons.mpr
      ⟨⟨?_, trimText_apart here fit, forms.whole.1⟩, ih later others _⟩
    exact fun opened => here.unopened (opened.trans (trimText_inside ..))

theorem trimmed_matches (proper : ∀ passage ∈ passages, passage.Proper)
    (fits : ∀ passage ∈ passages, passage.Trimmable) (trims : Bool) (last : Bytes) :
    Matches false trims passages last false (trimmedPassages trims passages)
      (trimText (trimsLast trims passages) false last) := by
  induction passages generalizing trims with
  | nil => exact .last rfl
  | cons passage rest ih =>
    obtain ⟨here, later⟩ := List.forall_mem_cons.mp proper
    obtain ⟨fit, others⟩ := List.forall_mem_cons.mp fits
    obtain ⟨before, after, tokens, forms, marks⟩ := unmarked_forms here.whole.forms fit.action
    have mark := forms.whole.2
    refine .passage ?_ ?_ ?_
    · rw [mark, ← before]
      rfl
    · rw [mark]
      exact marks false
    · rw [mark, ← after]
      exact ih later others _

theorem physical_proper (proper : d.Proper) (fits : ∀ passage ∈ d.passages, passage.Trimmable) :
    d.physical.Proper :=
  ⟨trimmed_proper proper.passages fits false,
    fun opened => proper.last (opened.trans (trimText_inside (trimsLast false d.passages) false _))⟩

theorem trim_markers_physical {s : Bytes} {tokens : Tokens} (scanned : tokenize s = .ok tokens) :
    (∃ d : Division, d.Proper ∧ d.bytes = s ∧ (∀ e : Division, e.Proper → e.bytes = s → e = d) ∧
      ((∀ passage ∈ d.passages, passage.Trimmable) →
        (∃ tokens', tokenize d.physical.bytes = .ok tokens' ∧
          tokens'.list.map (·.lexeme) = tokens.list.map (·.lexeme)) ∧
        ∀ name,
          (∃ nodes nodes', compile s name = .ok ⟨name, nodes⟩ ∧
              compile d.physical.bytes name = .ok ⟨name, nodes'⟩ ∧
              nodesUnlined nodes' = nodesUnlined nodes ∧
              ∀ options values out, render ⟨name, nodes⟩ options values = .ok out ↔
                render ⟨name, nodes'⟩ options values = .ok out) ∨
            ∃ l l' fault, compile s name = .error ⟨name, .parse ⟨l, fault⟩⟩ ∧
              compile d.physical.bytes name = .error ⟨name, .parse ⟨l', fault⟩⟩)) ∧
      ∀ b, isSpace b = true ↔ b ∈ utf8 " \t\r\n" := by
  refine ⟨?_, ?_⟩
  · obtain ⟨d, proper, rfl, unique⟩ := division_of_tokenize scanned
    cases scanned.symm.trans (tokenize_division proper)
    refine ⟨d, proper, rfl, unique, fun fits => ?_⟩
    have same := trimmed_matches proper.passages fits false d.last
    have plain := physical_proper proper fits
    refine ⟨⟨_, tokenize_division plain, (same.aligned 1 1).lexemes⟩, fun name => ?_⟩
    exact (matching_compiled name proper plain same).unlined
  · exact fun b => isSpace_iff

theorem trim_markers_both :
    ∃ tokens tokens', tokenize (utf8 "a \n\x7b\x7b-\t. -\x7d\x7d\t b") = .ok tokens ∧
      tokenize (utf8 "a{{ . }}b") = .ok tokens' ∧
      tokens'.list.map (·.lexeme) = tokens.list.map (·.lexeme) ∧
      tokens.list.map (·.lexeme) =
        [.text [0x61], .openAction, .dot, .closeAction, .text [0x62]] := by
  let mark : Bytes := [0x2D, 0x09, 0x2E, 0x20, 0x2D, 0x7D, 0x7D]
  let marked : Division := ⟨[⟨[0x61, 0x20, 0x0A], mark⟩], [0x09, 0x20, 0x62]⟩
  have whole : IsWhole mark := isWhole_iff.mpr (by cbv)
  have proper : marked.Proper := by
    refine ⟨List.forall_mem_singleton.mpr ⟨(plain_text ?_).1, (plain_text ?_).2, whole⟩,
      (plain_text ?_).1⟩
    all_goals decide
  have action : (markOf mark).tokens ≠ [] := by
    have shown : (markOf mark).tokens =
        [⟨.openAction, 0, false⟩, ⟨.dot, 0, false⟩, ⟨.closeAction, 0, true⟩] := by cbv
    rw [shown]
    exact List.cons_ne_nil _ _
  have fits : ∀ passage ∈ marked.passages, passage.Trimmable :=
    List.forall_mem_singleton.mpr ⟨action, by decide⟩
  have scanned : tokenize (utf8 "a \n\x7b\x7b-\t. -\x7d\x7d\t b") = .ok ⟨[⟨.text [0x61], 1, false⟩,
      ⟨.openAction, 2, false⟩, ⟨.dot, 2, false⟩, ⟨.closeAction, 2, true⟩,
      ⟨.text [0x62], 2, false⟩], 2⟩ := by cbv
  obtain ⟨d, -, -, unique, same⟩ := (trim_markers_physical scanned).1
  obtain rfl : marked = d := unique marked proper rfl
  obtain ⟨tokens', again, lexemes⟩ := (same fits).1
  exact ⟨_, tokens', scanned, again, lexemes, rfl⟩

end Physical

end PagePress.Template
