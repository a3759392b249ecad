import PagePress.Proofs.Template.Twins

namespace PagePress.Template

open Chain

section Places

variable {endLine : Nat} {ts : List Token} {error : ParseError}

-- Each token with its number in place of its line.
def numbered (first : Nat) : List Token → List Token
  | [] => []
  | t :: rest => { t with line := first } :: numbered (first + 1) rest

-- The fault is found with so many tokens consumed: that is what the parser reports of tokens that
-- have numbers in place of lines.
def FoundAt (ts : List Token) (fault : ParseFault) (place : Nat) : Prop :=
  parse ts.length (numbered 0 ts) = .error ⟨place, fault⟩

theorem unlined_numbered (first : Nat) (ts : List Token) :
    tokensUnlined (numbered first ts) = tokensUnlined ts := by
  induction ts generalizing first with
  | nil => rfl
  | cons t rest ih => exact congrArg (t.unlined :: ·) (ih (first + 1))

theorem lineAt_numbered {first : Nat} {used rest : List Token}
    (whole : numbered first ts = used ++ rest) :
    lineAt (first + ts.length) rest = first + used.length := by
  induction used generalizing first ts with
  | nil =>
    cases ts with
    | nil =>
      obtain rfl : [] = rest := whole
      rfl
    | cons t more =>
      obtain rfl : _ = rest := whole
      rfl
  | cons u used ih =>
    cases ts with
    | nil => cases whole
    | cons t more =>
      have later := ih (List.cons.inj whole).2
      rw [Nat.add_right_comm] at later
      exact later.trans (Nat.add_right_comm ..)

theorem parse_error_place (refused : parse endLine ts = .error error) :
    ∃ used rest, ts = used ++ rest ∧ error.line = lineAt endLine rest ∧
      FoundAt ts error.fault used.length ∧ Accuses error.fault used rest := by
  have twin := parse_twin endLine ts.length (unlined_numbered 0 ts)
  generalize found : parse ts.length (numbered 0 ts) = other at twin
  rw [refused] at twin
  cases twin with
  | @error fault used used' rest rest' whole whole' long accuses =>
    refine ⟨used, rest, whole, rfl, found.trans ?_, accuses⟩
    have place := lineAt_numbered whole'
    rw [Nat.zero_add, Nat.zero_add, long] at place
    rw [place]

end Places

section Sources

open Text

inductive Spells : Lexeme → Bytes → Bytes → Prop
  | openAction {blank? : Option UInt8} {post : Bytes} :
    Spells .openAction (opening ++ leftMarker blank?) post
  | closeAction {trims : Bool} {post : Bytes} : Spells .closeAction (closingBytes trims) post
  | scans {lexeme : Lexeme} {text post : Bytes} (scans : Scans (text ++ post) lexeme post) :
    Spells lexeme text post

def Token.EndsIn (source : Bytes) (t : Token) : Prop :=
  ∃ pre text post, source = pre ++ (text ++ post) ∧ Spells t.lexeme text post ∧
    t.line = 1 + newlines (pre ++ text)

theorem Inside.endsIn {trims : Bool} {bytes : Bytes} {ts : List Token}
    (inside : Inside trims bytes ts) (pre post : Bytes) :
    ∀ t ∈ tokensDown (1 + newlines pre) ts, t.EndsIn (pre ++ (bytes ++ post)) := by
  induction inside generalizing pre with
  | @close blanks blank spaced =>
    intro t member
    obtain rfl := List.mem_singleton.mp member
    refine ⟨pre ++ blanks, closingBytes trims, post, by simp, .closeAction, ?_⟩
    have flat : newlines (closingBytes trims) = 0 := by cases trims <;> rfl
    show newlines blanks + (1 + newlines pre) = _
    rw [newlines_append, newlines_append, flat]
    omega
  | @lexeme blanks behind cs lexeme ts blank dash inner reads later ih =>
    rw [tokensDown_cons, tokensDown_tokensDown]
    have lines : newlines (blanks ++ utf8Chars cs) + (1 + newlines pre) =
        1 + newlines (pre ++ blanks ++ utf8Chars cs) := by
      rw [newlines_append, newlines_append (pre ++ blanks), newlines_append]
      omega
    have whole : pre ++ (blanks ++ (utf8Chars cs ++ behind) ++ post) =
        pre ++ blanks ++ (utf8Chars cs ++ (behind ++ post)) := by
      simp
    refine List.forall_mem_cons.mpr
      ⟨⟨pre ++ blanks, utf8Chars cs, behind ++ post, whole, ?_, lines⟩,
      ?_⟩
    · exact .scans (reads _ (.grown later.begins post))
    · have others := ih (pre ++ blanks ++ utf8Chars cs)
      rw [← lines] at others
      rw [whole, ← List.append_assoc]
      exact others

theorem Forms.endsIn {bytes : Bytes} {mark : Mark} (forms : Forms bytes mark) (pre post : Bytes) :
    ∀ t ∈ tokensDown (1 + newlines pre) mark.tokens,
      t.EndsIn (pre ++ (opening ++ (bytes ++ post))) := by
  cases forms with
  | @action blank? trims bytes ts blank inside =>
    have flat : newlines opening = 0 := rfl
    have lines : newlines (leftMarker blank?) + (1 + newlines pre) =
        1 + newlines (pre ++ (opening ++ leftMarker blank?)) := by
      rw [newlines_append, newlines_append, flat]
      omega
    rw [tokensDown_cons, tokensDown_tokensDown]
    refine List.forall_mem_cons.mpr ⟨⟨pre, opening ++ leftMarker blank?, bytes ++ post, ?_,
      .openAction, lines⟩, ?_⟩
    · simp
    · have others := inside.endsIn (pre ++ (opening ++ leftMarker blank?)) post
      rw [← lines] at others
      simpa using others
  | comment => exact nofun

theorem text?_textTokens {line : Nat} {s : Bytes} {t : Token} (member : t ∈ textTokens line s) :
    t.text? ≠ none := by
  rw [textTokens] at member
  split at member
  · cases member
  · obtain rfl := List.mem_singleton.mp member
    exact Option.some_ne_none s

theorem tokensAt_endsIn {passages : List Passage} (proper : ∀ passage ∈ passages, passage.Proper)
    (trims : Bool) (pre last : Bytes) :
    ∀ t ∈ tokensAt trims (1 + newlines pre) passages last, t.text? = none →
      t.EndsIn (pre ++ (passagesBytes passages ++ last)) := by
  induction passages generalizing trims pre with
  | nil => exact fun t member plain => absurd plain (text?_textTokens member)
  | cons passage rest ih =>
    obtain ⟨here, others⟩ := List.forall_mem_cons.mp proper
    intro t member plain
    rw [tokensAt] at member
    rcases List.mem_append.mp member with text | member
    · exact absurd plain (text?_textTokens text)
    · rw [passagesBytes_cons, List.append_assoc, passage_append]
      rcases List.mem_append.mp member with mark | later
      · rw [Nat.add_assoc, ← newlines_append] at mark
        simpa using here.whole.forms.endsIn (pre ++ passage.text)
          (passagesBytes rest ++ last) t mark
      · rw [Nat.add_assoc, ← newlines_append] at later
        have ends := ih others _ (pre ++ passage.bytes) t later plain
        rwa [List.append_assoc, passage_append] at ends

theorem tokenize_endsIn {source : Bytes} {tokens : Tokens} (lexed : tokenize source = .ok tokens) :
    (∀ t ∈ tokens.list, t.text? = none → t.EndsIn source) ∧
      tokens.endLine = 1 + newlines source := by
  obtain ⟨d, proper, rfl, -⟩ := division_of_tokenize lexed
  cases lexed.symm.trans (tokenize_division proper)
  refine ⟨tokensAt_endsIn proper.passages false [] d.last, ?_⟩
  rw [Division.bytes, newlines_append, Division.tokens, Nat.add_assoc]

-- Where a message names a lexeme, that is one of a token in front of which, or behind which, the
-- parser stops. The error is reported on the line of the next token that is left: on the line of
-- the named one if the parser only looked ahead to it, and if it has read that token, with the rest
-- of a refused assignment, on the line on which the token behind it ends.
theorem parse_error_line {source : Bytes} {name : String} {error : ParseError} {lexeme : Lexeme}
    (refused : compile source name = .error ⟨name, .parse error⟩)
    (named : error.fault.named? = some lexeme) :
    ∃ tokens before t skipped rest, tokenize source = .ok tokens ∧
      (∀ u ∈ tokens.list, u.text? = none → u.EndsIn source) ∧
      tokens.endLine = 1 + newlines source ∧ t.lexeme = lexeme ∧
      FoundAt tokens.list error.fault (tokens.list.length - rest.length) ∧
      error.line = lineAt tokens.endLine rest ∧
      (error.line = t.line ↔ error.fault.ahead = true ∨ lineAt tokens.endLine rest = t.line) ∧
      (if error.fault.ahead then tokens.list = before ++ rest ∧ rest.head? = some t
        else tokens.list = before ++ t :: (skipped ++ rest) ∧
          error.fault.Skips (skipped.map (·.lexeme))) := by
  rw [compile] at refused
  rcases bind_eq_error.mp refused with unread | ⟨tokens, lexed, refused⟩
  · obtain ⟨fault, -, lexical⟩ := mapError_eq_error.mp unread
    cases lexical
  · rcases bind_eq_error.mp refused with failed | ⟨nodes, -, accepted⟩
    · obtain ⟨fault, failed, same⟩ := mapError_eq_error.mp failed
      cases same
      obtain ⟨ends, endLine⟩ := tokenize_endsIn (mapError_eq_ok.mp lexed)
      obtain ⟨used, rest, whole, line, found, accuses⟩ := parse_error_place failed
      have place : tokens.list.length - rest.length = used.length := by
        rw [whole, List.length_append, Nat.add_sub_cancel]
      rw [← place] at found
      refine ⟨tokens, ?_⟩
      cases accuses lexeme named with
      | @ahead used rest l s looks =>
        refine ⟨used, ⟨lexeme, l, s⟩, [], _, mapError_eq_ok.mp lexed, ends, endLine, rfl,
          found, line, ?_, ?_⟩
        · exact ⟨fun _ => .inl looks, fun _ => line⟩
        · rw [if_pos looks]
          exact ⟨whole, rfl⟩
      | @behind before skipped rest l s reads skips =>
        refine ⟨before, ⟨lexeme, l, s⟩, skipped, rest, mapError_eq_ok.mp lexed, ends, endLine, rfl,
          found, line, ?_, ?_⟩
        · rw [reads, line]
          simp
        · rw [if_neg (by rw [reads]; exact Bool.false_ne_true), whole, List.append_assoc]
          exact ⟨rfl, skips⟩
    · cases accepted

def splitAction : Bytes := utf8 "\x7b\x7b shout\n\x7d\x7d"

theorem parse_error_line_shout :
    compile splitAction "t" = .error ⟨"t", .parse ⟨2, .undefinedFunction "shout"⟩⟩ ∧
    ∃ tokens before t rest, tokenize splitAction = .ok tokens ∧ t.lexeme = .word "shout" ∧
      tokens.list = before ++ t :: rest ∧ lineAt tokens.endLine rest = 2 := by
  have refused : compile splitAction "t" =
      .error ⟨"t", .parse ⟨2, .undefinedFunction "shout"⟩⟩ := by cbv
  obtain ⟨tokens, before, t, skipped, rest, lexed, -, -, same, -, line, -, split⟩ :=
    parse_error_line refused rfl
  obtain ⟨whole, skips⟩ := split
  cases h : skipped with
  | nil =>
    subst h
    exact ⟨refused, tokens, before, t, rest, lexed, same, whole, line.symm⟩
  | cons u more =>
    rw [h] at skips
    cases skips

-- The only token of that name is on the first line, the error says it is on the second.
theorem parse_error_not_on_line :
    compile splitAction "t" = .error ⟨"t", .parse ⟨2, .undefinedFunction "shout"⟩⟩ ∧
    ∃ tokens, tokenize splitAction = .ok tokens ∧ tokens.list.map (·.lexeme) =
        [.openAction, .word "shout", .closeAction] ∧
      ∀ t ∈ tokens.list, t.lexeme = .word "shout" → t.line ≠ 2 := by
  have lexed : tokenize splitAction = .ok ⟨[⟨.openAction, 1, false⟩, ⟨.word "shout", 1, true⟩,
      ⟨.closeAction, 2, true⟩], 2⟩ := by cbv
  refine ⟨by cbv, _, lexed, rfl, ?_⟩
  decide

end Sources

end PagePress.Template
