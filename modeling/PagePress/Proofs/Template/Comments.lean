import PagePress.Proofs.Template.Matching

namespace PagePress.Template

open Text Chain

section Bodies

variable {s t r body : Bytes} {b : UInt8}

def Unclosed (s : Bytes) : Prop := ¬utf8 "*/" <:+: s

instance (s : Bytes) : Decidable (Unclosed s) := inferInstanceAs (Decidable (¬_))

theorem unclosed_cons : Unclosed (b :: r) ↔
    ¬(letter b = '*' ∧ r.head?.map letter = some '/') ∧ Unclosed r :=
  pair_infix_cons

-- A body that a slash begins would end in the star before it.
theorem unclosed_opened (unclosed : Unclosed body) (begins : body.head? ≠ some 0x2F) :
    Unclosed (utf8 "/*" ++ body) := by
  refine unclosed_cons.mpr ⟨nofun, unclosed_cons.mpr ⟨?_, unclosed⟩⟩
  rintro ⟨-, slash⟩
  obtain ⟨b, first, same⟩ := Option.map_eq_some_iff.mp slash
  exact begins (first.trans (congrArg some (letter_inj same)))

theorem pastComment_unclosed (unclosed : Unclosed s) (lines : Nat) (t : Bytes) :
    pastComment lines (s ++ (utf8 "*/" ++ t)) = some (lines + newlines s, t) := by
  induction s generalizing lines with
  | nil => rfl
  | cons b r ih =>
    obtain ⟨goesOn, later⟩ := unclosed_cons.mp unclosed
    have stays : ¬(letter b = '*' ∧ (r ++ (utf8 "*/" ++ t)).head?.map letter = some '/') := by
      cases r with
      | nil => exact nofun
      | cons => exact goesOn
    rw [List.cons_append, pastComment, if_neg stays, ih later, newlines_cons b]
    split <;> simp only [Option.some.injEq, Prod.mk.injEq, and_true] <;> omega

end Bodies

section Marks

def rightMarker (blank? : Option UInt8) : Bytes := blank?.elim [] fun b => [b, 0x2D]

def commentMark (before? after? : Option UInt8) (body : Bytes) : Bytes :=
  leftMarker before? ++
    ((utf8 "/*" ++ body) ++ (utf8 "*/" ++ (rightMarker after? ++ closingBytes false)))

def silentMark (before? after? : Option UInt8) : Bytes :=
  leftMarker before? ++ (utf8 "\"\"" ++ (rightMarker after? ++ closingBytes false))

-- The comments that end where they should.
def Readable (after? : Option UInt8) (body : Bytes) : Prop :=
  body.head? ≠ some 0x2F ∧ ∀ b ∈ after?, b = 0x20

variable {before? after? : Option UInt8} {body s r : Bytes} {n line : Nat}

theorem spaced_closing (spaces : ∀ b ∈ after?, b = 0x20) :
    rightMarker after? ++ closingBytes false = commentClosing after?.isSome := by
  cases after? with
  | none => rfl
  | some b =>
    obtain rfl := spaces b rfl
    rfl

theorem commentMark_forms (blank : ∀ b ∈ before?, isSpace b = true) (unclosed : Unclosed body)
    (readable : Readable after? body) :
    Forms (commentMark before? after? body) ⟨before?.isSome, after?.isSome, []⟩ := by
  obtain ⟨begins, spaces⟩ := readable
  have flat : newlines (utf8 "*/") = 0 := rfl
  rw [commentMark, spaced_closing spaces, ← List.append_assoc _ (utf8 "*/")]
  refine .comment blank rfl fun lines t => ?_
  rw [List.append_assoc, pastComment_unclosed (unclosed_opened unclosed begins),
    newlines_append _ (utf8 "*/"), flat, Nat.add_zero]

theorem scans_empty (t : Bytes) : Scans (utf8Chars ['"', '"'] ++ t) (.str "") t := by
  have quote : scanLexeme (utf8Chars ['"', '"'] ++ t) =
      (scanQuote _ [] (utf8Chars ['"'] ++ t) (Nat.lt_succ_self _)).map some := rfl
  rw [Scans, quote, scanQuote_closes]
  exact ⟨_, rfl, rfl, rfl⟩

theorem silentMark_forms (blank : ∀ b ∈ before?, isSpace b = true)
    (blank' : ∀ b ∈ after?, isSpace b = true) :
    ∃ l l' l'' spaced, Forms (silentMark before? after?) ⟨before?.isSome, after?.isSome,
      [⟨.openAction, l, false⟩, ⟨.str "", l', false⟩, ⟨.closeAction, l'', spaced⟩]⟩ := by
  have split : rightMarker after? ++ closingBytes false =
      after?.toList ++ closingBytes after?.isSome := by
    cases after? <;> rfl
  have closes : Inside after?.isSome (after?.toList ++ closingBytes after?.isSome) _ :=
    .close (fun b member => blank' b (Option.mem_toList.mp member)) fun some => by
      cases after? with
      | none => cases some
      | some => exact List.cons_ne_nil _ _
  have dash : DashInside ['"', '"'] := dashInside_last rfl (by decide)
  have inner : Lexeme.InAction (.str "") := trivial
  have none : ∀ b ∈ ([] : Bytes), isSpace b = true := nofun
  have inside := Inside.lexeme none dash inner (fun t _ => scans_empty t) closes
  rw [silentMark, split]
  exact ⟨_, _, _, _, .action blank inside⟩

theorem silent_matches {before after : Bool} {l l' l'' : Nat} {spaced : Bool} :
    MarksMatch true ⟨before, after, []⟩ ⟨before, after,
      [⟨.openAction, l, false⟩, ⟨.str "", l', false⟩, ⟨.closeAction, l'', spaced⟩]⟩ :=
  fun _ _ _ _ behind => .silent rfl behind

theorem scanComment_goesOn {trims : Bool} (past : pastComment 0 s = some (n, r))
    (goesOn : ∀ trimsAfter, ¬commentClosing trimsAfter <+: r) :
    scanComment trims line s = .error ⟨line + n, .commentGoesOn⟩ := by
  rw [scanComment.eq_def]
  split
  · rename_i none
    cases past.symm.trans none
  · rename_i past'
    obtain ⟨rfl, rfl⟩ := Prod.mk.inj (Option.some.inj (past.symm.trans past'))
    dsimp only
    split
    · rename_i closes
      exact (goesOn true ⟨_, (bytes_of_startsWith closes (by simp)).symm⟩).elim
    · split
      · rename_i closes
        exact (goesOn false ⟨_, (bytes_of_startsWith closes (by simp)).symm⟩).elim
      · rfl

theorem scanMark_of_refused {u : Bytes} {e : LexError} (behind : pastMarker s = u)
    (opens : startsWith ['/', '*'] u = true)
    (refused : scanComment (asksTrim s) (line + newlines (marker s)) u = .error e) :
    scanMark line s = .error e := by
  subst behind
  rw [scanMark_comment opens, refused]
  rfl

theorem scanMark_goesOn (blank : ∀ b ∈ before?, isSpace b = true)
    (opens : startsWith ['/', '*'] s = true) (past : pastComment 0 s = some (n, r))
    (goesOn : ∀ trimsAfter, ¬commentClosing trimsAfter <+: r) (line : Nat) :
    scanMark line (leftMarker before? ++ s) =
      .error ⟨line + (newlines (leftMarker before?) + n), .commentGoesOn⟩ := by
  obtain ⟨-, front, behind⟩ := leftMarker_opens blank opens
  refine scanMark_of_refused behind opens ?_
  rw [scanComment_goesOn past goesOn, front, Nat.add_assoc]

end Marks

section Sources

variable {x y body r : Bytes} {tokens : Tokens} {before? after? : Option UInt8}

theorem compile_refused {s : Bytes} {n : Nat} {fault : LexFault} (scanned : tokenize x = .ok tokens)
    (apart : x.getLast? ≠ some 0x7B) (refused : ∀ line, scanMark line s = .error ⟨line + n, fault⟩)
    (name : String) :
    compile (x ++ (opening ++ s)) name = .error ⟨name, .lex ⟨1 + newlines x + n, fault⟩⟩ := by
  obtain ⟨d, proper, rfl, -⟩ := division_of_tokenize scanned
  have ends : d.last.getLast? ≠ some 0x7B := fun last =>
    apart (last_of_suffix (List.suffix_append ..) last)
  have failed : Layout.ofBytes (d.bytes ++ (opening ++ s)) =
      .error ⟨1 + newlines d.bytes + n, fault⟩ := by
    rw [Layout.ofBytes, Division.bytes, List.append_assoc, scan_passages proper.passages,
      scan_fails (cutText_opening proper.last ends s) (refused _), newlines_append, Nat.add_assoc 1]
  rw [compile, tokenize, failed]
  rfl

theorem goesOn_append (goesOn : ∀ trims, ¬commentClosing trims <+: r) (s : Bytes) (trims : Bool) :
    ¬commentClosing trims <+: r ++ (utf8 "*/" ++ s) := by
  intro closes
  have starless : 0x2A ∉ commentClosing trims := by cases trims <;> decide
  obtain shorter | longer := List.prefix_or_prefix_of_prefix closes (List.prefix_append r _)
  · exact goesOn trims shorter
  · obtain ⟨q, split⟩ := longer
    rw [← split, List.prefix_append_right_inj] at closes
    cases q with
    | nil =>
      rw [List.append_nil] at split
      exact goesOn trims (split ▸ List.prefix_rfl)
    | cons b q =>
      obtain rfl : b = 0x2A := (List.cons_prefix_cons.mp closes).1
      exact starless (split ▸ List.mem_append_right r (.head q))

theorem commentMark_append (before? after? : Option UInt8) (body y : Bytes) :
    commentMark before? after? body ++ y = leftMarker before? ++
      ((utf8 "/*" ++ body) ++
        (utf8 "*/" ++ (rightMarker after? ++ (closingBytes false ++ y)))) := by
  simp only [commentMark, List.append_assoc]

theorem past_body (unclosed : Unclosed body) (begins : body.head? ≠ some 0x2F) (t : Bytes) :
    pastComment 0 ((utf8 "/*" ++ body) ++ (utf8 "*/" ++ t)) = some (newlines body, t) := by
  rw [pastComment_unclosed (unclosed_opened unclosed begins), newlines_append, Nat.zero_add]
  exact congrArg (fun n => some (n, t)) (Nat.zero_add _)

theorem past_slash (r t : Bytes) :
    pastComment 0 ((utf8 "/*" ++ 0x2F :: r) ++ t) = some (0, r ++ t) := rfl

theorem space_of_closing {trims : Bool} {b : UInt8} (blank : isSpace b = true)
    (closes : commentClosing trims <+: rightMarker (some b) ++ r) : b = 0x20 := by
  cases trims with
  | true => exact (List.cons_prefix_cons.mp closes).1.symm
  | false =>
    obtain rfl : 0x7D = b := (List.cons_prefix_cons.mp closes).1
    cases blank

theorem whole_comment {s : Bytes} (blank : ∀ b ∈ before?, isSpace b = true)
    (opens : startsWith ['/', '*'] s = true) (whole : IsWhole (leftMarker before? ++ s)) :
    ∃ n trims, pastComment 0 s = some (n, commentClosing trims) := by
  obtain ⟨p, found, left⟩ := whole
  obtain ⟨-, -, behind⟩ := leftMarker_opens blank opens
  rw [scanMark_comment (by rwa [behind])] at found
  obtain ⟨q, comment, done⟩ := bind_eq_ok.mp found
  cases done
  obtain ⟨n, trims, past⟩ := scanComment_bytes comment
  rw [left, behind, List.append_nil] at past
  exact ⟨n, trims, past⟩

theorem commentMark_whole (unclosed : Unclosed body) (blank : ∀ b ∈ before?, isSpace b = true)
    (blank' : ∀ b ∈ after?, isSpace b = true) :
    IsWhole (commentMark before? after? body) ↔ Readable after? body := by
  refine ⟨fun whole => ?_, fun readable => (commentMark_forms blank unclosed readable).whole.1⟩
  obtain ⟨n, trims, past⟩ := whole_comment blank rfl whole
  have begins : body.head? ≠ some 0x2F := by
    intro slash
    obtain ⟨r, rfl⟩ := List.head?_eq_some_iff.mp slash
    obtain ⟨-, rest⟩ := Prod.mk.inj (Option.some.inj ((past_slash r _).symm.trans past))
    have star : 0x2A ∈ commentClosing trims := rest ▸ List.mem_append_right r (.head _)
    cases trims <;> revert star <;> decide
  rw [past_body unclosed begins] at past
  refine ⟨begins, fun b after => ?_⟩
  subst after
  obtain ⟨-, rest⟩ := Prod.mk.inj (Option.some.inj past)
  have closes : commentClosing trims <+: rightMarker (some b) ++ closingBytes false :=
    rest ▸ List.prefix_rfl
  exact space_of_closing (blank' b rfl) closes

-- A blank before the last dash that is no space ends it without a delimiter.
theorem misspaced_refused {b : UInt8} (scanned : tokenize x = .ok tokens)
    (apart : x.getLast? ≠ some 0x7B) (unclosed : Unclosed body) (begins : body.head? ≠ some 0x2F)
    (blank : ∀ b ∈ before?, isSpace b = true) (blank' : isSpace b = true) (other : b ≠ 0x20)
    (y : Bytes) (name : String) :
    compile (x ++ (opening ++ (commentMark before? (some b) body ++ y))) name = .error ⟨name, .lex
      ⟨1 + newlines x + (newlines (leftMarker before?) + newlines body), .commentGoesOn⟩⟩ := by
  rw [commentMark_append]
  refine compile_refused scanned apart (fun line => ?_) name
  refine scanMark_goesOn blank rfl (past_body unclosed begins _) (fun trims closes => ?_) line
  exact other (space_of_closing blank' closes)

-- The star of the opening and the slash of the body end the comment.
theorem slashed_refused (scanned : tokenize x = .ok tokens) (apart : x.getLast? ≠ some 0x7B)
    (blank : ∀ b ∈ before?, isSpace b = true) (goesOn : ∀ trims, ¬commentClosing trims <+: r)
    (y : Bytes) (name : String) :
    compile (x ++ (opening ++ (commentMark before? after? (0x2F :: r) ++ y))) name = .error ⟨name,
      .lex ⟨1 + newlines x + (newlines (leftMarker before?) + 0), .commentGoesOn⟩⟩ := by
  rw [commentMark_append]
  exact compile_refused scanned apart
    (scanMark_goesOn blank rfl (past_slash r _) (goesOn_append goesOn _)) name

theorem comment_as_silent_action (scanned : tokenize x = .ok tokens)
    (apart : x.getLast? ≠ some 0x7B) (unclosed : Unclosed body)
    (blank : ∀ b ∈ before?, isSpace b = true) (blank' : ∀ b ∈ after?, isSpace b = true) (y : Bytes)
    (name : String) :
    let comment := compile (x ++ (opening ++ (commentMark before? after? body ++ y))) name
    let action := compile (x ++ (opening ++ (silentMark before? after? ++ y))) name
    let refused := fun n => .error ⟨name,
      .lex ⟨1 + newlines x + (newlines (leftMarker before?) + n), .commentGoesOn⟩⟩
    (Readable after? body →
        ((∃ template, comment = .ok template) ↔ ∃ template, action = .ok template) ∧
        ∀ template other, comment = .ok template → action = .ok other → ∀ options values out,
          template.render options values = .ok out ↔ other.render options values = .ok out) ∧
      (IsWhole (commentMark before? after? body) ↔ Readable after? body) ∧
      (body.head? ≠ some 0x2F → ¬Readable after? body → comment = refused (newlines body)) ∧
      ∀ r, body = 0x2F :: r → (∀ trims, ¬commentClosing trims <+: r) → comment = refused 0 := by
  intro comment action refused
  refine ⟨fun readable => ?_, ?_, ?_, ?_⟩
  · obtain ⟨l, l', l'', spaced, forms⟩ := silentMark_forms blank blank'
    exact marks_exchanged scanned apart (commentMark_forms blank unclosed readable) forms rfl rfl
      silent_matches y name
  · exact commentMark_whole unclosed blank blank'
  · intro begins unreadable
    have unspaced : ∃ b ∈ after?, b ≠ 0x20 := by
      by_contra none
      push Not at none
      exact unreadable ⟨begins, none⟩
    obtain ⟨b, rfl, unspaced⟩ := unspaced
    exact misspaced_refused scanned apart unclosed begins blank (blank' b rfl) unspaced y name
  · rintro r rfl goesOn
    exact slashed_refused scanned apart blank goesOn y name

theorem comment_trims_both :
    ∃ template other, compile (utf8 "a \x7b\x7b-\n/* c */ -\x7d\x7d b") "t" = .ok template ∧
      compile (utf8 "a \x7b\x7b-\n\"\" -\x7d\x7d b") "t" = .ok other ∧
      ∀ options values, other.render options values = .ok (utf8 "ab") := by
  have scanned : tokenize (utf8 "a ") = .ok ⟨[⟨.text (utf8 "a "), 1, false⟩], 1⟩ := by cbv
  have unclosed : Unclosed (utf8 " c ") := by decide
  have readable : Readable (some 0x20) (utf8 " c ") :=
    ⟨by decide, fun _ same => (Option.some.inj same).symm⟩
  have blank : ∀ b ∈ some 0x0A, isSpace b = true := fun _ same => Option.some.inj same ▸ rfl
  have blank' : ∀ b ∈ some 0x20, isSpace b = true := fun _ same => Option.some.inj same ▸ rfl
  obtain ⟨compiles, prints⟩ := (comment_as_silent_action scanned (by decide) unclosed blank blank'
    (utf8 " b") "t").1 readable
  have compiled : compile (utf8 "a \x7b\x7b-\n/* c */ -\x7d\x7d b") "t" =
      .ok ⟨"t", [.text (utf8 "a"), .text (utf8 "b")]⟩ := by cbv
  obtain ⟨other, silent⟩ := compiles.mp ⟨_, compiled⟩
  refine ⟨_, other, compiled, silent, fun options values => ?_⟩
  exact (prints _ other compiled silent options values _).mp rfl

theorem comments_not_as_silent :
    (Unclosed (utf8 " c ") ∧ isSpace 0x09 = true ∧
      compile (opening ++ commentMark none (some 0x09) (utf8 " c ")) "t" =
        .error ⟨"t", .lex ⟨1, .commentGoesOn⟩⟩ ∧
      ∃ template, compile (opening ++ silentMark none (some 0x09)) "t" = .ok template ∧
        ∀ options values, template.render options values = .ok []) ∧
    (Unclosed (utf8 "/ x ") ∧
      compile (opening ++ commentMark none none (utf8 "/ x ")) "t" =
        .error ⟨"t", .lex ⟨1, .commentGoesOn⟩⟩ ∧
      ∃ template, compile (opening ++ silentMark none none) "t" = .ok template ∧
        ∀ options values, template.render options values = .ok []) := by
  let silent : Template := ⟨"t", [.action (.mk 1 [] false [.mk 1 [.literal (.str "")]])]⟩
  have pruned : nodesPruned true silent.nodes = nodesPruned true [] := rfl
  have prints (options : Options) (values : Json) : silent.render options values = .ok [] := by
    have nothing : render ⟨"t", []⟩ options values = .ok [] := rfl
    exact render_pruned pruned nothing
  refine ⟨⟨by decide, rfl, by cbv, silent, by cbv, prints⟩, ?_⟩
  exact ⟨by decide, by cbv, silent, by cbv, prints⟩

end Sources

end PagePress.Template
