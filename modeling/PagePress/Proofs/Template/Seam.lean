import PagePress.Proofs.Template.Marks

namespace PagePress.Template

open Text

section Cutting

-- No delimiter comes about between the two.
def Apart (s t : Bytes) : Prop :=
  ¬(s.getLast?.map letter = some '{' ∧ t.head?.map letter = some '{')

theorem cutText_append (t : Bytes) {before s text r : Bytes}
    (found : cutText before s = (text, some r)) :
    cutText before (s ++ t) = (text, some (r ++ t)) := by
  induction s generalizing before with
  | nil => cases found
  | cons b u ih =>
    rw [cutText] at found
    rw [List.cons_append, cutText]
    cases u with
    | nil =>
      rw [if_neg (by simp)] at found
      cases found
    | cons d v =>
      rw [List.cons_append, List.head?_cons] at *
      split at found
      · rename_i opens
        cases found
        exact if_pos opens
      · rename_i goesOn
        rw [if_neg goesOn]
        exact ih found

theorem cutText_whole {before s text : Bytes} (found : cutText before s = (text, none)) :
    text = before.reverse ++ s := by
  induction s generalizing before with
  | nil =>
    cases found
    simp
  | cons b u ih =>
    rw [cutText] at found
    split at found
    · cases found
    · simpa using ih found

theorem cutText_suffix {before s text r : Bytes} (found : cutText before s = (text, some r)) :
    r <:+ s := by
  induction s generalizing before with
  | nil => cases found
  | cons b u ih =>
    rw [cutText] at found
    split at found
    · cases found
      exact (List.drop_suffix 1 u).trans (List.suffix_cons b u)
    · exact (ih found).trans (List.suffix_cons b u)

theorem cutText_before (before s : Bytes) :
    cutText before s = (before.reverse ++ (cutText [] s).1, (cutText [] s).2) := by
  induction s generalizing before with
  | nil => simp [cutText]
  | cons b u ih =>
    rw [cutText, cutText]
    split
    · simp
    · rw [ih (b :: before), ih [b]]
      simp

theorem cutText_behind {before s t : Bytes} (uncut : (cutText before s).2 = none)
    (apart : Apart s t) : cutText before (s ++ t) = cutText (s.reverse ++ before) t := by
  induction s generalizing before with
  | nil => rfl
  | cons b u ih =>
    rw [cutText] at uncut
    split at uncut
    · cases uncut
    · rename_i goesOn
      have later : Apart u t := by
        intro ⟨last, first⟩
        cases u with
        | nil => cases last
        | cons d v => exact apart ⟨by simpa using last, first⟩
      rw [List.cons_append, cutText, if_neg, ih uncut later]
      · simp
      · cases u with
        | nil => exact fun opens => apart ⟨by simpa using opens.1, opens.2⟩
        | cons d v => exact goesOn

end Cutting

section Layouts

def Segment.unlined (segment : Segment) : Segment := ⟨0, segment.text, segment.mark.unlined⟩

def segmentsUnlined (segments : List Segment) : List Segment := segments.map Segment.unlined

def Layout.unlined (layout : Layout) : Layout :=
  ⟨segmentsUnlined layout.segments, 0, layout.lastText⟩

variable {line : Nat} {before : List Segment} {s text r : Bytes} {layout : Layout}

theorem scan_last (cut : cutText [] s = (text, none)) :
    Layout.scan line before s = .ok ⟨before.reverse, line, text⟩ := by
  rw [Layout.scan.eq_def]
  split
  · rename_i found
    obtain ⟨rfl, -⟩ := Prod.mk.inj (cut.symm.trans found)
    rfl
  · rename_i found
    cases cut.symm.trans found

theorem scan_mark (cut : cutText [] s = (text, some r)) {p : MarkScan (r.length + 1)}
    (scanned : scanMark (line + newlines text) r = .ok p) :
    Layout.scan line before s = Layout.scan p.line (⟨line, text, p.mark⟩ :: before) p.rest := by
  rw [Layout.scan.eq_def]
  split
  · rename_i found
    cases cut.symm.trans found
  · rename_i found
    obtain ⟨rfl, same⟩ := Prod.mk.inj (cut.symm.trans found)
    obtain rfl := Option.some.inj same
    rw [scanned]

theorem scan_fails (cut : cutText [] s = (text, some r)) {e : LexError}
    (failed : scanMark (line + newlines text) r = .error e) :
    Layout.scan line before s = .error e := by
  rw [Layout.scan.eq_def]
  split
  · rename_i found
    cases cut.symm.trans found
  · rename_i found
    obtain ⟨rfl, same⟩ := Prod.mk.inj (cut.symm.trans found)
    obtain rfl := Option.some.inj same
    rw [failed]

theorem scan_cases (found : Layout.scan line before s = .ok layout) :
    (cutText [] s = (s, none) ∧ layout = ⟨before.reverse, line, s⟩) ∨
      ∃ text r, cutText [] s = (text, some r) ∧ ∃ p, scanMark (line + newlines text) r = .ok p ∧
        Layout.scan p.line (⟨line, text, p.mark⟩ :: before) p.rest = .ok layout := by
  rcases cut : cutText [] s with ⟨text, behind⟩
  cases behind with
  | none =>
    obtain rfl : text = s := cutText_whole cut
    rw [scan_last cut] at found
    exact .inl ⟨rfl, (Except.ok.inj found).symm⟩
  | some r =>
    refine .inr ⟨text, r, rfl, ?_⟩
    cases scanned : scanMark (line + newlines text) r with
    | error e =>
      rw [scan_fails cut scanned] at found
      cases found
    | ok p =>
      rw [scan_mark cut scanned] at found
      exact ⟨p, rfl, found⟩

theorem scan_leaves (line : Nat) (before : List Segment) (s : Bytes)
    (found : Layout.scan line before s = .ok layout) :
    (cutText [] layout.lastText).2 = none ∧ layout.lastText <:+ s := by
  obtain ⟨cut, rfl⟩ | ⟨text, r, cut, p, scanned, found⟩ := scan_cases found
  · exact ⟨congrArg Prod.snd cut, List.suffix_rfl⟩
  · have shorter := cutText_lt cut
    have within := p.within
    obtain ⟨uncut, suffix⟩ := scan_leaves _ _ p.rest found
    exact ⟨uncut, suffix.trans ((scanMark_suffix scanned).trans (cutText_suffix cut))⟩
termination_by s.length

theorem scan_append (t : Bytes) (line line' : Nat) (before before' : List Segment)
    (alike : segmentsUnlined before' = segmentsUnlined before) (s : Bytes)
    (found : Layout.scan line before s = .ok layout) :
    ∃ l segments, segmentsUnlined segments = segmentsUnlined layout.segments ∧
      Layout.scan line' before' (s ++ t) =
        Layout.scan l segments.reverse (layout.lastText ++ t) := by
  obtain ⟨cut, rfl⟩ | ⟨text, r, cut, p, scanned, found⟩ := scan_cases found
  · refine ⟨line', before'.reverse, ?_, by rw [List.reverse_reverse]⟩
    rw [segmentsUnlined, List.map_reverse, ← segmentsUnlined, alike, segmentsUnlined,
      ← List.map_reverse, segmentsUnlined]
  · have shorter := cutText_lt cut
    have within := p.within
    obtain ⟨q, again, mark, rest⟩ := scanMark_append (line' + newlines text) rfl scanned
    rw [scan_mark (cutText_append t cut) again, rest]
    refine scan_append t _ _ _ _ ?_ p.rest found
    rw [segmentsUnlined, segmentsUnlined] at alike
    simp only [segmentsUnlined, List.map_cons, Segment.unlined, mark, alike]
termination_by s.length

theorem scan_relined (line' : Nat) (found : Layout.scan line [] s = .ok layout) :
    ∃ again, Layout.scan line' [] s = .ok again ∧ again.unlined = layout.unlined := by
  obtain ⟨l, segments, alike, scanned⟩ := scan_append [] line line' [] [] rfl s found
  obtain ⟨uncut, -⟩ := scan_leaves _ _ _ found
  have cut : cutText [] layout.lastText = (layout.lastText, none) := by
    rcases whole : cutText [] layout.lastText with ⟨text, behind⟩
    obtain rfl : behind = none := by simpa [whole] using uncut
    rw [cutText_whole whole]
    rfl
  rw [List.append_nil, List.append_nil, scan_last cut] at scanned
  refine ⟨_, scanned, ?_⟩
  rw [Layout.unlined, List.reverse_reverse, alike]
  rfl

def Layout.after (layout : Layout) (earlier : List Segment) : Layout :=
  { layout with segments := earlier.reverse ++ layout.segments }

theorem scan_after (line : Nat) (before earlier : List Segment) (s : Bytes) :
    Layout.scan line (before ++ earlier) s =
      (Layout.scan line before s).map (·.after earlier) := by
  rcases cut : cutText [] s with ⟨text, behind⟩
  cases behind with
  | none =>
    rw [scan_last cut, scan_last cut, List.reverse_append]
    rfl
  | some r =>
    have shorter := cutText_lt cut
    cases scanned : scanMark (line + newlines text) r with
    | error e =>
      rw [scan_fails cut scanned, scan_fails cut scanned]
      rfl
    | ok p =>
      have within := p.within
      rw [scan_mark cut scanned, scan_mark cut scanned]
      exact scan_after _ (_ :: before) earlier p.rest
termination_by s.length

def Layout.join (one two : Layout) : Layout :=
  match two.segments with
  | [] => ⟨one.segments, one.lastLine, one.lastText ++ two.lastText⟩
  | segment :: rest =>
    ⟨one.segments ++ ⟨one.lastLine, one.lastText ++ segment.text, segment.mark⟩ :: rest,
      two.lastLine, two.lastText⟩

theorem apart_of_suffix {s t u : Bytes} (apart : Apart s t) (suffix : u <:+ s) : Apart u t := by
  obtain ⟨v, rfl⟩ := suffix
  rintro ⟨last, first⟩
  refine apart ⟨?_, first⟩
  cases u with
  | nil => cases last
  | cons b w => rwa [List.getLast?_append_cons]

theorem layout_append {s t : Bytes} {one two : Layout} (first : Layout.ofBytes s = .ok one)
    (second : Layout.ofBytes t = .ok two) (apart : Apart s t) :
    ∃ whole, Layout.ofBytes (s ++ t) = .ok whole ∧ whole.unlined = (one.join two).unlined := by
  obtain ⟨uncut, suffix⟩ := scan_leaves _ _ _ first
  obtain ⟨l, segments, alike, scanned⟩ := scan_append t 1 1 [] [] rfl s first
  rw [Layout.ofBytes, scanned]
  have cutBehind : cutText [] (one.lastText ++ t) =
      (one.lastText ++ (cutText [] t).1, (cutText [] t).2) := by
    rw [cutText_behind uncut (apart_of_suffix apart suffix), List.append_nil, cutText_before,
      List.reverse_reverse]
  obtain ⟨cut, rfl⟩ | ⟨text, r, cut, p, marked, found⟩ := scan_cases second
  · rw [cut] at cutBehind
    refine ⟨_, scan_last cutBehind, ?_⟩
    simp only [Layout.unlined, Layout.join, List.reverse_reverse, List.reverse_nil, alike]
  · obtain ⟨q, again, mark, rest⟩ := scanMark_append (l + newlines (one.lastText ++ text))
      (List.append_nil r).symm marked
    rw [cut] at cutBehind
    rw [scan_mark cutBehind again, rest, List.append_nil, ← List.nil_append (_ :: _), scan_after]
    rw [← List.nil_append [_], scan_after] at found
    cases later : Layout.scan p.line [] p.rest with
    | error e =>
      rw [later] at found
      cases found
    | ok new =>
      rw [later] at found
      cases found
      obtain ⟨other, relined, same⟩ := scan_relined q.line later
      rw [relined]
      refine ⟨_, rfl, ?_⟩
      rw [Layout.unlined, Layout.unlined] at same
      obtain ⟨segmentsSame, -, textSame⟩ := Layout.mk.inj same
      rw [segmentsUnlined, segmentsUnlined] at *
      simp [Layout.unlined, Layout.join, Layout.after, segmentsUnlined, Segment.unlined, mark,
        segmentsSame, textSame, alike]

end Layouts

section Tokens

def segmentsTokens (trims : Bool) (segments : List Segment) : List Token :=
  ((trims :: segments.map (·.mark.trimsAfter)).zip segments).flatMap fun row => row.2.tokens row.1

def trimsBehind (trims : Bool) (segments : List Segment) : Bool :=
  (segments.map (·.mark.trimsAfter)).getLastD trims

def lastTokens (trims : Bool) (line : Nat) (text : Bytes) : List Token :=
  textTokens line (if trims then trimStart text else text)

theorem tokens_eq (layout : Layout) :
    layout.tokens = segmentsTokens false layout.segments ++
      lastTokens (trimsBehind false layout.segments) layout.lastLine layout.lastText := rfl

@[simp] theorem segmentsTokens_cons (trims : Bool) (segment : Segment) (rest : List Segment) :
    segmentsTokens trims (segment :: rest) =
      segment.tokens trims ++ segmentsTokens segment.mark.trimsAfter rest := rfl

theorem trimsBehind_cons (trims : Bool) (segment : Segment) (rest : List Segment) :
    trimsBehind trims (segment :: rest) = trimsBehind segment.mark.trimsAfter rest := by
  rw [trimsBehind, List.map_cons, List.getLastD_cons, trimsBehind]

theorem segmentsTokens_append (trims : Bool) (segments others : List Segment) :
    segmentsTokens trims (segments ++ others) =
      segmentsTokens trims segments ++ segmentsTokens (trimsBehind trims segments) others := by
  induction segments generalizing trims with
  | nil => rfl
  | cons segment rest ih =>
    rw [List.cons_append, segmentsTokens_cons, segmentsTokens_cons, ih, trimsBehind_cons,
      List.append_assoc]

theorem trimsBehind_append (trims : Bool) (segments others : List Segment) :
    trimsBehind trims (segments ++ others) = trimsBehind (trimsBehind trims segments) others := by
  induction segments generalizing trims with
  | nil => rfl
  | cons segment rest ih => rw [List.cons_append, trimsBehind_cons, ih, trimsBehind_cons]

theorem textTokens_unlined (line : Nat) (s : Bytes) :
    tokensUnlined (textTokens line s) = textTokens 0 s := by
  rw [textTokens, textTokens]
  split <;> rfl

theorem segmentsTokens_unlined (trims : Bool) (segments : List Segment) :
    tokensUnlined (segmentsTokens trims segments) =
      segmentsTokens trims (segmentsUnlined segments) := by
  induction segments generalizing trims with
  | nil => rfl
  | cons segment rest ih =>
    have first : tokensUnlined (segment.tokens trims) = segment.unlined.tokens trims := by
      rw [Segment.tokens, tokensUnlined, List.map_append, ← tokensUnlined, textTokens_unlined]
      rfl
    rw [segmentsTokens_cons, tokensUnlined, List.map_append, ← tokensUnlined, ← tokensUnlined,
      first, ih]
    rfl

theorem trimsBehind_unlined (trims : Bool) (segments : List Segment) :
    trimsBehind trims (segmentsUnlined segments) = trimsBehind trims segments := by
  rw [trimsBehind, segmentsUnlined, List.map_map, trimsBehind]
  rfl

theorem tokens_unlined (layout : Layout) : tokensUnlined layout.tokens = layout.unlined.tokens := by
  rw [tokens_eq, tokensUnlined, List.map_append, ← tokensUnlined, ← tokensUnlined, lastTokens,
    textTokens_unlined, segmentsTokens_unlined, tokens_eq, Layout.unlined]
  dsimp only
  rw [trimsBehind_unlined]
  rfl

def Layout.trimsEnd (layout : Layout) : Bool :=
  (layout.segments.getLast?.map (·.mark.trimsAfter)).getD false

def Layout.trimsStart (layout : Layout) : Bool :=
  (layout.segments.head?.map (·.mark.trimsBefore)).getD false

theorem tokens_join {one two : Layout} (keepsEnd : one.trimsEnd = false)
    (keepsStart : two.trimsStart = false) :
    ∃ ts us x y l₁ l₂ l, one.tokens = ts ++ textTokens l₁ x ∧ two.tokens = textTokens l₂ y ++ us ∧
      (one.join two).tokens = ts ++ (textTokens l (x ++ y) ++ us) := by
  rw [Layout.trimsEnd, ← List.getLast?_map, ← List.getLastD_eq_getLast?, ← trimsBehind] at keepsEnd
  have first : one.tokens =
      segmentsTokens false one.segments ++ textTokens one.lastLine one.lastText := by
    rw [tokens_eq, keepsEnd]
    rfl
  obtain ⟨segments, line, text⟩ := two
  cases segments with
  | nil =>
    refine ⟨_, [], one.lastText, text, _, line, one.lastLine, first, (List.append_nil _).symm, ?_⟩
    rw [Layout.join, tokens_eq, keepsEnd, List.append_nil]
    rfl
  | cons segment rest =>
    have stays : segment.mark.trimsBefore = false := keepsStart
    have plain (l : Nat) (s : Bytes) : Segment.tokens false ⟨l, s, segment.mark⟩ =
        textTokens l s ++ segment.mark.tokens := by
      rw [Segment.tokens, stays]
      rfl
    refine ⟨_, segment.mark.tokens ++ (segmentsTokens segment.mark.trimsAfter rest ++
      lastTokens (trimsBehind segment.mark.trimsAfter rest) line text), one.lastText, segment.text,
      _, segment.line, one.lastLine, first, ?_, ?_⟩
    · rw [tokens_eq, segmentsTokens_cons, trimsBehind_cons, plain, List.append_assoc,
        List.append_assoc]
    · rw [Layout.join, tokens_eq]
      dsimp only
      rw [segmentsTokens_append, trimsBehind_append, keepsEnd, trimsBehind_cons,
        segmentsTokens_cons, plain]
      simp only [List.append_assoc]

def trimsEnd (s : Bytes) : Bool :=
  match Layout.ofBytes s with
  | .ok layout => layout.trimsEnd
  | .error _ => false

def trimsStart (s : Bytes) : Bool :=
  match Layout.ofBytes s with
  | .ok layout => layout.trimsStart
  | .error _ => false

theorem tokenize_append {s t : Bytes} {one two : Tokens} (first : tokenize s = .ok one)
    (second : tokenize t = .ok two) (apart : Apart s t) (keepsEnd : trimsEnd s = false)
    (keepsStart : trimsStart t = false) :
    ∃ whole, tokenize (s ++ t) = .ok whole ∧ ∃ ts us x y l₁ l₂ l,
      one.list = ts ++ textTokens l₁ x ∧ two.list = textTokens l₂ y ++ us ∧
        tokensUnlined whole.list = tokensUnlined (ts ++ (textTokens l (x ++ y) ++ us)) := by
  obtain ⟨layoutOne, scannedOne, done⟩ := Chain.bind_eq_ok.mp first
  cases done
  obtain ⟨layoutTwo, scannedTwo, done⟩ := Chain.bind_eq_ok.mp second
  cases done
  rw [trimsEnd, scannedOne] at keepsEnd
  rw [trimsStart, scannedTwo] at keepsStart
  obtain ⟨whole, scanned, same⟩ := layout_append scannedOne scannedTwo apart
  obtain ⟨ts, us, x, y, l₁, l₂, l, ofOne, ofTwo, ofJoin⟩ := tokens_join keepsEnd keepsStart
  refine ⟨⟨whole.tokens, whole.endLine⟩, by rw [tokenize, scanned]; rfl, ts, us, x, y, l₁, l₂, l,
    ofOne, ofTwo, ?_⟩
  rw [← ofJoin, tokens_unlined, tokens_unlined, same]

end Tokens

end PagePress.Template
