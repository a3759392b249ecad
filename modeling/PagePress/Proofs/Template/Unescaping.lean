import PagePress.Proofs.Template.Lexemes
import PagePress.Template.Escape
import PagePress.Url

namespace PagePress.Template

open Numeral Text

section Query

def queryBytes (cs : List Char) : Bytes :=
  unescape (utf8Chars (cs.map fun c => if c = '+' then ' ' else c))

inductive QueryText : List Char → Prop where
  | nil : QueryText []
  | plain {c : Char} {cs : List Char} (allowed : c.isAlphanum ∨ c ∈ ['-', '_', '.', '~', '+']) :
      QueryText cs → QueryText (c :: cs)
  | escape {a b : Char} {cs : List Char} (high : (digitOf? 16 a).isSome)
      (low : (digitOf? 16 b).isSome) : QueryText cs → QueryText ('%' :: a :: b :: cs)

theorem digitOf?_upperHex : ∀ n < 16, digitOf? 16 (upperHex n) = some n := by decide

theorem upperHex_plain : ∀ n < 16, (upperHex n).toNat < 0x80 ∧ upperHex n ≠ '+' := by decide

theorem unescape_plain {b : UInt8} (other : letter b ≠ '%') (bytes : Bytes) :
    unescape (b :: bytes) = b :: unescape bytes := by
  have mark : (letter b == '%') = false := by simpa using other
  match bytes with
  | [] => rfl
  | [_] => rfl
  | _ :: _ :: _ => rw [unescape, mark]

theorem unescape_escape {p x y : UInt8} {high low : Nat} (mark : letter p = '%')
    (first : digitOf? 16 (letter x) = some high) (second : digitOf? 16 (letter y) = some low)
    (bytes : Bytes) :
    unescape (p :: x :: y :: bytes) = UInt8.ofNat (16 * high + low) :: unescape bytes := by
  rw [unescape, mark, first, second]
  rfl

theorem letter_of_ascii {c : Char} (ascii : c.toNat < 0x80) :
    ∃ b, letter b = c ∧ String.utf8EncodeChar c = [b] := by
  have same := letter_ofNat ascii
  refine ⟨_, same, ?_⟩
  have whole := encode_letter (b := UInt8.ofNat c.toNat) (by rwa [same])
  rwa [same] at whole

theorem queryBytes_cons (c : Char) (cs : List Char) :
    queryBytes (c :: cs) = unescape (String.utf8EncodeChar (if c = '+' then ' ' else c) ++
      utf8Chars (cs.map fun c => if c = '+' then ' ' else c)) := rfl

theorem queryBytes_plain {b : UInt8} (ascii : (letter b).toNat < 0x80) (percent : letter b ≠ '%')
    (plus : letter b ≠ '+') (cs : List Char) :
    queryBytes (letter b :: cs) = b :: queryBytes cs := by
  rw [queryBytes_cons, if_neg plus, encode_letter ascii, List.singleton_append,
    unescape_plain percent]
  rfl

theorem queryBytes_escape (b : UInt8) (cs : List Char) :
    queryBytes ('%' :: upperHex (b.toNat / 16) :: upperHex (b.toNat % 16) :: cs) =
      b :: queryBytes cs := by
  have small := b.toNat_lt
  have high : b.toNat / 16 < 16 := by omega
  have low : b.toNat % 16 < 16 := Nat.mod_lt _ (by decide)
  obtain ⟨p, mark, percent⟩ := letter_of_ascii (c := '%') (by decide)
  obtain ⟨x, first, high_byte⟩ := letter_of_ascii (upperHex_plain _ high).1
  obtain ⟨y, second, low_byte⟩ := letter_of_ascii (upperHex_plain _ low).1
  have digit := digitOf?_upperHex _ high
  have digit' := digitOf?_upperHex _ low
  rw [← first] at digit
  rw [← second] at digit'
  rw [queryBytes, List.map_cons, List.map_cons, List.map_cons, if_neg (by decide),
    if_neg (upperHex_plain _ high).2, if_neg (upperHex_plain _ low).2, utf8Chars_cons,
    utf8Chars_cons, utf8Chars_cons, percent, high_byte, low_byte, List.singleton_append,
    List.singleton_append, List.singleton_append, unescape_escape mark digit digit',
    Nat.div_add_mod, UInt8.ofNat_toNat]
  rfl

theorem plain_of_unescaped {c : Char} (allowed : c.isAlphanum ∨ c ∈ ['-', '_', '.', '~']) :
    c.toNat < 0x80 ∧ c ≠ '%' ∧ c ≠ '+' := by
  rcases allowed with named | mark
  · refine ⟨ascii_of_isAlphanum named, ?_, ?_⟩
    · rintro rfl
      cases named
    · rintro rfl
      cases named
  · simp only [List.mem_cons, List.not_mem_nil, or_false] at mark
    rcases mark with rfl | rfl | rfl | rfl <;> decide

theorem queryBytes_queryEscape (b : UInt8) (cs : List Char) :
    queryBytes (queryEscape b ++ cs) = b :: queryBytes cs := by
  rw [queryEscape]
  split
  · rename_i allowed
    obtain ⟨ascii, percent, plus⟩ := plain_of_unescaped allowed
    exact queryBytes_plain ascii percent plus cs
  · split
    · rename_i blank
      have byte := encode_letter (b := b) (by simp [blank])
      rw [blank] at byte
      rw [List.singleton_append, queryBytes_cons, if_pos rfl, byte, List.singleton_append,
        unescape_plain (by simp [blank])]
      rfl
    · exact queryBytes_escape b cs

theorem queryBytes_escapeQuery (cs : List Char) : queryBytes (escapeQuery cs) = utf8Chars cs := by
  rw [escapeQuery]
  induction utf8Chars cs with
  | nil => rfl
  | cons b bytes ih => rw [List.flatMap_cons, queryBytes_queryEscape, ih]

theorem queryText_queryEscape (b : UInt8) {cs : List Char} (behind : QueryText cs) :
    QueryText (queryEscape b ++ cs) := by
  have small := b.toNat_lt
  rw [queryEscape]
  split
  · rename_i allowed
    refine .plain (allowed.imp_right fun mark => ?_) behind
    exact List.mem_append_left ['+'] mark
  · split
    · exact .plain (.inr (by decide)) behind
    · refine .escape ?_ ?_ behind
      · rw [digitOf?_upperHex _ (by omega)]
        rfl
      · rw [digitOf?_upperHex _ (Nat.mod_lt _ (by decide))]
        rfl

theorem queryText_escapeQuery (cs : List Char) : QueryText (escapeQuery cs) := by
  rw [escapeQuery]
  induction utf8Chars cs with
  | nil => exact .nil
  | cons b bytes ih =>
    rw [List.flatMap_cons]
    exact queryText_queryEscape b ih

end Query

section Markup

def replaceEntities : List Char → List Char
  | '&' :: 'a' :: 'm' :: 'p' :: ';' :: cs => '&' :: replaceEntities cs
  | '&' :: 'l' :: 't' :: ';' :: cs => '<' :: replaceEntities cs
  | '&' :: 'g' :: 't' :: ';' :: cs => '>' :: replaceEntities cs
  | '&' :: '#' :: '3' :: '4' :: ';' :: cs => '"' :: replaceEntities cs
  | '&' :: '#' :: '3' :: '9' :: ';' :: cs => '\'' :: replaceEntities cs
  | '&' :: '#' :: '4' :: '3' :: ';' :: cs => '+' :: replaceEntities cs
  | c :: cs => c :: replaceEntities cs
  | [] => []

def shownInMarkup (c : Char) : Char := if c = '\x00' then '\uFFFD' else c

theorem replaceEntities_plain {c : Char} (other : c ≠ '&') (cs : List Char) :
    replaceEntities (c :: cs) = c :: replaceEntities cs := by
  rw [replaceEntities.eq_def]
  split <;> simp_all

theorem replaceEntities_htmlEscape (c : Char) (cs : List Char) :
    replaceEntities (htmlEscape c ++ cs) = shownInMarkup c :: replaceEntities cs := by
  rw [htmlEscape.eq_def]
  split
  · rfl
  · rfl
  · rfl
  · rfl
  · rfl
  · rfl
  · exact replaceEntities_plain (by decide) cs
  · rename_i ampersand _ _ _ _ _ nul
    rw [shownInMarkup, if_neg nul]
    exact replaceEntities_plain ampersand cs

theorem replaceEntities_escapeHtml (cs : List Char) :
    replaceEntities (escapeHtml cs) = cs.map shownInMarkup := by
  induction cs with
  | nil => rfl
  | cons c cs ih =>
    rw [escapeHtml, List.flatMap_cons, replaceEntities_htmlEscape]
    exact congrArg _ ih

theorem map_shownInMarkup {cs : List Char} (without : '\x00' ∉ cs) : cs.map shownInMarkup = cs := by
  rw [List.map_congr_left (g := id), List.map_id]
  intro c member
  apply if_neg
  rintro rfl
  exact without member

end Markup

section Script

def quotes : List Char := ['"', '\'']

-- A character in units of 16 bits, the way a script has its text. The large ones take two.
def codeUnits (c : Char) : List Nat :=
  if c.toNat < 0x10000 then [c.toNat]
  else [0xD800 + (c.toNat - 0x10000) / 0x400, 0xDC00 + (c.toNat - 0x10000) % 0x400]

def utf16 (cs : List Char) : List Nat := cs.flatMap codeUnits

def escapedUnits? (c : Char) : Option (List Nat) :=
  match c with
  | 'b' => some [8]
  | 't' => some [9]
  | 'n' => some [10]
  | 'v' => some [11]
  | 'f' => some [12]
  | 'r' => some [13]
  | '\n' | '\r' | '\u2028' | '\u2029' => some []
  | c => if c.isDigit ∨ c = 'x' ∨ c = 'u' then none else some (codeUnits c)

-- The text that stands between two such quotes in a script, none where it ends early. The two
-- other ends of lines may stand in it as they are. Numbers in braces and in decimal or octal digits
-- are not read.
def literalText? (quote : Char) : List Char → Option (List Nat)
  | [] => some []
  | '\\' :: 'u' :: a :: b :: c :: d :: cs =>
    (natural? 16 [a, b, c, d]).bind fun unit => (literalText? quote cs).map (unit :: ·)
  | '\\' :: 'x' :: a :: b :: cs =>
    (natural? 16 [a, b]).bind fun unit => (literalText? quote cs).map (unit :: ·)
  | '\\' :: '\r' :: '\n' :: cs => literalText? quote cs
  | '\\' :: c :: cs =>
    (escapedUnits? c).bind fun units => (literalText? quote cs).map (units ++ ·)
  | c :: cs =>
    if c ∈ [quote, '\\', '\n', '\r'] then none else (literalText? quote cs).map (codeUnits c ++ ·)

variable {quote : Char}

theorem literalText?_plain {c : Char} (other : c ∉ [quote, '\\', '\n', '\r']) (cs : List Char) :
    literalText? quote (c :: cs) = (literalText? quote cs).map (codeUnits c ++ ·) := by
  have backslash : c ≠ '\\' := by
    rintro rfl
    simp at other
  rw [literalText?.eq_def]
  split
  · simp_all
  · simp_all
  · simp_all
  · simp_all
  · simp_all
  · rename_i spelled
    cases spelled
    rw [if_neg other]

theorem natural?_unicode : ∀ n < 0x40,
    natural? 16 [upperHex (n / 4096 % 16), upperHex (n / 256 % 16), upperHex (n / 16 % 16),
      upperHex (n % 16)] = some n := by
  decide +kernel

theorem literalText?_unicode {c : Char} (small : c.toNat < 0x40) (cs : List Char) :
    literalText? quote (unicodeEscape c.toNat ++ cs) =
      (literalText? quote cs).map (codeUnits c ++ ·) := by
  have units : codeUnits c = [c.toNat] := if_pos (by omega)
  simp only [unicodeEscape, List.cons_append, List.nil_append]
  rw [literalText?, natural?_unicode _ small, units]
  rfl

theorem literalText?_jsEscape (known : quote ∈ quotes) (c : Char) (cs : List Char) :
    literalText? quote (jsEscape c ++ cs) = (literalText? quote cs).map (codeUnits c ++ ·) := by
  rw [jsEscape.eq_def]
  split
  · rfl
  · rfl
  · rfl
  · exact literalText?_unicode (by decide) cs
  · exact literalText?_unicode (by decide) cs
  · exact literalText?_unicode (by decide) cs
  · exact literalText?_unicode (by decide) cs
  · rename_i backslash apostrophe double _ _ _ _
    split
    · rename_i control
      exact literalText?_unicode (by omega) cs
    · rename_i shown
      refine literalText?_plain ?_ cs
      simp only [quotes, List.mem_cons, List.not_mem_nil, or_false] at known ⊢
      rintro (rfl | rfl | rfl | rfl)
      · exact known.elim double apostrophe
      · exact backslash rfl
      · exact shown (by decide)
      · exact shown (by decide)

theorem literalText?_escapeJs (known : quote ∈ quotes) (cs : List Char) :
    literalText? quote (escapeJs cs) = some (utf16 cs) := by
  induction cs with
  | nil => rfl
  | cons c cs ih =>
    rw [escapeJs, List.flatMap_cons, literalText?_jsEscape known]
    exact congrArg (Option.map (codeUnits c ++ ·)) ih

def ScriptSafe (c : Char) : Prop := 0x20 ≤ c.toNat ∧ c ∉ ['<', '>', '&', '=']

instance (c : Char) : Decidable (ScriptSafe c) := inferInstanceAs (Decidable (_ ∧ _))

-- The backslashes that a text ends with. Behind an odd number of them a character is escaped.
def backslashes (cs : List Char) : Nat := (cs.reverse.takeWhile (· = '\\')).length

def QuotesEscaped (cs : List Char) : Prop :=
  ∀ before quote after, cs = before ++ quote :: after → quote ∈ quotes → Odd (backslashes before)

theorem backslashes_append {cs ds : List Char} (even : Even (backslashes cs))
    (odd : Odd (backslashes ds)) : Odd (backslashes (cs ++ ds)) := by
  rw [backslashes, List.reverse_append, List.takeWhile_append]
  rw [backslashes] at even odd
  split
  · rename_i all
    rw [List.length_append, ← all]
    exact odd.add_even even
  · exact odd

theorem QuotesEscaped.append {cs ds : List Char} (first : QuotesEscaped cs)
    (even : Even (backslashes cs)) (second : QuotesEscaped ds) : QuotesEscaped (cs ++ ds) := by
  intro before quote after same known
  rcases List.append_eq_append_iff.mp same with ⟨inside, rfl, behind⟩ | ⟨inside, rfl, behind⟩
  · exact backslashes_append even (second inside quote after behind known)
  · cases inside with
    | nil =>
      -- The second text does not begin with a quote.
      have odd := second [] quote after (by simpa using behind.symm) known
      exact absurd odd (by decide)
    | cons c inside =>
      obtain ⟨rfl, -⟩ := List.cons.inj behind
      exact first before _ inside rfl known

theorem quotesEscaped_of_none {cs : List Char} (none : ∀ c ∈ cs, c ∉ quotes) :
    QuotesEscaped cs := by
  rintro before quote after rfl known
  exact (none quote (by simp) known).elim

theorem quotesEscaped_pair (c : Char) : QuotesEscaped ['\\', c] := by
  intro before quote after same known
  cases before with
  | nil =>
    obtain ⟨rfl, -⟩ := List.cons.inj same
    exact absurd known (by decide)
  | cons b before =>
    obtain ⟨rfl, behind⟩ := List.cons.inj same
    cases before with
    | nil => decide
    | cons => simp at behind

-- What is written for one character: it shows its quotes as escaped wherever it is put.
structure ScriptPiece (cs : List Char) : Prop where
  safe : ∀ c ∈ cs, ScriptSafe c
  quoted : QuotesEscaped cs
  settled : Even (backslashes cs)

theorem scriptPiece_pair {c : Char} (safe : ScriptSafe c) (settled : Even (backslashes ['\\', c])) :
    ScriptPiece ['\\', c] :=
  ⟨List.forall_mem_cons.mpr ⟨by decide, List.forall_mem_singleton.mpr safe⟩,
    quotesEscaped_pair c, settled⟩

theorem scriptPiece_unicode {n : Nat} (small : n < 0x40) : ScriptPiece (unicodeEscape n) := by
  have all : ∀ n < 0x40, (unicodeEscape n).all (fun c => ScriptSafe c ∧ c ∉ quotes) ∧
      Even (backslashes (unicodeEscape n)) := by
    decide +kernel
  obtain ⟨plain, settled⟩ := all n small
  rw [List.all_eq_true] at plain
  simp only [decide_eq_true_eq] at plain
  exact ⟨fun c member => (plain c member).1,
    quotesEscaped_of_none fun c member => (plain c member).2, settled⟩

theorem scriptPiece_jsEscape (c : Char) : ScriptPiece (jsEscape c) := by
  rw [jsEscape.eq_def]
  split
  · exact scriptPiece_pair (by decide) (by decide)
  · exact scriptPiece_pair (by decide) (by decide)
  · exact scriptPiece_pair (by decide) (by decide)
  · exact scriptPiece_unicode (by decide)
  · exact scriptPiece_unicode (by decide)
  · exact scriptPiece_unicode (by decide)
  · exact scriptPiece_unicode (by decide)
  · rename_i backslash apostrophe double less greater ampersand equals
    split
    · rename_i control
      exact scriptPiece_unicode (by omega)
    · rename_i shown
      refine ⟨?_, quotesEscaped_of_none ?_, ?_⟩
      · simp only [List.mem_singleton, forall_eq]
        refine ⟨Nat.le_of_not_lt shown, ?_⟩
        simp only [List.mem_cons, List.not_mem_nil, or_false]
        rintro (rfl | rfl | rfl | rfl)
        · exact less rfl
        · exact greater rfl
        · exact ampersand rfl
        · exact equals rfl
      · simp only [quotes, forall_eq, List.mem_cons, List.not_mem_nil, or_false]
        rintro (rfl | rfl)
        · exact double rfl
        · exact apostrophe rfl
      · have plain : ¬c = '\\' := backslash
        simp [backslashes, plain]

theorem escapeJs_safe (cs : List Char) :
    (∀ c ∈ escapeJs cs, ScriptSafe c) ∧ QuotesEscaped (escapeJs cs) := by
  induction cs with
  | nil => exact ⟨nofun, quotesEscaped_of_none nofun⟩
  | cons c cs ih =>
    have piece := scriptPiece_jsEscape c
    rw [escapeJs, List.flatMap_cons]
    exact ⟨List.forall_mem_append.mpr ⟨piece.safe, ih.1⟩,
      piece.quoted.append piece.settled ih.2⟩

theorem codeUnits_ne_nil (c : Char) : codeUnits c ≠ [] := by
  rw [codeUnits]
  split <;> exact List.cons_ne_nil _ _

theorem codeUnits_append_inj {c d : Char} {rest later : List Nat}
    (same : codeUnits c ++ rest = codeUnits d ++ later) : c = d ∧ rest = later := by
  have valid (e : Char) : e.toNat < 0xD800 ∨ 0xDFFF < e.toNat ∧ e.toNat < 0x110000 := e.valid
  have first := valid c
  have second := valid d
  rw [codeUnits, codeUnits] at same
  split at same <;> split at same <;>
    simp only [List.cons_append, List.nil_append, List.cons.injEq] at same
  · exact ⟨Char.toNat_inj.mp same.1, same.2⟩
  · omega
  · omega
  · exact ⟨Char.toNat_inj.mp (by omega), same.2.2⟩

theorem utf16_injective : Function.Injective utf16 := by
  intro cs ds same
  induction cs generalizing ds with
  | nil =>
    cases ds with
    | nil => rfl
    | cons d ds => exact absurd (List.append_eq_nil_iff.mp same.symm).1 (codeUnits_ne_nil d)
  | cons c cs ih =>
    cases ds with
    | nil => exact absurd (List.append_eq_nil_iff.mp same).1 (codeUnits_ne_nil c)
    | cons d ds =>
      obtain ⟨rfl, later⟩ := codeUnits_append_inj same
      rw [ih later]

end Script

theorem escapers_read_back :
    (∀ cs, queryBytes (escapeQuery cs) = utf8Chars cs ∧ QueryText (escapeQuery cs)) ∧
    (∀ cs, replaceEntities (escapeHtml cs) = cs.map shownInMarkup) ∧
    (∀ cs, (∀ quote ∈ quotes, literalText? quote (escapeJs cs) = some (utf16 cs)) ∧
      (∀ c ∈ escapeJs cs, ScriptSafe c) ∧ QuotesEscaped (escapeJs cs)) ∧
    Function.Injective escapeQuery ∧ Function.Injective escapeJs ∧
    Set.InjOn escapeHtml {cs | '\x00' ∉ cs} := by
  refine ⟨fun cs => ⟨queryBytes_escapeQuery cs, queryText_escapeQuery cs⟩,
    replaceEntities_escapeHtml, fun cs => ⟨fun quote known => literalText?_escapeJs known cs,
      escapeJs_safe cs⟩, ?_, ?_, ?_⟩
  · intro cs ds same
    have bytes : utf8Chars cs = utf8Chars ds := by
      rw [← queryBytes_escapeQuery, same, queryBytes_escapeQuery]
    have decoded : decodeRun (utf8Chars cs) = decodeRun (utf8Chars ds) := congrArg decodeRun bytes
    rw [decodeRun_utf8Chars, decodeRun_utf8Chars] at decoded
    exact congrArg Prod.fst decoded
  · intro cs ds same
    have known : '"' ∈ quotes := by decide
    have read := literalText?_escapeJs known cs
    rw [same, literalText?_escapeJs known ds] at read
    exact (utf16_injective (Option.some.inj read)).symm
  · intro cs first ds second same
    rw [← map_shownInMarkup first, ← map_shownInMarkup second, ← replaceEntities_escapeHtml, same,
      replaceEntities_escapeHtml]

end PagePress.Template
