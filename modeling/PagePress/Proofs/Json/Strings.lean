import PagePress.Json.Printer
import PagePress.Json.Reader
import PagePress.Proofs.Chain
import PagePress.Proofs.Text.Utf8

namespace PagePress.Json
open Text Chain

def Reads {α : Type} {bound : Nat} (result : Read α bound) (value : α) (rest : Bytes) : Prop :=
  ∃ shorter, result = .ok ⟨value, rest, shorter⟩

theorem splitPlain_cons {b : UInt8} (plain : isPlain b = true) (s : Bytes) :
    splitPlain (b :: s) = (b :: (splitPlain s).1, (splitPlain s).2) := by
  simp [splitPlain, plain]

theorem splitPlain_stop {b : UInt8} (special : isPlain b = false) (s : Bytes) :
    splitPlain (b :: s) = ([], b :: s) := by
  simp [splitPlain, special]

theorem readStringOnto_plain {bound : Nat} {before s : Bytes} {b : UInt8} (plain : isPlain b = true)
    (less : (b :: s).length < bound) :
    readStringOnto bound before (b :: s) less =
      readStringOnto bound (b :: before) s (Nat.lt_of_succ_lt less) := by
  have cut := splitPlain_cons plain s
  conv => rhs; rw [readStringOnto]
  split
  · rename_i ended _
    rw [readStringOnto]
    split
    · rfl
    · rename_i found _
      rw [cut, ended] at found
      cases found
  · rename_i run d r le found _
    rw [readStringOnto]
    split
    · rename_i ended _
      rw [cut, found] at ended
      cases ended
    · rename_i whole _
      rw [cut, found] at whole
      cases whole
      simp

theorem readStringOnto_run {bound : Nat} {run : Bytes} (plain : ∀ b ∈ run, isPlain b = true)
    (before s : Bytes) (less : (run ++ s).length < bound) :
    ∃ less', readStringOnto bound before (run ++ s) less =
      readStringOnto bound (run.reverse ++ before) s less' := by
  induction run generalizing before with
  | nil => exact ⟨less, rfl⟩
  | cons b rest ih =>
    obtain ⟨first, later⟩ := List.forall_mem_cons.mp plain
    obtain ⟨less', same⟩ := ih later (b :: before) (Nat.lt_of_succ_lt less)
    refine ⟨less', ?_⟩
    rw [List.reverse_cons, List.append_assoc]
    exact (readStringOnto_plain first less).trans same

theorem readStringOnto_escape {bound : Nat} (before : Bytes) {r t : Bytes} {c : Char}
    (escape : Reads (readEscape r) c t) (less : ('\\'.toUInt8 :: r).length < bound) :
    ∃ less', readStringOnto bound before ('\\'.toUInt8 :: r) less =
      readStringOnto bound ((String.utf8EncodeChar c).reverse ++ before) t less' := by
  obtain ⟨shorter, read⟩ := escape
  refine ⟨by simp at less; omega, ?_⟩
  have cut : splitPlain ('\\'.toUInt8 :: r) = ([], '\\'.toUInt8 :: r) :=
    splitPlain_stop (by decide) r
  rw [readStringOnto]
  split
  · rename_i ended _
    rw [cut] at ended
    cases ended
  · rename_i found _
    rw [cut] at found
    cases found
    have mark : letter '\\'.toUInt8 = '\\' := by decide
    simp [mark, read]

theorem readStringOnto_quote {bound : Nat} {before r : Bytes} {text : String}
    (spelled : textOf before.reverse r = .ok text) (less : ('"'.toUInt8 :: r).length < bound) :
    Reads (readStringOnto bound before ('"'.toUInt8 :: r) less) text r := by
  refine ⟨Nat.lt_of_succ_lt less, ?_⟩
  have cut : splitPlain ('"'.toUInt8 :: r) = ([], '"'.toUInt8 :: r) :=
    splitPlain_stop (by decide) r
  rw [readStringOnto]
  split
  · rename_i ended _
    rw [cut] at ended
    cases ended
  · rename_i found _
    rw [cut] at found
    cases found
    have mark : letter '"'.toUInt8 = '"' := by decide
    simp [mark, spelled]

theorem isPlain_ofNat : ∀ n < 256, 0x20 ≤ n → n ≠ '"'.toNat → n ≠ '\\'.toNat →
    isPlain (UInt8.ofNat n) = true := by decide +kernel

theorem isPlain_encode {c : Char} (quote : c ≠ '"') (backslash : c ≠ '\\')
    (shown : 0x20 ≤ c.toNat) : ∀ b ∈ String.utf8EncodeChar c, isPlain b = true := by
  intro b member
  have plain := isPlain_ofNat b.toNat b.toNat_lt
  rw [UInt8.ofNat_toNat] at plain
  by_cases ascii : c.toNat < 0x80
  · have byte : b = UInt8.ofNat c.toNat := by
      have shown : c.val.toNat = c.toNat := rfl
      simpa [String.utf8EncodeChar, shown, Nat.le_of_lt_succ ascii] using member
    have number : b.toNat = c.toNat := by
      rw [byte, UInt8.toNat_ofNat_of_lt' (show _ < 256 by omega)]
    rw [number] at plain
    exact plain shown (mt Char.toNat_inj.mp quote) (mt Char.toNat_inj.mp backslash)
  · have wide := le_of_mem_encode (by omega) member
    exact plain (by omega) (fun same => by rw [same] at wide; revert wide; decide)
      (fun same => by rw [same] at wide; revert wide; decide)

def hexByte (n : Nat) : UInt8 := UInt8.ofNat (Nat.digitChar n).toNat

theorem encode_digitChar : ∀ n < 16, String.utf8EncodeChar (Nat.digitChar n) = [hexByte n] := by
  decide +kernel

theorem hexDigit?_hexByte : ∀ n < 16, hexDigit? (hexByte n) = some n := by decide +kernel

theorem readUnicode_control {n : Nat} (small : n < 0x20) (rest : Bytes) :
    Reads (readUnicode (hexByte 0 :: hexByte 0 :: hexByte (n / 16) :: hexByte (n % 16) :: rest))
      (Char.ofNat n) rest := by
  have number : ((0 * 16 + 0) * 16 + n / 16) * 16 + n % 16 = n := by omega
  have low : lowSurrogate n = false := by simp [lowSurrogate]; omega
  have high : highSurrogate n = false := by simp [highSurrogate]; omega
  refine ⟨by simp; omega, ?_⟩
  rw [readUnicode, readHex]
  simp only [hexDigit?_hexByte _ (show 0 < 16 by omega),
    hexDigit?_hexByte _ (show n / 16 < 16 by omega),
    hexDigit?_hexByte _ (show n % 16 < 16 by omega), ok_bind, number, low, high]
  rfl

theorem readEscape_letter {b : UInt8} {c : Char} (rest : Bytes)
    (short : (letter b, c) ∈ [('"', '"'), ('\\', '\\'), ('b', '\x08'), ('f', '\x0c'),
      ('n', '\n'), ('r', '\r'), ('t', '\t')]) : Reads (readEscape (b :: rest)) c rest := by
  refine ⟨by simp, ?_⟩
  simp only [List.mem_cons, List.not_mem_nil, or_false, Prod.mk.injEq] at short
  rcases short with ⟨shown, rfl⟩ | ⟨shown, rfl⟩ | ⟨shown, rfl⟩ | ⟨shown, rfl⟩ | ⟨shown, rfl⟩ |
    ⟨shown, rfl⟩ | ⟨shown, rfl⟩
  all_goals simp [readEscape, shown]

theorem readEscape_escapeChar {c : Char} (special : c = '"' ∨ c = '\\' ∨ c.toNat < 0x20) :
    ∃ body, utf8Chars (escapeChar c) = '\\'.toUInt8 :: body ∧
      ∀ rest, Reads (readEscape (body ++ rest)) c rest := by
  unfold escapeChar
  split
  · exact ⟨['"'.toUInt8], rfl, fun rest => readEscape_letter rest (by decide)⟩
  · exact ⟨['\\'.toUInt8], rfl, fun rest => readEscape_letter rest (by decide)⟩
  · exact ⟨['b'.toUInt8], rfl, fun rest => readEscape_letter rest (by decide)⟩
  · exact ⟨['f'.toUInt8], rfl, fun rest => readEscape_letter rest (by decide)⟩
  · exact ⟨['n'.toUInt8], rfl, fun rest => readEscape_letter rest (by decide)⟩
  · exact ⟨['r'.toUInt8], rfl, fun rest => readEscape_letter rest (by decide)⟩
  · exact ⟨['t'.toUInt8], rfl, fun rest => readEscape_letter rest (by decide)⟩
  · rename_i quote backslash _ _ _ _ _
    have small : c.toNat < 0x20 := by
      rcases special with rfl | rfl | small
      · exact absurd rfl quote
      · exact absurd rfl backslash
      · exact small
    rw [if_pos small]
    refine ⟨'u'.toUInt8 :: hexByte 0 :: hexByte 0 :: hexByte (c.toNat / 16) ::
      [hexByte (c.toNat % 16)], ?_, ?_⟩
    · have high := encode_digitChar (c.toNat / 16) (by omega)
      have low := encode_digitChar (c.toNat % 16) (by omega)
      simp only [utf8Chars_cons, utf8Chars_nil, high, low]
      rfl
    · intro rest
      obtain ⟨shorter, read⟩ := readUnicode_control small rest
      rw [Char.ofNat_toNat] at read
      have mark : letter 'u'.toUInt8 = 'u' := by decide
      refine ⟨by simp; omega, ?_⟩
      simp [readEscape, mark, read, Parsed.widen]

theorem readStringOnto_escapeChar {bound : Nat} (c : Char) (before rest : Bytes)
    (less : (utf8Chars (escapeChar c) ++ rest).length < bound) :
    ∃ less', readStringOnto bound before (utf8Chars (escapeChar c) ++ rest) less =
      readStringOnto bound ((String.utf8EncodeChar c).reverse ++ before) rest less' := by
  by_cases special : c = '"' ∨ c = '\\' ∨ c.toNat < 0x20
  · obtain ⟨body, text, read⟩ := readEscape_escapeChar special
    obtain ⟨less', same⟩ := readStringOnto_escape before (read rest)
      (by rw [text] at less; exact less)
    refine ⟨less', ?_⟩
    rw [← same]
    congr 1
    rw [text]
    rfl
  · rw [not_or, not_or] at special
    obtain ⟨quote, backslash, shown⟩ := special
    have itself : escapeChar c = [c] := by
      unfold escapeChar
      split
      · exact absurd rfl quote
      · exact absurd rfl backslash
      · exact absurd (by decide) shown
      · exact absurd (by decide) shown
      · exact absurd (by decide) shown
      · exact absurd (by decide) shown
      · exact absurd (by decide) shown
      · exact if_neg shown
    have plain := isPlain_encode quote backslash (Nat.le_of_not_lt shown)
    have text : utf8Chars (escapeChar c) = String.utf8EncodeChar c := by simp [itself]
    obtain ⟨less', same⟩ := readStringOnto_run plain before rest (by rw [text] at less; exact less)
    refine ⟨less', ?_⟩
    rw [← same]
    congr 1
    rw [text]

theorem readStringOnto_text {bound : Nat} (cs pre : List Char) (rest : Bytes)
    (less : (utf8Chars (cs.flatMap escapeChar) ++ '"'.toUInt8 :: rest).length < bound) :
    Reads (readStringOnto bound (utf8Chars pre).reverse
      (utf8Chars (cs.flatMap escapeChar) ++ '"'.toUInt8 :: rest) less)
      (String.ofList (pre ++ cs)) rest := by
  induction cs generalizing pre with
  | nil =>
    apply readStringOnto_quote
    rw [List.reverse_reverse, textOf, decodeRun_utf8Chars, List.append_nil]
  | cons c later ih =>
    have text : utf8Chars ((c :: later).flatMap escapeChar) ++ '"'.toUInt8 :: rest =
        utf8Chars (escapeChar c) ++
          (utf8Chars (later.flatMap escapeChar) ++ '"'.toUInt8 :: rest) := by simp
    have known : (String.utf8EncodeChar c).reverse ++ (utf8Chars pre).reverse =
        (utf8Chars (pre ++ [c])).reverse := by simp
    obtain ⟨less', same⟩ := readStringOnto_escapeChar c (utf8Chars pre).reverse
      (utf8Chars (later.flatMap escapeChar) ++ '"'.toUInt8 :: rest) (by rw [← text]; exact less)
    obtain ⟨shorter, read⟩ := ih (pre ++ [c]) (by simp at less' ⊢; omega)
    refine ⟨shorter, ?_⟩
    simp only [text, same, known, read]
    simp

theorem readString_stringText (s : String) (rest : Bytes) :
    Reads (readString (utf8Chars (s.toList.flatMap escapeChar) ++ '"'.toUInt8 :: rest)) s rest := by
  have read := readStringOnto_text s.toList [] rest (Nat.lt_succ_self _)
  rwa [List.nil_append, String.ofList_toList] at read

end PagePress.Json
