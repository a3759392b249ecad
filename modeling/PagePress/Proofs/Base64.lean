import PagePress.Base64
import PagePress.Proofs.Chain
import PagePress.Proofs.Text.Utf8

namespace PagePress.Base64
open Text Chain

def symbolByte (n : Nat) : UInt8 := UInt8.ofNat (symbol n).toNat

theorem encode_symbol : ∀ n < 64, String.utf8EncodeChar (symbol n) = [symbolByte n] := by
  decide +kernel

theorem value?_symbolByte : ∀ n < 64, value? (symbolByte n) = some n := by decide +kernel

theorem isPad_symbolByte : ∀ n < 64, isPad (symbolByte n) = false := by decide +kernel

theorem symbolValue_symbolByte {n : Nat} (small : n < 64) (offset : Nat) :
    symbolValue (symbolByte n) offset = .ok n := by
  simp [symbolValue, value?_symbolByte n small]

theorem ofNat_eq_of_mod {n : Nat} {b : UInt8} (low : n % 256 = b.toNat) : UInt8.ofNat n = b := by
  apply UInt8.toNat_inj.mp
  simpa using low

theorem encodeOnto_eq (before : List Char) (s : Bytes) :
    encodeOnto before s = before.reverse ++ encodeOnto [] s := by
  match s with
  | [] => simp [encodeOnto]
  | [a] => simp [encodeOnto]
  | [a, b] => simp [encodeOnto]
  | a :: b :: c :: rest =>
    rw [encodeOnto, encodeOnto, encodeOnto_eq _ rest, encodeOnto_eq ([_, _, _, _] ++ []) rest]
    simp

theorem encodeOnto_group (a b c : UInt8) (rest : Bytes) :
    ∃ w < 64, ∃ x < 64, ∃ y < 64, ∃ z < 64,
      ((w * 64 + x) * 64 + y) * 64 + z = (a.toNat * 256 + b.toNat) * 256 + c.toNat ∧
      utf8Chars (encodeOnto [] (a :: b :: c :: rest)) =
        symbolByte w :: symbolByte x :: symbolByte y :: symbolByte z ::
          utf8Chars (encodeOnto [] rest) := by
  have := a.toNat_lt
  have := b.toNat_lt
  have := c.toNat_lt
  let n := (a.toNat * 2 ^ 8 + b.toNat) * 2 ^ 8 + c.toNat
  have small : n < 64 ^ 4 := by simp only [n]; omega
  refine ⟨n / 64 ^ 3, by omega, n / 64 ^ 2 % 64, by omega, n / 64 % 64, by omega, n % 64, by omega,
    by simp only [n]; omega, ?_⟩
  rw [encodeOnto, encodeOnto_eq]
  simp only [List.append_nil, List.reverse_cons, List.reverse_nil, List.nil_append,
    List.cons_append, utf8Chars_cons]
  rw [encode_symbol _ (by omega), encode_symbol _ (by omega), encode_symbol _ (by omega),
    encode_symbol _ (by omega)]
  rfl

def padByte : UInt8 := '='.toUInt8

theorem isPad_padByte : isPad padByte = true := by decide

theorem encode_pad : String.utf8EncodeChar '=' = [padByte] := by decide

theorem lastBytes_two {w x : Nat} (hw : w < 64) (hx : x < 64) (clear : x % 16 = 0) (start : Nat) :
    lastBytes start [symbolByte w, symbolByte x, padByte, padByte] =
      .ok [UInt8.ofNat ((w * 64 + x) / 16)] := by
  simp [lastBytes, lastSymbols, isPad_symbolByte _ hw, isPad_symbolByte _ hx, isPad_padByte,
    symbolValue_symbolByte hw, symbolValue_symbolByte hx]
  omega

theorem lastBytes_three {w x y : Nat} (hw : w < 64) (hx : x < 64) (hy : y < 64)
    (clear : y % 4 = 0) (start : Nat) :
    lastBytes start [symbolByte w, symbolByte x, symbolByte y, padByte] =
      .ok [UInt8.ofNat (((w * 64 + x) * 64 + y) / 4 / 256),
        UInt8.ofNat (((w * 64 + x) * 64 + y) / 4)] := by
  simp [lastBytes, lastSymbols, isPad_symbolByte _ hw, isPad_symbolByte _ hx, isPad_symbolByte _ hy,
    isPad_padByte, symbolValue_symbolByte hw, symbolValue_symbolByte hx, symbolValue_symbolByte hy,
    List.range_succ]
  omega

theorem lastBytes_four {w x y z : Nat} (hw : w < 64) (hx : x < 64) (hy : y < 64) (hz : z < 64)
    (start : Nat) :
    lastBytes start [symbolByte w, symbolByte x, symbolByte y, symbolByte z] =
      .ok [UInt8.ofNat ((((w * 64 + x) * 64 + y) * 64 + z) / 256 ^ 2),
        UInt8.ofNat ((((w * 64 + x) * 64 + y) * 64 + z) / 256),
        UInt8.ofNat (((w * 64 + x) * 64 + y) * 64 + z)] := by
  simp [lastBytes, lastSymbols, isPad_symbolByte _ hw, isPad_symbolByte _ hx, isPad_symbolByte _ hy,
    isPad_symbolByte _ hz, symbolValue_symbolByte hw, symbolValue_symbolByte hx,
    symbolValue_symbolByte hy, symbolValue_symbolByte hz, List.range_succ, Nat.mod_one]

theorem bytes_of_group {a b c : UInt8} {n : Nat}
    (spelled : n = (a.toNat * 256 + b.toNat) * 256 + c.toNat) :
    UInt8.ofNat (n / 256 ^ 2) = a ∧ UInt8.ofNat (n / 256) = b ∧ UInt8.ofNat n = c := by
  have := a.toNat_lt
  have := b.toNat_lt
  have := c.toNat_lt
  exact ⟨ofNat_eq_of_mod (by omega), ofNat_eq_of_mod (by omega), ofNat_eq_of_mod (by omega)⟩

theorem utf8_encodeOnto_one (a : UInt8) :
    utf8Chars (encodeOnto [] [a]) =
      [symbolByte (a.toNat * 2 ^ 4 / 64), symbolByte (a.toNat * 2 ^ 4 % 64), padByte, padByte] := by
  have := a.toNat_lt
  simp only [encodeOnto, List.append_nil, List.reverse_cons, List.reverse_nil, List.nil_append,
    List.cons_append, utf8Chars_cons, utf8Chars_nil, encode_pad]
  rw [encode_symbol _ (by omega), encode_symbol _ (by omega)]
  rfl

theorem utf8_encodeOnto_two (a b : UInt8) :
    utf8Chars (encodeOnto [] [a, b]) =
      [symbolByte ((a.toNat * 2 ^ 8 + b.toNat) * 2 ^ 2 / 64 ^ 2),
        symbolByte ((a.toNat * 2 ^ 8 + b.toNat) * 2 ^ 2 / 64 % 64),
        symbolByte ((a.toNat * 2 ^ 8 + b.toNat) * 2 ^ 2 % 64), padByte] := by
  have := a.toNat_lt
  have := b.toNat_lt
  simp only [encodeOnto, List.append_nil, List.reverse_cons, List.reverse_nil, List.nil_append,
    List.cons_append, utf8Chars_cons, utf8Chars_nil, encode_pad]
  rw [encode_symbol _ (by omega), encode_symbol _ (by omega), encode_symbol _ (by omega)]
  rfl

theorem utf8_encodeOnto_cons (a : UInt8) (rest : Bytes) :
    ∃ b t, utf8Chars (encodeOnto [] (a :: rest)) = b :: t := by
  match rest with
  | [] => exact ⟨_, _, utf8_encodeOnto_one a⟩
  | [b] => exact ⟨_, _, utf8_encodeOnto_two a b⟩
  | b :: c :: rest =>
    obtain ⟨w, _, x, _, y, _, z, _, _, text⟩ := encodeOnto_group a b c rest
    exact ⟨_, _, text⟩

-- Every group but the last is four symbols with something behind them.
theorem decodeOnto_encodeOnto (before : Bytes) (offset : Nat) (a : UInt8) (rest : Bytes) :
    decodeOnto before offset (utf8Chars (encodeOnto [] (a :: rest))) =
      .ok (before.reverse ++ a :: rest) := by
  have := a.toNat_lt
  match rest with
  | [] =>
    rw [utf8_encodeOnto_one]
    simp only [decodeOnto]
    rw [lastBytes_two (by omega) (by omega) (by omega), ok_bind, ofNat_eq_of_mod (b := a)]
    omega
  | [b] =>
    have := b.toNat_lt
    rw [utf8_encodeOnto_two]
    simp only [decodeOnto]
    rw [lastBytes_three (by omega) (by omega) (by omega) (by omega), ok_bind,
      ofNat_eq_of_mod (b := a), ofNat_eq_of_mod (b := b)] <;> omega
  | [b, c] =>
    obtain ⟨w, hw, x, hx, y, hy, z, hz, spelled, text⟩ := encodeOnto_group a b c []
    obtain ⟨first, second, third⟩ := bytes_of_group spelled
    rw [text]
    simp only [encodeOnto, List.reverse_nil, utf8Chars_nil, decodeOnto]
    rw [lastBytes_four hw hx hy hz, ok_bind, first, second, third]
  | b :: c :: d :: rest =>
    obtain ⟨w, hw, x, hx, y, hy, z, hz, spelled, text⟩ := encodeOnto_group a b c (d :: rest)
    obtain ⟨first, second, third⟩ := bytes_of_group spelled
    obtain ⟨e, t, later⟩ := utf8_encodeOnto_cons d rest
    rw [text, later]
    simp only [decodeOnto, symbolValue_symbolByte, hw, hx, hy, hz, ok_bind]
    rw [first, second, third, ← later, decodeOnto_encodeOnto _ _ d rest]
    simp

theorem length_encodeOnto (s : Bytes) : (utf8Chars (encodeOnto [] s)).length % 4 = 0 := by
  match s with
  | [] => rfl
  | [a] => simp [utf8_encodeOnto_one]
  | [a, b] => simp [utf8_encodeOnto_two]
  | a :: b :: c :: rest =>
    obtain ⟨w, _, x, _, y, _, z, _, _, text⟩ := encodeOnto_group a b c rest
    have := length_encodeOnto rest
    rw [text]
    simp only [List.length_cons]
    omega

theorem decode_encode (s : Bytes) : decode (utf8 (encode s)) = .ok s := by
  rw [utf8, encode, String.toList_ofList]
  match s with
  | [] => rfl
  | a :: rest =>
    have whole := length_encodeOnto (a :: rest)
    unfold decode
    split
    · rw [if_neg (by omega), decodeOnto_encodeOnto]
      rfl
    · rename_i last
      obtain ⟨b, t, text⟩ := utf8_encodeOnto_cons a rest
      rw [text] at last
      cases List.getLast?_eq_none_iff.mp last

end PagePress.Base64
