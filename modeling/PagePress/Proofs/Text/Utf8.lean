import Mathlib
import PagePress.Text.Utf8

namespace PagePress.Text

theorem letter_ofNat {c : Char} (ascii : c.toNat < 0x80) : letter (UInt8.ofNat c.toNat) = c := by
  rw [letter, UInt8.toNat_ofNat_of_lt' (show _ < 256 by omega), Char.ofNat_toNat]

theorem scalar?_toNat {least n : Nat} {c : Char} (spelled : n = c.toNat) (le : least ≤ n) :
    scalar? least n = some c := by
  subst spelled
  have valid : c.toNat.isValidChar := c.valid
  simp [scalar?, le, valid]

theorem continuation?_ofNat {n : Nat} (bits : n < 64) :
    continuation? (UInt8.ofNat (n + 0x80)) = some n := by
  have number : (UInt8.ofNat (n + 0x80)).toNat = n + 0x80 :=
    UInt8.toNat_ofNat_of_lt' (show _ < 256 by omega)
  have inside : 0x80 ≤ UInt8.ofNat (n + 0x80) ∧ UInt8.ofNat (n + 0x80) < 0xC0 := by
    simp only [UInt8.le_iff_toNat_le, UInt8.lt_iff_toNat_lt, number, UInt8.reduceToNat]
    omega
  rw [continuation?, if_pos inside, number, Nat.add_sub_cancel]

theorem toNat_lt_scalars (c : Char) : c.toNat < 0x110000 := by
  rcases c.valid with low | ⟨_, high⟩
  · exact Nat.lt_of_lt_of_le low (by decide)
  · exact high

-- Whatever follows it. One case for each number of bytes; the ranges of the first byte tell them
-- apart, and no case has a shorter form.
theorem decodeFirst?_encode (c : Char) (rest : Bytes) :
    decodeFirst? (String.utf8EncodeChar c ++ rest) = some (c, rest) := by
  have small := toNat_lt_scalars c
  have shown : c.val.toNat = c.toNat := rfl
  have six (n : Nat) : continuation? (UInt8.ofNat (n % 0x40 + 0x80)) = some (n % 0x40) :=
    continuation?_ofNat (by omega)
  unfold String.utf8EncodeChar decodeFirst?
  simp only [shown]
  by_cases one : c.toNat ≤ 0x7f
  · have lead : (UInt8.ofNat c.toNat).toNat = c.toNat :=
      UInt8.toNat_ofNat_of_lt' (show _ < 256 by omega)
    rw [if_pos one]
    simp only [List.cons_append, List.nil_append, UInt8.lt_iff_toNat_lt, lead, UInt8.reduceToNat]
    rw [if_pos (by omega), letter_ofNat (by omega)]
  rw [if_neg one]
  by_cases two : c.toNat ≤ 0x7ff
  · have lead : (UInt8.ofNat (c.toNat / 64 % 0x20 + 0xc0)).toNat = c.toNat / 64 + 0xc0 := by
      rw [UInt8.toNat_ofNat_of_lt' (show _ < 256 by omega)]; omega
    rw [if_pos two]
    simp only [List.cons_append, List.nil_append, UInt8.lt_iff_toNat_lt, lead, UInt8.reduceToNat]
    rw [if_neg (by omega), if_neg (by omega), if_pos (by omega)]
    simp only [six, Option.bind_eq_bind, Option.bind_some]
    rw [scalar?_toNat (c := c) (by omega) (by omega), Option.bind_some]
  rw [if_neg two]
  by_cases three : c.toNat ≤ 0xffff
  · have lead : (UInt8.ofNat (c.toNat / 4096 % 0x10 + 0xe0)).toNat = c.toNat / 4096 + 0xe0 := by
      rw [UInt8.toNat_ofNat_of_lt' (show _ < 256 by omega)]; omega
    rw [if_pos three]
    simp only [List.cons_append, List.nil_append, UInt8.lt_iff_toNat_lt, lead, UInt8.reduceToNat]
    rw [if_neg (by omega), if_neg (by omega), if_neg (by omega), if_pos (by omega)]
    simp only [six, Option.bind_eq_bind, Option.bind_some]
    rw [scalar?_toNat (c := c) (by omega) (by omega), Option.bind_some]
  · have lead : (UInt8.ofNat (c.toNat / 262144 % 0x08 + 0xf0)).toNat = c.toNat / 262144 + 0xf0 := by
      rw [UInt8.toNat_ofNat_of_lt' (show _ < 256 by omega)]; omega
    rw [if_neg three]
    simp only [List.cons_append, List.nil_append, UInt8.lt_iff_toNat_lt, lead, UInt8.reduceToNat]
    rw [if_neg (by omega), if_neg (by omega), if_neg (by omega), if_neg (by omega),
      if_pos (by omega)]
    simp only [six, Option.bind_eq_bind, Option.bind_some]
    rw [scalar?_toNat (c := c) (by omega) (by omega), Option.bind_some]

@[simp] theorem utf8Chars_nil : utf8Chars [] = [] := rfl

@[simp] theorem utf8Chars_cons (c : Char) (cs : List Char) :
    utf8Chars (c :: cs) = String.utf8EncodeChar c ++ utf8Chars cs := rfl

@[simp] theorem utf8Chars_append (cs ds : List Char) :
    utf8Chars (cs ++ ds) = utf8Chars cs ++ utf8Chars ds := List.flatMap_append

theorem decodeOnto_utf8Chars (before cs : List Char) :
    decodeOnto before (utf8Chars cs) = (before.reverse ++ cs, []) := by
  induction cs generalizing before with
  | nil => simp [decodeOnto]
  | cons c rest ih =>
    have read := decodeFirst?_encode c (utf8Chars rest)
    rw [← utf8Chars_cons] at read
    unfold decodeOnto
    split
    · rename_i empty
      rw [empty] at read
      cases read
    · rename_i a t whole
      rw [whole] at read
      split
      · rename_i d r found
        cases read.symm.trans found
        rw [ih]
        simp
      · rename_i broken
        cases read.symm.trans broken

theorem decodeRun_utf8Chars (cs : List Char) : decodeRun (utf8Chars cs) = (cs, []) :=
  decodeOnto_utf8Chars [] cs

theorem le_of_mem_encode {c : Char} {b : UInt8} (wide : 0x80 ≤ c.toNat)
    (member : b ∈ String.utf8EncodeChar c) : 0x80 ≤ b.toNat := by
  have small := toNat_lt_scalars c
  have shown : c.val.toNat = c.toNat := rfl
  unfold String.utf8EncodeChar at member
  simp only [shown] at member
  rw [if_neg (by omega)] at member
  have number (n : Nat) (byte : n < 256) : (UInt8.ofNat n).toNat = n :=
    UInt8.toNat_ofNat_of_lt' byte
  split at member
  · simp only [List.mem_cons, List.not_mem_nil, or_false] at member
    rcases member with rfl | rfl <;> rw [number _ (by omega)] <;> omega
  · split at member <;> simp only [List.mem_cons, List.not_mem_nil, or_false] at member
    · rcases member with rfl | rfl | rfl <;> rw [number _ (by omega)] <;> omega
    · rcases member with rfl | rfl | rfl | rfl <;> rw [number _ (by omega)] <;> omega

theorem toNat_letter (b : UInt8) : (letter b).toNat = b.toNat := by
  have small : b.toNat < 256 := b.toNat_lt
  rw [letter, Char.toNat_ofNat, if_pos (.inl (by omega))]

theorem letter_inj {a b : UInt8} (same : letter a = letter b) : a = b := by
  have numbers := congrArg Char.toNat same
  rw [toNat_letter, toNat_letter] at numbers
  exact UInt8.toNat_inj.mp numbers

theorem ofNat_eq {b : UInt8} {n : Nat} (same : n = b.toNat) : UInt8.ofNat n = b := by
  rw [same, UInt8.ofNat_toNat]

theorem scalar?_eq {least n : Nat} {c : Char} (found : scalar? least n = some c) :
    least ≤ n ∧ c.toNat = n := by
  unfold scalar? at found
  split at found
  · rename_i valid
    cases found
    rw [Char.toNat_ofNat, if_pos valid.2]
    exact ⟨valid.1, rfl⟩
  · cases found

theorem continuation?_eq {b : UInt8} {n : Nat} (found : continuation? b = some n) :
    n < 64 ∧ n + 0x80 = b.toNat := by
  unfold continuation? at found
  split at found
  · rename_i inside
    simp only [UInt8.le_iff_toNat_le, UInt8.lt_iff_toNat_lt, UInt8.reduceToNat] at inside
    have number := Option.some.inj found
    omega
  · cases found

theorem decodeFirst?_sound {s r : Bytes} {c : Char} (found : decodeFirst? s = some (c, r)) :
    s = String.utf8EncodeChar c ++ r := by
  have shown : c.val.toNat = c.toNat := rfl
  unfold decodeFirst? at found
  unfold String.utf8EncodeChar
  simp only [shown]
  split at found
  · cases found
  · rename_i a s
    have small := a.toNat_lt
    simp only [UInt8.lt_iff_toNat_lt, UInt8.reduceToNat] at found
    split at found
    · obtain ⟨rfl, rfl⟩ := Prod.mk.inj (Option.some.inj found)
      rw [toNat_letter, if_pos (by omega), UInt8.ofNat_toNat]
      rfl
    · split at found
      · cases found
      · split at found
        · split at found
          · rename_i b s
            simp only [Option.bind_eq_bind, Option.bind_eq_some_iff, Option.some.injEq,
              Prod.mk.injEq] at found
            obtain ⟨x, first, d, scalar, rfl, rfl⟩ := found
            obtain ⟨least, number⟩ := scalar?_eq scalar
            obtain ⟨fits, mine⟩ := continuation?_eq first
            rw [if_neg (by omega), if_pos (by omega), ofNat_eq (b := a) (by omega),
              ofNat_eq (b := b) (by omega)]
            rfl
          · cases found
        · split at found
          · split at found
            · rename_i b e s
              simp only [Option.bind_eq_bind, Option.bind_eq_some_iff, Option.some.injEq,
                Prod.mk.injEq] at found
              obtain ⟨x, first, y, second, d, scalar, rfl, rfl⟩ := found
              obtain ⟨least, number⟩ := scalar?_eq scalar
              obtain ⟨fits, mine⟩ := continuation?_eq first
              obtain ⟨fits', mine'⟩ := continuation?_eq second
              rw [if_neg (by omega), if_neg (by omega), if_pos (by omega),
                ofNat_eq (b := a) (by omega), ofNat_eq (b := b) (by omega),
                ofNat_eq (b := e) (by omega)]
              rfl
            · cases found
          · split at found
            · split at found
              · rename_i b e f s
                simp only [Option.bind_eq_bind, Option.bind_eq_some_iff, Option.some.injEq,
                  Prod.mk.injEq] at found
                obtain ⟨x, first, y, second, z, third, d, scalar, rfl, rfl⟩ := found
                obtain ⟨least, number⟩ := scalar?_eq scalar
                obtain ⟨fits, mine⟩ := continuation?_eq first
                obtain ⟨fits', mine'⟩ := continuation?_eq second
                obtain ⟨fits'', mine''⟩ := continuation?_eq third
                have bound := toNat_lt_scalars d
                rw [if_neg (by omega), if_neg (by omega), if_neg (by omega),
                  ofNat_eq (b := a) (by omega), ofNat_eq (b := b) (by omega),
                  ofNat_eq (b := e) (by omega), ofNat_eq (b := f) (by omega)]
                rfl
              · cases found
            · cases found

theorem decodeFirst?_append {s r : Bytes} {c : Char} (found : decodeFirst? s = some (c, r))
    (t : Bytes) : decodeFirst? (s ++ t) = some (c, r ++ t) := by
  rw [decodeFirst?_sound found, List.append_assoc, decodeFirst?_encode]

theorem decodeFirst?_ascii {b : UInt8} {u r : Bytes} {c : Char}
    (seen : decodeFirst? (b :: u) = some (c, r)) (ascii : c.toNat < 0x80) :
    letter b = c ∧ r = u := by
  have whole := decodeFirst?_sound seen
  have shown : c.val.toNat = c.toNat := rfl
  rw [String.utf8EncodeChar, shown, if_pos (by omega), List.singleton_append] at whole
  obtain ⟨rfl, rfl⟩ := List.cons.inj whole
  exact ⟨letter_ofNat ascii, rfl⟩

theorem decodeFirst?_letter {b : UInt8} {r : Bytes} (ascii : (letter b).toNat < 0x80) :
    decodeFirst? (b :: r) = some (letter b, r) := by
  rw [toNat_letter] at ascii
  exact if_pos (UInt8.lt_iff_toNat_lt.mpr ascii)

theorem encode_letter {b : UInt8} (ascii : (letter b).toNat < 0x80) :
    String.utf8EncodeChar (letter b) = [b] := by
  have whole := decodeFirst?_sound (decodeFirst?_letter (r := []) ascii)
  rwa [List.append_nil, eq_comm] at whole

theorem decodeFirst?_utf8Chars (c : Char) (cs : List Char) (t : Bytes) :
    decodeFirst? (utf8Chars (c :: cs) ++ t) = some (c, utf8Chars cs ++ t) := by
  rw [utf8Chars_cons, List.append_assoc, decodeFirst?_encode]

theorem decodeFirst?_of_head {c : Char} {s : Bytes} (first : s.head?.map letter = some c)
    (ascii : c.toNat < 0x80) : decodeFirst? s ≠ none := by
  cases s with
  | nil => cases first
  | cons b r =>
    obtain rfl := Option.some.inj first
    rw [decodeFirst?_letter ascii]
    exact nofun

end PagePress.Text
