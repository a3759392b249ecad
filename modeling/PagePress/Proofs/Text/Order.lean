import PagePress.Proofs.Text.Utf8

namespace PagePress.Text

-- The first byte that differs is greater for the greater character; what follows does not count.
theorem encode_lt {c d : Char} (less : c < d) (s t : Bytes) :
    String.utf8EncodeChar c ++ s < String.utf8EncodeChar d ++ t := by
  have values : c.val.toNat < d.val.toNat := UInt32.lt_iff_toNat_lt.mp (Char.lt_def.mp less)
  have small : d.val.toNat < 0x110000 := toNat_lt_scalars d
  unfold String.utf8EncodeChar
  dsimp only
  generalize c.val.toNat = m at values
  generalize d.val.toNat = n at values small
  -- One division after the other, so that the digits of the two are compared place by place.
  have thrice (k : Nat) : k / 262144 = k / 64 / 64 / 64 := by
    rw [Nat.div_div_eq_div_mul, Nat.div_div_eq_div_mul]
  have twice (k : Nat) : k / 4096 = k / 64 / 64 := by rw [Nat.div_div_eq_div_mul]
  simp only [thrice, twice]
  split_ifs <;>
    simp only [List.cons_append, List.cons_lt_cons_iff, UInt8.lt_iff_toNat_lt, ← UInt8.toNat_inj,
      UInt8.toNat_ofNat'] <;>
    simp (disch := omega) only [Nat.mod_eq_of_lt] <;>
    omega

theorem utf8Chars_lt {cs ds : List Char} (less : cs < ds) : utf8Chars cs < utf8Chars ds := by
  induction cs generalizing ds with
  | nil =>
    cases ds with
    | nil => exact absurd less (List.lt_irrefl [])
    | cons d ds =>
      rw [utf8Chars_nil, utf8Chars_cons]
      cases spelled : String.utf8EncodeChar d with
      | nil => exact absurd spelled (String.utf8EncodeChar_ne_nil)
      | cons b rest => exact List.nil_lt_cons b _
  | cons c cs ih =>
    cases ds with
    | nil => exact absurd less (List.not_lt_nil _)
    | cons d ds =>
      rw [utf8Chars_cons, utf8Chars_cons]
      rcases List.cons_lt_cons_iff.mp less with first | ⟨rfl, later⟩
      · exact encode_lt first _ _
      · exact List.append_left_lt (ih later)

theorem utf8_lt {s t : String} (less : s < t) : utf8 s < utf8 t := utf8Chars_lt less

end PagePress.Text
