import PagePress.Proofs.Json.Reordering

namespace PagePress

namespace Binary64
open Numeral

theorem unitOf_magnitude (x : Binary64) : UnitOf x.magnitude x.exponent := by
  have unit := two_zpow_pos x.exponent
  rw [magnitude, numerator_div_denominator]
  refine ⟨x.inRange.2.1, ?_, ?_⟩
  · rw [add_comm, two_zpow_add]
    exact mul_lt_mul_of_pos_right (by exact_mod_cast x.inRange.1) unit
  · refine x.normal.symm.imp id fun large => ?_
    rw [add_comm, two_zpow_add]
    exact mul_le_mul_of_nonneg_right (by exact_mod_cast large) unit.le

theorem eq_of_magnitude {x y : Binary64} (sign : x.negative = y.negative)
    (same : x.magnitude = y.magnitude) : x = y := by
  have unit : x.exponent = y.exponent :=
    x.unitOf_magnitude.unique (same ▸ y.unitOf_magnitude)
  rw [magnitude, magnitude, numerator_div_denominator, numerator_div_denominator, unit] at same
  have mantissa : x.mantissa = y.mantissa := by
    exact_mod_cast mul_right_cancel₀ (two_zpow_pos y.exponent).ne' same
  obtain ⟨_, _, _, _, _⟩ := x
  obtain ⟨_, _, _, _, _⟩ := y
  cases sign
  cases unit
  cases mantissa
  rfl

theorem eq_of_compare {x y : Binary64} (sign : x.negative = y.negative)
    (same : x.compare y = .eq) : x = y := by
  rw [compare_value, compare_eq_iff_eq] at same
  refine eq_of_magnitude sign ?_
  rw [magnitude, magnitude, numerator_div_denominator, numerator_div_denominator]
  rw [value, value, Binary64.sign, Binary64.sign, sign] at same
  cases negative : y.negative <;> simpa [negative] using same

end Binary64

theorem Number.reread_of_same {n : Number} (same : n.reread.same n = true) : n.reread = n := by
  cases n with
  | int value fits => exact Json.reread_int value fits
  | float x =>
    obtain ⟨y, sign, read⟩ := Json.reread_float x
    rw [read, Number.same, beq_iff_eq] at same
    rw [read, Binary64.eq_of_compare sign same]

namespace Json

-- Equality that does not look at the order of members, of a value with the one it is read as:
-- their members are in the same order anyway.
mutual
theorem reread_of_same {v : Json} (distinct : v.Distinct) (same : v.reread.same v = true) :
    v.reread = v := by
  match v with
  | .null | .bool _ | .str _ => rfl
  | .num n =>
    rw [reread, Json.same] at same
    rw [reread, Number.reread_of_same same]
  | .arr items =>
    rw [Distinct] at distinct
    rw [reread, Json.same] at same
    rw [reread, rereadItems_of_same distinct same]
  | .obj fields =>
    rw [Distinct] at distinct
    rw [reread, Json.same, Bool.and_eq_true] at same
    rw [reread, rereadFields_of_same distinct.1 (fun _ => id) distinct.2 same.2]

theorem rereadItems_of_same {items : List Json} (distinct : DistinctItems items)
    (same : sameItems (rereadItems items) items = true) : rereadItems items = items := by
  match items with
  | [] => rfl
  | item :: rest =>
    rw [DistinctItems] at distinct
    rw [rereadItems, sameItems, Bool.and_eq_true] at same
    rw [rereadItems, reread_of_same distinct.1 same.1, rereadItems_of_same distinct.2 same.2]

theorem rereadFields_of_same {fields whole : Fields} (apart : (Fields.keys whole).Nodup)
    (inside : ∀ field ∈ fields, field ∈ whole) (distinct : DistinctFields fields)
    (same : sameFields (rereadFields fields) whole = true) : rereadFields fields = fields := by
  match fields with
  | [] => rfl
  | (key, value) :: rest =>
    obtain ⟨first, later⟩ := List.forall_mem_cons.mp inside
    rw [DistinctFields] at distinct
    rw [rereadFields, sameFields, Fields.get?_of_mem apart first, Bool.and_eq_true] at same
    rw [rereadFields, reread_of_same distinct.1 same.1,
      rereadFields_of_same apart later distinct.2 same.2]
end

-- 93.06838399097097, which is read as the number below it: 9306838399097097 has a float of its own,
-- and its quotient by the one of 10 ^ 14 lies nearer to that neighbour.
def slipping : Number := .float ⟨false, 6549105304089236, -46, by decide, by decide⟩

theorem reread_slipping :
    slipping.reread = .float ⟨false, 6549105304089235, -46, by decide, by decide⟩ := by
  decide +kernel

end Json
end PagePress
