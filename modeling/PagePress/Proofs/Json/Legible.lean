import PagePress.Proofs.Json.Numbers

namespace PagePress

namespace Fields

theorem mem_insert {fields : Fields} {key : String} {value : Json} {field : String × Json}
    (member : field ∈ insert fields key value) : field = (key, value) ∨ field ∈ fields := by
  induction fields with
  | nil => exact .inl (List.mem_singleton.mp member)
  | cons first rest ih =>
    rw [insert] at member
    split at member
    · rename_i same
      rcases List.mem_cons.mp member with here | later
      · exact .inl (here.trans (by rw [same]))
      · exact .inr (List.mem_cons_of_mem _ later)
    · rcases List.mem_cons.mp member with here | later
      · exact .inr (List.mem_cons.mpr (.inl here))
      · rcases ih later with new | old
        · exact .inl new
        · exact .inr (List.mem_cons_of_mem _ old)

theorem mem_keys_insert {fields : Fields} {key other : String} {value : Json}
    (member : other ∈ keys (insert fields key value)) : other = key ∨ other ∈ keys fields := by
  obtain ⟨field, held, rfl⟩ := List.mem_map.mp member
  rcases mem_insert held with rfl | old
  · exact .inl rfl
  · exact .inr (List.mem_map_of_mem old)

theorem nodup_insert {fields : Fields} (distinct : (keys fields).Nodup) (key : String)
    (value : Json) : (keys (insert fields key value)).Nodup := by
  induction fields with
  | nil => exact List.nodup_singleton key
  | cons first rest ih =>
    obtain ⟨apart, later⟩ := List.nodup_cons.mp distinct
    rw [insert]
    split
    · exact distinct
    · rename_i other
      refine List.nodup_cons.mpr ⟨fun again => ?_, ih later⟩
      rcases mem_keys_insert again with same | old
      · exact other same
      · exact apart old

end Fields

namespace Json
open Text Chain

mutual
def nesting : Json → Nat
  | .null | .bool _ | .num _ | .str _ => 0
  | .arr items => nestingItems items + 1
  | .obj fields => nestingFields fields + 1

def nestingItems : List Json → Nat
  | [] => 0
  | item :: rest => max (nesting item) (nestingItems rest)

def nestingFields : List (String × Json) → Nat
  | [] => 0
  | (_, value) :: rest => max (nesting value) (nestingFields rest)
end

mutual
def Distinct : Json → Prop
  | .null | .bool _ | .num _ | .str _ => True
  | .arr items => DistinctItems items
  | .obj fields => (Fields.keys fields).Nodup ∧ DistinctFields fields

def DistinctItems : List Json → Prop
  | [] => True
  | item :: rest => Distinct item ∧ DistinctItems rest

def DistinctFields : List (String × Json) → Prop
  | [] => True
  | (_, value) :: rest => Distinct value ∧ DistinctFields rest
end

mutual
instance decidableDistinct : (v : Json) → Decidable v.Distinct
  | .null | .bool _ | .num _ | .str _ => .isTrue trivial
  | .arr items => decidableDistinctItems items
  | .obj fields => @instDecidableAnd _ _ inferInstance (decidableDistinctFields fields)

instance decidableDistinctItems : (items : List Json) → Decidable (DistinctItems items)
  | [] => .isTrue trivial
  | item :: rest => @instDecidableAnd _ _ (decidableDistinct item) (decidableDistinctItems rest)

instance decidableDistinctFields :
    (fields : List (String × Json)) → Decidable (DistinctFields fields)
  | [] => .isTrue trivial
  | (_, value) :: rest =>
    @instDecidableAnd _ _ (decidableDistinct value) (decidableDistinctFields rest)
end

mutual
theorem legible_iff (v : Json) (depth : Nat) :
    Legible depth v ↔ v.nesting ≤ depth ∧ v.Distinct := by
  match v, depth with
  | .null, _ | .bool _, _ | .str _, _ => simp [Legible, nesting, Distinct]
  | .num n, _ => simp [Legible, nesting, Distinct, legible_number n]
  | .arr _, 0 | .obj _, 0 => simp [Legible, nesting]
  | .arr items, depth + 1 =>
    rw [Legible, nesting, Distinct, legibleItems_iff items depth, Nat.add_le_add_iff_right]
  | .obj fields, depth + 1 =>
    rw [Legible, nesting, Distinct, legibleFields_iff fields depth, Nat.add_le_add_iff_right]
    exact and_left_comm

theorem legibleItems_iff (items : List Json) (depth : Nat) :
    LegibleItems depth items ↔ nestingItems items ≤ depth ∧ DistinctItems items := by
  match items with
  | [] => simp [LegibleItems, nestingItems, DistinctItems]
  | item :: rest =>
    rw [LegibleItems, nestingItems, DistinctItems, legible_iff item depth,
      legibleItems_iff rest depth, Nat.max_le]
    exact and_and_and_comm

theorem legibleFields_iff (fields : List (String × Json)) (depth : Nat) :
    LegibleFields depth fields ↔ nestingFields fields ≤ depth ∧ DistinctFields fields := by
  match fields with
  | [] => simp [LegibleFields, nestingFields, DistinctFields]
  | (_, value) :: rest =>
    rw [LegibleFields, nestingFields, DistinctFields, legible_iff value depth,
      legibleFields_iff rest depth, Nat.max_le]
    exact and_and_and_comm
end

theorem legibleItems_forall {depth : Nat} {items : List Json} :
    LegibleItems depth items ↔ ∀ item ∈ items, Legible depth item := by
  induction items with
  | nil => simp [LegibleItems]
  | cons item rest ih => rw [LegibleItems, ih, List.forall_mem_cons]

theorem legibleFields_forall {depth : Nat} {fields : Fields} :
    LegibleFields depth fields ↔ ∀ field ∈ fields, Legible depth field.2 := by
  induction fields with
  | nil => simp [LegibleFields]
  | cons field rest ih => rw [LegibleFields, ih, List.forall_mem_cons]

theorem distinctItems_forall {items : List Json} :
    DistinctItems items ↔ ∀ item ∈ items, item.Distinct := by
  induction items with
  | nil => simp [DistinctItems]
  | cons item rest ih => rw [DistinctItems, ih, List.forall_mem_cons]

theorem distinctFields_forall {fields : Fields} :
    DistinctFields fields ↔ ∀ field ∈ fields, field.2.Distinct := by
  induction fields with
  | nil => simp [DistinctFields]
  | cons field rest ih => rw [DistinctFields, ih, List.forall_mem_cons]

theorem readValue_cases {depth : Nat} {s : Bytes} {p : Parsed Json s.length}
    (read : readValue depth s = .ok p) :
    (∀ bound, Legible bound p.value) ∨
    (∃ inner r, ∃ less : r.length < s.length, ∃ q, depth = inner + 1 ∧
      readItems inner s.length true [] r less = .ok q ∧ p.value = .arr q.value) ∨
    (∃ inner r, ∃ less : r.length < s.length, ∃ q, depth = inner + 1 ∧
      readFields inner s.length true [] r less = .ok q ∧ p.value = .obj q.value) := by
  rw [readValue] at read
  split at read
  · cases read
  · dsimp only at read
    split at read
    · obtain ⟨word, -, same⟩ := bind_eq_ok.mp read
      cases same
      exact .inl fun bound => by simp [Legible]
    · obtain ⟨word, -, same⟩ := bind_eq_ok.mp read
      cases same
      exact .inl fun bound => by simp [Legible]
    · obtain ⟨word, -, same⟩ := bind_eq_ok.mp read
      cases same
      exact .inl fun bound => by simp [Legible]
    · obtain ⟨text, -, same⟩ := bind_eq_ok.mp read
      cases same
      exact .inl fun bound => by simp [Legible]
    · split at read
      · cases read
      · obtain ⟨items, inside, same⟩ := bind_eq_ok.mp read
        cases same
        exact .inr (.inl ⟨_, _, _, items, rfl, inside, rfl⟩)
    · split at read
      · cases read
      · obtain ⟨fields, inside, same⟩ := bind_eq_ok.mp read
        cases same
        exact .inr (.inr ⟨_, _, _, fields, rfl, inside, rfl⟩)
    · split at read
      · obtain ⟨number, -, same⟩ := bind_eq_ok.mp read
        cases same
        exact .inl fun bound => by simp [Legible, legible_number]
      · cases read

theorem readItems_cases {depth bound : Nat} {first : Bool} {before : List Json} {s : Bytes}
    {less : s.length < bound} {p : Parsed (List Json) bound}
    (read : readItems depth bound first before s less = .ok p) :
    p.value = before.reverse ∨
    ∃ r, ∃ _ : r.length ≤ s.length, ∃ item : Parsed Json r.length,
      ∃ less' : item.rest.length < bound, readValue depth r = .ok item ∧
        readItems depth bound false (item.value :: before) item.rest less' = .ok p := by
  rw [readItems] at read
  obtain ⟨next, -, rest⟩ := bind_eq_ok.mp read
  cases next with
  | done r within =>
    cases rest
    exact .inl rfl
  | item r within =>
    obtain ⟨item, value, later⟩ := bind_eq_ok.mp rest
    exact .inr ⟨r, Nat.le_of_lt_succ within, item, _, value, later⟩

theorem readFields_cases {depth bound : Nat} {first : Bool} {before : Fields} {s : Bytes}
    {less : s.length < bound} {p : Parsed Fields bound}
    (read : readFields depth bound first before s less = .ok p) :
    p.value = before ∨
    ∃ r, ∃ _ : r.length < s.length, ∃ key, ∃ field : Parsed Json r.length,
      ∃ less' : field.rest.length < bound, readValue depth r = .ok field ∧
        readFields depth bound false (before.insert key field.value) field.rest less' = .ok p := by
  rw [readFields] at read
  obtain ⟨next, -, rest⟩ := bind_eq_ok.mp read
  cases next with
  | done r within =>
    cases rest
    exact .inl rfl
  | item r within =>
    obtain ⟨key, -, rest⟩ := bind_eq_ok.mp rest
    obtain ⟨colon, -, rest⟩ := bind_eq_ok.mp rest
    obtain ⟨field, value, later⟩ := bind_eq_ok.mp rest
    have shorter := key.shorter
    have shortest := colon.shorter
    exact .inr ⟨colon.rest, by omega, key.value, field, _, value, later⟩

-- The reader puts members in one by one; a repeated key takes the place of the one before.
mutual
theorem readValue_legible (depth : Nat) (s : Bytes) (p : Parsed Json s.length)
    (read : readValue depth s = .ok p) : Legible depth p.value := by
  rcases readValue_cases read with scalar | ⟨inner, r, less, q, rfl, inside, same⟩ |
    ⟨inner, r, less, q, rfl, inside, same⟩
  · exact scalar depth
  · rw [same, Legible]
    exact readItems_legible inner s.length true [] r less q trivial inside
  · rw [same, Legible]
    exact readFields_legible inner s.length true [] r less q List.nodup_nil trivial inside
termination_by (s.length, 0)

theorem readItems_legible (depth bound : Nat) (first : Bool) (before : List Json) (s : Bytes)
    (less : s.length < bound) (p : Parsed (List Json) bound)
    (held : LegibleItems depth before)
    (read : readItems depth bound first before s less = .ok p) : LegibleItems depth p.value := by
  rcases readItems_cases read with done | ⟨r, le, item, less', value, later⟩
  · rw [done, legibleItems_forall]
    intro item member
    exact legibleItems_forall.mp held item (List.mem_reverse.mp member)
  · have legible := readValue_legible depth r item value
    exact readItems_legible depth bound false (item.value :: before) item.rest less' p
      ⟨legible, held⟩ later
termination_by (s.length, 1)
decreasing_by
  · omega
  · have := item.shorter; omega

theorem readFields_legible (depth bound : Nat) (first : Bool) (before : Fields) (s : Bytes)
    (less : s.length < bound) (p : Parsed Fields bound) (distinct : (Fields.keys before).Nodup)
    (held : LegibleFields depth before)
    (read : readFields depth bound first before s less = .ok p) :
    (Fields.keys p.value).Nodup ∧ LegibleFields depth p.value := by
  rcases readFields_cases read with done | ⟨r, le, key, field, less', value, later⟩
  · rw [done]
    exact ⟨distinct, held⟩
  · have legible := readValue_legible depth r field value
    have inserted : LegibleFields depth (before.insert key field.value) := by
      rw [legibleFields_forall] at held ⊢
      intro member present
      rcases Fields.mem_insert present with rfl | old
      · exact legible
      · exact held member old
    exact readFields_legible depth bound false _ field.rest less' p
      (Fields.nodup_insert distinct key field.value) inserted later
termination_by (s.length, 1)
decreasing_by
  · omega
  · have := field.shorter; omega
end

theorem read_legible {source : Bytes} {v : Json} (read : Json.read source = .ok v) :
    Legible maxDepth v := by
  obtain ⟨p, first, rest⟩ := bind_eq_ok.mp read
  obtain ⟨-, -, same⟩ := bind_eq_ok.mp rest
  cases same
  exact readValue_legible maxDepth source p first

end Json
end PagePress
