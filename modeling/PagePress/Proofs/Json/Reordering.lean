import PagePress.Proofs.Document.RoundTrip
import PagePress.Proofs.Json.Legible

namespace PagePress

namespace Fields

theorem eq_of_nodup {fields : Fields} (distinct : (keys fields).Nodup) {a b : String × Json}
    (left : a ∈ fields) (right : b ∈ fields) (same : a.1 = b.1) : a = b :=
  List.inj_on_of_nodup_map distinct left right same

theorem get?_of_mem {fields : Fields} (distinct : (keys fields).Nodup) {key : String} {value : Json}
    (member : (key, value) ∈ fields) : get? fields key = some value := by
  cases found : get? fields key with
  | none =>
    rw [get?, Option.map_eq_none_iff, List.find?_eq_none] at found
    exact absurd (beq_self_eq_true key) (found _ member)
  | some other => rw [Prod.mk.inj (eq_of_nodup distinct (mem_of_get? found) member rfl) |>.2]

end Fields

namespace Json

-- The same value but for the order of members, at any depth. Numbers agree in their form.
mutual
def Reordered : Json → Json → Prop
  | .arr as, .arr bs => ReorderedItems as bs
  | .obj fields, .obj others =>
    (Fields.keys fields).Perm (Fields.keys others) ∧ ReorderedFields fields others
  | a, b => a = b

def ReorderedItems : List Json → List Json → Prop
  | [], [] => True
  | a :: as, b :: bs => Reordered a b ∧ ReorderedItems as bs
  | _, _ => False

def ReorderedFields : List (String × Json) → Fields → Prop
  | [], _ => True
  | (key, a) :: rest, others =>
    (∃ b, (key, b) ∈ others ∧ Reordered a b) ∧ ReorderedFields rest others
end

theorem reorderedItems_iff {as bs : List Json} :
    ReorderedItems as bs ↔ List.Forall₂ Reordered as bs := by
  induction as generalizing bs with
  | nil => cases bs <;> simp [ReorderedItems]
  | cons a as ih => cases bs <;> simp [ReorderedItems, ih]

theorem reorderedFields_iff {fields others : Fields} :
    ReorderedFields fields others ↔
      ∀ field ∈ fields, ∃ b, (field.1, b) ∈ others ∧ Reordered field.2 b := by
  induction fields with
  | nil => simp [ReorderedFields]
  | cons field rest ih => rw [ReorderedFields, ih, List.forall_mem_cons]

mutual
theorem Reordered.refl (v : Json) : Reordered v v := by
  match v with
  | .null | .bool _ | .num _ | .str _ => simp [Reordered]
  | .arr items =>
    rw [Reordered]
    exact ReorderedItems.refl items
  | .obj fields =>
    rw [Reordered]
    exact ⟨.refl _, ReorderedFields.of_subset fields fields fun _ member => member⟩

theorem ReorderedItems.refl (items : List Json) : ReorderedItems items items := by
  match items with
  | [] => trivial
  | item :: rest => exact ⟨Reordered.refl item, ReorderedItems.refl rest⟩

theorem ReorderedFields.of_subset (fields : List (String × Json)) (others : Fields)
    (subset : ∀ field ∈ fields, field ∈ others) : ReorderedFields fields others := by
  match fields with
  | [] => trivial
  | (key, value) :: rest =>
    obtain ⟨first, later⟩ := List.forall_mem_cons.mp subset
    exact ⟨⟨value, first, Reordered.refl value⟩, ReorderedFields.of_subset rest others later⟩
end

theorem Reordered.of_perm {fields others : Fields} (perm : fields.Perm others) :
    Reordered (.obj fields) (.obj others) := by
  rw [Reordered]
  exact ⟨perm.map _, ReorderedFields.of_subset fields others fun _ member => perm.mem_iff.mp member⟩

theorem reordered_cases {v w : Json} (same : Reordered v w) :
    v = w ∧ v.nesting = 0 ∨ (∃ as bs, v = .arr as ∧ w = .arr bs ∧ ReorderedItems as bs) ∨
      ∃ fields others, v = .obj fields ∧ w = .obj others ∧
        (Fields.keys fields).Perm (Fields.keys others) ∧ ReorderedFields fields others := by
  rw [Reordered.eq_def] at same
  split at same
  · exact .inr (.inl ⟨_, _, rfl, rfl, same⟩)
  · exact .inr (.inr ⟨_, _, rfl, rfl, same⟩)
  · rename_i no_items no_fields
    subst same
    refine .inl ⟨rfl, ?_⟩
    cases v with
    | arr items => exact (no_items items items rfl rfl).elim
    | obj fields => exact (no_fields fields fields rfl rfl).elim
    | _ => rfl

-- Where no key is repeated, what is so of every member's like is so of every member.
theorem of_likes {fields others : Fields} (perm : (Fields.keys fields).Perm (Fields.keys others))
    (distinct : (Fields.keys fields).Nodup) {p : Json → Prop}
    (likes : ∀ field ∈ fields, ∃ b, (field.1, b) ∈ others ∧ p b) : ∀ other ∈ others, p other.2 := by
  intro other member
  have shared : other.1 ∈ Fields.keys fields := perm.mem_iff.mpr (List.mem_map_of_mem member)
  obtain ⟨field, inside, key⟩ := List.mem_map.mp shared
  obtain ⟨b, like, holds⟩ := likes field inside
  have same : (field.1, b) = other :=
    Fields.eq_of_nodup (perm.nodup_iff.mp distinct) like member key
  rw [← same]
  exact holds

mutual
theorem Reordered.legible {depth : Nat} {v w : Json} (same : Reordered v w)
    (legible : Legible depth v) : Legible depth w := by
  rcases reordered_cases same with ⟨rfl, -⟩ | ⟨as, bs, rfl, rfl, inside⟩ |
    ⟨fields, others, rfl, rfl, perm, inside⟩
  · exact legible
  · cases depth with
    | zero => exact absurd legible (by simp [Legible])
    | succ depth =>
      rw [Legible] at legible ⊢
      exact inside.legible legible
  · cases depth with
    | zero => exact absurd legible (by simp [Legible])
    | succ depth =>
      rw [Legible] at legible ⊢
      obtain ⟨distinct, members⟩ := legible
      refine ⟨perm.nodup_iff.mp distinct, legibleFields_forall.mpr ?_⟩
      exact of_likes perm distinct (inside.legible members)
termination_by sizeOf v

theorem ReorderedItems.legible {depth : Nat} {as bs : List Json} (same : ReorderedItems as bs)
    (legible : LegibleItems depth as) : LegibleItems depth bs := by
  match as, bs, same with
  | [], [], _ => trivial
  | a :: as, b :: bs, same =>
    rw [LegibleItems] at legible ⊢
    exact ⟨Reordered.legible same.1 legible.1, ReorderedItems.legible same.2 legible.2⟩
termination_by sizeOf as

theorem ReorderedFields.legible {depth : Nat} {fields others : Fields}
    (same : ReorderedFields fields others) (legible : LegibleFields depth fields) :
    ∀ field ∈ fields, ∃ b, (field.1, b) ∈ others ∧ Legible depth b := by
  match fields, same with
  | [], _ => exact fun _ member => absurd member List.not_mem_nil
  | (key, a) :: rest, ⟨⟨b, like, alike⟩, later⟩ =>
    rw [LegibleFields] at legible
    exact List.forall_mem_cons.mpr
      ⟨⟨b, like, Reordered.legible alike legible.1⟩, ReorderedFields.legible later legible.2⟩
termination_by sizeOf fields
end

-- Every number equals itself: none of them is undefined.
theorem same_number (n : Number) : n.same n = true := by
  cases n with
  | int value fits => simp [Number.same]
  | float x => simp [Number.same, Binary64.compare]

mutual
theorem Reordered.equal {v w : Json} (same : Reordered v w) (distinct : w.Distinct) :
    v.same w = true := by
  rcases reordered_cases same with ⟨rfl, scalar⟩ | ⟨as, bs, rfl, rfl, inside⟩ |
    ⟨fields, others, rfl, rfl, perm, inside⟩
  · cases v with
    | arr items => exact absurd scalar (by simp [nesting])
    | obj fields => exact absurd scalar (by simp [nesting])
    | num n => rw [Json.same, same_number]
    | _ => simp [Json.same]
  · rw [Distinct] at distinct
    rw [Json.same]
    exact inside.equal distinct
  · rw [Distinct] at distinct
    have length : fields.length = others.length := by simpa [Fields.keys] using perm.length_eq
    rw [Json.same, length, beq_self_eq_true, Bool.true_and]
    exact inside.equal distinct.1 distinct.2
termination_by sizeOf v

theorem ReorderedItems.equal {as bs : List Json} (same : ReorderedItems as bs)
    (distinct : DistinctItems bs) : sameItems as bs = true := by
  match as, bs, same with
  | [], [], _ => rfl
  | a :: as, b :: bs, same =>
    rw [DistinctItems] at distinct
    rw [sameItems, Reordered.equal same.1 distinct.1, ReorderedItems.equal same.2 distinct.2]
    rfl
termination_by sizeOf as

theorem ReorderedFields.equal {fields others : Fields} (same : ReorderedFields fields others)
    (apart : (Fields.keys others).Nodup) (distinct : DistinctFields others) :
    sameFields fields others = true := by
  match fields, same with
  | [], _ => rfl
  | (key, a) :: rest, ⟨⟨b, like, alike⟩, later⟩ =>
    have inner : b.Distinct := distinctFields_forall.mp distinct _ like
    rw [sameFields, Fields.get?_of_mem apart like, ReorderedFields.equal later apart distinct]
    simp only [Reordered.equal alike inner, Bool.and_true]
termination_by sizeOf fields
end

theorem same_refl {v : Json} (distinct : v.Distinct) : v.same v = true :=
  (Reordered.refl v).equal distinct

end Json
end PagePress
