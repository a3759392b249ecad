import PagePress.Proofs.Json.Reordering
import PagePress.Proofs.Text.Order

namespace PagePress

namespace Fields

theorem forall₂_of_likes {related : Json → Json → Prop} {fields others : Fields}
    (same : keys fields = keys others) (distinct : (keys fields).Nodup)
    (likes : ∀ field ∈ fields, ∃ b, (field.1, b) ∈ others ∧ related field.2 b) :
    List.Forall₂ (fun a b => a.1 = b.1 ∧ related a.2 b.2) fields others := by
  refine List.forall₂_iff_get.mpr ⟨by simpa [keys] using congrArg List.length same, ?_⟩
  intro i inside inside'
  have key : (fields.get ⟨i, inside⟩).1 = (others.get ⟨i, inside'⟩).1 := by
    simpa [keys, inside, inside'] using congrArg (·[i]?) same
  obtain ⟨b, like, alike⟩ := likes _ (fields.get_mem ⟨i, inside⟩)
  have found := eq_of_nodup (same ▸ distinct) like (others.get_mem ⟨i, inside'⟩) key
  rw [← found]
  exact ⟨rfl, alike⟩

def Ascending (fields : Fields) : Prop :=
  fields.Pairwise fun a b => Text.utf8 a.1 < Text.utf8 b.1

def sort (fields : Fields) : Fields := fields.mergeSort fun a b => a.1 ≤ b.1

theorem sort_perm (fields : Fields) : fields.sort.Perm fields := List.mergeSort_perm _ _

theorem keys_sort_le (fields : Fields) : (keys fields.sort).Pairwise (· ≤ ·) := by
  rw [keys, List.pairwise_map]
  have sorted : fields.sort.Pairwise fun a b => decide (a.1 ≤ b.1) = true :=
    List.pairwise_mergeSort (fun a b c => by simpa using String.le_trans)
      (fun a b => by simpa using String.le_total a.1 b.1) fields
  exact sorted.imp fun le => of_decide_eq_true le

-- The order of keys does not depend on the order that they had.
theorem keys_sort_eq {fields others : Fields} (perm : (keys fields).Perm (keys others)) :
    keys fields.sort = keys others.sort := by
  refine List.Perm.eq_of_pairwise (fun a b _ _ => String.le_antisymm) (keys_sort_le fields)
    (keys_sort_le others) ?_
  exact ((fields.sort_perm.map _).trans perm).trans (others.sort_perm.map _).symm

theorem ascending_sort {fields : Fields} (distinct : (keys fields).Nodup) :
    Ascending fields.sort := by
  have apart : (keys fields.sort).Nodup := (fields.sort_perm.map _).nodup_iff.mpr distinct
  have less : (keys fields.sort).Pairwise fun a b => Text.utf8 a < Text.utf8 b :=
    (keys_sort_le fields).imp₂ (fun _ _ le ne => Text.utf8_lt (lt_of_le_of_ne le ne)) apart
  rw [keys, List.pairwise_map] at less
  exact less

theorem Ascending.eq_of_perm {fields others : Fields} (ascends : Ascending fields)
    (ascends' : Ascending others) (perm : fields.Perm others) : fields = others :=
  perm.eq_of_pairwise (fun _ _ _ _ less more => (List.lt_asymm less more).elim) ascends ascends'

theorem Ascending.nodup {fields : Fields} (ascends : Ascending fields) : (keys fields).Nodup := by
  refine List.pairwise_map.mpr (List.Pairwise.imp (fun less same => ?_) ascends)
  rw [same] at less
  exact List.lt_irrefl _ less

theorem Ascending.sort_eq {sorted fields : Fields} (ascends : Ascending sorted)
    (perm : fields.Perm sorted) : fields.sort = sorted :=
  (ascending_sort ((perm.map _).nodup_iff.mpr ascends.nodup)).eq_of_perm ascends
    (fields.sort_perm.trans perm)

end Fields

namespace Json

def Shuffled (v w : Json) : Prop := v = w ∨ v.Distinct ∧ Reordered v w

theorem Shuffled.refl (v : Json) : Shuffled v v := .inl rfl

theorem ReorderedItems.shuffled {as bs : List Json} (same : ReorderedItems as bs)
    (distinct : DistinctItems as) : List.Forall₂ Shuffled as bs := by
  rw [reorderedItems_iff] at same
  induction same with
  | nil => exact .nil
  | cons first later ih =>
    rw [DistinctItems] at distinct
    exact .cons (.inr ⟨distinct.1, first⟩) (ih distinct.2)

structure Likes (fields others : Fields) : Prop where
  distinct : (Fields.keys fields).Nodup
  keys : (Fields.keys fields).Perm (Fields.keys others)
  values : ∀ field ∈ fields, ∃ b, (field.1, b) ∈ others ∧ Shuffled field.2 b

theorem ReorderedFields.likes {fields others : Fields} (same : ReorderedFields fields others)
    (keys : (Fields.keys fields).Perm (Fields.keys others))
    (distinct : (Json.obj fields).Distinct) : Likes fields others := by
  rw [Distinct] at distinct
  refine ⟨distinct.1, keys, fun field member => ?_⟩
  obtain ⟨b, like, alike⟩ := reorderedFields_iff.mp same field member
  exact ⟨b, like, .inr ⟨distinctFields_forall.mp distinct.2 field member, alike⟩⟩

theorem Shuffled.cases {v w : Json} (same : Shuffled v w) :
    v = w ∨ (∃ as bs, v = .arr as ∧ w = .arr bs ∧ List.Forall₂ Shuffled as bs) ∨
      ∃ fields others, v = .obj fields ∧ w = .obj others ∧ Likes fields others := by
  rcases same with rfl | ⟨distinct, same⟩
  · exact .inl rfl
  · rcases reordered_cases same with ⟨rfl, -⟩ | ⟨as, bs, rfl, rfl, inside⟩ |
      ⟨fields, others, rfl, rfl, keys, inside⟩
    · exact .inl rfl
    · rw [Distinct] at distinct
      exact .inr (.inl ⟨as, bs, rfl, rfl, inside.shuffled distinct⟩)
    · exact .inr (.inr ⟨fields, others, rfl, rfl, inside.likes keys distinct⟩)

def isScalar : Json → Bool
  | .arr _ | .obj _ => false
  | .null | .bool _ | .num _ | .str _ => true

theorem Shuffled.eq_of_scalar {v w : Json} (same : Shuffled v w) (scalar : v.isScalar = true) :
    v = w := by
  rcases same.cases with rfl | ⟨as, bs, rfl, -⟩ | ⟨fields, others, rfl, -⟩
  · rfl
  · cases scalar
  · cases scalar

theorem eq_of_scalars {vs ws : List Json} (same : List.Forall₂ Shuffled vs ws)
    (scalars : ∀ v ∈ vs, v.isScalar = true) : vs = ws := by
  induction same with
  | nil => rfl
  | cons first later ih =>
    obtain ⟨scalar, scalars⟩ := List.forall_mem_cons.mp scalars
    rw [first.eq_of_scalar scalar, ih scalars]

namespace Likes

variable {fields others : Fields} (likes : Likes fields others)
include likes

theorem length : fields.length = others.length := by
  simpa [Fields.keys] using likes.keys.length_eq

theorem isEmpty : fields.isEmpty = others.isEmpty := by
  rw [Bool.eq_iff_iff, List.isEmpty_iff_length_eq_zero, List.isEmpty_iff_length_eq_zero,
    likes.length]

theorem get? (key : String) :
    Option.Rel Shuffled (Fields.get? fields key) (Fields.get? others key) := by
  cases found : Fields.get? fields key with
  | some a =>
    obtain ⟨b, like, alike⟩ := likes.values _ (Fields.mem_of_get? found)
    rw [Fields.get?_of_mem (likes.keys.nodup_iff.mp likes.distinct) like]
    exact .some alike
  | none =>
    cases found' : Fields.get? others key with
    | none => exact .none
    | some b =>
      have shared : key ∈ Fields.keys fields :=
        likes.keys.mem_iff.mpr (List.mem_map_of_mem (Fields.mem_of_get? found'))
      obtain ⟨field, inside, rfl⟩ := List.mem_map.mp shared
      rw [Fields.get?_of_mem likes.distinct inside] at found
      cases found

theorem sort : List.Forall₂ (fun a b => a.1 = b.1 ∧ Shuffled a.2 b.2) fields.sort others.sort := by
  refine Fields.forall₂_of_likes (Fields.keys_sort_eq likes.keys)
    ((fields.sort_perm.map _).nodup_iff.mpr likes.distinct) fun field member => ?_
  obtain ⟨b, like, alike⟩ := likes.values field (fields.sort_perm.mem_iff.mp member)
  exact ⟨b, others.sort_perm.mem_iff.mpr like, alike⟩

end Likes

end Json

end PagePress
