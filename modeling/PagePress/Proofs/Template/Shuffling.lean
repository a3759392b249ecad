import PagePress.Proofs.Chain
import PagePress.Proofs.Json.Shuffled
import PagePress.Template.Exec

namespace PagePress.Template
open Chain (Tallies)
open Json (Shuffled)

section Builtins

variable {v w a b a' b' : Json}

theorem truth_shuffled (same : Shuffled v w) : truth v = truth w := by
  rcases same.cases with rfl | ⟨as, bs, rfl, rfl, items⟩ | ⟨fields, others, rfl, rfl, likes⟩
  · rfl
  · cases items <;> rfl
  · rw [truth, truth, likes.isEmpty]

theorem typeName_shuffled (same : Shuffled v w) : typeName v = typeName w := by
  rcases same.cases with rfl | ⟨as, bs, rfl, rfl, -⟩ | ⟨fields, others, rfl, rfl, -⟩ <;> rfl

theorem length_shuffled (same : Shuffled v w) : length v = length w := by
  rcases same.cases with rfl | ⟨as, bs, rfl, rfl, items⟩ | ⟨fields, others, rfl, rfl, likes⟩
  · rfl
  · rw [length, length, items.length_eq]
  · rw [length, length, likes.length]

theorem kindOf_shuffled (same : Shuffled v w) : kindOf v = kindOf w := by
  rcases same.cases with rfl | ⟨as, bs, rfl, rfl, -⟩ | ⟨fields, others, rfl, rfl, -⟩ <;> rfl

theorem sameKind_shuffled (first : Shuffled a a') (second : Shuffled b b') :
    sameKind a b = sameKind a' b' := by
  rw [sameKind, sameKind, kindOf_shuffled first, kindOf_shuffled second]

theorem scalar_of_kind {kind : Kind} (found : kindOf v = .ok kind) : v.isScalar = true := by
  cases v with
  | arr items => cases found
  | obj fields => cases found
  | _ => rfl

theorem scalars_of_sameKind (same : sameKind a b = .ok ()) :
    a.isScalar = true ∧ b.isScalar = true := by
  obtain ⟨kind, first, same⟩ := Chain.bind_eq_ok.mp same
  obtain ⟨kind', second, -⟩ := Chain.bind_eq_ok.mp same
  exact ⟨scalar_of_kind first, scalar_of_kind second⟩

theorem eq_of_sameKind {α : Type} {compared : Json → Json → Except CallFault α}
    (checks : ∀ a b, ∃ next, compared a b = sameKind a b >>= next) (first : Shuffled a a')
    (second : Shuffled b b') : compared a b = compared a' b' := by
  cases checked : sameKind a b with
  | error fault =>
    obtain ⟨next, unfolded⟩ := checks a b
    obtain ⟨next', unfolded'⟩ := checks a' b'
    rw [unfolded, unfolded', ← sameKind_shuffled first second, checked]
    rfl
  | ok =>
    obtain ⟨scalar, scalar'⟩ := scalars_of_sameKind checked
    rw [first.eq_of_scalar scalar, second.eq_of_scalar scalar']

theorem equal_shuffled (first : Shuffled a a') (second : Shuffled b b') :
    equal a b = equal a' b' := eq_of_sameKind (fun _ _ => ⟨_, rfl⟩) first second

theorem ordering_shuffled (first : Shuffled a a') (second : Shuffled b b') :
    ordering a b = ordering a' b' := eq_of_sameKind (fun _ _ => ⟨_, rfl⟩) first second

theorem equalsAny_shuffled {rest rest' : List Json} (first : Shuffled a a')
    (others : List.Forall₂ Shuffled rest rest') : equalsAny a rest = equalsAny a' rest' := by
  induction others with
  | nil => rfl
  | cons here later ih => rw [equalsAny, equalsAny, equal_shuffled first here, ih]

theorem getD_shuffled {items others : List Json} (same : List.Forall₂ Shuffled items others)
    (i : Nat) : Shuffled (items.getD i .null) (others.getD i .null) := by
  induction same generalizing i with
  | nil => exact .refl _
  | cons first later ih =>
    cases i with
    | zero => exact first
    | succ i => exact ih i

theorem isNull_shuffled (same : Shuffled v w) : v.isNull = w.isNull := by
  rcases same.cases with rfl | ⟨as, bs, rfl, rfl, -⟩ | ⟨fields, others, rfl, rfl, -⟩ <;> rfl

theorem indexOnce_no_key {container key : Json} (noKey : key.isScalar = false) :
    indexOnce container key =
      .error (if container.isNull then .indexOfNil
        else .cannotIndex (typeName container) (typeName key)) := by
  cases key with
  | arr items => cases container <;> rfl
  | obj fields => cases container <;> rfl
  | _ => cases noKey

theorem getD_of_rel {found found' : Option Json} (same : Option.Rel Shuffled found found')
    (other : Shuffled v w) : Shuffled (found.getD v) (found'.getD w) := by
  cases same with
  | some alike => exact alike
  | none => exact other

theorem indexOnce_shuffled {container container' key key' : Json}
    (inside : Shuffled container container') (keys : Shuffled key key') :
    Tallies Shuffled (indexOnce container key) (indexOnce container' key') := by
  rcases keys.cases with rfl | ⟨as, bs, rfl, rfl, -⟩ | ⟨fields, others, rfl, rfl, -⟩
  · rcases inside.cases with rfl | ⟨as, bs, rfl, rfl, items⟩ | ⟨fields, others, rfl, rfl, likes⟩
    · exact .refl .refl _
    · cases key with
      | num n =>
        rw [indexOnce, indexOnce, items.length_eq]
        refine .bind (.refl (fun i => Eq.refl i) _) fun i _ same => ?_
        rw [← same]
        exact .ok (getD_shuffled items i)
      | _ => exact .error _
    · cases key with
      | str key =>
        rw [indexOnce, indexOnce]
        exact .ok (getD_of_rel (likes.get? key) (.refl _))
      | _ => exact .error _
  · rw [indexOnce_no_key rfl, indexOnce_no_key rfl, isNull_shuffled inside,
      typeName_shuffled inside]
    exact .error _
  · rw [indexOnce_no_key rfl, indexOnce_no_key rfl, isNull_shuffled inside,
      typeName_shuffled inside]
    exact .error _

theorem index_shuffled {container container' : Json} {keys keys' : List Json}
    (same : List.Forall₂ Shuffled keys keys') (inside : Shuffled container container') :
    Tallies Shuffled (keys.foldlM indexOnce container) (keys'.foldlM indexOnce container') := by
  induction same generalizing container container' with
  | nil => exact .ok inside
  | cons first later ih =>
    rw [List.foldlM_cons, List.foldlM_cons]
    exact .bind (indexOnce_shuffled inside first) fun _ _ found => ih found

theorem find?_shuffled {vs ws : List Json} {p : Json → Bool}
    (decides : ∀ v w, Shuffled v w → p v = p w) (same : List.Forall₂ Shuffled vs ws) :
    Option.Rel Shuffled (vs.find? p) (ws.find? p) := by
  induction same with
  | nil => exact .none
  | @cons v w vs ws first later ih =>
    rw [List.find?_cons, List.find?_cons, ← decides _ _ first]
    cases p v with
    | true => exact .some first
    | false => exact ih

theorem getLastD_shuffled {vs ws : List Json} (same : List.Forall₂ Shuffled vs ws)
    (last : Shuffled v w) : Shuffled (vs.getLastD v) (ws.getLastD w) := by
  induction same generalizing v w with
  | nil => exact last
  | cons first later ih =>
    rw [List.getLastD_cons, List.getLastD_cons]
    exact ih first

theorem decided_shuffled {vs ws : List Json} {p : Json → Bool}
    (decides : ∀ v w, Shuffled v w → p v = p w) (first : Shuffled v w)
    (later : List.Forall₂ Shuffled vs ws) :
    Shuffled (((v :: vs).find? p).getD (vs.getLastD v))
      (((w :: ws).find? p).getD (ws.getLastD w)) :=
  getD_of_rel (find?_shuffled decides (.cons first later)) (getLastD_shuffled later first)

theorem ordered_shuffled (builtin : Builtin) (accept : Ordering → Bool) {args args' : List Json}
    (same : List.Forall₂ Shuffled args args') :
    ordered builtin accept args = ordered builtin accept args' := by
  match args, args', same with
  | [], [], _ => rfl
  | [_], [_], _ => rfl
  | [a, b], [a', b'], .cons first (.cons second .nil) =>
    rw [ordered, ordered, ordering_shuffled first second]
  | _ :: _ :: _ :: _, _ :: _ :: _ :: _, .cons _ (.cons _ (.cons _ later)) =>
    simp [ordered, later.length_eq]

theorem call_not_shuffled {args args' : List Json} (same : List.Forall₂ Shuffled args args') :
    Builtin.not.call args = Builtin.not.call args' := by
  match args, args', same with
  | [], [], _ => rfl
  | [_], [_], .cons first .nil => rw [Builtin.call, Builtin.call, truth_shuffled first]
  | _ :: _ :: _, _ :: _ :: _, .cons _ (.cons _ later) => simp [Builtin.call, later.length_eq]

theorem call_len_shuffled {args args' : List Json} (same : List.Forall₂ Shuffled args args') :
    Builtin.len.call args = Builtin.len.call args' := by
  match args, args', same with
  | [], [], _ => rfl
  | [_], [_], .cons first .nil => rw [Builtin.call, Builtin.call, length_shuffled first]
  | _ :: _ :: _, _ :: _ :: _, .cons _ (.cons _ later) => simp [Builtin.call, later.length_eq]

theorem call_eq_shuffled {args args' : List Json} (same : List.Forall₂ Shuffled args args') :
    Builtin.eq.call args = Builtin.eq.call args' := by
  match args, args', same with
  | [], [], _ => rfl
  | [_], [_], _ => rfl
  | _ :: _ :: _, _ :: _ :: _, .cons first others =>
    rw [Builtin.call, Builtin.call, equalsAny_shuffled first others]

theorem call_ne_shuffled {args args' : List Json} (same : List.Forall₂ Shuffled args args') :
    Builtin.ne.call args = Builtin.ne.call args' := by
  match args, args', same with
  | [], [], _ => rfl
  | [_], [_], _ => rfl
  | [_, _], [_, _], .cons first (.cons second .nil) =>
    rw [Builtin.call, Builtin.call, equal_shuffled first second]
  | _ :: _ :: _ :: _, _ :: _ :: _ :: _, .cons _ (.cons _ (.cons _ later)) =>
    simp [Builtin.call, later.length_eq]

def Builtin.prints : Builtin → Bool
  | .print | .println | .printf | .html | .js | .urlquery => true
  | .and | .or | .not | .len | .index | .eq | .ne | .lt | .le | .gt | .ge => false

-- Three functions give an argument, or what is inside of one; the others that do not print answer
-- with a truth or a count.
theorem call_shuffled (builtin : Builtin) {args args' : List Json}
    (same : List.Forall₂ Shuffled args args')
    (scalars : builtin.prints = true → ∀ arg ∈ args, arg.isScalar = true) :
    Tallies Shuffled (builtin.call args) (builtin.call args') := by
  by_cases prints : builtin.prints = true
  · rw [Json.eq_of_scalars same (scalars prints)]
    exact .refl .refl _
  cases builtin with
  | print | println | printf | html | js | urlquery => exact (prints rfl).elim
  | and =>
    cases same with
    | nil => exact .error _
    | cons first later =>
      exact .ok (decided_shuffled (fun _ _ same => by rw [truth_shuffled same]) first later)
  | or =>
    cases same with
    | nil => exact .error _
    | cons first later => exact .ok (decided_shuffled (fun _ _ => truth_shuffled) first later)
  | index =>
    cases same with
    | nil => exact .error _
    | cons first later => exact (index_shuffled later first).mapError Halt.fault
  | not =>
    rw [call_not_shuffled same]
    exact .refl .refl _
  | len =>
    rw [call_len_shuffled same]
    exact .refl .refl _
  | eq =>
    rw [call_eq_shuffled same]
    exact .refl .refl _
  | ne =>
    rw [call_ne_shuffled same]
    exact .refl .refl _
  | lt | le | gt | ge =>
    rw [Builtin.call, Builtin.call, ordered_shuffled _ _ same]
    exact .refl .refl _

end Builtins

theorem fieldOf_shuffled (policy : MissingKey) {v w : Json} (same : Shuffled v w) (key : String) :
    Tallies Shuffled (fieldOf policy v key) (fieldOf policy w key) := by
  rcases same.cases with rfl | ⟨as, bs, rfl, rfl, -⟩ | ⟨fields, others, rfl, rfl, likes⟩
  · exact .refl .refl _
  · exact .error _
  · rw [fieldOf, fieldOf]
    have found := likes.get? key
    generalize Fields.get? fields key = here at found
    generalize Fields.get? others key = there at found
    cases found with
    | some alike => exact .ok alike
    | none => exact .refl .refl _

theorem path_shuffled (policy : MissingKey) (path : List String) {v w : Json}
    (same : Shuffled v w) :
    Tallies Shuffled (path.foldlM (fieldOf policy) v) (path.foldlM (fieldOf policy) w) := by
  induction path generalizing v w with
  | nil => exact .ok same
  | cons key rest ih =>
    rw [List.foldlM_cons, List.foldlM_cons]
    exact .bind (fieldOf_shuffled policy same key) fun _ _ found => ih found

section Ranges

def RowsShuffled (pairs pairs' : List (Json × Json)) : Prop :=
  List.Forall₂ (fun pair pair' => pair.1 = pair'.1 ∧ Shuffled pair.2 pair'.2) pairs pairs'

inductive ItemsShuffled : Items → Items → Prop
  | rows {pairs pairs' : List (Json × Json)} (same : RowsShuffled pairs pairs') :
    ItemsShuffled (.rows pairs) (.rows pairs')
  | count (n : Nat) : ItemsShuffled (.count n) (.count n)

theorem ItemsShuffled.refl (items : Items) : ItemsShuffled items items := by
  cases items with
  | rows pairs => exact .rows (List.forall₂_same.mpr fun _ _ => ⟨rfl, .refl _⟩)
  | count n => exact .count n

theorem ItemsShuffled.isEmpty {items items' : Items} (same : ItemsShuffled items items') :
    items.isEmpty = items'.isEmpty := by
  cases same with
  | rows same => cases same <;> rfl
  | count n => rfl

theorem indexed_shuffled {items others : List Json} (same : List.Forall₂ Shuffled items others) :
    RowsShuffled (indexed items) (indexed others) := by
  have numbered (i : Nat) : RowsShuffled ((items.zipIdx i).map fun p => (.ofNat p.2, p.1))
      ((others.zipIdx i).map fun p => (.ofNat p.2, p.1)) := by
    induction same generalizing i with
    | nil => exact .nil
    | cons first later ih => exact .cons ⟨rfl, first⟩ (ih (i + 1))
  exact numbered 0

theorem sortedFields_eq (fields : Fields) :
    sortedFields fields = fields.sort.map fun (key, value) => (.str key, value) := rfl

theorem sortedFields_shuffled {fields others : Fields} (likes : Json.Likes fields others) :
    RowsShuffled (sortedFields fields) (sortedFields others) := by
  rw [sortedFields_eq, sortedFields_eq]
  refine List.forall₂_map_left_iff.mpr (List.forall₂_map_right_iff.mpr ?_)
  exact likes.sort.imp fun _ _ same => ⟨congrArg Json.str same.1, same.2⟩

theorem itemsOf_shuffled {v w : Json} (same : Shuffled v w) :
    Tallies ItemsShuffled (itemsOf v) (itemsOf w) := by
  rcases same.cases with rfl | ⟨as, bs, rfl, rfl, items⟩ | ⟨fields, others, rfl, rfl, likes⟩
  · exact .refl .refl _
  · exact .ok (.rows (indexed_shuffled items))
  · exact .ok (.rows (sortedFields_shuffled likes))

end Ranges

section Variables

def VarsShuffled (vars vars' : Vars) : Prop :=
  List.Forall₂ (fun entry entry' => entry.1 = entry'.1 ∧ Shuffled entry.2 entry'.2) vars vars'

namespace VarsShuffled

variable {vars vars' : Vars}

theorem get? (same : VarsShuffled vars vars') (name : String) :
    Option.Rel Shuffled (vars.get? name) (vars'.get? name) := by
  induction same with
  | nil => exact .none
  | @cons entry entry' rest rest' first later ih =>
    rw [Vars.get?, Vars.get?, List.find?_cons, List.find?_cons, ← first.1]
    cases entry.1 == name with
    | true => exact .some first.2
    | false => exact ih

theorem bind (same : VarsShuffled vars vars') (assigns : Bool) (name : String) {v w : Json}
    (value : Shuffled v w) :
    VarsShuffled (vars.bind assigns name v) (vars'.bind assigns name w) := by
  cases assigns with
  | false => exact .cons ⟨rfl, value⟩ same
  | true =>
    simp only [Vars.bind, if_true]
    induction same with
    | nil => exact .nil
    | @cons entry entry' rest rest' first later ih =>
      rw [Vars.assign, Vars.assign, ← first.1]
      split
      · exact .cons ⟨rfl, value⟩ later
      · exact .cons ⟨rfl, first.2⟩ ih

theorem bindAll (same : VarsShuffled vars vars') (assigns : Bool) (names : List String)
    {v w : Json} (value : Shuffled v w) :
    VarsShuffled (names.foldl (fun vars name => vars.bind assigns name v) vars)
      (names.foldl (fun vars name => vars.bind assigns name w) vars') := by
  induction names generalizing vars vars' with
  | nil => exact same
  | cons name rest ih => exact ih (same.bind assigns name value)

theorem bindItem (same : VarsShuffled vars vars') (names : List String) (assigns : Bool)
    (key : Json) {v w : Json} (element : Shuffled v w) :
    VarsShuffled (Template.bindItem names assigns key v vars)
      (Template.bindItem names assigns key w vars') := by
  rcases names with _ | ⟨first, _ | ⟨second, _ | ⟨third, rest⟩⟩⟩
  · exact same
  · exact same.bind assigns first element
  · exact (same.bind assigns first (.refl key)).bind assigns second element
  · exact same

theorem leave (same : VarsShuffled vars vars') (size : Nat) :
    VarsShuffled (vars.leave size) (vars'.leave size) := by
  rw [Vars.leave, Vars.leave, same.length_eq]
  exact List.forall₂_drop _ same

end VarsShuffled

end Variables

end PagePress.Template
