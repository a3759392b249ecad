import Mathlib

namespace PagePress.Chain

variable {ε α β : Type}

@[simp] theorem ok_bind (a : α) (next : α → Except ε β) : (Except.ok a >>= next) = next a := rfl

@[simp] theorem error_bind (e : ε) (next : α → Except ε β) :
    ((Except.error e : Except ε α) >>= next) = .error e := rfl

theorem bind_eq_ok {step : Except ε α} {next : α → Except ε β} {b : β} :
    (step >>= next) = .ok b ↔ ∃ a, step = .ok a ∧ next a = .ok b := by
  cases step with
  | ok a => simp
  | error e => simp

theorem bind_eq_error {step : Except ε α} {next : α → Except ε β} {e : ε} :
    (step >>= next) = .error e ↔ step = .error e ∨ ∃ a, step = .ok a ∧ next a = .error e := by
  cases step with
  | ok a => simp
  | error d => simp

@[simp] theorem mapError_eq_ok {δ : Type} {step : Except ε α} {rename : ε → δ} {a : α} :
    step.mapError rename = .ok a ↔ step = .ok a := by
  cases step <;> simp [Except.mapError]

@[simp] theorem mapError_eq_error {δ : Type} {step : Except ε α} {rename : ε → δ} {d : δ} :
    step.mapError rename = .error d ↔ ∃ e, step = .error e ∧ rename e = d := by
  cases step <;> simp [Except.mapError]

def eachFrom (step : Nat → α → Except ε β) (index : Nat) : List α → Except ε (List β)
  | [] => .ok []
  | a :: rest => do
    let b ← step index a
    let bs ← eachFrom step (index + 1) rest
    .ok (b :: bs)

section Each

variable {step : Nat → α → Except ε β} {items : List α}

theorem eachFrom_eq_ok {index : Nat} {done : List β} :
    eachFrom step index items = .ok done ↔ done.length = items.length ∧
      ∀ i a, items[i]? = some a → ∃ b, done[i]? = some b ∧ step (index + i) a = .ok b := by
  induction items generalizing index done with
  | nil =>
    constructor
    · rintro ⟨⟩
      exact ⟨rfl, nofun⟩
    · rintro ⟨length, -⟩
      rw [List.eq_nil_of_length_eq_zero length, eachFrom]
  | cons a rest ih =>
    have shift (i : Nat) : index + 1 + i = index + (i + 1) := by omega
    simp only [eachFrom, bind_eq_ok, ih]
    constructor
    · rintro ⟨b, first, bs, ⟨length, each⟩, ⟨⟩⟩
      refine ⟨congrArg Nat.succ length, fun i => ?_⟩
      cases i with
      | zero =>
        rintro _ ⟨⟩
        exact ⟨b, rfl, first⟩
      | succ i =>
        rw [← shift]
        exact each i
    · rintro ⟨length, each⟩
      obtain ⟨b, bs, rfl⟩ := List.exists_cons_of_length_eq_add_one length
      obtain ⟨_, ⟨⟩, first⟩ := each 0 a rfl
      refine ⟨b, first, bs, ⟨Nat.succ.inj length, fun i => ?_⟩, rfl⟩
      rw [shift]
      exact each (i + 1)

theorem eachFrom_eq_error {index : Nat} {e : ε} :
    eachFrom step index items = .error e ↔
      ∃ i a, items[i]? = some a ∧ step (index + i) a = .error e ∧
        ∀ j < i, ∀ earlier, items[j]? = some earlier → ∃ b, step (index + j) earlier = .ok b := by
  induction items generalizing index with
  | nil => exact iff_of_false nofun nofun
  | cons a rest ih =>
    have shift (i : Nat) : index + 1 + i = index + (i + 1) := by omega
    rw [eachFrom, bind_eq_error]
    constructor
    · rintro (first | ⟨b, first, later⟩)
      · exact ⟨0, a, rfl, first, nofun⟩
      · rcases bind_eq_error.mp later with failed | ⟨bs, -, ⟨⟩⟩
        obtain ⟨i, failing, there, fails, before⟩ := ih.mp failed
        rw [shift] at fails
        refine ⟨i + 1, failing, there, fails, fun j less => ?_⟩
        cases j with
        | zero =>
          rintro _ ⟨⟩
          exact ⟨b, first⟩
        | succ j =>
          rw [← shift]
          exact before j (Nat.lt_of_succ_lt_succ less)
    · rintro ⟨i, failing, there, fails, before⟩
      cases i with
      | zero =>
        cases there
        exact .inl fails
      | succ i =>
        obtain ⟨b, first⟩ := before 0 (Nat.succ_pos i) a rfl
        rw [← shift] at fails
        refine .inr ⟨b, first, bind_eq_error.mpr (.inl (ih.mpr ⟨i, failing, there, fails, ?_⟩))⟩
        intro j less
        rw [shift]
        exact before (j + 1) (Nat.succ_lt_succ less)

end Each

section Pairs

variable {γ δ : Type}

-- Two steps that give what is related, or fail alike.
inductive Tallies (related : α → β → Prop) : Except ε α → Except ε β → Prop
  | ok {a : α} {b : β} (given : related a b) : Tallies related (.ok a) (.ok b)
  | error (e : ε) : Tallies related (.error e) (.error e)

namespace Tallies

variable {related : α → β → Prop} {final : γ → δ → Prop}

theorem refl {related : α → α → Prop} (same : ∀ a, related a a) (step : Except ε α) :
    Tallies related step step := by
  cases step with
  | ok a => exact .ok (same a)
  | error e => exact .error e

theorem bind {step : Except ε α} {step' : Except ε β} {next : α → Except ε γ}
    {next' : β → Except ε δ} (first : Tallies related step step')
    (later : ∀ a b, related a b → Tallies final (next a) (next' b)) :
    Tallies final (step >>= next) (step' >>= next') := by
  cases first with
  | ok given => exact later _ _ given
  | error e => exact .error e

theorem mapError {ε' : Type} {step : Except ε α} {step' : Except ε β}
    (same : Tallies related step step') (f : ε → ε') :
    Tallies related (step.mapError f) (step'.mapError f) := by
  cases same with
  | ok given => exact .ok given
  | error e => exact .error (f e)

end Tallies

end Pairs

end PagePress.Chain
