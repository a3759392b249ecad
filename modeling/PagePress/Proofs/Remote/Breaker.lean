import Mathlib
import PagePress.Remote.Breaker

namespace PagePress

def BreakerConfig.failuresToOpen (config : BreakerConfig) : Nat :=
  max 1 config.failureThreshold.toNat

def BreakerConfig.successesToClose (config : BreakerConfig) : Nat :=
  max 1 config.successThreshold.toNat

theorem BreakerConfig.failuresToOpen_pos (config : BreakerConfig) : 0 < config.failuresToOpen :=
  Nat.le_max_left 1 _

theorem BreakerConfig.successesToClose_pos (config : BreakerConfig) : 0 < config.successesToClose :=
  Nat.le_max_left 1 _

-- A count that is not past its threshold has room for one more.
theorem toNat_succ {count : UInt32} {threshold : UInt32}
    (below : count.toNat < max 1 threshold.toNat) : (count + 1).toNat = count.toNat + 1 := by
  have room := threshold.toNat_lt
  rw [UInt32.toNat_add]
  exact Nat.mod_eq_of_lt (by simp only [UInt32.toNat_one]; omega)

theorem le_succ_iff {count : UInt32} {threshold : UInt32}
    (below : count.toNat < max 1 threshold.toNat) :
    threshold ≤ count + 1 ↔ max 1 threshold.toNat ≤ count.toNat + 1 := by
  rw [UInt32.le_iff_toNat_le, toNat_succ below]
  omega

namespace Breaker

variable {breaker : Breaker} {now : Int}

-- No failures that would have opened it are on record while it is closed.
def Counted (breaker : Breaker) : Prop :=
  breaker.state = .closed → breaker.failures.toNat < breaker.config.failuresToOpen

def Rested (now : Int) (breaker : Breaker) : Prop :=
  breaker.state = .opened ∧ breaker.config.resetMillis ≤ now - breaker.changedAt

theorem settle_rested (rested : breaker.Rested now) :
    breaker.settle now = { breaker with state := .halfOpen, successes := 0, changedAt := now } :=
  if_pos rested

theorem settle_not_rested (waits : ¬breaker.Rested now) : breaker.settle now = breaker :=
  if_neg waits

theorem settle_of_ne_opened (passes : breaker.state ≠ .opened) : breaker.settle now = breaker :=
  settle_not_rested fun rested => passes rested.1

theorem settle_cases (breaker : Breaker) (now : Int) :
    breaker.settle now = breaker ∨ breaker.state = .opened ∧
      breaker.settle now =
        { breaker with state := .halfOpen, successes := 0, changedAt := now } := by
  by_cases rested : breaker.Rested now
  · exact .inr ⟨rested.1, settle_rested rested⟩
  · exact .inl (settle_not_rested rested)

theorem recordSuccess_closed (closed : breaker.state = .closed) :
    breaker.recordSuccess now = { breaker with failures := 0 } := by
  rw [recordSuccess, closed]

theorem recordSuccess_opened (opened : breaker.state = .opened) :
    breaker.recordSuccess now = breaker := by
  rw [recordSuccess, opened]

theorem recordFailure_halfOpen (half : breaker.state = .halfOpen) :
    breaker.recordFailure now = breaker.trip now := by
  rw [recordFailure, half]

theorem recordFailure_opened (opened : breaker.state = .opened) :
    breaker.recordFailure now = { breaker with changedAt := now } := by
  rw [recordFailure, opened]

theorem recordFailure_closed (closed : breaker.state = .closed)
    (below : breaker.failures.toNat < breaker.config.failuresToOpen) :
    breaker.recordFailure now =
      if breaker.config.failuresToOpen ≤ breaker.failures.toNat + 1 then
        { breaker with failures := breaker.failures + 1 }.trip now
      else { breaker with failures := breaker.failures + 1 } := by
  rw [recordFailure, closed]
  exact if_congr (le_succ_iff below) rfl rfl

theorem recordSuccess_halfOpen (half : breaker.state = .halfOpen)
    (below : breaker.successes.toNat < breaker.config.successesToClose) :
    breaker.recordSuccess now =
      if breaker.config.successesToClose ≤ breaker.successes.toNat + 1 then breaker.close now
      else { breaker with successes := breaker.successes + 1 } := by
  rw [recordSuccess, half]
  exact if_congr (le_succ_iff below) rfl rfl

@[simp] theorem config_settle : (breaker.settle now).config = breaker.config := by
  rw [settle]
  split <;> rfl

@[simp] theorem config_recordSuccess : (breaker.recordSuccess now).config = breaker.config := by
  rw [recordSuccess]
  cases breaker.state with
  | closed => rfl
  | opened => rfl
  | halfOpen => exact (apply_ite Breaker.config _ _ _).trans (ite_self _)

@[simp] theorem config_recordFailure : (breaker.recordFailure now).config = breaker.config := by
  rw [recordFailure]
  cases breaker.state with
  | closed => exact (apply_ite Breaker.config _ _ _).trans (ite_self _)
  | opened => rfl
  | halfOpen => rfl

theorem counted_of_ne_closed (away : breaker.state ≠ .closed) : breaker.Counted :=
  fun closed => (away closed).elim

theorem counted_of_failures_eq_zero (zero : breaker.failures = 0) : breaker.Counted := by
  intro _
  rw [zero, BreakerConfig.failuresToOpen]
  simp

theorem counted_start (config : BreakerConfig) : (start config now).Counted :=
  counted_of_failures_eq_zero rfl

theorem Counted.settle (counted : breaker.Counted) (now : Int) : (breaker.settle now).Counted := by
  obtain same | ⟨-, moved⟩ := breaker.settle_cases now
  · rwa [same]
  · rw [moved]
    exact counted_of_ne_closed nofun

theorem Counted.recordSuccess (counted : breaker.Counted) (now : Int) :
    (breaker.recordSuccess now).Counted := by
  cases state : breaker.state with
  | closed =>
    rw [recordSuccess_closed state]
    exact counted_of_failures_eq_zero rfl
  | opened => rwa [recordSuccess_opened state]
  | halfOpen =>
    rw [Breaker.recordSuccess, state]
    dsimp only
    split
    · exact counted_of_failures_eq_zero rfl
    · exact counted_of_ne_closed nofun

theorem Counted.recordFailure (counted : breaker.Counted) (now : Int) :
    (breaker.recordFailure now).Counted := by
  cases state : breaker.state with
  | closed =>
    rw [recordFailure_closed state (counted state)]
    split
    · exact counted_of_ne_closed nofun
    · rename_i short
      intro _
      rw [toNat_succ (counted state)]
      exact Nat.lt_of_not_le short
  | opened =>
    rw [recordFailure_opened state]
    exact counted_of_ne_closed (by simp [state])
  | halfOpen =>
    rw [recordFailure_halfOpen state]
    exact counted_of_ne_closed nofun

end Breaker
end PagePress
