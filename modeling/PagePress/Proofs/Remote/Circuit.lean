import PagePress.Proofs.Remote.Breaker

namespace PagePress.Breaker

inductive Call where
  | look
  | allow
  | success
  | failure
  deriving DecidableEq, Repr

def told (now : Int) (breaker : Breaker) : Call → Breaker
  | .look => (breaker.look now).2
  | .allow => (breaker.allow now).2
  | .success => breaker.recordSuccess now
  | .failure => breaker.recordFailure now

structure Event where
  call : Call
  before : CircuitState
  after : CircuitState
  deriving DecidableEq, Repr

namespace Event

def Closes (event : Event) : Prop := event.before ≠ .closed ∧ event.after = .closed

def BeginsTrial (event : Event) : Prop := event.before ≠ .halfOpen ∧ event.after = .halfOpen

instance (event : Event) : Decidable event.Closes := inferInstanceAs (Decidable (_ ∧ _))

instance (event : Event) : Decidable event.BeginsTrial := inferInstanceAs (Decidable (_ ∧ _))

end Event

structure Course where
  breaker : Breaker
  events : List Event

def Course.start (config : BreakerConfig) (now : Int) : Course := ⟨.start config now, []⟩

def Course.next (course : Course) : Int × Call → Course
  | (now, call) =>
    let after := course.breaker.told now call
    ⟨after, ⟨call, course.breaker.state, after.state⟩ :: course.events⟩

def Course.run (course : Course) (calls : List (Int × Call)) : Course := calls.foldl next course

-- Failures recorded since a success was, or the circuit closed, or it was made.
def failuresSince : List Event → Nat
  | [] => 0
  | event :: earlier =>
    if event.call = .success ∨ event.Closes then 0
    else failuresSince earlier + if event.call = .failure then 1 else 0

def successesSince : List Event → Nat
  | [] => 0
  | event :: earlier =>
    if event.BeginsTrial then 0
    else successesSince earlier + if event.call = .success then 1 else 0

section Since

variable {state : CircuitState} {earlier : List Event}

theorem failuresSince_stays (call : Call) :
    failuresSince (⟨call, state, state⟩ :: earlier) = match call with
      | .look | .allow => failuresSince earlier
      | .success => 0
      | .failure => failuresSince earlier + 1 := by
  have stays : ¬(Event.mk call state state).Closes := fun closes => closes.1 closes.2
  cases call with
  | look | allow | failure => simp [failuresSince, stays]
  | success => exact if_pos (.inl rfl)

theorem successesSince_stays (call : Call) :
    successesSince (⟨call, state, state⟩ :: earlier) = match call with
      | .look | .allow | .failure => successesSince earlier
      | .success => successesSince earlier + 1 := by
  have stays : ¬(Event.mk call state state).BeginsTrial := fun begins => begins.1 begins.2
  cases call with
  | look | allow | failure | success => simp [successesSince, stays]

end Since

section Told

variable {breaker : Breaker} {now : Int} {call : Call}

theorem told_closed (closed : breaker.state = .closed)
    (below : breaker.failures.toNat < breaker.config.failuresToOpen) :
    breaker.told now call = match call with
      | .look | .allow => breaker
      | .success => { breaker with failures := 0 }
      | .failure =>
        if breaker.config.failuresToOpen ≤ breaker.failures.toNat + 1 then
          { breaker with failures := breaker.failures + 1 }.trip now
        else { breaker with failures := breaker.failures + 1 } := by
  cases call with
  | look | allow => exact settle_of_ne_opened (by simp [closed])
  | success => exact recordSuccess_closed closed
  | failure => exact recordFailure_closed closed below

theorem told_opened (opened : breaker.state = .opened) :
    breaker.told now call = match call with
      | .look | .allow => breaker.settle now
      | .success => breaker
      | .failure => { breaker with changedAt := now } := by
  cases call with
  | look | allow => rfl
  | success => exact recordSuccess_opened opened
  | failure => exact recordFailure_opened opened

theorem told_halfOpen (half : breaker.state = .halfOpen)
    (below : breaker.successes.toNat < breaker.config.successesToClose) :
    breaker.told now call = match call with
      | .look | .allow => breaker
      | .success =>
        if breaker.config.successesToClose ≤ breaker.successes.toNat + 1 then breaker.close now
        else { breaker with successes := breaker.successes + 1 }
      | .failure => breaker.trip now := by
  cases call with
  | look | allow => exact settle_of_ne_opened (by simp [half])
  | success => exact recordSuccess_halfOpen half below
  | failure => exact recordFailure_halfOpen half

@[simp] theorem config_told : (breaker.told now call).config = breaker.config := by
  cases call with
  | look | allow => exact config_settle
  | success => exact config_recordSuccess
  | failure => exact config_recordFailure

end Told

structure Counts (course : Course) : Prop where
  failures : course.breaker.state = .closed →
    course.breaker.failures.toNat = failuresSince course.events ∧
      failuresSince course.events < course.breaker.config.failuresToOpen
  successes : course.breaker.state = .halfOpen →
    course.breaker.successes.toNat = successesSince course.events ∧
      successesSince course.events < course.breaker.config.successesToClose
  idle : course.breaker.state ≠ .halfOpen → course.breaker.successes = 0

-- What one more call does to the state. Nothing is said of times: whether an open circuit is due is
-- not told by its history of calls.
structure Moves (course : Course) (now : Int) (call : Call) : Prop where
  fromClosed : course.breaker.state = .closed →
    ((course.breaker.told now call).state ≠ .closed ↔
      call = .failure ∧ failuresSince course.events + 1 = course.breaker.config.failuresToOpen) ∧
    ((course.breaker.told now call).state ≠ .closed →
      (course.breaker.told now call).state = .opened)
  fromOpened : course.breaker.state = .opened →
    ((course.breaker.told now call).state ≠ .opened →
      (course.breaker.told now call).state = .halfOpen ∧ (call = .look ∨ call = .allow)) ∧
    (call = .success → course.breaker.told now call = course.breaker)
  fromHalfOpen : course.breaker.state = .halfOpen →
    ((course.breaker.told now call).state = .opened ↔ call = .failure) ∧
    ((course.breaker.told now call).state = .closed ↔
      call = .success ∧
        successesSince course.events + 1 = course.breaker.config.successesToClose)

structure Room (breaker : Breaker) : Prop where
  failures : breaker.state = .closed → (breaker.failures + 1).toNat = breaker.failures.toNat + 1
  successes : breaker.state = .halfOpen →
    (breaker.successes + 1).toNat = breaker.successes.toNat + 1

section Counts

variable {breaker : Breaker} {events : List Event}

theorem counts_of_closed (closed : breaker.state = .closed) (idle : breaker.successes = 0)
    (count : breaker.failures.toNat = failuresSince events)
    (below : failuresSince events < breaker.config.failuresToOpen) : Counts ⟨breaker, events⟩ where
  failures _ := ⟨count, below⟩
  successes half := nomatch closed.symm.trans half
  idle _ := idle

theorem counts_of_opened (opened : breaker.state = .opened) (idle : breaker.successes = 0) :
    Counts ⟨breaker, events⟩ where
  failures closed := nomatch opened.symm.trans closed
  successes half := nomatch opened.symm.trans half
  idle _ := idle

theorem counts_of_halfOpen (half : breaker.state = .halfOpen)
    (count : breaker.successes.toNat = successesSince events)
    (below : successesSince events < breaker.config.successesToClose) :
    Counts ⟨breaker, events⟩ where
  failures closed := nomatch half.symm.trans closed
  successes _ := ⟨count, below⟩
  idle away := (away half).elim

theorem counts_start (config : BreakerConfig) (now : Int) : Counts (.start config now) :=
  counts_of_closed rfl rfl rfl config.failuresToOpen_pos

end Counts

section Step

variable {course : Course} {now : Int} {call : Call}

theorem Course.next_eq {after : Breaker} {state : CircuitState}
    (found : course.breaker.state = state)
    (told : course.breaker.told now call = after) :
    course.next (now, call) = ⟨after, ⟨call, state, after.state⟩ :: course.events⟩ := by
  rw [← told, ← found]
  rfl

theorem Counts.next_closed (counts : Counts course) (closed : course.breaker.state = .closed) :
    Counts (course.next (now, call)) := by
  obtain ⟨count, below⟩ := counts.failures closed
  have idle := counts.idle (by simp [closed])
  have told : course.breaker.told now call = _ := told_closed closed (count ▸ below)
  rw [Course.next_eq closed told]
  cases call with
  | look | allow =>
    dsimp only
    rw [closed]
    refine counts_of_closed closed idle ?_ ?_
    · rw [failuresSince_stays, count]
    · rwa [failuresSince_stays]
  | success => exact counts_of_closed closed idle rfl (Nat.zero_lt_of_lt below)
  | failure =>
    dsimp only
    split
    · exact counts_of_opened rfl rfl
    · rename_i short
      rw [count] at short
      refine counts_of_closed closed idle ?_ ?_
      · rw [toNat_succ (count ▸ below), closed, failuresSince_stays, count]
      · rw [closed, failuresSince_stays]
        exact Nat.lt_of_not_le short

theorem Counts.next_opened (counts : Counts course) (opened : course.breaker.state = .opened) :
    Counts (course.next (now, call)) := by
  have idle := counts.idle (by simp [opened])
  have told : course.breaker.told now call = _ := told_opened opened
  rw [Course.next_eq opened told]
  cases call with
  | look | allow =>
    dsimp only
    obtain same | ⟨-, moved⟩ := course.breaker.settle_cases now
    · rw [same]
      exact counts_of_opened opened idle
    · rw [moved]
      exact counts_of_halfOpen rfl rfl course.breaker.config.successesToClose_pos
  | success => exact counts_of_opened opened idle
  | failure => exact counts_of_opened opened idle

theorem Counts.next_halfOpen (counts : Counts course) (half : course.breaker.state = .halfOpen) :
    Counts (course.next (now, call)) := by
  obtain ⟨count, below⟩ := counts.successes half
  have told : course.breaker.told now call = _ := told_halfOpen half (count ▸ below)
  rw [Course.next_eq half told]
  cases call with
  | look | allow =>
    dsimp only
    rw [half]
    refine counts_of_halfOpen half ?_ ?_
    · rw [successesSince_stays, count]
    · rwa [successesSince_stays]
  | success =>
    dsimp only
    split
    · exact counts_of_closed rfl rfl rfl course.breaker.config.failuresToOpen_pos
    · rename_i short
      rw [count] at short
      refine counts_of_halfOpen half ?_ ?_
      · rw [toNat_succ (count ▸ below), half, successesSince_stays, count]
      · rw [half, successesSince_stays]
        exact Nat.lt_of_not_le short
  | failure => exact counts_of_opened rfl rfl

theorem Counts.next (counts : Counts course) (call : Int × Call) : Counts (course.next call) := by
  obtain ⟨now, call⟩ := call
  cases state : course.breaker.state with
  | closed => exact counts.next_closed state
  | opened => exact counts.next_opened state
  | halfOpen => exact counts.next_halfOpen state

theorem Counts.room (counts : Counts course) : Room course.breaker where
  failures closed := by
    obtain ⟨count, below⟩ := counts.failures closed
    exact toNat_succ (count ▸ below)
  successes half := by
    obtain ⟨count, below⟩ := counts.successes half
    exact toNat_succ (count ▸ below)

theorem Counts.moves (counts : Counts course) (now : Int) (call : Call) :
    Moves course now call where
  fromClosed closed := by
    obtain ⟨count, below⟩ := counts.failures closed
    rw [told_closed closed (count ▸ below), count]
    cases call with
    | look | allow | success => simp [closed]
    | failure =>
      dsimp only
      split
      · rename_i reached
        have last : failuresSince course.events + 1 = course.breaker.config.failuresToOpen :=
          Nat.le_antisymm below reached
        simp [trip, last]
      · rename_i short
        have more : failuresSince course.events + 1 ≠ course.breaker.config.failuresToOpen := by
          omega
        simp [closed, more]
  fromOpened opened := by
    rw [told_opened opened]
    cases call with
    | look | allow =>
      dsimp only
      obtain same | ⟨-, moved⟩ := course.breaker.settle_cases now
      · simp [same, opened]
      · simp [moved]
    | success | failure => simp [opened]
  fromHalfOpen half := by
    obtain ⟨count, below⟩ := counts.successes half
    rw [told_halfOpen half (count ▸ below), count]
    cases call with
    | look | allow => simp [half]
    | success =>
      dsimp only
      split
      · rename_i reached
        have last : successesSince course.events + 1 = course.breaker.config.successesToClose :=
          Nat.le_antisymm below reached
        simp [close, last]
      · rename_i short
        have more : successesSince course.events + 1 ≠ course.breaker.config.successesToClose := by
          omega
        simp [half, more]
    | failure => simp [trip]

theorem run_counts (config : BreakerConfig) (start : Int) (calls : List (Int × Call)) :
    Counts ((Course.start config start).run calls) := by
  induction calls using List.reverseRecOn with
  | nil => exact counts_start config start
  | append_singleton earlier call ih =>
    rw [Course.run, List.foldl_concat]
    exact ih.next call

theorem config_run (config : BreakerConfig) (start : Int) (calls : List (Int × Call)) :
    ((Course.start config start).run calls).breaker.config = config := by
  induction calls using List.reverseRecOn with
  | nil => rfl
  | append_singleton earlier call ih =>
    rw [Course.run, List.foldl_concat]
    exact config_told.trans ih

end Step

theorem state_machine (config : BreakerConfig) (start : Int) (calls : List (Int × Call)) :
    let course := (Course.start config start).run calls
    course.breaker.config = config ∧ Counts course ∧ Room course.breaker ∧
      ∀ now call, Moves course now call := by
  intro course
  have counts : Counts course := run_counts config start calls
  exact ⟨config_run config start calls, counts, counts.room, counts.moves⟩

end PagePress.Breaker
