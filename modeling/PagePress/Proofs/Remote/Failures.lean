import PagePress.Proofs.Remote.Turn
import PagePress.Rehearsal.Server

namespace PagePress

namespace Breaker

variable {breaker : Breaker} {now : Int}

-- The failures that count at present; all that are needed while it is open.
def tally (breaker : Breaker) : Nat :=
  if breaker.state = .opened then breaker.config.failuresToOpen else breaker.failures.toNat

theorem tally_opened (opened : breaker.state = .opened) :
    breaker.tally = breaker.config.failuresToOpen := if_pos opened

theorem tally_closed (closed : breaker.state = .closed) :
    breaker.tally = breaker.failures.toNat := if_neg (by simp [closed])

theorem failuresToOpen_le_tally (counted : breaker.Counted) (decided : breaker.state ≠ .halfOpen) :
    breaker.config.failuresToOpen ≤ breaker.tally ↔ breaker.state = .opened := by
  constructor
  · intro enough
    cases state : breaker.state with
    | closed =>
      rw [tally_closed state] at enough
      exact absurd (counted state) (Nat.not_lt_of_le enough)
    | opened => rfl
    | halfOpen => exact (decided state).elim
  · intro opened
    exact (tally_opened opened).ge

theorem settle_eq_of_decided (decided : (breaker.settle now).state ≠ .halfOpen) :
    breaker.settle now = breaker := by
  obtain same | ⟨-, moved⟩ := breaker.settle_cases now
  · exact same
  · exact (decided (by rw [moved])).elim

theorem recordFailure_tally (counted : breaker.Counted) (closed : breaker.state = .closed) :
    (breaker.recordFailure now).state ≠ .halfOpen ∧ (breaker.recordFailure now).tally =
      min breaker.config.failuresToOpen (breaker.failures.toNat + 1) := by
  have room := toNat_succ (counted closed)
  rw [recordFailure_closed closed (counted closed)]
  split
  · rename_i reached
    exact ⟨nofun, (Nat.min_eq_left reached).symm⟩
  · rename_i short
    have one_more : { breaker with failures := breaker.failures + 1 }.tally =
        (breaker.failures + 1).toNat := tally_closed closed
    refine ⟨by simp [closed], ?_⟩
    omega

end Breaker

namespace Pool

variable {σ : Type} {times : Times} {pool after : Pool} {turn : Turn}

theorem settled_eq {now : Int} (same : pool.breaker.settle now = pool.breaker) :
    pool.settled now = pool := by
  rw [settled, same]

theorem Stands.tally {now : Int} {attempt : Option Bool} (stands : Stands now pool attempt after)
    (closed : pool.breaker.state = .closed) :
    after.breaker.state = .closed ∧ after.breaker.failures.toNat =
      if attempt = some true then 0 else pool.breaker.failures.toNat := by
  cases stands with
  | kept => exact ⟨closed, rfl⟩
  | made =>
    have wiped : (pool.attempted now true).breaker = { pool.breaker with failures := 0 } :=
      Breaker.recordSuccess_closed closed
    rw [wiped]
    exact ⟨closed, rfl⟩

-- A failed call counts for one, and a connection that it makes wipes out what was counted before.
theorem Step.tally (step : Step times pool turn after) (counted : pool.breaker.Counted)
    (fails : ¬turn.Succeeds) (waits : turn.circuit ≠ .halfOpen) :
    after.breaker.state ≠ .halfOpen ∧ after.breaker.tally =
      min pool.breaker.config.failuresToOpen
        ((if turn.Connects then 0 else pool.breaker.tally) + 1) := by
  rw [step.circuit] at waits
  have same := Breaker.settle_eq_of_decided waits
  have still := settled_eq same
  rw [same] at waits
  have closed (passes : pool.breaker.state ≠ .opened) : pool.breaker.state = .closed := by
    cases state : pool.breaker.state with
    | closed => rfl
    | opened => exact (passes state).elim
    | halfOpen => exact (waits state).elim
  cases step with
  | turnedAway opened =>
    rw [same] at opened
    rw [still, Breaker.tally_opened opened]
    exact ⟨waits, (Nat.min_eq_left (Nat.le_succ _)).symm⟩
  | unreached passes alone =>
    rw [same] at passes
    rw [still, Breaker.tally_closed (closed passes)]
    exact Breaker.recordFailure_tally counted (closed passes)
  | answered => exact (fails rfl).elim
  | @failed attempt ready fault passes stands =>
    rw [same] at passes
    rw [still] at stands
    obtain ⟨ready_closed, count⟩ := stands.tally (closed passes)
    obtain ⟨settled_still, counts⟩ :=
      Breaker.recordFailure_tally (stands.counted counted) ready_closed
    rw [count, stands.config] at counts
    rw [breaker_answered_error, Breaker.tally_closed (closed passes)]
    exact ⟨settled_still, counts⟩

def Failing (turns : List Turn) : Prop :=
  ∀ turn ∈ turns, ¬turn.Succeeds ∧ turn.circuit ≠ .halfOpen

instance (turns : List Turn) : Decidable (Failing turns) :=
  inferInstanceAs (Decidable (∀ turn ∈ turns, _))

theorem failing_cons {turns : List Turn} :
    Failing (turn :: turns) ↔ (¬turn.Succeeds ∧ turn.circuit ≠ .halfOpen) ∧ Failing turns :=
  List.forall_mem_cons

variable {peer : Peer σ} {link : Link σ} {requests : List Request}

theorem Failing.run_decided (failing : Failing (run peer link requests).1)
    (decided : link.pool.breaker.state ≠ .halfOpen) (counted : link.pool.breaker.Counted) :
    (run peer link requests).2.pool.breaker.state ≠ .halfOpen ∧
      (run peer link requests).2.pool.breaker.Counted := by
  induction requests generalizing link with
  | nil => exact ⟨decided, counted⟩
  | cons request rest ih =>
    have step := execute_step peer link request
    obtain ⟨⟨fails, waits⟩, later⟩ := failing_cons.mp failing
    exact ih later (step.tally counted fails waits).1 (step.counted counted)

theorem Failing.run_tally (failing : Failing (run peer link requests).1)
    (counted : link.pool.breaker.Counted) :
    let last := (run peer link requests).2.pool.breaker
    last.tally ≤ link.pool.breaker.tally + requests.length ∧
    ((∃ turn ∈ (run peer link requests).1, turn.Connects) → last.tally ≤ requests.length) ∧
    ((∀ turn ∈ (run peer link requests).1, ¬turn.Connects) →
      min link.pool.breaker.config.failuresToOpen (link.pool.breaker.tally + requests.length) ≤
        last.tally) := by
  induction requests generalizing link with
  | nil =>
    refine ⟨Nat.le_refl _, ?_, fun _ => Nat.min_le_right _ _⟩
    rintro ⟨turn, member, -⟩
    cases member
  | cons request rest ih =>
    have step := execute_step peer link request
    obtain ⟨⟨fails, waits⟩, later⟩ := failing_cons.mp failing
    obtain ⟨-, first⟩ := step.tally counted fails waits
    obtain ⟨most, connected, kept⟩ := ih later (step.counted counted)
    rw [step.config] at kept
    have same_end :
        (run peer link (request :: rest)).2 = (run peer (next peer link request) rest).2 :=
      rfl
    rw [same_end, List.length_cons]
    refine ⟨?_, ?_, ?_⟩
    · split at first <;> omega
    · rintro ⟨turn, member, connects⟩
      rcases List.mem_cons.mp member with rfl | behind
      · rw [if_pos connects] at first
        omega
      · have few := connected ⟨turn, behind, connects⟩
        omega
    · intro none
      obtain ⟨not_first, not_later⟩ := List.forall_mem_cons.mp none
      rw [if_neg not_first] at first
      have least := kept not_later
      omega

theorem opened_iff_connection_kept (reached : link.pool.Reached)
    (count : requests.length = link.pool.breaker.config.failuresToOpen)
    (failing : Failing (run peer link requests).1) :
    (run peer link requests).2.pool.breaker.state = .opened ↔
      ∀ turn ∈ (run peer link requests).1.tail, ¬turn.Connects := by
  cases requests with
  | nil =>
    have some_needed : 0 < link.pool.breaker.config.failuresToOpen := Nat.le_max_left 1 _
    exact absurd count.symm (Nat.ne_of_gt some_needed)
  | cons request rest =>
    have step := execute_step peer link request
    have counted := step.counted reached.counted
    obtain ⟨⟨fails, waits⟩, later⟩ := failing_cons.mp failing
    obtain ⟨decided, first⟩ := step.tally reached.counted fails waits
    obtain ⟨-, connected, kept⟩ := later.run_tally counted
    obtain ⟨decided_last, counted_last⟩ := later.run_decided decided counted
    rw [List.length_cons, ← step.config] at count
    have enough := Breaker.failuresToOpen_le_tally counted_last decided_last
    rw [config_run] at enough
    refine enough.symm.trans ⟨fun all turn member connects => ?_, fun none => ?_⟩
    · have few := connected ⟨turn, member, connects⟩
      omega
    · have least := kept none
      rw [← step.config] at first
      omega

-- Nothing listens, so no connection is made and the second failure opens the circuit.
theorem opened_of_unreachable :
    let link : Link Rehearsal.Server := ⟨.start { failureThreshold := 2 } 0, { listening := false }⟩
    let requests : List Request := [⟨.all 1, .get "a"⟩, ⟨.all 2, .ping⟩]
    let course := run Rehearsal.Server.peer link requests
    link.pool.Reached ∧ requests.length = link.pool.breaker.config.failuresToOpen ∧
      Failing course.1 ∧ course.2.pool.breaker.state = .opened := by
  intro link requests course
  have reached : link.pool.Reached := .start _ 0
  have failing : Failing course.1 := by decide
  exact ⟨reached, rfl, failing, (opened_iff_connection_kept reached rfl failing).mpr (by decide)⟩

-- A server that takes every connection and drops every command fails as often as the threshold
-- says, and the circuit is as closed as before.
theorem closed_after_dropped_commands :
    let link : Link Rehearsal.Server :=
      ⟨.start { failureThreshold := 2 } 0, { fault := some .drops }⟩
    let requests : List Request := [⟨.all 1, .get "a"⟩, ⟨.all 2, .get "a"⟩]
    let course := run Rehearsal.Server.peer link requests
    link.pool.Reached ∧ link.pool.breaker.state = .closed ∧
      requests.length = link.pool.breaker.config.failuresToOpen ∧ Failing course.1 ∧
      course.2.pool.breaker.state = .closed :=
  ⟨.start _ 0, rfl, rfl, by decide, rfl⟩

end Pool
end PagePress
