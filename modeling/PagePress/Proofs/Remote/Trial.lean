import PagePress.Proofs.Remote.Turn
import PagePress.Rehearsal.Server

namespace PagePress

namespace Breaker

variable {breaker : Breaker} {now : Int} {count : Nat}

-- So many successes since the trial began: still on trial, or closed by them with a clean record.
def Credited (count : Nat) (breaker : Breaker) : Prop :=
  count < breaker.config.successesToClose ∧ breaker.state = .halfOpen ∧
      breaker.successes.toNat = count ∨
    breaker.config.successesToClose ≤ count ∧ breaker.state = .closed ∧ breaker.failures = 0

theorem Credited.recordSuccess (credited : breaker.Credited count) (now : Int) :
    (breaker.recordSuccess now).Credited (count + 1) := by
  obtain ⟨short, half, rfl⟩ | ⟨enough, closed, -⟩ := credited
  · rw [recordSuccess_halfOpen half short]
    split
    · rename_i enough
      exact .inr ⟨enough, rfl, rfl⟩
    · rename_i few
      exact .inl ⟨Nat.lt_of_not_le few, half, toNat_succ short⟩
  · rw [recordSuccess_closed closed]
    exact .inr ⟨Nat.le_succ_of_le enough, closed, rfl⟩

theorem Credited.recordFailure (credited : breaker.Credited count) (now : Int) :
    (breaker.recordFailure now).state =
      if breaker.config.successesToClose ≤ count ∧ 1 < breaker.config.failuresToOpen then .closed
      else .opened := by
  obtain ⟨short, half, -⟩ | ⟨enough, closed, none⟩ := credited
  · rw [recordFailure_halfOpen half, if_neg fun met => Nat.not_lt_of_le met.1 short]
    rfl
  · have counted := counted_of_failures_eq_zero none closed
    have first : breaker.failures.toNat + 1 = 1 := by
      rw [none]
      rfl
    rw [recordFailure_closed closed counted, first]
    by_cases several : 1 < breaker.config.failuresToOpen
    · rw [if_neg (Nat.not_le_of_lt several), if_pos ⟨enough, several⟩]
      exact closed
    · rw [if_pos (Nat.le_of_not_lt several), if_neg fun met => several met.2]
      rfl

theorem Credited.state (credited : breaker.Credited count) :
    breaker.state = if breaker.config.successesToClose ≤ count then .closed else .halfOpen := by
  obtain ⟨short, half, -⟩ | ⟨enough, closed, -⟩ := credited
  · rw [half, if_neg (Nat.not_le_of_lt short)]
  · rw [closed, if_pos enough]

-- What a trial begins with or goes on with when the circuit is found half open.
def Resumes (count : Nat) (breaker : Breaker) : Prop :=
  ∀ now, (breaker.settle now).state = .halfOpen → (breaker.settle now).Credited count

theorem resumes_opened (opened : breaker.state = .opened) : breaker.Resumes 0 := by
  intro now half
  have needed : 0 < breaker.config.successesToClose := Nat.le_max_left 1 _
  obtain same | ⟨-, moved⟩ := breaker.settle_cases now
  · rw [same, opened] at half
    cases half
  · rw [moved]
    exact .inl ⟨needed, rfl, rfl⟩

theorem Credited.resumes (credited : breaker.Credited count) : breaker.Resumes count := by
  have passes : breaker.state ≠ .opened := by
    obtain ⟨-, half, -⟩ | ⟨-, closed, -⟩ := credited
    · simp [half]
    · simp [closed]
  intro now _
  rwa [settle_of_ne_opened passes]

end Breaker

namespace Pool

variable {σ : Type}

section Step

variable {times : Times} {pool after : Pool} {turn : Turn} {count : Nat}

theorem Stands.credited {now : Int} {attempt : Option Bool} (stands : Stands now pool attempt after)
    (credited : pool.breaker.Credited count) :
    after.breaker.Credited (count + if attempt = some true then 1 else 0) := by
  cases stands with
  | kept => exact credited
  | made => exact credited.recordSuccess now

theorem Step.trial (step : Step times pool turn after) (resumes : pool.breaker.Resumes count)
    (half : turn.circuit = .halfOpen) :
    (turn.Succeeds →
      after.breaker.Credited ((count + if turn.Connects then 1 else 0) + 1)) ∧
    (¬turn.Succeeds → after.breaker.state =
      if pool.breaker.config.successesToClose ≤ (count + if turn.Connects then 1 else 0) ∧
        1 < pool.breaker.config.failuresToOpen then .closed else .opened) := by
  have found : (pool.breaker.settle times.asked).state = .halfOpen := step.circuit.symm.trans half
  have credited : (pool.settled times.asked).breaker.Credited count := resumes times.asked found
  have config : (pool.settled times.asked).breaker.config = pool.breaker.config :=
    Breaker.config_settle
  cases step with
  | turnedAway => cases half
  | unreached _ alone =>
    refine ⟨nofun, fun _ => ?_⟩
    rw [← config]
    exact credited.recordFailure times.connected
  | answered _ stands =>
    refine ⟨fun _ => ?_, fun fails => (fails rfl).elim⟩
    exact (stands.credited credited).recordSuccess times.answered
  | failed fault _ stands =>
    refine ⟨nofun, fun _ => ?_⟩
    rw [breaker_answered_error, ← config, ← stands.config]
    exact (stands.credited credited).recordFailure times.answered

-- While calls succeed there is room for a connection only where there has been none.
theorem Step.room (step : Step times pool turn after) (succeeds : turn.Succeeds) :
    (if turn.Connects then 1 else 0) + (if after.connected then 0 else 1) ≤
      if pool.connected then 0 else 1 := by
  rw [if_pos (step.connected_of_succeeds succeeds)]
  split
  · rename_i connects
    rw [step.alone_of_connects connects]
    simp
  · exact Nat.zero_le _

end Step

def connections (turns : List Turn) : Nat := turns.countP fun turn => turn.Connects

def successes (turns : List Turn) : Nat := turns.countP fun turn => turn.Succeeds

section Counts

variable {turns : List Turn} {turn : Turn}

theorem connections_concat :
    connections (turns ++ [turn]) = connections turns + if turn.Connects then 1 else 0 := by
  simp [connections, List.countP_singleton]

theorem successes_concat :
    successes (turns ++ [turn]) = successes turns + if turn.Succeeds then 1 else 0 := by
  simp [successes, List.countP_singleton]

theorem counts_of_succeeds (succeeds : turn.Succeeds) :
    connections (turns ++ [turn]) + successes (turns ++ [turn]) =
      (connections turns + successes turns + if turn.Connects then 1 else 0) + 1 := by
  rw [connections_concat, successes_concat, if_pos succeeds]
  omega

theorem counts_of_fails (fails : ¬turn.Succeeds) :
    connections (turns ++ [turn]) + successes (turns ++ [turn]) =
      connections turns + successes turns + if turn.Connects then 1 else 0 := by
  rw [connections_concat, successes_concat, if_neg fails]
  omega

end Counts

section Run

variable {peer : Peer σ} {link : Link σ} {earlier : List Request}

theorem run_room (succeeded : ∀ turn ∈ (run peer link earlier).1, turn.Succeeds) :
    connections (run peer link earlier).1 +
        (if (run peer link earlier).2.pool.connected then 0 else 1) ≤
      if link.pool.connected then 0 else 1 := by
  induction earlier using List.reverseRecOn with
  | nil => exact (Nat.zero_add _).le
  | append_singleton earlier request ih =>
    rw [run_concat] at succeeded ⊢
    obtain ⟨before, last⟩ := List.forall_mem_append.mp succeeded
    have room := (execute_step peer _ request).room (last _ (List.mem_singleton_self _))
    have so_far := ih before
    rw [connections_concat]
    dsimp only
    omega

theorem run_resumes (opened : link.pool.breaker.state = .opened)
    (trial : ∀ turn ∈ (run peer link earlier).1, turn.circuit = .halfOpen)
    (succeeded : ∀ turn ∈ (run peer link earlier).1, turn.Succeeds) :
    (run peer link earlier).2.pool.breaker.Resumes
      (connections (run peer link earlier).1 + successes (run peer link earlier).1) := by
  induction earlier using List.reverseRecOn with
  | nil => exact Breaker.resumes_opened opened
  | append_singleton earlier request ih =>
    rw [run_concat] at trial succeeded ⊢
    obtain ⟨half_before, half⟩ := List.forall_mem_append.mp trial
    obtain ⟨before, last⟩ := List.forall_mem_append.mp succeeded
    have succeeds := last _ (List.mem_singleton_self _)
    have credited := ((execute_step peer _ request).trial (ih half_before before)
      (half _ (List.mem_singleton_self _))).1 succeeds
    rw [counts_of_succeeds succeeds]
    exact credited.resumes

theorem half_open_trial (request : Request) (opened : link.pool.breaker.state = .opened)
    (trial : ∀ turn ∈ (run peer link (earlier ++ [request])).1, turn.circuit = .halfOpen)
    (succeeded : ∀ turn ∈ (run peer link earlier).1, turn.Succeeds) :
    let last := turn peer (run peer link earlier).2 request
    let turns := (run peer link (earlier ++ [request])).1
    let after := (run peer link (earlier ++ [request])).2.pool.breaker
    let config := link.pool.breaker.config
    (last.Succeeds → after.state =
      if config.successesToClose ≤ connections turns + successes turns then .closed
      else .halfOpen) ∧
    (¬last.Succeeds → after.state =
      if config.successesToClose ≤ connections turns + successes turns ∧
        1 < config.failuresToOpen then .closed else .opened) ∧
    connections turns ≤ if link.pool.connected then 0 else 1 := by
  have step := execute_step peer (run peer link earlier).2 request
  have room := run_room succeeded
  have config : (run peer link earlier).2.pool.breaker.config = _ := config_run link earlier
  rw [run_concat] at trial ⊢
  obtain ⟨half_before, half⟩ := List.forall_mem_append.mp trial
  have resumes := run_resumes opened half_before succeeded
  obtain ⟨credits, judges⟩ := step.trial resumes (half _ (List.mem_singleton_self _))
  rw [config] at judges
  refine ⟨fun succeeds => ?_, fun fails => ?_, ?_⟩
  · have state := (credits succeeds).state
    rwa [step.config, config, ← counts_of_succeeds succeeds] at state
  · have state := judges fails
    rwa [← counts_of_fails fails] at state
  · dsimp only
    rw [connections_concat]
    split
    · rename_i connects
      rw [step.alone_of_connects connects] at room
      exact room
    · exact (Nat.le_add_right _ _).trans room

end Run

-- A new connection and two commands meet a threshold of three.
theorem closed_by_connection_and_commands :
    let peer := Rehearsal.scriptedPeer
    let config : BreakerConfig := { failureThreshold := 1, successThreshold := 3 }
    let link := (run peer ⟨.start config 0, [some .dropped]⟩ [⟨.all 1, .ping⟩]).2
    let earlier : List Request := [⟨.all 40000, .get "a"⟩]
    let request : Request := ⟨.all 40001, .get "b"⟩
    link.pool.breaker.state = .opened ∧
      (run peer link (earlier ++ [request])).2.pool.breaker.state = .closed := by
  intro peer config link earlier request
  have opened : link.pool.breaker.state = .opened := by decide +kernel
  have trial : ∀ turn ∈ (run peer link (earlier ++ [request])).1, turn.circuit = .halfOpen := by
    decide +kernel
  have succeeded : ∀ turn ∈ (run peer link earlier).1, turn.Succeeds := by decide +kernel
  have succeeds : (turn peer (run peer link earlier).2 request).Succeeds := by decide +kernel
  have closes := (half_open_trial request opened trial succeeded).1 succeeds
  exact ⟨opened, closes.trans (if_pos (by decide +kernel))⟩

-- One command closes a circuit that needs two, and a command that fails on trial leaves it closed.
theorem trial_cut_short_by_connection :
    let peer := Rehearsal.scriptedPeer
    let twice := (run peer ⟨.start { failureThreshold := 1, successThreshold := 2 } 0,
      [some .dropped]⟩ [⟨.all 1, .ping⟩]).2
    let once := (run peer ⟨.start { failureThreshold := 2, successThreshold := 1 } 0,
      [some .refused, some .refused, some .dropped, some .dropped]⟩
      [⟨.all 1, .ping⟩, ⟨.all 2, .ping⟩, ⟨.all 40000, .ping⟩]).2
    let served := run peer twice [⟨.all 80000, .ping⟩]
    let failed := run peer once [⟨.all 80000, .ping⟩]
    (twice.pool.breaker.state = .opened ∧ served.1 = [⟨.halfOpen, some true, none⟩] ∧
      served.2.pool.breaker.state = .closed) ∧
    once.pool.breaker.state = .opened ∧
      failed.1 = [⟨.halfOpen, some true, some (.link .dropped)⟩] ∧
      failed.2.pool.breaker.state = .closed := by
  decide +kernel

end Pool
end PagePress
