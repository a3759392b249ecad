import PagePress.Proofs.Remote.Turn
import PagePress.Rehearsal.Server

namespace PagePress.Pool

variable {σ : Type}

def TurnedAwaySince (turns : List Turn) : Prop :=
  ∃ before turn behind, turns = before ++ turn :: behind ∧ turn.TurnedAway ∧
    ∀ later ∈ behind, ¬later.Connects

theorem turnedAwaySince_concat {turns : List Turn} {turn : Turn} :
    TurnedAwaySince (turns ++ [turn]) ↔
      turn.TurnedAway ∨ TurnedAwaySince turns ∧ ¬turn.Connects := by
  constructor
  · rintro ⟨before, away, behind, split, turned, none⟩
    rcases List.eq_nil_or_concat behind with rfl | ⟨middle, last, rfl⟩
    · obtain ⟨rfl, same⟩ := List.append_inj' split rfl
      cases same
      exact .inl turned
    · have parts : turns ++ [turn] = (before ++ away :: middle) ++ [last] := by simpa using split
      obtain ⟨rfl, same⟩ := List.append_inj' parts rfl
      cases same
      have none_before : ∀ later ∈ middle, ¬later.Connects := fun later member =>
        none later (by simp [member])
      exact .inr ⟨⟨before, away, middle, rfl, turned, none_before⟩, none turn (by simp)⟩
  · rintro (turned | ⟨⟨before, away, behind, rfl, turned, none⟩, not_last⟩)
    · exact ⟨turns, turn, [], rfl, turned, nofun⟩
    · refine ⟨before, away, behind ++ [turn], by simp, turned, ?_⟩
      intro later member
      rcases List.mem_append.mp member with inside | last
      · exact none later inside
      · rw [List.mem_singleton.mp last]
        exact not_last

section Step

variable {times : Times} {pool after : Pool} {turn : Turn}

-- While there is a connection the status says whether calls were turned away.
structure Tells (pool : Pool) (away : Prop) : Prop where
  healthy : pool.connected = true → ¬away → pool.health.status = .healthy
  circuitOpen : pool.connected = true → away → pool.health.status = .circuitOpen

theorem tells_of_alone (alone : pool.connected = false) (away : Prop) : pool.Tells away := by
  constructor <;> simp [alone]

theorem Tells.of_kept {away : Prop} (tells : pool.Tells away)
    (kept : after.connected = true → pool.connected = true ∧ after.health = pool.health) :
    after.Tells away := by
  constructor
  · intro connected none
    obtain ⟨before, same⟩ := kept connected
    rw [same]
    exact tells.healthy before none
  · intro connected turned
    obtain ⟨before, same⟩ := kept connected
    rw [same]
    exact tells.circuitOpen before turned

theorem Tells.of_iff {away other : Prop} (tells : pool.Tells away) (same : other ↔ away) :
    pool.Tells other := by
  rwa [propext same]

theorem Stands.tells {now : Int} {attempt : Option Bool} (stands : Stands now pool attempt after)
    {away : Prop} (tells : pool.Tells away) : after.Tells (away ∧ attempt ≠ some true) := by
  cases stands with
  | kept => exact tells.of_iff (and_iff_left nofun)
  | made => exact ⟨fun _ _ => rfl, fun _ turned => (turned.2 rfl).elim⟩

theorem Step.tells (step : Step times pool turn after) {away : Prop} (tells : pool.Tells away) :
    after.Tells (turn.TurnedAway ∨ away ∧ ¬turn.Connects) := by
  have settled : (pool.settled times.asked).Tells away := ⟨tells.healthy, tells.circuitOpen⟩
  cases step with
  | turnedAway => exact ⟨fun _ none => (none (.inl rfl)).elim, fun _ _ => rfl⟩
  | unreached _ alone =>
    apply tells_of_alone
    exact alone
  | @answered attempt ready _ stands =>
    have quiet : ¬Turn.TurnedAway ⟨(pool.breaker.settle times.asked).state, attempt, none⟩ := nofun
    refine Tells.of_iff ?_ (or_iff_right quiet)
    exact (stands.tells settled).of_kept fun connected => ⟨connected, rfl⟩
  | @failed attempt ready fault _ stands =>
    have quiet : ¬Turn.TurnedAway
        ⟨(pool.breaker.settle times.asked).state, attempt, some (.link fault)⟩ := nofun
    refine Tells.of_iff ?_ (or_iff_right quiet)
    apply (stands.tells settled).of_kept
    intro connected
    rw [connected_answered_error, Bool.and_eq_true, Bool.not_eq_true'] at connected
    exact ⟨connected.1, by rw [health_answered_error, connected.2]; rfl⟩

end Step

section Run

variable {peer : Peer σ} {link : Link σ} {requests : List Request}

theorem run_tells (alone : link.pool.connected = false) (requests : List Request) :
    (run peer link requests).2.pool.Tells (TurnedAwaySince (run peer link requests).1) := by
  induction requests using List.reverseRecOn with
  | nil => exact tells_of_alone alone _
  | append_singleton requests request ih =>
    rw [run_concat]
    exact ((execute_step peer _ request).tells ih).of_iff turnedAwaySince_concat

theorem connected_run {turn : Turn} (last : (run peer link requests).1.getLast? = some turn)
    (succeeds : turn.Succeeds) : (run peer link requests).2.pool.connected = true := by
  induction requests using List.reverseRecOn with
  | nil => cases last
  | append_singleton requests request _ =>
    rw [run_concat] at last ⊢
    rw [List.getLast?_concat] at last
    cases last
    exact (execute_step peer _ request).connected_of_succeeds succeeds

end Run

theorem isHealthy_of_closed {pool : Pool} (closed : pool.breaker.state = .closed) (now : Int) :
    (pool.isHealthy now).1 = true ↔ pool.health.status = .healthy := by
  have still : pool.breaker.settle now = pool.breaker :=
    Breaker.settle_of_ne_opened (by simp [closed])
  rw [isHealthy, LinkHealth.isHealthy, Breaker.look, still, closed]
  cases pool.health.status <;> simp

theorem healthy_iff_not_turnedAwaySince (peer : Peer σ) (config : BreakerConfig) (started : Int)
    (state : σ) (requests : List Request) (turn : Turn) (now : Int) :
    let course := run peer ⟨.start config started, state⟩ requests
    course.1.getLast? = some turn → turn.Succeeds → course.2.pool.breaker.state = .closed →
      (LinkGauges.read now course.2.pool).1.connected = (course.2.pool.isHealthy now).1 ∧
      ((course.2.pool.isHealthy now).1 = true ↔ ¬TurnedAwaySince course.1) := by
  intro course last succeeds closed
  have connected : course.2.pool.connected = true := connected_run last succeeds
  have tells : course.2.pool.Tells (TurnedAwaySince course.1) := run_tells rfl requests
  refine ⟨rfl, (isHealthy_of_closed closed now).trans ⟨fun healthy turned => ?_, ?_⟩⟩
  · cases healthy.symm.trans (tells.circuitOpen connected turned)
  · exact tells.healthy connected

-- Turned away over one connection, then served over the next.
theorem healthy_after_reconnecting :
    let peer := Rehearsal.scriptedPeer
    let config : BreakerConfig := { failureThreshold := 1, successThreshold := 2 }
    let requests : List Request := [⟨.all 0, .ping⟩, ⟨.all 1, .get "a"⟩, ⟨.all 2, .get "a"⟩,
      ⟨.all 40000, .get "a"⟩, ⟨.all 80000, .get "a"⟩]
    let course := run peer ⟨.start config 0, [none, some .refused, some .dropped]⟩ requests
    course.1.map Turn.fault = [none, some (.link .refused), some .circuitOpen,
      some (.link .dropped), none] ∧
    course.2.pool.breaker.state = .closed ∧ ¬TurnedAwaySince course.1 := by
  intro peer config requests course
  have healthy := healthy_iff_not_turnedAwaySince peer config 0 [none, some .refused, some .dropped]
    requests ⟨.halfOpen, some true, none⟩ 80001 (by decide +kernel) rfl (by decide +kernel)
  exact ⟨by decide +kernel, by decide +kernel, healthy.2.mp (by decide +kernel)⟩

-- A server that is up all the time refuses one command. The circuit opens, turns a call away and
-- closes over the next command, and the pool is not healthy again.
theorem unhealthy_after_closing :
    let peer := Rehearsal.scriptedPeer
    let config : BreakerConfig := { failureThreshold := 1, successThreshold := 1 }
    let requests : List Request :=
      [⟨.all 0, .ping⟩, ⟨.all 1, .get "a"⟩, ⟨.all 2, .get "a"⟩, ⟨.all 40000, .get "a"⟩]
    let course := run peer ⟨.start config 0, [none, some .refused]⟩ requests
    course.1.getLast?.map Turn.fault = some none ∧ course.2.pool.breaker.state = .closed ∧
      (course.2.pool.isHealthy 40001).1 = false ∧
      (LinkGauges.read 40001 course.2.pool).1.connected = false := by
  decide +kernel

end PagePress.Pool
