import PagePress.Proofs.Remote.Breaker
import PagePress.Remote.Pool

namespace PagePress.Pool

variable {σ : Type}

structure Request where
  {answer : Type}
  times : Times
  command : Command answer

structure Turn where
  circuit : CircuitState
  attempt : Option Bool
  fault : Option PoolError
  deriving DecidableEq, Repr

namespace Turn

def Succeeds (turn : Turn) : Prop := turn.fault = none

def Connects (turn : Turn) : Prop := turn.attempt = some true

def TurnedAway (turn : Turn) : Prop := turn.fault = some .circuitOpen

instance (turn : Turn) : Decidable turn.Succeeds := inferInstanceAs (Decidable (_ = _))

instance (turn : Turn) : Decidable turn.Connects := inferInstanceAs (Decidable (_ = _))

instance (turn : Turn) : Decidable turn.TurnedAway := inferInstanceAs (Decidable (_ = _))

end Turn

section Run

variable (peer : Peer σ)

def next (link : Link σ) (request : Request) : Link σ :=
  (execute peer request.times request.command link).2

def attempt (link : Link σ) (request : Request) : Option Bool :=
  if (link.pool.permit request.times.asked).1 ∧ ¬link.pool.connected then
    some (peer.connect link.peer).1
  else none

def turn (link : Link σ) (request : Request) : Turn where
  circuit := (link.pool.circuitState request.times.asked).1
  attempt := attempt peer link request
  fault :=
    match (execute peer request.times request.command link).1 with
    | .ok _ => none
    | .error e => some e

def run (link : Link σ) : List Request → List Turn × Link σ
  | [] => ([], link)
  | request :: rest =>
    let (turns, last) := run (next peer link request) rest
    (turn peer link request :: turns, last)

end Run

-- The pool as a request that passes the breaker finds it.
def settled (now : Int) (pool : Pool) : Pool := { pool with breaker := pool.breaker.settle now }

inductive Stands (now : Int) (pool : Pool) : Option Bool → Pool → Prop where
  | kept : pool.connected = true → Stands now pool none pool
  | made : pool.connected = false → Stands now pool (some true) (pool.attempted now true)

inductive Step (times : Times) (pool : Pool) : Turn → Pool → Prop where
  | turnedAway : (pool.breaker.settle times.asked).state = .opened →
      Step times pool ⟨.opened, none, some .circuitOpen⟩
        { pool.settled times.asked with health := pool.health.circuitOpen }
  | unreached : (pool.breaker.settle times.asked).state ≠ .opened → pool.connected = false →
      Step times pool ⟨(pool.breaker.settle times.asked).state, some false,
        some (.link .unreachable)⟩
        ((pool.settled times.asked).attempted times.connected false)
  | answered {attempt : Option Bool} {ready : Pool} :
      (pool.breaker.settle times.asked).state ≠ .opened →
      Stands times.connected (pool.settled times.asked) attempt ready →
      Step times pool ⟨(pool.breaker.settle times.asked).state, attempt, none⟩
        (ready.answered times.answered (.ok ()))
  | failed {attempt : Option Bool} {ready : Pool} (fault : LinkFault) :
      (pool.breaker.settle times.asked).state ≠ .opened →
      Stands times.connected (pool.settled times.asked) attempt ready →
      Step times pool ⟨(pool.breaker.settle times.asked).state, attempt, some (.link fault)⟩
        (ready.answered times.answered (.error fault : Except LinkFault Unit))

section Permit

variable {pool : Pool} {now : Int}

theorem permit_opened (opened : (pool.breaker.settle now).state = .opened) :
    pool.permit now = (false, { pool.settled now with health := pool.health.circuitOpen }) := by
  simp [permit, Breaker.allow, opened, settled]

theorem permit_passes (passes : (pool.breaker.settle now).state ≠ .opened) :
    pool.permit now = (true, pool.settled now) := by
  simp [permit, Breaker.allow, passes, settled]

end Permit

section Execute

variable {peer : Peer σ} {link : Link σ} {request : Request}

theorem connection_kept {now : Int} (connected : link.pool.connected = true) :
    connection peer now link = (true, link) :=
  if_pos connected

theorem connection_new {now : Int} (alone : link.pool.connected = false) :
    connection peer now link =
      ((peer.connect link.peer).1,
        ⟨link.pool.attempted now (peer.connect link.peer).1, (peer.connect link.peer).2⟩) :=
  if_neg (by simp [alone])

theorem execute_opened (opened : (link.pool.breaker.settle request.times.asked).state = .opened) :
    execute peer request.times request.command link = (.error .circuitOpen,
      ⟨{ link.pool.settled request.times.asked with health := link.pool.health.circuitOpen },
        link.peer⟩) := by
  rw [execute, permit_opened opened]
  rfl

section Passes

variable (passes : (link.pool.breaker.settle request.times.asked).state ≠ .opened)
include passes

theorem execute_unreached {after : Link σ}
    (failed : connection peer request.times.connected
      ⟨link.pool.settled request.times.asked, link.peer⟩ = (false, after)) :
    execute peer request.times request.command link = (.error (.link .unreachable), after) := by
  rw [execute, permit_passes passes]
  simp only [↓reduceIte, failed]
  rfl

theorem execute_stood {ready : Link σ}
    (stood : connection peer request.times.connected
      ⟨link.pool.settled request.times.asked, link.peer⟩ = (true, ready)) :
    execute peer request.times request.command link =
      let (outcome, state) := peer.ask request.times.answered request.command ready.peer
      (outcome.mapError .link, ⟨ready.pool.answered request.times.answered outcome, state⟩) := by
  rw [execute, permit_passes passes]
  simp only [↓reduceIte, stood]

theorem turn_passes :
    turn peer link request =
      ⟨(link.pool.breaker.settle request.times.asked).state,
        if link.pool.connected then none else some (peer.connect link.peer).1,
        match (execute peer request.times request.command link).1 with
        | .ok _ => none
        | .error e => some e⟩ := by
  rw [turn, attempt, permit_passes passes]
  cases link.pool.connected <;> rfl

theorem step_of_stands {attempt : Option Bool} {ready : Pool} {state : σ}
    (stands : Stands request.times.connected (link.pool.settled request.times.asked) attempt ready)
    (tried : attempt = if link.pool.connected then none else some (peer.connect link.peer).1)
    (stood : connection peer request.times.connected
      ⟨link.pool.settled request.times.asked, link.peer⟩ = (true, ⟨ready, state⟩)) :
    Step request.times link.pool (turn peer link request) (next peer link request).pool := by
  rw [turn_passes passes, next, execute_stood passes stood, ← tried]
  dsimp only
  cases (peer.ask request.times.answered request.command state).1 with
  | ok answer => exact .answered passes stands
  | error fault => exact .failed fault passes stands

end Passes

theorem execute_step (peer : Peer σ) (link : Link σ) (request : Request) :
    Step request.times link.pool (turn peer link request) (next peer link request).pool := by
  by_cases opened : (link.pool.breaker.settle request.times.asked).state = .opened
  · have away := permit_opened opened
    rw [turn, attempt, next, circuitState, Breaker.look, execute_opened opened, away, opened]
    exact .turnedAway opened
  · cases connected : link.pool.connected with
    | true =>
      exact step_of_stands opened (.kept connected) (by simp [connected])
        (connection_kept connected)
    | false =>
      have new : connection peer request.times.connected
          ⟨link.pool.settled request.times.asked, link.peer⟩ = _ := connection_new connected
      cases reached : (peer.connect link.peer).1 with
      | true =>
        rw [reached] at new
        exact step_of_stands opened (.made connected) (by simp [connected, reached]) new
      | false =>
        rw [reached] at new
        rw [turn_passes opened, next, execute_unreached opened new, connected, reached]
        exact .unreached opened connected

end Execute

section Fields

variable {pool : Pool} {now : Int}

@[simp] theorem breaker_answered_error {α : Type} (fault : LinkFault) :
    (pool.answered now (.error fault : Except LinkFault α)).breaker =
      pool.breaker.recordFailure now := by
  simp only [answered]
  split <;> rfl

@[simp] theorem health_answered_error {α : Type} (fault : LinkFault) :
    (pool.answered now (.error fault : Except LinkFault α)).health =
      if fault.loses then pool.health.reconnecting else pool.health := by
  simp only [answered]
  split <;> rfl

@[simp] theorem connected_answered_error {α : Type} (fault : LinkFault) :
    (pool.answered now (.error fault : Except LinkFault α)).connected =
      (pool.connected && !fault.loses) := by
  simp only [answered]
  split <;> simp_all

end Fields

section Step

variable {times : Times} {pool after : Pool} {turn : Turn}

theorem Stands.connected {now : Int} {attempt : Option Bool}
    (stands : Stands now pool attempt after) :
    after.connected = true := by
  cases stands with
  | kept connected => exact connected
  | made => rfl

theorem Step.circuit (step : Step times pool turn after) :
    turn.circuit = (pool.breaker.settle times.asked).state := by
  cases step with
  | turnedAway opened => exact opened.symm
  | unreached | answered | failed => rfl

theorem Step.connected_of_succeeds (step : Step times pool turn after) (succeeds : turn.Succeeds) :
    after.connected = true := by
  cases step with
  | answered _ stands => exact stands.connected
  | turnedAway | unreached | failed => cases succeeds

theorem Step.alone_of_connects (step : Step times pool turn after) (connects : turn.Connects) :
    pool.connected = false := by
  cases step with
  | turnedAway | unreached => cases connects
  | answered _ stands | failed _ _ stands =>
    cases connects
    cases stands with
    | made alone => exact alone

theorem Stands.counted {now : Int} {attempt : Option Bool} (stands : Stands now pool attempt after)
    (counted : pool.breaker.Counted) : after.breaker.Counted := by
  cases stands with
  | kept => exact counted
  | made => exact counted.recordSuccess now

theorem Step.counted (step : Step times pool turn after) (counted : pool.breaker.Counted) :
    after.breaker.Counted := by
  have settled := counted.settle times.asked
  cases step with
  | turnedAway => exact settled
  | unreached => exact settled.recordFailure times.connected
  | answered _ stands => exact (stands.counted settled).recordSuccess times.answered
  | failed fault _ stands =>
    rw [breaker_answered_error]
    exact (stands.counted settled).recordFailure times.answered

theorem Stands.config {now : Int} {attempt : Option Bool} (stands : Stands now pool attempt after) :
    after.breaker.config = pool.breaker.config := by
  cases stands with
  | kept => rfl
  | made => exact Breaker.config_recordSuccess

theorem Step.config (step : Step times pool turn after) :
    after.breaker.config = pool.breaker.config := by
  have settled : (pool.settled times.asked).breaker.config = pool.breaker.config :=
    Breaker.config_settle
  cases step with
  | turnedAway => exact settled
  | unreached => exact Breaker.config_recordFailure.trans settled
  | answered _ stands => exact Breaker.config_recordSuccess.trans (stands.config.trans settled)
  | failed fault _ stands =>
    rw [breaker_answered_error, Breaker.config_recordFailure, stands.config, settled]

end Step

inductive Reached : Pool → Prop where
  | start (config : BreakerConfig) (now : Int) : Reached (.start config now)
  | next {σ : Type} (peer : Peer σ) (link : Link σ) (request : Request) : Reached link.pool →
      Reached (next peer link request).pool
  | isHealthy {pool : Pool} (now : Int) : Reached pool → Reached (pool.isHealthy now).2
  | circuitState {pool : Pool} (now : Int) : Reached pool → Reached (pool.circuitState now).2

theorem Reached.counted {pool : Pool} (reached : Reached pool) : pool.breaker.Counted := by
  induction reached with
  | start config now => exact Breaker.counted_start config
  | next peer link request _ ih => exact (execute_step peer link request).counted ih
  | isHealthy now _ ih =>
    rw [Pool.isHealthy]
    split
    · exact ih.settle now
    · exact ih
  | circuitState now _ ih => exact ih.settle now

section Run

variable {peer : Peer σ}

theorem run_concat (link : Link σ) (requests : List Request) (request : Request) :
    run peer link (requests ++ [request]) =
      ((run peer link requests).1 ++ [turn peer (run peer link requests).2 request],
        next peer (run peer link requests).2 request) := by
  induction requests generalizing link with
  | nil => rfl
  | cons first rest ih => simp [run, ih]

theorem config_run (link : Link σ) (requests : List Request) :
    (run peer link requests).2.pool.breaker.config = link.pool.breaker.config := by
  induction requests generalizing link with
  | nil => rfl
  | cons request rest ih => exact (ih _).trans (execute_step peer link request).config

end Run

end PagePress.Pool
