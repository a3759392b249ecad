import PagePress.Remote.Breaker
import PagePress.Remote.Command
import PagePress.Remote.Link

namespace PagePress

inductive PoolError where
  | link (fault : LinkFault)
  | circuitOpen
  deriving DecidableEq, Repr

def PoolError.message : PoolError → String
  | .link fault => "Redis error: " ++ fault.reason
  | .circuitOpen => "Circuit breaker is open"

structure Pool where
  breaker : Breaker
  health : LinkHealth
  connected : Bool
  deriving DecidableEq, Repr

-- When a request asked to pass, when its connection stood or failed, and when its answer came.
structure Times where
  asked : Int
  connected : Int
  answered : Int

def Times.all (now : Int) : Times := ⟨now, now, now⟩

namespace Pool

def start (config : BreakerConfig) (now : Int) : Pool := ⟨.start config now, {}, false⟩

def permit (now : Int) (pool : Pool) : Bool × Pool :=
  let (allowed, breaker) := pool.breaker.allow now
  if allowed then (true, { pool with breaker })
  else (false, { pool with breaker, health := pool.health.circuitOpen })

def attempted (now : Int) (succeeded : Bool) (pool : Pool) : Pool :=
  let health := pool.health.reconnecting
  if succeeded then
    { pool with
      breaker := pool.breaker.recordSuccess now, health := health.connected now, connected := true }
  else { pool with breaker := pool.breaker.recordFailure now, health }

def answered {α : Type} (now : Int) (outcome : Except LinkFault α) (pool : Pool) : Pool :=
  match outcome with
  | .ok _ => { pool with breaker := pool.breaker.recordSuccess now }
  | .error fault =>
    let lost :=
      if fault.loses then { pool with health := pool.health.reconnecting, connected := false }
      else pool
    { lost with breaker := lost.breaker.recordFailure now }

structure Link (σ : Type) where
  pool : Pool
  peer : σ

variable {σ α : Type}

def connection (peer : Peer σ) (now : Int) (link : Link σ) : Bool × Link σ :=
  if link.pool.connected then (true, link)
  else
    let (succeeded, state) := peer.connect link.peer
    (succeeded, ⟨link.pool.attempted now succeeded, state⟩)

def execute (peer : Peer σ) (times : Times) (command : Command α) (link : Link σ) :
    Except PoolError α × Link σ :=
  let (allowed, pool) := link.pool.permit times.asked
  if allowed then
    let (connected, link) := connection peer times.connected { link with pool }
    if connected then
      let (outcome, state) := peer.ask times.answered command link.peer
      (outcome.mapError .link, ⟨link.pool.answered times.answered outcome, state⟩)
    else (.error (.link .unreachable), link)
  else (.error .circuitOpen, { link with pool })

-- Connected over a closed circuit. Asking may move the circuit on.
def isHealthy (now : Int) (pool : Pool) : Bool × Pool :=
  if pool.health.isHealthy then
    let (state, breaker) := pool.breaker.look now
    (state == .closed, { pool with breaker })
  else (false, pool)

def circuitState (now : Int) (pool : Pool) : CircuitState × Pool :=
  let (state, breaker) := pool.breaker.look now
  (state, { pool with breaker })

end Pool
structure LinkGauges where
  connected : Bool
  circuit : CircuitState
  attempts : UInt32
  lastConnected : Int
  deriving DecidableEq, Repr

def LinkGauges.read (now : Int) (pool : Pool) : LinkGauges × Pool :=
  let (connected, pool) := pool.isHealthy now
  let (circuit, pool) := pool.circuitState now
  (⟨connected, circuit, pool.health.attempts, pool.health.lastConnected⟩, pool)

def CircuitState.number : CircuitState → Nat
  | .closed => 0
  | .opened => 1
  | .halfOpen => 2

end PagePress
