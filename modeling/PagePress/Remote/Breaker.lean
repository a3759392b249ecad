attribute [instance (20000)] instPowNat

attribute [default_instance 20000] instPowNat

namespace PagePress

inductive CircuitState where
  | closed
  | opened
  | halfOpen
  deriving DecidableEq, Repr

def CircuitState.name : CircuitState → String
  | .closed => "closed"
  | .opened => "open"
  | .halfOpen => "half_open"

structure Duration where
  seconds : UInt64
  nanos : Fin 1000000000
  deriving DecidableEq, Repr

namespace Duration

def ofSeconds (seconds : UInt64) : Duration := ⟨seconds, 0⟩

def millis (duration : Duration) : Nat := 1000 * duration.seconds.toNat + duration.nanos / 1000000

end Duration

structure BreakerConfig where
  failureThreshold : UInt32 := 5
  successThreshold : UInt32 := 2
  reset : Duration := .ofSeconds 30
  deriving DecidableEq, Repr

-- The milliseconds as a signed word of 64 bits: what does not fit is cut off, and comes out too
-- small or negative.
def BreakerConfig.resetMillis (config : BreakerConfig) : Int :=
  Int.bmod config.reset.millis (2 ^ 64)

structure Breaker where
  config : BreakerConfig
  state : CircuitState
  failures : UInt32
  successes : UInt32
  changedAt : Int
  deriving DecidableEq, Repr

namespace Breaker

def start (config : BreakerConfig) (now : Int) : Breaker := ⟨config, .closed, 0, 0, now⟩

def settle (now : Int) (breaker : Breaker) : Breaker :=
  if breaker.state = .opened ∧ breaker.config.resetMillis ≤ now - breaker.changedAt then
    { breaker with state := .halfOpen, successes := 0, changedAt := now }
  else breaker

-- Looking at the state is what moves it on.
def look (now : Int) (breaker : Breaker) : CircuitState × Breaker :=
  ((breaker.settle now).state, breaker.settle now)

def allow (now : Int) (breaker : Breaker) : Bool × Breaker :=
  ((breaker.settle now).state != .opened, breaker.settle now)

def close (now : Int) (breaker : Breaker) : Breaker :=
  { breaker with state := .closed, failures := 0, successes := 0, changedAt := now }

-- The failures that opened it stay on record.
def trip (now : Int) (breaker : Breaker) : Breaker :=
  { breaker with state := .opened, successes := 0, changedAt := now }

def recordSuccess (now : Int) (breaker : Breaker) : Breaker :=
  match breaker.state with
  | .closed => { breaker with failures := 0 }
  | .halfOpen =>
    let counted := { breaker with successes := breaker.successes + 1 }
    if counted.config.successThreshold ≤ counted.successes then counted.close now else counted
  | .opened => breaker

-- A failure while it is open starts the wait again.
def recordFailure (now : Int) (breaker : Breaker) : Breaker :=
  match breaker.state with
  | .closed =>
    let counted := { breaker with failures := breaker.failures + 1 }
    if counted.config.failureThreshold ≤ counted.failures then counted.trip now else counted
  | .halfOpen => breaker.trip now
  | .opened => { breaker with changedAt := now }

end Breaker
end PagePress
