namespace PagePress

inductive LinkStatus where
  | healthy
  -- Not connected yet, or the last connection dropped.
  | reconnecting
  | circuitOpen
  deriving DecidableEq, Repr

def LinkStatus.name : LinkStatus → String
  | .healthy => "healthy"
  | .reconnecting => "reconnecting"
  | .circuitOpen => "circuit_open"

structure LinkHealth where
  status : LinkStatus := .reconnecting
  -- Zero before the first connection.
  lastConnected : Int := 0
  attempts : UInt32 := 0
  deriving DecidableEq, Repr

namespace LinkHealth

def isHealthy (health : LinkHealth) : Bool := health.status == .healthy

def connected (now : Int) (_ : LinkHealth) : LinkHealth := ⟨.healthy, now, 0⟩

def reconnecting (health : LinkHealth) : LinkHealth :=
  { health with status := .reconnecting, attempts := health.attempts + 1 }

def circuitOpen (health : LinkHealth) : LinkHealth := { health with status := .circuitOpen }

end LinkHealth
end PagePress
