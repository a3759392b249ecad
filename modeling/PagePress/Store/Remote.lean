import PagePress.Remote.Pool
import PagePress.Store.Basic

namespace PagePress.RemoteStore

def keyOf (space id : String) : String := space ++ ":" ++ id

def storeError : PoolError → StoreError
  | .circuitOpen => .circuitOpen
  | .link fault => .backend fault.reason

variable {σ : Type}

-- Whole seconds, and at least one.
def saving (key : String) (bytes : Bytes) : Option Nat → Command Unit
  | some millis => .setFor key (max (millis / 1000) 1) bytes
  | none => .set key bytes

def run {α : Type} (peer : Peer σ) (now : Int) (command : Command α) (link : Pool.Link σ) :
    Except StoreError α × Pool.Link σ :=
  let (outcome, link) := Pool.execute peer (.all now) command link
  (outcome.mapError storeError, link)

def get (peer : Peer σ) (space : String) (now : Int) (id : String) (link : Pool.Link σ) :
    Except StoreError Bytes × Pool.Link σ :=
  match run peer now (.get (keyOf space id)) link with
  | (.ok (some bytes), link) => (.ok bytes, link)
  | (.ok none, link) => (.error (.notFound id), link)
  | (.error e, link) => (.error e, link)

def store (peer : Peer σ) (space : String) : Store (Pool.Link σ) where
  name := "redis"
  get := get peer space
  set now id bytes keptFor link :=
    let (outcome, link) := run peer now (saving (keyOf space id) bytes keptFor) link
    (returned outcome, link)
  delete now id := run peer now (.delete (keyOf space id))
  holds now id := run peer now (.holds (keyOf space id))
  healthy now link :=
    let (outcome, link) := run peer now .ping link
    (outcome.toBool, link)

end PagePress.RemoteStore
