import PagePress.Remote.Address
import PagePress.Text.Utf8

namespace PagePress

inductive Command : Type → Type where
  | get (key : String) : Command (Option Bytes)
  | set (key : String) (value : Bytes) : Command Unit
  -- Gone after so many seconds.
  | setFor (key : String) (seconds : Nat) (value : Bytes) : Command Unit
  -- Whether there was something to remove.
  | delete (key : String) : Command Bool
  | holds (key : String) : Command Bool
  | ping : Command Unit

def Command.words {α : Type} : Command α → List Bytes
  | .get key => [Text.utf8 "GET", Text.utf8 key]
  | .set key value => [Text.utf8 "SET", Text.utf8 key, value]
  | .setFor key seconds value =>
    [Text.utf8 "SETEX", Text.utf8 key, Text.utf8 (toString seconds), value]
  | .delete key => [Text.utf8 "DEL", Text.utf8 key]
  | .holds key => [Text.utf8 "EXISTS", Text.utf8 key]
  | .ping => [Text.utf8 "PING"]

inductive LinkFault where
  | badAddress (fault : AddressFault)
  | unreachable
  | dropped
  | refused
  deriving DecidableEq, Repr

def LinkFault.reason : LinkFault → String
  | .badAddress fault => fault.reason
  | .unreachable => "server cannot be reached"
  | .dropped => "connection dropped"
  | .refused => "server refused the command"

def LinkFault.loses : LinkFault → Bool
  | .unreachable | .dropped => true
  | .badAddress _ | .refused => false

structure Peer (σ : Type) where
  connect : σ → Bool × σ
  ask : {α : Type} → Int → Command α → σ → Except LinkFault α × σ

end PagePress
