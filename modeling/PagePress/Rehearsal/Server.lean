import PagePress.Remote.Server

namespace PagePress.Rehearsal

inductive ServerFault where
  | refuses
  | drops
  deriving DecidableEq, Repr

structure Server where
  listening : Bool := true
  fault : Option ServerFault := none
  server : KeyServer := {}
  -- The last command first.
  heard : List (List Bytes) := []

namespace Server

-- A command that is refused or cut off changes nothing.
def ask {α : Type} (now : Int) (command : Command α) (s : Server) : Except LinkFault α × Server :=
  let s := { s with heard := command.words :: s.heard }
  match s.fault with
  | some .refuses => (.error .refused, s)
  | some .drops => (.error .dropped, s)
  | none =>
    let (answer, server) := KeyServer.run now command s.server
    (.ok answer, { s with server })

def peer : Peer Server := ⟨fun s => (s.listening, s), ask⟩

end Server

def scriptedPeer : Peer (List (Option LinkFault)) where
  connect faults := (true, faults)
  ask now command faults :=
    match faults.headD none with
    | some fault => (.error fault, faults.tail)
    | none => (.ok (KeyServer.run now command {}).1, faults.tail)

end PagePress.Rehearsal
