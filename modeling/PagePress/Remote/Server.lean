import PagePress.Remote.Command

namespace PagePress

structure Stored where
  value : Bytes
  -- The time from which it is gone.
  goneAt : Option Int
  deriving DecidableEq, Repr

structure KeyServer where
  table : List (String × Stored) := []
  deriving DecidableEq, Repr

namespace KeyServer

def expire (now : Int) (server : KeyServer) : KeyServer :=
  ⟨server.table.filter fun (_, stored) => stored.goneAt.all (now < ·)⟩

def value? (server : KeyServer) (key : String) : Option Bytes :=
  (server.table.find? (·.1 == key)).map (·.2.value)

def without (server : KeyServer) (key : String) : KeyServer :=
  ⟨server.table.filter (·.1 != key)⟩

def put (server : KeyServer) (key : String) (stored : Stored) : KeyServer :=
  ⟨(key, stored) :: (server.without key).table⟩

def perform {α : Type} (now : Int) (server : KeyServer) : Command α → α × KeyServer
  | .get key => (server.value? key, server)
  | .set key value => ((), server.put key ⟨value, none⟩)
  | .setFor key seconds value => ((), server.put key ⟨value, some (now + 1000 * seconds)⟩)
  | .delete key => ((server.value? key).isSome, server.without key)
  | .holds key => ((server.value? key).isSome, server)
  | .ping => ((), server)

def run {α : Type} (now : Int) (command : Command α) (server : KeyServer) : α × KeyServer :=
  (server.expire now).perform now command

def peer : Peer KeyServer where
  connect server := (true, server)
  ask now command server :=
    let (answer, server) := run now command server
    (.ok answer, server)

end KeyServer
end PagePress
