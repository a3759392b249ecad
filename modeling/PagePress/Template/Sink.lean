import PagePress.Text.Utf8

namespace PagePress.Template

inductive Piece where
  -- Text between actions.
  | text (bytes : Bytes)
  -- What an action printed.
  | printed (bytes : Bytes)
  deriving DecidableEq, Repr

namespace Piece

def bytes : Piece → Bytes
  | .text bytes | .printed bytes => bytes

def take (n : Nat) : Piece → Piece
  | .text bytes => .text (bytes.take n)
  | .printed bytes => .printed (bytes.take n)

end Piece

structure Sink where
  -- How many bytes still fit; none without a limit.
  room : Option Nat := none
  failsToFlush : Bool := false
  -- The last piece first.
  pieces : List Piece := []
  deriving DecidableEq, Repr

inductive WriteFault where
  | full
  | notFlushed
  deriving DecidableEq, Repr

def WriteFault.message : WriteFault → String
  | .full => "sink is full"
  | .notFlushed => "flush failed"

namespace Sink

def write (sink : Sink) (piece : Piece) : Except WriteFault Unit × Sink :=
  match sink.room with
  | none => (.ok (), { sink with pieces := piece :: sink.pieces })
  | some room =>
    let size := piece.bytes.length
    if size ≤ room then
      (.ok (), { sink with room := some (room - size), pieces := piece :: sink.pieces })
    else
      (.error .full, { sink with room := some 0, pieces := piece.take room :: sink.pieces })

def flush (sink : Sink) : Except WriteFault Unit :=
  if sink.failsToFlush then .error .notFlushed else .ok ()

def written (sink : Sink) : Bytes := sink.pieces.reverse.flatMap Piece.bytes

end Sink
end PagePress.Template
