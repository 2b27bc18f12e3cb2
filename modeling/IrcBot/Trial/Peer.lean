/-
The other end of a socket, in memory, to try out pools and bots without a
network. What a peer does changes the stream at the near end at once; the
next pass is told of it, once, however much has happened.
-/
import IrcBot.Pool.Poll

namespace IrcBot

structure Peer where
  /-- All bytes it was sent. -/
  received : Bytes := []
  /-- How many of them it has read. -/
  read : Nat := 0
  /-- It has done something since the last pass. -/
  active : Bool := false
  /-- No pass has yet been told that the socket can be written. -/
  fresh : Bool := true
  aborted : Bool := false
  deriving Inhabited

namespace Peer

inductive Act where
  | send (bytes : Bytes)
  /-- Ends what it sends. -/
  | close
  /-- Breaks the connection off, in both directions. -/
  | abort

/-- What an act does to the stream at the near end. -/
def Act.apply : Act → Stream → Stream
  | .send bytes, s =>
    { s with source := { s.source with arrivals := s.source.arrivals ++ [.data bytes] } }
  | .close, s => { s with source := { s.source with ended := true } }
  | .abort, s =>
    { source := { arrivals := s.source.arrivals ++ [.failed .resetByPeer], ended := true }
      sink := { s.sink with broken := some .brokenPipe } }

def noteAct (p : Peer) : Act → Peer
  | .abort => { p with active := true, aborted := true }
  | _ => { p with active := true }

/-- What a pass is told of a socket, if there is anything. -/
def readiness? (p : Peer) (h : Handle) : Option Pool.Readiness :=
  if p.active || p.fresh then
    some { handle := h, readable := p.active, writable := true, error := p.aborted }
  else none

/-- The peer after a pass that was told. -/
def reported (p : Peer) : Peer := { p with active := false, fresh := false, aborted := false }

/-- Reads bytes out of what was received. -/
def take (p : Peer) (n : Nat) : Bytes × Peer :=
  ((p.received.drop p.read).take n, { p with read := p.read + n })

end Peer

end IrcBot
