/-
Trials of the pool: sockets with peers in memory, and callbacks out of a
fixed choice that write down what they meet.
-/
import IrcBot.Trial.Peer

namespace IrcBot

namespace PoolTrial

/-- What a callback does. -/
inductive Manner where
  /-- Reads all lines. -/
  | drain
  /-- Reads all lines, and closes the socket when the stream has stopped. -/
  | hangUp
  /-- Reads all lines and queues each of them for the peer. -/
  | echo
  | readOne
  | close
  | panic
  /-- Writes down that the socket can be written; `andWrite`, `andRetire` and
  `andPanic` go on from there. -/
  | noteWritable
  | andWrite
  | andRetire
  | andPanic
  | noteTrouble
  | closeOnTrouble
  deriving DecidableEq, Repr

inductive Entry where
  | read (result : Except Pool.Error (Option Text))
  | closed (found : Bool)
  | writable
  | trouble
  | panicking

/-- What callbacks write down, with the socket it is about. -/
abbrev Line := Handle × Entry

abbrev Act (α : Type) := Program (Pool.requests Manner (.writing Line)) α

def ask (q : Pool.Ask Manner Line) : Act ((Pool.requests Manner (.writing Line)).Answer q) :=
  Program.request (R := Pool.requests Manner (.writing Line)) q

def write (h : Handle) (entry : Entry) : Act Unit := ask (.act (h, entry))

def close (h : Handle) : Act Unit := do
  let found : Bool ← ask (.close h)
  write h (.closed found)

def enqueue (h : Handle) (bytes : Bytes) : Act Unit := do
  let _ ← ask (.enqueue h bytes)

/-- Writes lines down; `each` says what else is done with a line. -/
def noteLines (h : Handle) (each : Text → Act Unit) : List Text → Act Unit
  | [] => pure ()
  | line :: rest => do
    write h (.read (.ok (some line)))
    each line
    noteLines h each rest

/-- Reads all lines, and says why the stream has stopped, if it has. -/
def drain (h : Handle) (each : Text → Act Unit) : Act (Option Pool.Error) := do
  let (lines, stop) ← (ask (.drain h) : Act (List Text × Option Pool.Error))
  noteLines h each lines
  write h (.read (stop.elim (.ok none) .error))
  return stop

def ignore (_ : Text) : Act Unit := pure ()

def behave : Manner → Handle → Act Unit
  | .drain, h => do
    let _ ← drain h ignore
  | .hangUp, h => do
    if (← drain h ignore).isSome then close h
  | .echo, h => do
    let _ ← drain h fun line => enqueue h (Text.encode (line ++ ['\n']))
  | .readOne, h => do
    let line : Except Pool.Error (Option Text) ← ask (.readLine h)
    write h (.read line)
  | .close, h => close h
  | .panic, h => do
    write h .panicking
    .panicked
  | .noteWritable, h => write h .writable
  | .andWrite, h => do
    write h .writable
    enqueue h (Text.encode "w\r\n".toList)
  | .andRetire, h => do
    write h .writable
    let _ ← ask (.update h {})
  | .andPanic, h => do
    write h .writable
    .panicked
  | .noteTrouble, h => write h .trouble
  | .closeOnTrouble, h => do
    write h .trouble
    close h

def conduct : Pool.Conduct Manner (List Line) (.writing Line) where
  behave := behave
  perform (line : Line) journal := ((), journal ++ [line])

end PoolTrial

structure PoolTrial where
  pool : Pool PoolTrial.Manner := { pollTimeout := 5 }
  /-- The peers of all sockets ever added. -/
  peers : Table Handle Peer := .empty
  journal : List PoolTrial.Line := []

namespace PoolTrial

/-- Adds a socket with a new peer. -/
def add (t : PoolTrial) (callbacks : Callbacks Manner) : Handle × PoolTrial :=
  let (h, pool) := t.pool.add {} callbacks
  (h, { t with pool, peers := t.peers.insert h {} })

def apply {α : Type} (t : PoolTrial) (f : Pool Manner → α × Pool Manner) : α × PoolTrial :=
  let (a, pool) := f t.pool
  (a, { t with pool })

def ready (t : PoolTrial) : List Pool.Readiness :=
  t.peers.entries.filterMap fun e =>
    if t.pool.contains e.1 then e.2.readiness? e.1 else none

/-- Shows each peer what it was sent. -/
def deliver (pool : Pool Manner) (peers : Table Handle Peer) : Table Handle Peer :=
  pool.sockets.entries.foldl (fun peers e =>
    peers.adjust e.1 fun p => { p with received := e.2.sink.taken }) peers

def poll (t : PoolTrial) : PoolTrial :=
  let r := Pool.poll conduct { ready := t.ready } { pool := t.pool, world := t.journal }
  let peers := t.ready.foldl (fun peers q => peers.adjust q.handle Peer.reported) t.peers
  { pool := r.pool, peers := deliver r.pool peers, journal := r.world }

/-- The peer of a socket does something. -/
def act (t : PoolTrial) (h : Handle) (a : Peer.Act) : PoolTrial :=
  { t with pool := t.pool.adjustStream h a.apply, peers := t.peers.adjust h (·.noteAct a) }

/-- The peer of a socket reads. -/
def peerRead (t : PoolTrial) (h : Handle) (n : Nat) : Option (Bytes × PoolTrial) :=
  (t.peers.get? h).map fun p =>
    let (bytes, p) := p.take n
    (bytes, { t with peers := t.peers.insert h p })

/-- Shuts the writing side of a socket. -/
def shut (t : PoolTrial) (h : Handle) : PoolTrial :=
  { t with pool := t.pool.adjustStream h fun s =>
      { s with sink := { s.sink with broken := some .brokenPipe } } }

/-- Takes a socket out of the pool and writes to it directly. -/
def removeAndWrite (t : PoolTrial) (h : Handle) (bytes : Bytes) :
    Except Pool.Error Answer × PoolTrial :=
  match t.pool.remove h with
  | (.error e, pool) => (.error e, { t with pool })
  | (.ok stream, pool) =>
    let (answer, sink) := stream.sink.write bytes
    (.ok answer,
      { t with pool, peers := t.peers.adjust h fun p => { p with received := sink.taken } })

/-- What was written down, socket by socket. -/
def bySocket (t : PoolTrial) : List Line := t.journal.mergeSort fun a b => a.1 ≤ b.1

end PoolTrial

end IrcBot
