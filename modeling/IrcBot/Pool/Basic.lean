/-
A pool of sockets. The pool owns every socket added to it, together with the
bytes waiting to be written and the bytes received; its users name a socket
by the handle they were given. Handles count up and are never given twice.

Callbacks are named by keys; what a key does is said when the pool is polled.
-/
import IrcBot.Stream.Reader
import IrcBot.Stream.WriteQueue
import IrcBot.Table
import IrcBot.Text.Quoted

namespace IrcBot

abbrev Handle := Nat

namespace Handle

def display (h : Handle) : Text := '#' :: Text.ofNat h

end Handle

/-- A connected, non-blocking socket. -/
structure Stream where
  source : Source := {}
  sink : Sink := {}
  deriving DecidableEq, Repr, Inhabited

/-- What is called when a socket can be read, can be written, or is in trouble. -/
structure Callbacks (κ : Type) where
  readable : Option κ := none
  writable : Option κ := none
  other : Option κ := none
  deriving DecidableEq, Repr, Inhabited

/-- The occasions for a callback. -/
inductive Occasion where
  | readable
  | writable
  | other
  deriving DecidableEq, Repr

def Callbacks.on {κ : Type} (c : Callbacks κ) : Occasion → Option κ
  | .readable => c.readable
  | .writable => c.writable
  | .other => c.other

structure Socket (κ : Type) where
  callbacks : Callbacks κ
  reader : Reader := {}
  sink : Sink := {}
  queue : WriteQueue := {}
  /-- The last flush stopped because the stream took no more. -/
  blocked : Bool := false
  deriving DecidableEq, Inhabited

namespace Socket

variable {κ : Type}

def ofStream (s : Stream) (callbacks : Callbacks κ) : Socket κ :=
  { callbacks, reader := { source := s.source }, sink := s.sink }

def stream (s : Socket κ) : Stream := { source := s.reader.source, sink := s.sink }

/-- Whether the socket is called back for writing without any news from the system. -/
def wantsWriting (s : Socket κ) : Bool :=
  s.callbacks.writable.isSome && s.queue.isEmpty && !s.blocked

/-- Writes what is queued; a failure leaves the rest in the queue. -/
def flush (s : Socket κ) : Option IoError × Socket κ :=
  let (flushed, queue, sink) := s.queue.flush s.sink
  let s := { s with queue, sink }
  match flushed with
  | .drained => (none, { s with blocked := false })
  | .blocked => (none, { s with blocked := true })
  | .failed e => (some e, s)

end Socket

structure Pool (κ : Type) where
  sockets : Table Handle (Socket κ) := .empty
  nextHandle : Handle := 0
  stopping : Bool := false
  /-- How long one wait may last, in milliseconds. -/
  pollTimeout : Nat
  deriving DecidableEq

namespace Pool

variable {κ : Type}

inductive Error where
  | io (error : IoError)
  | unknownHandle (handle : Handle)
  /-- The peer has closed the stream. -/
  | closed
  deriving DecidableEq, Repr

def Error.message : Error → Text
  | .io e => "i/o error: ".toList ++ e.message
  | .unknownHandle h => "unknown socket handle ".toList ++ h.display
  | .closed => "socket closed by peer".toList

def Error.ofStop : Source.Stop → Error
  | .closed => .closed
  | .failed e => .io e

def socket? (p : Pool κ) (h : Handle) : Option (Socket κ) := p.sockets.get? h

def contains (p : Pool κ) (h : Handle) : Bool := (p.socket? h).isSome

def size (p : Pool κ) : Nat := p.sockets.size

/-- How many bytes wait to be written to a socket. -/
def pending? (p : Pool κ) (h : Handle) : Option Nat := (p.socket? h).map (·.queue.pending)

def set (p : Pool κ) (h : Handle) (s : Socket κ) : Pool κ :=
  { p with sockets := p.sockets.insert h s }

def add (p : Pool κ) (s : Stream) (callbacks : Callbacks κ) : Handle × Pool κ :=
  (p.nextHandle,
    { p with
      sockets := p.sockets.insert p.nextHandle (.ofStream s callbacks)
      nextHandle := p.nextHandle + 1 })

/-- Does something with a socket, if the pool has it. -/
def withSocket {α : Type} (p : Pool κ) (h : Handle) (f : Socket κ → α × Socket κ) :
    Except Error α × Pool κ :=
  match p.socket? h with
  | none => (.error (.unknownHandle h), p)
  | some s =>
    let (a, s) := f s
    (.ok a, p.set h s)

def update (p : Pool κ) (h : Handle) (callbacks : Callbacks κ) : Except Error Unit × Pool κ :=
  p.withSocket h fun s => ((), { s with callbacks })

/-- Queues bytes for a socket. -/
def enqueue (p : Pool κ) (h : Handle) (bytes : Bytes) : Except Error Unit × Pool κ :=
  p.withSocket h fun s => ((), { s with queue := s.queue.push bytes })

/-- Gives a socket back to the caller, open, without what was queued or buffered. -/
def remove (p : Pool κ) (h : Handle) : Except Error Stream × Pool κ :=
  match p.socket? h with
  | none => (.error (.unknownHandle h), p)
  | some s => (.ok s.stream, { p with sockets := p.sockets.erase h })

/-- Closes a socket and drops what was queued. -/
def close (p : Pool κ) (h : Handle) : Bool × Pool κ :=
  (p.contains h, { p with sockets := p.sockets.erase h })

/-- The next line a socket has received, if there is a complete one. -/
def readLine (p : Pool κ) (h : Handle) : Except Error (Option Text) × Pool κ :=
  match p.socket? h with
  | none => (.error (.unknownHandle h), p)
  | some s =>
    let (result, reader) := s.reader.next
    (result.mapError .ofStop, p.set h { s with reader })

/-- All lines a socket has received, and why there are no more, unless more may come. -/
def drain (p : Pool κ) (h : Handle) : (List Text × Option Error) × Pool κ :=
  match p.socket? h with
  | none => (([], some (.unknownHandle h)), p)
  | some s =>
    let (lines, stop, reader) := s.reader.drain
    ((lines, stop.map .ofStop), p.set h { s with reader })

/-- Changes the stream of a socket, if the pool has it; this is what the network does to one. -/
def adjustStream (p : Pool κ) (h : Handle) (f : Stream → Stream) : Pool κ :=
  match p.socket? h with
  | none => p
  | some s =>
    let t := f s.stream
    p.set h { s with reader := { s.reader with source := t.source }, sink := t.sink }

def stop (p : Pool κ) : Pool κ := { p with stopping := true }

/-- A description of the pool. -/
def describe (p : Pool κ) : Text :=
  Text.describeRecord "SocketPool"
    [("sockets", .ofNat p.size), ("poll_timeout", .ofNat p.pollTimeout ++ "ms".toList),
      ("stopping", (toString p.stopping).toList)]

end Pool

end IrcBot
