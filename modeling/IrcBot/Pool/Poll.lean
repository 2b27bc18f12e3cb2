/-
One pass over the pool. The system reports which sockets are ready; for each
of them, in the order of the report, trouble is told first, then the socket
is read, then written: its queue is flushed, or, if nothing is queued, its
writable callback is called. After that every queue with data in it is
flushed, and every socket that wants to write and has not been called yet is
called. The report is that of a wait that has succeeded: where the wait is
interrupted or fails, there is no report, and nothing is done to the pool.

A socket that does not take what is written loses its queue and is told of
trouble; one that has no callback for trouble is closed. A panicking callback
disturbs nobody else.
-/
import IrcBot.Pool.Basic
import IrcBot.Program

namespace IrcBot.Pool

variable {κ ι ω : Type}

/-- Requests a callback makes: of the pool, or (`act`) of the world. -/
inductive Ask (κ ι : Type) where
  | readLine (h : Handle)
  | drain (h : Handle)
  | enqueue (h : Handle) (bytes : Bytes)
  | update (h : Handle) (callbacks : Callbacks κ)
  | remove (h : Handle)
  | close (h : Handle)
  | contains (h : Handle)
  | pending? (h : Handle)
  | stop
  | act (i : ι)

def requests (κ : Type) (R : Requests) : Requests where
  Ask := Ask κ R.Ask
  Answer
    | .readLine _ => Except Error (Option Text)
    | .drain _ => List Text × Option Error
    | .enqueue .. | .update .. => Except Error Unit
    | .remove _ => Except Error Stream
    | .close _ | .contains _ => Bool
    | .pending? _ => Option Nat
    | .stop => Unit
    | .act i => R.Answer i

abbrev Callback (κ : Type) (R : Requests) := Program (requests κ R) Unit

/-- What happened during a pass, for whoever wants to look into it. -/
inductive Note where
  | called (h : Handle) (occasion : Occasion)
  | returned (h : Handle) (outcome : Outcome Unit)
  /-- A callback was handed these lines. -/
  | read (h : Handle) (lines : List Text)

/-- The pool and its world while callbacks run. -/
structure Run (κ ω : Type) where
  pool : Pool κ
  world : ω
  notes : Array Note := #[]

namespace Run

def note (r : Run κ ω) (n : Note) : Run κ ω := { r with notes := r.notes.push n }

@[simp] theorem toList_notes_note (r : Run κ ω) (n : Note) :
    (r.note n).notes.toList = r.notes.toList ++ [n] := Array.toList_push

/-- Applies an operation of the pool. -/
def apply {α : Type} (r : Run κ ω) (f : Pool κ → α × Pool κ) : α × Run κ ω :=
  let (a, pool) := f r.pool
  (a, { r with pool })

end Run

/-- What callbacks do, and what acts on the world do. -/
structure Conduct (κ ω : Type) (R : Requests) where
  behave : κ → Handle → Callback κ R
  perform : (i : R.Ask) → ω → R.Answer i × ω

/-- The state of a socket as the system reports it. -/
structure Readiness where
  handle : Handle
  readable : Bool := false
  writable : Bool := false
  error : Bool := false
  deriving DecidableEq, Repr

variable {R : Requests}

def serve (c : Conduct κ ω R) :
    (q : Ask κ R.Ask) → Run κ ω → (requests κ R).Answer q × Run κ ω
  | .readLine h, r =>
    let (result, r) := r.apply (·.readLine h)
    (result, r.note (.read h (result.toOption.join.toList)))
  | .drain h, r =>
    let (result, r) := r.apply (·.drain h)
    (result, r.note (.read h result.1))
  | .enqueue h bytes, r => r.apply (·.enqueue h bytes)
  | .update h callbacks, r => r.apply (·.update h callbacks)
  | .remove h, r => r.apply (·.remove h)
  | .close h, r => r.apply (·.close h)
  | .contains h, r => (r.pool.contains h, r)
  | .pending? h, r => (r.pool.pending? h, r)
  | .stop, r => ((), { r with pool := r.pool.stop })
  | .act i, r =>
    let (a, world) := c.perform i r.world
    (a, { r with world })

/-- Calls a socket back on some occasion. -/
def dispatch (c : Conduct κ ω R) (r : Run κ ω) (h : Handle) (occasion : Occasion) : Run κ ω :=
  match r.pool.socket? h with
  | none => r
  | some s =>
    match s.callbacks.on occasion with
    | some k =>
      let (outcome, r) := (c.behave k h).run (serve c) (r.note (.called h occasion))
      r.note (.returned h outcome)
    | none => if occasion = .other then { r with pool := (r.pool.close h).2 } else r

/-- Drops the queue of a socket that could not be written, and tells it. -/
def writeFailed (c : Conduct κ ω R) (r : Run κ ω) (h : Handle) : Run κ ω :=
  let pool := match r.pool.socket? h with
    | some s => r.pool.set h { s with queue := s.queue.clear }
    | none => r.pool
  dispatch c { r with pool } h .other

/-- Flushes a socket that has become writable. The answer says whether
nothing was queued; there is none if the socket is gone or did not take the
bytes. -/
def flush (c : Conduct κ ω R) (r : Run κ ω) (h : Handle) : Option Bool × Run κ ω :=
  match r.pool.socket? h with
  | none => (none, r)
  | some s =>
    let s := { s with blocked := false }
    if s.queue.isEmpty then (some true, { r with pool := r.pool.set h s })
    else
      let (error, s) := s.flush
      let r := { r with pool := r.pool.set h s }
      match error with
      | none => (some false, r)
      | some _ => (none, writeFailed c r h)

/-- Sees to one ready socket, and keeps account of the sockets called back for writing. -/
def attend (c : Conduct κ ω R) (acc : List Handle × Run κ ω) (ready : Readiness) :
    List Handle × Run κ ω :=
  let (wrote, r) := acc
  let h := ready.handle
  let r := if ready.error then dispatch c r h .other else r
  let r := if ready.readable then dispatch c r h .readable else r
  if ready.writable then
    match flush c r h with
    | (some true, r) => (wrote ++ [h], dispatch c r h .writable)
    | (_, r) => (wrote, r)
  else (wrote, r)

/-- Flushes one socket if something is queued, and keeps account of failures. -/
def flushQueued (acc : List Handle × Pool κ) (h : Handle) : List Handle × Pool κ :=
  let (failed, p) := acc
  match p.socket? h with
  | none => acc
  | some s =>
    if s.queue.isEmpty then acc
    else
      let (error, s) := s.flush
      (if error.isSome then failed ++ [h] else failed, p.set h s)

/-- The sockets that want to be called back for writing. -/
def wantingWriting (p : Pool κ) : List Handle :=
  (p.sockets.entries.filter fun e => e.2.wantsWriting).map (·.1)

/-- What one pass is told: which sockets are ready, and in what order to go
through the sockets of the pool. Nothing should depend on the order. -/
structure Report where
  ready : List Readiness
  arrange : List Handle → List Handle := id

def poll (c : Conduct κ ω R) (report : Report) (r : Run κ ω) : Run κ ω :=
  let (wrote, r) := report.ready.foldl (attend c) ([], r)
  let (failed, pool) := (report.arrange r.pool.sockets.keys).foldl flushQueued ([], r.pool)
  let r := failed.foldl (writeFailed c) { r with pool }
  (report.arrange r.pool.wantingWriting).foldl
    (fun r h => if wrote.contains h then r else dispatch c r h .writable) r

end IrcBot.Pool
