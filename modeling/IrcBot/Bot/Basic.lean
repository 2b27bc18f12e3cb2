/-
A bot: its connections, the pool their sockets are in, its bus and its
modules. Every connection hangs its own two callbacks on its socket: one
reads lines and has them handled, the other gives the socket up. Handlers on
the bus act on connections by calls.
-/
import IrcBot.Bus.Poll
import IrcBot.Connection.Basic
import IrcBot.Module.Host
import IrcBot.Pool.Poll

namespace IrcBot

namespace Bot

/-- What the callbacks on the sockets of connections are for. -/
inductive Role where
  /-- Reads what has come for a connection. -/
  | reader (connection : Nat)
  /-- Gives up the socket of a connection. -/
  | closer (connection : Nat)
  deriving DecidableEq, Repr

def callbacks (connection : Nat) : Callbacks Role :=
  { readable := some (.reader connection), other := some (.closer connection) }

/-- The connections by number, with the pool they share. -/
structure Net where
  connections : Table Nat Connection := .empty
  pool : Pool Role := { pollTimeout := 250 }

namespace Net

/-- Does something with one connection, and wraps what occurs on it into events. -/
def withConnection {α : Type} (n : Net) (i : Nat) (f : Circuit Role → α × Circuit Role)
    (missing : α) : α × Net × List Event :=
  match n.connections.get? i with
  | none => (missing, n, [])
  | some c =>
    let (a, circuit) := f { settings := c.settings, session := c.session, pool := n.pool }
    (a,
      { connections := n.connections.insert i { c with session := circuit.session }
        pool := circuit.pool },
      circuit.occurred.map (.occurred i))

def order (n : Net) (i : Nat) (o : Circuit.Order) : Except Refusal Unit × Net × List Event :=
  n.withConnection i (·.carryOut (callbacks i) o) (.error .notConnected)

def close (n : Net) (i : Nat) : Bool × Net × List Event :=
  n.withConnection i (·.close) false

end Net

/-! ## Calls by handlers -/

/-- What a handler may do besides using the bus: look at a connection, give
it orders, close it, and tell something to whoever watches the bot. -/
inductive Call (ν : Type) where
  | look (connection : Nat)
  | order (connection : Nat) (o : Circuit.Order)
  | close (connection : Nat)
  | tell (news : ν)

def calls (ν : Type) : Requests where
  Ask := Call ν
  Answer
    | .look _ => Option Connection
    | .order .. => Except Refusal Unit
    | .close _ => Bool
    | .tell _ => Unit

/-- What handlers act on: the net, and what they have told so far. -/
structure World (ν : Type) where
  net : Net
  told : List ν := []

def perform {ν : Type} : (q : Call ν) → World ν → (calls ν).Answer q × World ν × List Event
  | .look i, w => (w.net.connections.get? i, w, [])
  | .order i o, w =>
    let (result, net, events) := w.net.order i o
    (result, { w with net }, events)
  | .close i, w =>
    let (result, net, events) := w.net.close i
    (result, { w with net }, events)
  | .tell news, w => ((), { w with told := w.told ++ [news] }, [])

/-! ## Callbacks of connections -/

/-- What the callback of a connection does to it. -/
inductive Turn where
  /-- Asks whether a socket is the one in use. -/
  | isCurrent (connection : Nat) (h : Handle)
  | handle (connection : Nat) (line : Text)
  /-- Gives up a socket; the answer says whether it was the one in use. -/
  | lose (connection : Nat) (h : Handle)
  | announce (connection : Nat) (what : Occurrence)

def turns : Requests where
  Ask := Turn
  Answer
    | .isCurrent .. | .lose .. => Bool
    | .handle .. | .announce .. => Unit

/-- What those callbacks act on: the connections, and the events they have triggered. -/
structure Desk where
  connections : Table Nat Connection
  events : List Event := []

def takeTurn (registered : Nat) : (q : Turn) → Desk → turns.Answer q × Desk
  | .isCurrent i h, d => ((d.connections.get? i).any (·.session.socket == some h), d)
  | .handle i line, d =>
    match d.connections.get? i with
    | none => ((), d)
    | some c =>
      let (session, occurred) := c.session.handleLine registered line
      ((), {
        connections := d.connections.insert i { c with session }
        events := d.events ++ occurred.map (.occurred i) })
  | .lose i h, d =>
    match d.connections.get? i with
    | none => (false, d)
    | some c =>
      match c.session.lose? h with
      | none => (false, d)
      | some session => (true, { d with connections := d.connections.insert i { c with session } })
  | .announce i what, d => ((), { d with events := d.events ++ [.occurred i what] })

abbrev SocketCallback := Pool.Callback Role turns

def act (t : Turn) : Program (Pool.requests Role turns) (turns.Answer t) :=
  Program.request (R := Pool.requests Role turns) (.act t)

def handleAll (i : Nat) : List Text → SocketCallback
  | [] => pure ()
  | line :: rest => do
    act (.handle i line)
    handleAll i rest

def loseSocket (i : Nat) (h : Handle) : SocketCallback := do
  let lost : Bool ← act (.lose i h)
  if lost then
    let _ ← Program.request (R := Pool.requests Role turns) (.close h)
    act (.announce i .disconnected)

def readSocket (i : Nat) (h : Handle) : SocketCallback := do
  let current : Bool ← act (.isCurrent i h)
  if current then
    let (lines, stop) ← Program.request (R := Pool.requests Role turns) (.drain h)
    handleAll i lines
    if stop.isSome then loseSocket i h

def behave : Role → Handle → SocketCallback
  | .reader i, h => readSocket i h
  | .closer i, h => loseSocket i h

end Bot

/-- A bot; modules are of type `μ`, handlers named by `κ`, with contexts of type `γ`. -/
structure Bot (μ κ γ : Type) where
  settings : Config.Bot := {}
  net : Bot.Net := {}
  slots : Table Text (Slot μ) := .empty
  bus : Bus κ γ Event := {}

namespace Bot

variable {μ κ γ : Type}

def connection? (b : Bot μ κ γ) (i : Nat) : Option Connection := b.net.connections.get? i

def triggerAll (b : Bot μ κ γ) (events : List Event) : Bot μ κ γ :=
  { b with bus := b.bus.triggerAll events }

def order (b : Bot μ κ γ) (i : Nat) (o : Circuit.Order) : Except Refusal Unit × Bot μ κ γ :=
  let (result, net, events) := b.net.order i o
  (result, { b with net }.triggerAll events)

def close (b : Bot μ κ γ) (i : Nat) : Bool × Bot μ κ γ :=
  let (result, net, events) := b.net.close i
  (result, { b with net }.triggerAll events)

/-- Handles a line as if it had come from the server of a connection. -/
def handleLine (b : Bot μ κ γ) (i : Nat) (line : Text) : Bot μ κ γ :=
  let (_, desk) := takeTurn b.settings.registeredNumeric (.handle i line)
    { connections := b.net.connections }
  { b with net := { b.net with connections := desk.connections } }.triggerAll desk.events

/-- One pass over the sockets. -/
def pollSockets (b : Bot μ κ γ) (report : Pool.Report) : Bot μ κ γ :=
  let r := Pool.poll ⟨behave, takeTurn b.settings.registeredNumeric⟩ report
    { pool := b.net.pool, world := ({ connections := b.net.connections } : Desk) }
  { b with net := { connections := r.world.connections, pool := r.pool } }.triggerAll
    r.world.events

/-- One poll of the bus, with polls nested to this depth at most. The answer
is the number of events dispatched and what handlers have told. -/
def pollBus {ν : Type} [DecidableEq κ]
    (handle : κ → Option γ → Event → Bus.Handler κ γ Event (calls ν)) (depth : Nat)
    (b : Bot μ κ γ) : Nat × List ν × Bot μ κ γ :=
  let (count, r) := Bus.poll ⟨Event.name, handle, perform⟩ depth
    { bus := b.bus, world := ({ net := b.net } : World ν) }
  (count, r.world.told, { b with net := r.world.net, bus := r.bus })

/-- An operation on the modules. -/
def withHost {α ω : Type} (b : Bot μ κ γ) (world : ω)
    (f : Host μ κ γ ω → α × Host μ κ γ ω) : α × ω × Bot μ κ γ :=
  let (a, h) := f { slots := b.slots, bus := b.bus, world }
  (a, h.world, { b with slots := h.slots, bus := h.bus })

end Bot

end IrcBot
