/-
Trials of a bot with one connection. The server is a peer in memory, or
cannot be reached; recorders and handlers that reply tell what they meet.
-/
import IrcBot.Bot.Builtin
import IrcBot.Trial.Peer

namespace IrcBot

namespace SessionTrial

/-- Who handles events. -/
inductive Listener where
  /-- The recorder at some place of the list of events to record. -/
  | recorder (place : Nat)
  | replier (number : Nat) (text : Text)
  | builtin (id : Builtin.HandlerId)
  deriving DecidableEq, Repr

inductive News where
  | occurred (event : Event)
  | replied (event : Event) (result : Except Refusal Bool)

/-- What a replier says: to a bot command, its arguments if it has no words of its own. -/
def answerText (text : Text) : Event → Text
  | .occurred _ (.command _ _ _ args) => if text.isEmpty then args else text
  | _ => text

def behave (mark : Text) : Listener → Option Unit → Event → Bot.Act Listener Unit News Unit
  | .recorder _, _, event => Bot.Act.tell (.occurred event)
  | .replier _ text, _, event => do
    let result ← Bot.Act.reply event (answerText text event)
    Bot.Act.tell (.replied event result)
  | .builtin id, _, event => id.owner.kind.handle mark event

/-- The number of the connection. -/
def only : Nat := 0

end SessionTrial

structure SessionTrial where
  bot : Bot Builtin.Instance SessionTrial.Listener Unit
  server : Peer := {}
  /-- How many modules and repliers were made. -/
  made : Nat := 0
  /-- The bytes the server got, how often the bus was polled, and the news, in this step. -/
  sent : Bytes := []
  polls : Nat := 0
  news : List SessionTrial.News := []

namespace SessionTrial

abbrev Modules := Host Builtin.Instance Listener Unit Unit

def listen (t : SessionTrial) (owner : String) (handler : Listener) (event : Text) :
    SessionTrial :=
  let registry := t.bot.bus.registry.register event
    { handler, context := none, owner := owner.toList }
  { t with bot := { t.bot with bus := { t.bot.bus with registry } } }

/-- A bot with a recorder for each of these events; one that is named twice is recorded twice. -/
def start (bot : Config.Bot) (network : Config.Network) (recorded : List Text) : SessionTrial :=
  recorded.zipIdx.foldl (fun t (event, place) => t.listen "recorder" (.recorder place) event) {
    bot := {
      settings := bot
      net := { connections := Table.empty.insert only (.ofSettings network) } } }

def connection? (t : SessionTrial) : Option Connection := t.bot.connection? only

def session? (t : SessionTrial) : Option Session := t.connection?.map (·.session)

def socket? (t : SessionTrial) : Option Handle := t.session?.bind (·.socket)

/-- How many bytes wait to be written to the server. -/
def queued? (t : SessionTrial) : Option Nat := t.socket?.bind t.bot.net.pool.pending?

def order (t : SessionTrial) (o : Circuit.Order) : Except Refusal Unit × SessionTrial :=
  let (result, bot) := t.bot.order only o
  (result, { t with bot })

/-- What dialling the server of the connection gives. -/
def dial (t : SessionTrial) (reachable : Bool) : Except Refusal Stream :=
  match t.connection? with
  | none => .error .notConnected
  | some c =>
    if c.settings.host.contains '\x00' then .error (.unresolved c.settings.host)
    else if reachable then .ok {}
    else .error (.unreachable c.settings.host c.settings.port)

/-- Connects; a new socket has a new server at its other end. -/
def connect (t : SessionTrial) (reachable : Bool) : Except Refusal Unit × SessionTrial :=
  let (result, t') := t.order (.connect (t.dial reachable))
  (result, if t'.socket? = t.socket? then t' else { t' with server := {} })

def close (t : SessionTrial) : Bool × SessionTrial :=
  let (closed, bot) := t.bot.close only
  (closed, { t with bot })

def handleLine (t : SessionTrial) (line : Text) : SessionTrial :=
  { t with bot := t.bot.handleLine only line }

/-- Lets the server have what was written to it. -/
def deliver (t : SessionTrial) : SessionTrial :=
  match t.socket?.bind t.bot.net.pool.socket? with
  | none => t
  | some s =>
    { t with
      sent := t.sent ++ s.sink.taken.drop t.server.received.length
      server := { t.server with received := s.sink.taken } }

/-- Writes out what is queued. -/
def flush (t : SessionTrial) : SessionTrial :=
  { t with bot := t.bot.pollSockets { ready := [] } }.deliver

/-- The server does something and a pass notices it, if there is a server. -/
def act? (t : SessionTrial) (a : Peer.Act) : Option SessionTrial :=
  t.socket?.map fun h =>
    let net := { t.bot.net with pool := t.bot.net.pool.adjustStream h a.apply }
    let ready := ((t.server.noteAct a).readiness? h).toList
    { t with bot := { t.bot with net }.pollSockets { ready } }.deliver

def poll (t : SessionTrial) : Nat × SessionTrial :=
  let (count, told, bot) := t.bot.pollBus (behave t.bot.settings.commandMark) Bus.usualDepth
  (count, { t with bot, news := t.news ++ told })

/-- Polls while events are pending, this many times at most. -/
def settle : Nat → SessionTrial → SessionTrial
  | 0, t => t
  | rounds + 1, t =>
    if t.bot.bus.pending.isEmpty then t
    else
      let t := t.poll.2
      settle rounds { t with polls := t.polls + 1 }

/-- The trial at the start of a step. -/
def fresh (t : SessionTrial) : SessionTrial := { t with sent := [], polls := 0, news := [] }

/-! ## Modules and repliers -/

def conduct : ModuleConduct Builtin.Instance Listener Unit Unit := Builtin.conduct .builtin

def withModules (t : SessionTrial) (f : Modules → Except ModuleError Unit × Modules) :
    Except ModuleError Unit × SessionTrial :=
  let (result, _, bot) := t.bot.withHost () f
  (result, { t with bot })

/-- Loads a new module of a kind, if there is one of that name. -/
def load? (t : SessionTrial) (name : Text) : Option (Except ModuleError Unit) × SessionTrial :=
  match Builtin.Kind.ofName? name with
  | none => (none, t)
  | some kind =>
    let (result, t') := { t with made := t.made + 1 }.withModules
      (·.load conduct { kind, number := t.made })
    (some result, t')

/-- Whom the repliers belong to. -/
def replierOwner : String := "replier"

/-- Registers a new replier. -/
def replyOn (t : SessionTrial) (event text : Text) : SessionTrial :=
  { t with made := t.made + 1 }.listen replierOwner (.replier t.made text) event

/-- Removes all repliers. -/
def replyOff (t : SessionTrial) : Nat × SessionTrial :=
  let (count, registry) := t.bot.bus.registry.unregisterAll replierOwner.toList
  (count, { t with bot := { t.bot with bus := { t.bot.bus with registry } } })

end SessionTrial

end IrcBot
