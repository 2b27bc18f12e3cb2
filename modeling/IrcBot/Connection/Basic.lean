/-
A connection: the settings of a network and the session with it. A circuit is
a connection together with the pool its socket lives in; operations on a
circuit also keep account, in order, of what occurs on the connection.

Everything the bot sends goes through `Circuit.raw`, which cuts at the first
line end, so no argument can smuggle in a second line.
-/
import IrcBot.Config.Settings
import IrcBot.Session.Inbound
import IrcBot.Wire.Command

namespace IrcBot

structure Connection where
  settings : Config.Network
  session : Session
  deriving DecidableEq

namespace Connection

def ofSettings (settings : Config.Network) : Connection :=
  { settings, session := { nick := settings.primaryNick } }

/-- A description of the connection. -/
def describe (c : Connection) : Text :=
  Text.describeRecord "Connection"
    [("name", Text.quoted c.settings.name), ("host", Text.quoted c.settings.host),
      ("port", .ofNat c.settings.port), ("state", c.session.phase.label),
      ("nick", Text.quoted c.session.nick)]

/-- The commands that open a session: password if there is one, nick, user. -/
def handshake (settings : Config.Network) : List Command :=
  (settings.password.map .pass).toList ++
    [.nick settings.primaryNick, .user settings.user settings.realname]

end Connection

/-- The session without the socket it has lost, if that was its socket. -/
def Session.lose? (s : Session) (h : Handle) : Option Session :=
  if s.socket = some h then some { s.reset with phase := .disconnected } else none

/-- The session on a new socket. -/
def Session.attach (s : Session) (h : Handle) (nick : Text) : Session :=
  { s.reset with phase := .connected, socket := some h, nick }

/-- Why an operation on a connection was refused. -/
inductive Refusal where
  | notConnected
  /-- The host's name has no address. -/
  | unresolved (host : Text)
  /-- No address of the host accepted the connection. -/
  | unreachable (host : Text) (port : Nat)
  | pool (error : Pool.Error)
  deriving DecidableEq, Repr

def Refusal.message : Refusal → Text
  | .notConnected => "not connected".toList
  | .unresolved host => "failed to resolve ".toList ++ host
  | .unreachable host port =>
    "no address of ".toList ++ host ++ ':' :: Text.ofNat port ++
      " accepted a connection".toList
  | .pool e => "reactor error: ".toList ++ e.message

structure Circuit (κ : Type) where
  settings : Config.Network
  session : Session
  pool : Pool κ
  /-- What has occurred, oldest first. -/
  occurred : List Occurrence := []

namespace Circuit

variable {κ : Type}

def announce (c : Circuit κ) (what : Occurrence) : Circuit κ :=
  { c with occurred := c.occurred ++ [what] }

/-! ## Sending -/

def isLineEnd (ch : Char) : Bool := ch == '\r' || ch == '\n'

/-- What stands before the first line end. -/
def firstLine (t : Text) : Text := t.takeWhile fun ch => !isLineEnd ch

/-- The lines of a text that are not empty. -/
def segments (t : Text) : List Text := (Text.splitBy isLineEnd t).filter (· != [])

/-- A line as bytes, with its line end. -/
def frame (line : Text) : Bytes := Text.encode (line ++ ['\r', '\n'])

/-- Queues one line for the server. -/
def raw (c : Circuit κ) (text : Text) : Except Refusal Unit × Circuit κ :=
  match c.session.socket with
  | none => (.error .notConnected, c)
  | some h =>
    let line := firstLine text
    let (result, pool) := c.pool.enqueue h (frame line)
    (result.mapError .pool, { c.announce (.rawLineSent line) with pool })

def send (c : Circuit κ) (command : Command) : Except Refusal Unit × Circuit κ :=
  c.raw command.line

/-- Sends commands until one is refused. -/
def sendAll (c : Circuit κ) : List Command → Except Refusal Unit × Circuit κ
  | [] => (.ok (), c)
  | command :: rest =>
    match c.send command with
    | (.ok (), c) => c.sendAll rest
    | (.error e, c) => (.error e, c)

/-- Joins a channel unless the bot is in it. -/
def join (c : Circuit κ) (channel : Text) : Except Refusal Unit × Circuit κ :=
  if c.session.tracker.hasChannel channel then (.ok (), c) else c.send (.join channel)

/-- Leaves a channel if the bot is in it. -/
def part (c : Circuit κ) (channel : Text) (reason : Option Text) :
    Except Refusal Unit × Circuit κ :=
  if c.session.tracker.hasChannel channel then c.send (.part channel reason) else (.ok (), c)

/-- Asks for a nick. Before registration the server does not confirm it, so it counts at once. -/
def nick (c : Circuit κ) (new : Text) : Except Refusal Unit × Circuit κ :=
  match c.send (.nick new) with
  | (.ok (), c) =>
    let nick := if c.session.phase = .registered then c.session.nick else new
    (.ok (), { c with session := { c.session with nick } })
  | (.error e, c) => (.error e, c)

def message (c : Circuit κ) (target text : Text) : Except Refusal Unit × Circuit κ :=
  c.sendAll ((segments text).map (.privmsg target))

def notice (c : Circuit κ) (target text : Text) : Except Refusal Unit × Circuit κ :=
  c.sendAll ((segments text).map (.notice target))

/-! ## Opening and closing -/

/-- Opens a session on the stream that dialling gave, unless there is one already. -/
def connect (c : Circuit κ) (callbacks : Callbacks κ) (dialled : Except Refusal Stream) :
    Except Refusal Unit × Circuit κ :=
  if c.session.phase = .disconnected then
    match dialled with
    | .error e => (.error e, c)
    | .ok stream =>
      let (h, pool) := c.pool.add stream callbacks
      let session := c.session.attach h c.settings.primaryNick
      { c with session, pool }.sendAll (Connection.handshake c.settings)
  else (.ok (), c)

/-- Gives up a socket, if it is still the one in use. -/
def lose (c : Circuit κ) (h : Handle) : Circuit κ :=
  match c.session.lose? h with
  | none => c
  | some session => { c with session, pool := (c.pool.close h).2 }.announce .disconnected

/-- Closes the socket at once, and says whether there was one. -/
def close (c : Circuit κ) : Bool × Circuit κ :=
  match c.session.socket with
  | none => (false, c)
  | some h => (true, c.lose h)

/-! ## Orders -/

/-- What the bot and its modules may tell a connection to do. -/
inductive Order where
  | connect (dialled : Except Refusal Stream)
  | raw (line : Text)
  | send (command : Command)
  | quit (reason : Option Text)
  | join (channel : Text)
  | part (channel : Text) (reason : Option Text)
  | nick (new : Text)
  | message (target text : Text)
  | notice (target text : Text)

/-- Carries out an order; a new socket gets these callbacks. -/
def carryOut (c : Circuit κ) (callbacks : Callbacks κ) : Order → Except Refusal Unit × Circuit κ
  | .connect dialled => c.connect callbacks dialled
  | .raw line => c.raw line
  | .send command => c.send command
  | .quit reason => c.send (.quit reason)
  | .join channel => c.join channel
  | .part channel reason => c.part channel reason
  | .nick new => c.nick new
  | .message target text => c.message target text
  | .notice target text => c.notice target text

end Circuit

end IrcBot
