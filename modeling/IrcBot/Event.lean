/-
What is published on the bus: what occurs on a connection, and what becomes
of the modules. Handlers register for an event by its name; bot commands have
a name for each command.
-/
import IrcBot.Server.ModeChange
import IrcBot.Tracker.User

namespace IrcBot

/-- Something that occurs on one connection. -/
inductive Occurrence where
  /-- Registration is complete. -/
  | connected
  /-- The socket is gone, and with it all that was learned from the server. -/
  | disconnected
  /-- A numeric reply, with all its parameters. -/
  | serverMessage (sender : Mask) (code : Nat) (params : List Text)
  /-- The server wants its token back. -/
  | ping (token : Text)
  | error (reason : Text)
  | privateMessage (sender : User) (text : Text)
  | channelMessage (sender : User) (channel text : Text)
  | privateNotice (sender : User) (text : Text)
  | channelNotice (sender : User) (channel text : Text)
  | join (sender : User) (channel : Text)
  | part (sender : User) (channel : Text) (reason : Option Text)
  | kick (sender : User) (channel nick : Text) (reason : Option Text)
  | quit (sender : User) (reason : Option Text)
  /-- The sender still has its old nick. -/
  | nickChange (sender : User) (newNick : Text)
  | modeChange (sender : Mask) (target : Text) (changes : List ModeChange)
  | rawLineSent (line : Text)
  | rawLineReceived (line : Text)
  /-- A message meant for the bot: its first word and the rest, without blanks around it. -/
  | command (sender : User) (channel : Option Text) (name args : Text)
  deriving DecidableEq

/-- The stages of loading and unloading a module. -/
inductive ModuleStage where
  | loading
  | loaded
  | unloading
  | unloaded
  deriving DecidableEq, Repr

inductive Event where
  | occurred (connection : Nat) (what : Occurrence)
  | module (stage : ModuleStage) (name : Text)
  deriving DecidableEq

namespace Occurrence

/-- What the events of a bot command are called. -/
def commandEvent (name : Text) : Text := "command.".toList ++ name

def name : Occurrence → Text
  | connected => "connected".toList
  | disconnected => "disconnected".toList
  | serverMessage .. => "server-message".toList
  | ping _ => "ping".toList
  | error _ => "error".toList
  | privateMessage .. => "private-message".toList
  | channelMessage .. => "channel-message".toList
  | privateNotice .. => "private-notice".toList
  | channelNotice .. => "channel-notice".toList
  | join .. => "join".toList
  | part .. => "part".toList
  | kick .. => "kick".toList
  | quit .. => "quit".toList
  | nickChange .. => "nick-change".toList
  | modeChange .. => "mode-change".toList
  | rawLineSent _ => "raw-line-sent".toList
  | rawLineReceived _ => "raw-line-received".toList
  | command _ _ name _ => commandEvent name

/-- Where an answer goes: to the channel a message was said in, or else to
its sender. Only messages and commands can be answered. -/
def replyTarget? : Occurrence → Option Text
  | privateMessage sender _ => some sender.nick
  | channelMessage _ channel _ => some channel
  | command sender channel _ _ => some (channel.getD sender.nick)
  | _ => none

end Occurrence

def ModuleStage.name : ModuleStage → Text
  | .loading => "module.loading".toList
  | .loaded => "module.loaded".toList
  | .unloading => "module.unloading".toList
  | .unloaded => "module.unloaded".toList

namespace Event

def name : Event → Text
  | .occurred _ what => what.name
  | .module stage _ => stage.name

/-- The connection an event comes from. -/
def connection? : Event → Option Nat
  | .occurred connection _ => some connection
  | .module .. => none

def replyTarget? : Event → Option Text
  | .occurred _ what => what.replyTarget?
  | .module .. => none

/-- The names of all events but those of bot commands. -/
def fixedNames : List Text :=
  ["connected", "disconnected", "server-message", "ping", "error", "private-message",
    "channel-message", "private-notice", "channel-notice", "join", "part", "kick", "quit",
    "nick-change", "mode-change", "raw-line-sent", "raw-line-received", "module.loading",
    "module.loaded", "module.unloading", "module.unloaded"].map String.toList

end Event

end IrcBot
