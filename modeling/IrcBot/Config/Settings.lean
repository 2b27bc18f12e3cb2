/-
The settings of a bot: how it behaves, how it waits for its sockets, and the
networks it connects to. Every setting but a network's name, host and nicks
has a value of its own when it is left out.
-/
import IrcBot.Text.Basic

namespace IrcBot

namespace Builtin

/-- The modules that come with the bot. -/
inductive Kind where
  | ping
  | autojoin
  | commands
  | nickFallback
  deriving DecidableEq, Repr

namespace Kind

def all : List Kind := [ping, autojoin, commands, nickFallback]

def name : Kind → Text
  | ping => "ping".toList
  | autojoin => "autojoin".toList
  | commands => "commands".toList
  | nickFallback => "nick-fallback".toList

def ofName? (t : Text) : Option Kind := all.find? fun k => k.name == t

end Kind

end Builtin

namespace Config

structure Bot where
  /-- What a message starts with that is meant for the bot. -/
  commandMark : Text := ['?']
  /-- The numeric reply that completes registration. -/
  registeredNumeric : Nat := 1
  /-- How long the bot waits for events at most, in milliseconds. -/
  eventWait : Nat := 1000
  /-- The modules to load, in order. -/
  modules : List Text := Builtin.Kind.all.map Builtin.Kind.name
  deriving DecidableEq, Repr, Inhabited

structure Sockets where
  /-- How long one wait for readiness lasts at most, in milliseconds. -/
  pollTimeout : Nat := 250
  /-- How long one attempt to connect lasts at most, in milliseconds. -/
  connectTimeout : Nat := 10000
  deriving DecidableEq, Repr, Inhabited

structure Network where
  name : Text
  host : Text
  port : Nat := 6667
  /-- Nicknames by preference; connecting starts with the first. -/
  nicks : List Text
  user : Text := "prebot".toList
  realname : Text := "Prebot IRC Bot".toList
  password : Option Text := none
  /-- The channels to join once registration is complete. -/
  channels : List Text := []
  enabled : Bool := true
  deriving DecidableEq, Repr, Inhabited

def Network.primaryNick (n : Network) : Text := n.nicks.headD "prebot".toList

end Config

structure Config where
  bot : Config.Bot := {}
  sockets : Config.Sockets := {}
  networks : List Config.Network := []
  deriving DecidableEq, Repr, Inhabited

def Config.enabledNetworks (c : Config) : List Config.Network := c.networks.filter (·.enabled)

end IrcBot
