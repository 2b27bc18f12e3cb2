/-
What a connection knows at one moment: how far it has come, its socket, its
own nick, what the server has announced, and who is where. All but the nick
is forgotten when the socket goes.
-/
import IrcBot.Pool.Basic
import IrcBot.Server.Isupport
import IrcBot.Tracker.Basic

namespace IrcBot

/-- How far a connection has come. -/
inductive Phase where
  | disconnected
  | connecting
  /-- The socket is there; the server has not confirmed registration. -/
  | connected
  | registered
  deriving DecidableEq, Repr, Inhabited

namespace Phase

def name : Phase → Text
  | disconnected => "disconnected".toList
  | connecting => "connecting".toList
  | connected => "connected".toList
  | registered => "registered".toList

def isOnline : Phase → Bool
  | connected | registered => true
  | disconnected | connecting => false

/-- The name of the phase in a description. -/
def label : Phase → Text
  | disconnected => "Disconnected".toList
  | connecting => "Connecting".toList
  | connected => "Connected".toList
  | registered => "Registered".toList

end Phase

structure Session where
  phase : Phase := .disconnected
  socket : Option Handle := none
  nick : Text
  isupport : Isupport := .empty
  tracker : Tracker := .empty
  deriving DecidableEq

namespace Session

/-- Forgets the socket and what the server has told. -/
def reset (s : Session) : Session :=
  { s with socket := none, isupport := .empty, tracker := .empty }

/-- Whether a nick is the bot's own. -/
def isMe (s : Session) (nick : Text) : Bool := same nick s.nick

def isChannel (s : Session) (target : Text) : Bool :=
  ChannelName.isTarget s.isupport.channelTypes target

end Session

end IrcBot
