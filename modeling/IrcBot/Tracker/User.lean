/-
What is known of one nickname. The identity, user and host, is learned piece
by piece and never overwritten; the channels are those shared with the bot,
by their display names.
-/
import IrcBot.Casemap
import IrcBot.Table
import IrcBot.Wire.Mask

namespace IrcBot

/-- A set of names. -/
abbrev Names := Table Text Unit

structure User where
  nick : Text
  user : Option Text := none
  host : Option Text := none
  channels : Names := .empty
  deriving DecidableEq

namespace User

/-- Learns from a mask what is still unknown. -/
def absorb (u : User) (m : Mask) : User :=
  { u with user := u.user <|> m.user, host := u.host <|> m.host }

/-- `nick!user@host` if all of it is known, else the nick. -/
def mask (u : User) : Text :=
  match u.user, u.host with
  | some user, some host => u.nick ++ '!' :: user ++ '@' :: host
  | _, _ => u.nick

def joined (u : User) (channel : Text) : User :=
  { u with channels := u.channels.insert channel () }

def left (u : User) (channel : Text) : User :=
  { u with channels := u.channels.filter fun c _ => !same c channel }

end User

end IrcBot
