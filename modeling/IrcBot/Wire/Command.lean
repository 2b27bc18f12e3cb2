/-
The commands a bot sends. Each has one line, without its line end. Fields
are written as they are; `Command.line` checks nothing.
-/
import IrcBot.Text.Basic

namespace IrcBot

inductive Command where
  | pass (password : Text)
  | nick (nick : Text)
  | user (user realname : Text)
  | join (channel : Text)
  | part (channel : Text) (reason : Option Text)
  | quit (reason : Option Text)
  | privmsg (target text : Text)
  | notice (target text : Text)
  | pong (token : Text)
  deriving DecidableEq, Repr

namespace Command

def verb : Command → Text
  | .pass _ => "PASS".toList
  | .nick _ => "NICK".toList
  | .user _ _ => "USER".toList
  | .join _ => "JOIN".toList
  | .part _ _ => "PART".toList
  | .quit _ => "QUIT".toList
  | .privmsg _ _ => "PRIVMSG".toList
  | .notice _ _ => "NOTICE".toList
  | .pong _ => "PONG".toList

/-- The parameters that are single words. -/
def words : Command → List Text
  | .pass password => [password]
  | .nick name => [name]
  | .user name _ => [name, ['*'], ['*']]
  | .join channel => [channel]
  | .part channel _ => [channel]
  | .quit _ => []
  | .privmsg target _ => [target]
  | .notice target _ => [target]
  | .pong _ => []

/-- The free text at the end of the line. -/
def freeText : Command → Option Text
  | .user _ realname => some realname
  | .part _ reason => reason
  | .quit reason => reason
  | .privmsg _ text => some text
  | .notice _ text => some text
  | .pong token => some token
  | .pass _ | .nick _ | .join _ => none

def line (c : Command) : Text :=
  c.verb ++ c.words.flatMap (' ' :: ·) ++ c.freeText.elim [] ([' ', ':'] ++ ·)

end Command

end IrcBot
