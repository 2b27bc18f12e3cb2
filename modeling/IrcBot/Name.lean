/-
Which texts are nicknames and which are channel names (RFC 2812, sections
1.2.1 and 1.3). A nickname is plain ASCII and short; a channel name starts
with one of the channel type characters the server announced.
-/
import IrcBot.Text.Blank

namespace IrcBot

namespace Nick

def maxBytes : Nat := 30

def isSpecial (c : Char) : Bool := ['[', ']', '\\', '\x60', '_', '^', '\x7b', '|', '\x7d'].contains c

def isFirst (c : Char) : Bool := c.isAlpha || isSpecial c

def isFollowing (c : Char) : Bool := c.isAlphanum || isSpecial c || c == '-'

def isValid : Text → Bool
  | [] => false
  | c :: t => Text.byteSize (c :: t) ≤ maxBytes && isFirst c && t.all isFollowing

end Nick

namespace ChannelName

def maxLength : Nat := 50

/-- The channel types in force until a server announces others. -/
def defaultTypes : Text := ['#', '&']

def isFollowing (c : Char) : Bool := c != ' ' && c != ',' && !Text.isControl c

def isValid (types : Text) : Text → Bool
  | [] => false
  | c :: t => types.contains c && (c :: t).length ≤ maxLength && t.all isFollowing

/-- Whether the first character makes the text the target of channel traffic. -/
def isTarget (types : Text) : Text → Bool
  | [] => false
  | c :: _ => types.contains c

end ChannelName

end IrcBot
