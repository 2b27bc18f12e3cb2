/-
The numeric replies a bot reacts to (RFC 2812, section 5). All other codes
stay plain numbers.
-/
import IrcBot.Text.Numeral

namespace IrcBot

inductive Reply where
  | welcome
  | isupport
  | luserClient
  | namReply
  | endOfNames
  | endOfMotd
  | noMotd
  | erroneusNickname
  | nicknameInUse
  deriving DecidableEq, Repr

namespace Reply

def all : List Reply :=
  [welcome, isupport, luserClient, namReply, endOfNames, endOfMotd, noMotd, erroneusNickname,
    nicknameInUse]

def code : Reply → Nat
  | welcome => 1
  | isupport => 5
  | luserClient => 251
  | namReply => 353
  | endOfNames => 366
  | endOfMotd => 376
  | noMotd => 422
  | erroneusNickname => 432
  | nicknameInUse => 433

/-- The name RFC 2812 gives the reply. -/
def name : Reply → Text
  | welcome => "RPL_WELCOME".toList
  | isupport => "RPL_ISUPPORT".toList
  | luserClient => "RPL_LUSERCLIENT".toList
  | namReply => "RPL_NAMREPLY".toList
  | endOfNames => "RPL_ENDOFNAMES".toList
  | endOfMotd => "RPL_ENDOFMOTD".toList
  | noMotd => "ERR_NOMOTD".toList
  | erroneusNickname => "ERR_ERRONEUSNICKNAME".toList
  | nicknameInUse => "ERR_NICKNAMEINUSE".toList

def ofCode? (code : Nat) : Option Reply := all.find? fun r => r.code == code

theorem ofCode?_code (r : Reply) : ofCode? r.code = some r := by cases r <;> rfl

/-- Codes from 400 to 599 report errors. -/
def isError (r : Reply) : Bool := 400 ≤ r.code && r.code < 600

def display (r : Reply) : Text := Text.padded 3 r.code

/-- A text that is no numeral of a known reply. -/
structure Unknown where
  text : Text
  deriving DecidableEq, Repr

def Unknown.message (e : Unknown) : Text := "invalid numeric reply: ".toList ++ e.text

/-- Codes are 16-bit numbers. -/
def codeBound : Nat := UInt16.size

def parse (t : Text) : Except Unknown Reply :=
  match (t.toNatBelow? codeBound).bind ofCode? with
  | some r => .ok r
  | none => .error ⟨t⟩

end Reply

end IrcBot
