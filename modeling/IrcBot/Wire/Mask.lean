/-
Who sent a message: `nick!user@host`, or anything else as a bare name. The
user ends at the first `@` after the first `!`; a text in which one of the
three parts would be empty, or the nick would hold an `@`, is not a mask.
-/
import IrcBot.Text.Basic

namespace IrcBot

structure Mask where
  /-- The nickname, or the whole text when it is no `nick!user@host`. -/
  nick : Text
  user : Option Text := none
  host : Option Text := none
  deriving DecidableEq, Repr, Inhabited

namespace Mask

def bare (nick : Text) : Mask := { nick }

/-- The three parts of `nick!user@host`. -/
def split? (t : Text) : Option (Text × Text × Text) := do
  let (nick, rest) ← t.cut? '!'
  let (user, host) ← rest.cut? '@'
  if nick = [] ∨ user = [] ∨ host = [] ∨ '@' ∈ nick then none else some (nick, user, host)

def parse (t : Text) : Mask :=
  match split? t with
  | some (nick, user, host) => { nick, user, host }
  | none => bare t

/-- Whether user and host are both known. -/
def isFull (m : Mask) : Bool := m.user.isSome && m.host.isSome

def display (m : Mask) : Text :=
  m.nick ++ (m.user.elim [] ('!' :: ·)) ++ (m.host.elim [] ('@' :: ·))

end Mask

end IrcBot
