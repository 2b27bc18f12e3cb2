/-
A channel the bot is in, with its members by case-folded nick. A member
carries the letters of its status, highest rank first.
-/
import IrcBot.Casemap
import IrcBot.Table

namespace IrcBot

structure Member where
  nick : Text
  modes : Text := []
  deriving DecidableEq, Repr

namespace Member

def hasMode (m : Member) (mode : Char) : Bool := m.modes.contains mode

/-- The letters with one more, each at its place in `rank`; letters that
`rank` does not hold come last. -/
def insertRanked (modes : Text) (mode : Char) (rank : Text) : Text :=
  (modes.filter (· != mode) ++ [mode]).mergeSort fun a b => rank.idxOf a ≤ rank.idxOf b

def setMode (m : Member) (mode : Char) (set : Bool) (rank : Text) : Member :=
  { m with modes := if set then insertRanked m.modes mode rank else m.modes.filter (· != mode) }

end Member

structure Channel where
  name : Text
  members : Table Text Member := .empty
  deriving DecidableEq

namespace Channel

def member? (c : Channel) (nick : Text) : Option Member := c.members.get? (fold nick)

def contains (c : Channel) (nick : Text) : Bool := (c.member? nick).isSome

/-- The nicks of the members, in the order of their folded forms. -/
def nicks (c : Channel) : List Text := c.members.values.map (·.nick)

def size (c : Channel) : Nat := c.members.size

def isEmpty (c : Channel) : Bool := c.members.entries.isEmpty

def add (c : Channel) (nick modes : Text) : Channel :=
  { c with members := c.members.insert (fold nick) { nick, modes } }

def remove (c : Channel) (key : Text) : Channel := { c with members := c.members.erase key }

/-- Moves the member under `key` to a new nick. -/
def rename (c : Channel) (key new : Text) : Channel :=
  match c.members.get? key with
  | some m => { c with members := (c.members.erase key).insert (fold new) { m with nick := new } }
  | none => c

end Channel

end IrcBot
