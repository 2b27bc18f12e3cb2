/-
The four classes of channel modes a server announces as `A,B,C,D`. The class
of a letter says whether a change of that mode has an argument.
-/
import IrcBot.Text.Basic

namespace IrcBot

structure ModeClasses where
  /-- Modes that hold a list of addresses; always with an argument. -/
  a : Text
  /-- Modes with a setting; always with an argument. -/
  b : Text
  /-- Modes with an argument only when set. -/
  c : Text
  /-- Plain modes, without an argument. -/
  d : Text
  deriving DecidableEq, Repr, Inhabited

namespace ModeClasses

/-- The classes of RFC 2811, in force until a server announces others. -/
def default : ModeClasses := ⟨"beI".toList, "k".toList, "l".toList, "imnpst".toList⟩

/-- Reads the first four groups; further ones are left out of account. -/
def parse? (t : Text) : Option ModeClasses :=
  match Text.splitBy (· == ',') t with
  | a :: b :: c :: d :: _ => some { a, b, c, d }
  | _ => none

end ModeClasses

end IrcBot
