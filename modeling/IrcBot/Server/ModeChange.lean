/-
Mode strings such as `+o-v+l alice bob 20`, decoded into single changes.
Which letters take an argument depends on the server: membership modes and
the classes A and B always, class C only when the mode is set. For a user,
no letter does.
-/
import IrcBot.Server.ModeClasses
import IrcBot.Server.Status

namespace IrcBot

structure ModeChange where
  set : Bool
  mode : Char
  arg : Option Text := none
  deriving DecidableEq, Repr

namespace ModeChange

def sign (set : Bool) : Char := if set then '+' else '-'

def display (c : ModeChange) : Text :=
  sign c.set :: c.mode :: c.arg.elim [] (' ' :: ·)

/-- What decides whether a letter takes an argument. -/
structure Rules where
  status : Status := .default
  classes : ModeClasses := .default
  onChannel : Bool := true
  deriving DecidableEq, Repr

def Rules.takesArg (r : Rules) (mode : Char) (set : Bool) : Bool :=
  r.onChannel &&
    (r.status.isMode mode || r.classes.a.contains mode || r.classes.b.contains mode ||
      (r.classes.c.contains mode && set))

/-- Decodes the letters under a sign. A letter that finds no argument left has none. -/
def decodeFrom (r : Rules) (set : Bool) : Text → List Text → List ModeChange
  | [], _ => []
  | '+' :: t, args => decodeFrom r true t args
  | '-' :: t, args => decodeFrom r false t args
  | mode :: t, args =>
    if r.takesArg mode set then
      { set, mode, arg := args.head? } :: decodeFrom r set t args.tail
    else { set, mode } :: decodeFrom r set t args

def decode (r : Rules) (modes : Text) (args : List Text) : List ModeChange :=
  decodeFrom r true modes args

end ModeChange

end IrcBot
