/-
Channel status: the letters of the membership modes a server knows, highest
rank first, and the symbols that stand for them in front of a nickname. A
server announces both in one value, `(ov)@+`.
-/
import IrcBot.Text.Basic

namespace IrcBot

/-- Membership modes and their symbols, paired by position. -/
structure Status where
  modes : Text
  symbols : Text
  deriving DecidableEq, Repr, Inhabited

namespace Status

/-- Operator and voice, in force until a server announces others. -/
def default : Status := ⟨['o', 'v'], ['@', '+']⟩

/-- Reads `(modes)symbols`; there are as many of the one as of the other. -/
def parse? (t : Text) : Option Status :=
  match t with
  | '(' :: t => do
    let (modes, symbols) ← Text.cut? ')' t
    if modes.length = symbols.length then some { modes, symbols } else none
  | _ => none

def isMode (s : Status) (mode : Char) : Bool := s.modes.contains mode

def isSymbol (s : Status) (symbol : Char) : Bool := s.symbols.contains symbol

def symbol? (s : Status) (mode : Char) : Option Char := (s.modes.zip s.symbols).lookup mode

def mode? (s : Status) (symbol : Char) : Option Char := (s.symbols.zip s.modes).lookup symbol

/-- Splits the status symbols off the front of a nickname and gives their modes. -/
def strip (s : Status) (entry : Text) : Text × Text :=
  ((entry.takeWhile s.isSymbol).filterMap s.mode?, entry.dropWhile s.isSymbol)

end Status

end IrcBot
