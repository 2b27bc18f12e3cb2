/-
One line of the protocol, taken apart:

    [':' source ' '] command (' ' middle)* [' :' trailing]

`Message.display` writes a message, `Message.parse` reads one. Reading is
lenient about runs of spaces and about blanks before the command; it refuses
a line that holds nothing but white space and a command that is neither a
word of ASCII letters nor three digits.
-/
import IrcBot.Text.Numeral
import IrcBot.Text.Quoted
import IrcBot.Wire.Mask

namespace IrcBot

structure Message where
  /-- The sender as written, without the colon. -/
  source : Option Text := none
  command : Text
  middle : List Text := []
  /-- The last parameter when a colon introduces it; only this one may hold spaces. -/
  trailing : Option Text := none
  deriving DecidableEq, Repr, Inhabited

namespace Message

/-! ## Views -/

/-- The parameters in the order of the line. -/
def args (m : Message) : List Text := m.middle ++ m.trailing.toList

def arg? (m : Message) (i : Nat) : Option Text := m.args[i]?

/-- The last parameter, of either kind. -/
def lastArg? (m : Message) : Option Text := m.trailing <|> m.middle.getLast?

def sender? (m : Message) : Option Mask := m.source.map Mask.parse

/-- The source up to its first `!`. -/
def sourceNick? (m : Message) : Option Text :=
  m.source.map fun s => (s.cut? '!').elim s (·.1)

def isThreeDigits (t : Text) : Bool := t.length == 3 && t.all Char.isDigit

/-- The code of a numeric reply. -/
def numeric? (m : Message) : Option Nat :=
  if isThreeDigits m.command then m.command.toNat? else none

/-- Whether this is the command of that name, in any case. -/
def isCommand (m : Message) (name : Text) : Bool := Text.sameLetters m.command name

/-! ## Writing -/

def display (m : Message) : Text :=
  m.source.elim [] (fun s => ':' :: s ++ [' ']) ++ m.command ++
    m.middle.flatMap (' ' :: ·) ++ m.trailing.elim [] ([' ', ':'] ++ ·)

/-! ## Reading -/

inductive ParseError where
  /-- Nothing but white space. -/
  | empty
  /-- No command at this byte of the line. -/
  | invalidCommand (line : Text) (position : Nat)
  deriving DecidableEq, Repr

def ParseError.message : ParseError → Text
  | .empty => "empty message".toList
  | .invalidCommand line position =>
    "invalid command at byte ".toList ++ Text.ofNat position ++ ": ".toList ++ Text.quoted line

/-- The line without the carriage returns and line feeds at its end. -/
def chomp (line : Text) : Text := line.dropEndWhile fun c => c == '\r' || c == '\n'

/-- The source and what follows it. A colon with no word directly after it introduces no source. -/
def splitSource : Text → Option Text × Text
  | ':' :: t =>
    match t.takeWhile (· != ' ') with
    | [] => (none, ':' :: t)
    | source => (some source, t.dropWhile (· != ' '))
  | t => (none, t)

def isCommandWord (t : Text) : Bool := (t != [] && t.all Char.isAlpha) || isThreeDigits t

/-- Middle parameters and the trailing one; what does not start with a space holds none. -/
def splitParams : Text → List Text × Option Text
  | ' ' :: t =>
    match _h : t.dropWhile (· == ' ') with
    | [] => ([], none)
    | ':' :: trailing => ([], some trailing)
    | c :: word =>
      let (middle, trailing) := splitParams ((c :: word).dropWhile (· != ' '))
      ((c :: word).takeWhile (· != ' ') :: middle, trailing)
  | _ => ([], none)
  termination_by t => t.length
  decreasing_by
    have hle := (List.dropWhile_suffix (p := (· != ' ')) (l := c :: word)).length_le
    have hlt := (List.dropWhile_suffix (p := (· == ' ')) (l := t)).length_le
    rw [_h] at hlt
    simp only [List.length_cons] at hle hlt ⊢
    omega

/-- Reads a line that has no line end any more. -/
def parseLine (line : Text) : Except ParseError Message :=
  let (source, rest) := splitSource line
  let start := rest.dropWhile fun c => c == ' ' || c == '\t'
  let command := start.takeWhile Char.isAlphanum
  if isCommandWord command then
    let (middle, trailing) := splitParams (start.dropWhile Char.isAlphanum)
    .ok { source, command, middle, trailing }
  else
    .error (.invalidCommand line (Text.byteSize line - Text.byteSize start))

def parse (line : Text) : Except ParseError Message :=
  let line := chomp line
  if line.all Text.isBlank then .error .empty else parseLine line

end Message

end IrcBot
