/-
Quoted text. Double quotes allow escapes, single quotes take everything as
it is, and three quotes let the text run over several lines. A line end in
the text is a line feed, however it is written.
-/
import IrcBot.Toml.Scalar

namespace IrcBot.Toml

/-- What a reader makes of the start of a text: a result and what follows it, or nothing. -/
abbrev Reader (α : Type) := Text → Option (α × Text)

/-- Whether a character may stand in a comment, or in quotes on one line. -/
def isPlain (c : Char) : Bool := c == '\t' || (0x20 ≤ c.toNat && c.toNat != 0x7F)

def readNewline : Reader Unit
  | '\n' :: t => some ((), t)
  | '\r' :: '\n' :: t => some ((), t)
  | _ => none

def isSpace (c : Char) : Bool := c == ' ' || c == '\t'

/-- Skips spaces and line ends. -/
def skipLines (t : Text) : Text :=
  match t with
  | ' ' :: t | '\t' :: t | '\n' :: t | '\r' :: '\n' :: t => skipLines t
  | t => t

/-- The character with this number, written in hexadecimal. -/
def scalarOf? (digits : Text) : Option Char :=
  if digits.all isHexDigit then
    let n := Text.valueIn 16 hexValue digits
    if n.isValidChar then some (.ofNat n) else none
  else none

/-- The character an escape stands for, after its backslash. -/
def readEscape : Reader Char
  | 'b' :: t => some ('\x08', t)
  | 't' :: t => some ('\t', t)
  | 'n' :: t => some ('\n', t)
  | 'f' :: t => some ('\x0c', t)
  | 'r' :: t => some ('\r', t)
  | '"' :: t => some ('"', t)
  | '\\' :: t => some ('\\', t)
  | 'u' :: t => if t.length < 4 then none else (scalarOf? (t.take 4)).map (·, t.drop 4)
  | 'U' :: t => if t.length < 8 then none else (scalarOf? (t.take 8)).map (·, t.drop 8)
  | _ => none

/-- One piece of text between double quotes. -/
def readBasicPiece : Reader Text
  | '\\' :: t => (readEscape t).map fun r => ([r.1], r.2)
  | c :: t => if isPlain c then some ([c], t) else none
  | [] => none

/-- One piece of text between three double quotes. A backslash at the end of
a line joins it with the next one that is not blank. -/
def readLongBasicPiece (t : Text) : Option (Text × Text) :=
  match readNewline t with
  | some (_, t) => some (['\n'], t)
  | none =>
    match t with
    | '\\' :: rest =>
      match readNewline (rest.dropWhile isSpace) with
      | some (_, rest) => some ([], skipLines rest)
      | none => readBasicPiece t
    | _ => readBasicPiece t

def readLiteralPiece : Reader Text
  | c :: t => if isPlain c then some ([c], t) else none
  | [] => none

def readLongLiteralPiece (t : Text) : Option (Text × Text) :=
  match readNewline t with
  | some (_, t) => some (['\n'], t)
  | none => readLiteralPiece t

/-- The closing quote on one line. -/
def closeShort (quote : Char) : Reader Text
  | c :: t => if c = quote then some ([], t) else none
  | [] => none

/-- Three closing quotes. One or two more directly before them belong to the text. -/
def closeLong (quote : Char) (t : Text) : Option (Text × Text) :=
  let n := min 5 (t.takeWhile (· == quote)).length
  if n < 3 then none else some (t.take (n - 3), t.drop n)

/-- Pieces of text up to a closing quote. -/
def readPieces (close piece : Reader Text) (t : Text) : Option (Text × Text) :=
  match close t with
  | some r => some r
  | none =>
    match piece t with
    | none => none
    | some (p, rest) =>
      if rest.length < t.length then
        (readPieces close piece rest).map fun r => (p ++ r.1, r.2)
      else none
  termination_by t.length

/-- The line end directly after three opening quotes is left out. -/
def dropNewline (t : Text) : Text := (readNewline t).elim t (·.2)

def readQuoted : Reader Text
  | '"' :: '"' :: '"' :: t => readPieces (closeLong '"') readLongBasicPiece (dropNewline t)
  | '"' :: t => readPieces (closeShort '"') readBasicPiece t
  | '\'' :: '\'' :: '\'' :: t => readPieces (closeLong '\'') readLongLiteralPiece (dropNewline t)
  | '\'' :: t => readPieces (closeShort '\'') readLiteralPiece t
  | _ => none

/-- Quoted text on one line, as keys are written. -/
def readShortQuoted : Reader Text
  | '"' :: t => readPieces (closeShort '"') readBasicPiece t
  | '\'' :: t => readPieces (closeShort '\'') readLiteralPiece t
  | _ => none

end IrcBot.Toml
