/-
How values are described in error texts and status lines. Text stands
between double quotes: quotes and backslashes get a backslash; tab, carriage
return, line feed and NUL have their letters; any other unprintable character
is its code point in hexadecimal. A record is its name and its fields in
braces, a list its items in brackets.
-/
import IrcBot.Text.Unprintable

namespace IrcBot.Text

def escape (c : Char) : Text :=
  match c with
  | '"' => ['\\', '"']
  | '\\' => ['\\', '\\']
  | '\t' => ['\\', 't']
  | '\r' => ['\\', 'r']
  | '\n' => ['\\', 'n']
  | '\x00' => ['\\', '0']
  | c =>
    if isUnprintable c then
      ['\\', 'u', '\x7b'] ++ Nat.toDigits 16 c.toNat ++ ['\x7d']
    else [c]

def quoted (t : Text) : Text := '"' :: t.flatMap escape ++ ['"']

/-- Items with commas between them. -/
def commaSeparated (items : List Text) : Text := [',', ' '].intercalate items

/-- A record: `Name`, then `field: value` for each field, in braces. -/
def describeRecord (name : String) (fields : List (String × Text)) : Text :=
  name.toList ++ " \x7b ".toList ++
    commaSeparated (fields.map fun f => f.1.toList ++ ": ".toList ++ f.2) ++ " \x7d".toList

def describeList (items : List Text) : Text := '[' :: commaSeparated items ++ [']']

end IrcBot.Text
