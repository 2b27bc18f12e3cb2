/-
Decimal numerals: written with no sign and no leading zeros, padded on
request, and read with an optional plus sign and any number of zeros.
-/
import IrcBot.Text.Basic

namespace IrcBot.Text

def ofNat (n : Nat) : Text := Nat.toDigits 10 n

/-- The numeral with zeros in front up to `width` digits. -/
def padded (width n : Nat) : Text :=
  List.replicate (width - (ofNat n).length) '0' ++ ofNat n

def digitValue (c : Char) : Nat := c.toNat - '0'.toNat

/-- The value of a string of digits read in a base. -/
def valueIn (base : Nat) (value : Char → Nat) (digits : Text) : Nat :=
  digits.foldl (fun n c => n * base + value c) 0

/-- The number a text of ASCII digits stands for. -/
def toNat? (t : Text) : Option Nat :=
  if t ≠ [] ∧ t.all Char.isDigit then some (valueIn 10 digitValue t) else none

/-- Reads an unsigned number below `bound`; one plus sign may stand in front. -/
def toNatBelow? (bound : Nat) (t : Text) : Option Nat :=
  let digits := match t with
    | '+' :: r => r
    | r => r
  (toNat? digits).filter (· < bound)

end IrcBot.Text
