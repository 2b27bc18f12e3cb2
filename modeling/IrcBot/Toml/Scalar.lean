/-
Numbers, truth values and moments. Each is one word of the document (a
moment may be two, with a space between date and time), and the word decides
by its form which of them it is. Settings use whole numbers and truth values;
the others only have to be well formed.
-/
import IrcBot.Text.Numeral
import IrcBot.Toml.Value

namespace IrcBot.Toml

def isHexDigit (c : Char) : Bool :=
  c.isDigit || ('a' ≤ c && c ≤ 'f') || ('A' ≤ c && c ≤ 'F')

def hexValue (c : Char) : Nat :=
  if c.isDigit then c.toNat - '0'.toNat
  else if 'a' ≤ c then c.toNat - 'a'.toNat + 10
  else c.toNat - 'A'.toNat + 10

/-- Digits with single underscores between them, as the digits alone. -/
def digits? (isDigit : Char → Bool) (t : Text) : Option Text :=
  let groups := Text.splitBy (· == '_') t
  if groups.all fun g => g != [] && g.all isDigit then some groups.flatten else none

/-- A sign, if there is one, and the rest; `true` stands for minus. -/
def splitSign : Text → Bool × Text
  | '-' :: t => (true, t)
  | '+' :: t => (false, t)
  | t => (false, t)

/-! ## Numbers -/

/-- Whole numbers are 64 bits wide. -/
def integerBound : Nat := 9223372036854775808

/-- Decimal digits without a zero in front. -/
def decimal? (t : Text) : Option Text :=
  (digits? Char.isDigit t).filter fun ds => ds.head? != some '0' || t.length == 1

def inBase? (base : Nat) (isDigit : Char → Bool) (t : Text) : Option Int :=
  ((digits? isDigit t).map (Text.valueIn base hexValue)).bind fun n =>
    if n < integerBound then some n else none

def integer? (t : Text) : Option Int :=
  match t with
  | '0' :: 'x' :: t => inBase? 16 isHexDigit t
  | '0' :: 'o' :: t => inBase? 8 (fun c => '0' ≤ c && c ≤ '7') t
  | '0' :: 'b' :: t => inBase? 2 (fun c => c == '0' || c == '1') t
  | t =>
    let (minus, t) := splitSign t
    ((decimal? t).map (Text.valueIn 10 hexValue)).bind fun n =>
      if minus then (if n ≤ integerBound then some (-n) else none)
      else if n < integerBound then some n else none

/-- Whether `m` times ten to the `e` rounds to a finite binary64 number. -/
def isFinite (m : Nat) (e : Int) : Bool :=
  let bound := Nat.pow 2 1024 - Nat.pow 2 970
  let magnitude := e + (Nat.toDigits 10 m).length
  if m == 0 || magnitude < 300 then true
  else if magnitude > 320 then false
  else if e < 0 then m < bound * Nat.pow 10 e.natAbs
  else m * Nat.pow 10 e.natAbs < bound

/-- The part of a float from its `e` on: the exponent. -/
def exponent? (t : Text) : Option Int :=
  let (minus, t) := splitSign t
  ((digits? Char.isDigit t).map (Text.valueIn 10 hexValue)).map fun n =>
    if minus then -(n : Int) else n

def isFloat (t : Text) : Bool :=
  let (minus, t) := splitSign t
  if t = "inf".toList ∨ t = "nan".toList then true
  else
    let (mantissa, e?) :=
      match t.span fun c => c != 'e' && c != 'E' with
      | (mantissa, []) => (mantissa, some 0)
      | (mantissa, _ :: e) => (mantissa, exponent? e)
    let digits? := match Text.cut? '.' mantissa with
      | some (whole, part) => do return (← decimal? whole, ← digits? Char.isDigit part)
      | none => if mantissa = t then none else (decimal? mantissa).map (·, [])
    match digits?, e? with
    | some (whole, part), some e =>
      minus || isFinite (Text.valueIn 10 hexValue (whole ++ part)) (e - part.length)
    | _, _ => false

/-! ## Dates and times -/

/-- A number of exactly this many digits within a range. -/
def fixed? (width low high : Nat) (t : Text) : Option Nat :=
  if t.length = width then t.toNat?.filter fun n => low ≤ n && n ≤ high else none

def isLeap (year : Nat) : Bool := (year % 4 == 0 && year % 100 != 0) || year % 400 == 0

def daysIn (year month : Nat) : Nat :=
  if month = 2 then (if isLeap year then 29 else 28)
  else if [4, 6, 9, 11].contains month then 30 else 31

def isDate (t : Text) : Bool :=
  match Text.splitBy (· == '-') t with
  | [y, m, d] =>
    match fixed? 4 0 9999 y, fixed? 2 1 12 m with
    | some year, some month => (fixed? 2 1 (daysIn year month) d).isSome
    | _, _ => false
  | _ => false

def isHourMinute (t : Text) : Bool :=
  match Text.cut? ':' t with
  | some (h, m) => (fixed? 2 0 23 h).isSome && (fixed? 2 0 59 m).isSome
  | none => false

/-- Hours, minutes and seconds, perhaps with a fraction. A minute may have a leap second. -/
def isTime (t : Text) : Bool :=
  let (clock, fraction) := t.span (· != '.')
  match Text.splitBy (· == ':') clock with
  | [h, m, s] =>
    isHourMinute (h ++ ':' :: m) && (fixed? 2 0 60 s).isSome &&
      (fraction.isEmpty || (fraction.tail != [] && fraction.tail.all Char.isDigit))
  | _ => false

/-- A time, perhaps with its distance from UTC. -/
def isZonedTime (t : Text) : Bool :=
  match t.span fun c => c != 'Z' && c != 'z' && c != '+' && c != '-' with
  | (time, []) => isTime time
  | (time, c :: zone) =>
    isTime time && (if c = 'Z' ∨ c = 'z' then zone.isEmpty else isHourMinute zone)

def isMoment (t : Text) : Bool :=
  match t.span fun c => c != 'T' && c != 't' && c != ' ' with
  | (date, []) => isDate date || isTime date
  | (date, _ :: time) => isDate date && isZonedTime time

/-! ## Words -/

def isWordChar (c : Char) : Bool :=
  c.isAlphanum || c == '_' || c == '+' || c == '-' || c == '.' || c == ':'

/-- Takes a word; a date takes the time after a space along. -/
def takeWord (t : Text) : Text × Text :=
  let (word, rest) := t.span isWordChar
  match rest with
  | ' ' :: c :: more =>
    if isDate word && c.isDigit then
      let (time, rest) := (c :: more).span isWordChar
      (word ++ ' ' :: time, rest)
    else (word, rest)
  | rest => (word, rest)

def scalar? (word : Text) : Option Value :=
  if word = "true".toList then some (.boolean true)
  else if word = "false".toList then some (.boolean false)
  else if let some i := integer? word then some (.integer i)
  else if isFloat word then some .float
  else if isMoment word then some .moment
  else none

end IrcBot.Toml
