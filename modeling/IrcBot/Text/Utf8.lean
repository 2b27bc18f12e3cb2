/-
UTF-8 in both directions. Encoding is the standard one. Decoding never
fails: a maximal piece of a well-formed sequence that breaks off, or a byte
that cannot start one, becomes one U+FFFD. `decode?` is the strict reading.
-/
import IrcBot.Text.Basic

namespace IrcBot

abbrev Bytes := List UInt8

namespace Text

def encode (t : Text) : Bytes := t.flatMap String.utf8EncodeChar

@[simp] theorem encode_nil : encode [] = [] := rfl

@[simp] theorem encode_append (s t : Text) : encode (s ++ t) = encode s ++ encode t := by
  simp [encode]

/-- How many bytes a sequence with this first byte has; zero if none starts with it. -/
def sequenceLength (b : UInt8) : Nat :=
  if b < 0x80 then 1
  else if b < 0xC2 then 0
  else if b < 0xE0 then 2
  else if b < 0xF0 then 3
  else if b < 0xF5 then 4
  else 0

/-- Which second bytes a first byte admits. Overlong forms, surrogates and
code points above U+10FFFF fall outside. -/
def secondByte (first : UInt8) : UInt8 × UInt8 :=
  if first = 0xE0 then (0xA0, 0xBF)
  else if first = 0xED then (0x80, 0x9F)
  else if first = 0xF0 then (0x90, 0xBF)
  else if first = 0xF4 then (0x80, 0x8F)
  else (0x80, 0xBF)

/-- The longest run of at most `n` continuation bytes, the first of them within `range`. -/
def continuation (range : UInt8 × UInt8) : Nat → Bytes → Bytes
  | 0, _ => []
  | _ + 1, [] => []
  | n + 1, b :: rest =>
    if range.1 ≤ b ∧ b ≤ range.2 then b :: continuation (0x80, 0xBF) n rest else []

/-- The bits that the first byte of a sequence of this length gives to the code point. -/
def leadBits (length : Nat) (b : UInt8) : Nat :=
  match length with
  | 1 => b.toNat
  | 2 => b.toNat % 0x20
  | 3 => b.toNat % 0x10
  | _ => b.toNat % 0x08

/-- Reads the sequence that starts with `b`: its character, or nothing if it
is malformed, and how many bytes of `rest` it takes. -/
def decodeSequence (b : UInt8) (rest : Bytes) : Option Char × Nat :=
  let length := sequenceLength b
  let tail := continuation (secondByte b) (length - 1) rest
  if length = tail.length + 1 then
    (some (.ofNat (tail.foldl (fun n c => n * 0x40 + c.toNat % 0x40) (leadBits length b))),
      tail.length)
  else (none, tail.length)

def decodeWith (malformed : Char) : Bytes → Text
  | [] => []
  | b :: rest =>
    let (c?, n) := decodeSequence b rest
    c?.getD malformed :: decodeWith malformed (rest.drop n)
  termination_by bytes => bytes.length
  decreasing_by simp only [List.length_drop, List.length_cons]; omega

/-- The text with U+FFFD for every malformed piece. -/
def decode (bytes : Bytes) : Text := decodeWith '\uFFFD' bytes

/-- The text, if no piece is malformed. -/
def decode? : Bytes → Option Text
  | [] => some []
  | b :: rest =>
    match decodeSequence b rest with
    | (some c, n) => (decode? (rest.drop n)).map (c :: ·)
    | (none, _) => none
  termination_by bytes => bytes.length
  decreasing_by simp only [List.length_drop, List.length_cons]; omega

end Text

end IrcBot
