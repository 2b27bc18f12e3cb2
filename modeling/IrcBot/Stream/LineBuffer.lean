/-
Lines out of a stream of bytes. Bytes come in pieces of any size; the buffer
keeps them until a line feed completes a line, and drops a line that is too
long. It remembers how far it has searched, so no byte is searched twice.
-/
import IrcBot.Text.Numeral
import IrcBot.Text.Utf8

namespace IrcBot

structure LineBuffer where
  bytes : Bytes := []
  /-- How many bytes are known to hold no line feed. -/
  searched : Nat := 0
  /-- The most bytes a line may have, its line end left out. -/
  limit : Nat := 8191
  deriving DecidableEq, Repr, Inhabited

namespace LineBuffer

/-- A line that was dropped because of its length. -/
structure Overlong where
  actual : Nat
  limit : Nat
  deriving DecidableEq, Repr

def Overlong.message (e : Overlong) : Text :=
  "line too long: ".toList ++ Text.ofNat e.actual ++ " bytes (limit: ".toList ++
    Text.ofNat e.limit ++ ")".toList

def lineFeed : UInt8 := 10

def carriageReturn : UInt8 := 13

def extend (b : LineBuffer) (bytes : Bytes) : LineBuffer := { b with bytes := b.bytes ++ bytes }

def pending (b : LineBuffer) : Nat := b.bytes.length

def clear (b : LineBuffer) : LineBuffer := { b with bytes := [], searched := 0 }

/-- A line without the carriage return at its end. -/
def dropReturn (line : Bytes) : Bytes :=
  if line.getLast? = some carriageReturn then line.dropLast else line

/-- Where the first line feed stands, searching on from where the last search ended. -/
def lineFeed? (b : LineBuffer) : Option Nat :=
  ((b.bytes.drop b.searched).findIdx? (· == lineFeed)).map (b.searched + ·)

/-- Takes the next line out of the buffer, or reports a line that is too
long. Without a line feed there is no line yet; what is there is then dropped
if it is already too long. -/
def next (b : LineBuffer) : Option (Except Overlong Text) × LineBuffer :=
  match b.lineFeed? with
  | some i =>
    let line := dropReturn (b.bytes.take i)
    let rest := { b with bytes := b.bytes.drop (i + 1), searched := 0 }
    if line.length > b.limit then (some (.error ⟨line.length, b.limit⟩), rest)
    else (some (.ok (Text.decode line)), rest)
  | none =>
    if b.pending > b.limit then (some (.error ⟨b.pending, b.limit⟩), b.clear)
    else (none, { b with searched := b.pending })

theorem lineFeed?_lt {b : LineBuffer} {i : Nat} (h : b.lineFeed? = some i) : i < b.pending := by
  simp only [lineFeed?, Option.map_eq_some_iff] at h
  obtain ⟨j, hj, rfl⟩ := h
  have := (List.findIdx?_eq_some_iff_getElem.1 hj).1
  simp only [List.length_drop] at this
  simp only [pending]
  omega

/-- A line that is taken or dropped takes bytes out of the buffer. -/
theorem pending_next_lt {b : LineBuffer} (h : b.next.1.isSome) :
    b.next.2.pending < b.pending := by
  unfold next at h ⊢
  split
  · next i hi =>
    have hlt := lineFeed?_lt hi
    have : (b.bytes.drop (i + 1)).length < b.pending := by
      simp only [pending, List.length_drop] at hlt ⊢; omega
    dsimp only
    split <;> exact this
  · next hi =>
    rw [hi] at h
    dsimp only at h ⊢
    split
    · next hlt => simp only [pending, clear, List.length_nil] at hlt ⊢; omega
    · next hle => simp [hle] at h

/-- When no line is complete, nothing is lost. -/
theorem bytes_next_none {b b' : LineBuffer} (h : b.next = (none, b')) : b'.bytes = b.bytes := by
  unfold next at h
  split at h
  · dsimp only at h; split at h <;> simp at h
  · split at h <;> simp at h
    rw [← h]

/-- Takes lines until there is none left, dropped ones included. -/
def drain (b : LineBuffer) : List (Except Overlong Text) × LineBuffer :=
  match _h : b.next with
  | (none, rest) => ([], rest)
  | (some line, rest) =>
    let (lines, last) := rest.drain
    (line :: lines, last)
  termination_by b.pending
  decreasing_by
    have := pending_next_lt (b := b) (by simp [_h])
    simpa [_h] using this

end LineBuffer

end IrcBot
