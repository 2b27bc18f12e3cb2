/-
The writing side of a non-blocking stream. What the stream will do with the
next writes is a list of answers; once they are used up it takes everything,
unless it is broken.
-/
import IrcBot.Stream.Source

namespace IrcBot

/-- What a stream does with one write. -/
inductive Answer where
  /-- Takes bytes from the front, this many at most. -/
  | accepted (count : Nat)
  | blocked
  | interrupted
  | failed (error : IoError)
  deriving DecidableEq, Repr

structure Sink where
  answers : List Answer := []
  /-- Every write fails with this once the answers are used up. -/
  broken : Option IoError := none
  /-- All bytes taken so far. -/
  taken : Bytes := []
  calls : Nat := 0
  deriving DecidableEq, Repr, Inhabited

namespace Sink

/-- The answer to the next write when `offered` bytes are offered. -/
def answer (s : Sink) (offered : Nat) : Answer :=
  match s.answers with
  | .accepted n :: _ => .accepted (min n offered)
  | a :: _ => a
  | [] => s.broken.elim (.accepted offered) .failed

def write (s : Sink) (bytes : Bytes) : Answer × Sink :=
  let a := s.answer bytes.length
  let taken := match a with
    | .accepted n => bytes.take n
    | _ => []
  (a, { s with answers := s.answers.tail, taken := s.taken ++ taken, calls := s.calls + 1 })

theorem accepted_le {s : Sink} {k n : Nat} (h : s.answer k = .accepted n) : n ≤ k := by
  cases ha : s.answers with
  | nil => cases hb : s.broken <;> simp_all [answer]
  | cons a _ => cases a <;> simp [answer, ha] at h; omega

theorem answers_ne_nil {s : Sink} {k : Nat} (h : s.answer k = .interrupted) : s.answers ≠ [] := by
  intro hn
  simp only [answer, hn] at h
  cases hb : s.broken <;> simp_all

end Sink

end IrcBot
