/-
Bytes waiting to be written, in the pieces they were queued in. A piece
leaves the queue when all of it has been taken; after a partial write, the
rest of it stays at the head.
-/
import IrcBot.Stream.Sink

namespace IrcBot

structure WriteQueue where
  /-- What is left of each piece, none of them empty. -/
  pieces : List Bytes := []
  deriving DecidableEq, Repr, Inhabited

namespace WriteQueue

def push (q : WriteQueue) (bytes : Bytes) : WriteQueue :=
  if bytes = [] then q else ⟨q.pieces ++ [bytes]⟩

def isEmpty (q : WriteQueue) : Bool := q.pieces.isEmpty

/-- All bytes still to be written, in order. -/
def bytes (q : WriteQueue) : Bytes := q.pieces.flatten

def pending (q : WriteQueue) : Nat := q.pieces.foldr (fun piece n => piece.length + n) 0

def clear (_ : WriteQueue) : WriteQueue := {}

/-- How a flush ended. -/
inductive Flushed where
  | drained
  | blocked
  | failed (error : IoError)
  deriving DecidableEq, Repr

def flushPieces (pieces : List Bytes) (s : Sink) : Flushed × List Bytes × Sink :=
  match pieces with
  | [] => (.drained, [], s)
  | piece :: rest =>
    match h : s.answer piece.length with
    | .accepted 0 => (.failed .writeZero, piece :: rest, (s.write piece).2)
    | .accepted (n + 1) =>
      if n + 1 < piece.length then flushPieces (piece.drop (n + 1) :: rest) (s.write piece).2
      else flushPieces rest (s.write piece).2
    | .blocked => (.blocked, piece :: rest, (s.write piece).2)
    | .interrupted => flushPieces (piece :: rest) (s.write piece).2
    | .failed e => (.failed e, piece :: rest, (s.write piece).2)
  termination_by pieces.flatten.length + pieces.length + s.answers.length
  decreasing_by
  · have := Sink.accepted_le h
    simp [Sink.write]; omega
  · simp [Sink.write]; omega
  · have := List.length_pos_iff.2 (Sink.answers_ne_nil h)
    simp [Sink.write]; omega

/-- Writes the pieces in order until none is left, the stream takes no more, or a write fails. -/
def flush (q : WriteQueue) (s : Sink) : Flushed × WriteQueue × Sink :=
  let (flushed, pieces, s) := flushPieces q.pieces s
  (flushed, ⟨pieces⟩, s)

end WriteQueue

end IrcBot
