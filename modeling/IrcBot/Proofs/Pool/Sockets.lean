/-
What the operations of a pool do to its sockets, told by look-up: each
operation changes the socket it names and leaves every other one alone.
-/
import IrcBot.Pool.Basic
import IrcBot.Proofs.Table

namespace IrcBot

namespace WriteQueue

theorem pieces_push {q : WriteQueue} {bytes : Bytes} (h : bytes ≠ []) :
    (q.push bytes).pieces = q.pieces ++ [bytes] := by
  simp [push, h]

end WriteQueue

namespace Socket

variable {κ : Type}

theorem reader_flush (s : Socket κ) : s.flush.2.reader = s.reader := by
  unfold Socket.flush
  split
  split <;> rfl

theorem callbacks_flush (s : Socket κ) : s.flush.2.callbacks = s.callbacks := by
  unfold Socket.flush
  split
  split <;> rfl

theorem queue_flush (s : Socket κ) : s.flush.2.queue = (s.queue.flush s.sink).2.1 := by
  unfold Socket.flush
  dsimp only
  split <;> rfl

theorem sink_flush (s : Socket κ) : s.flush.2.sink = (s.queue.flush s.sink).2.2 := by
  unfold Socket.flush
  dsimp only
  split <;> rfl

end Socket

namespace Pool

variable {κ : Type} {p : Pool κ} {h h' : Handle} {s : Socket κ}

@[simp] theorem socket?_set_self : (p.set h s).socket? h = some s := by
  simp [socket?, set]

theorem socket?_set_other (hne : h ≠ h') : (p.set h s).socket? h' = p.socket? h' := by
  simp only [socket?, set]
  rw [Table.get?_insert_other _ _ hne]

theorem set_of_socket? (hs : p.socket? h = some s) : p.set h s = p := by
  rw [set, Table.insert_of_get? hs]

@[simp] theorem socket?_close_self : (p.close h).2.socket? h = none := by
  simp [socket?, close]

theorem socket?_remove_self : (p.remove h).2.socket? h = none := by
  cases hs : p.socket? h with
  | none => simp only [remove, hs]
  | some s =>
    simp only [remove, hs]
    exact Table.get?_erase_self _ _

theorem socket?_close_other (hne : h ≠ h') : (p.close h).2.socket? h' = p.socket? h' := by
  simp only [socket?, close]
  rw [Table.get?_erase_other _ hne]

theorem close_of_none (hs : p.socket? h = none) : (p.close h).2 = p := by
  have hsame : p.sockets.erase h = p.sockets := by
    refine Table.ext_get? fun h' => ?_
    rw [Table.get?_erase]
    split
    · next he => exact he ▸ hs.symm
    · rfl
  exact congrArg (fun sockets => { p with sockets }) hsame

theorem contains_iff : p.contains h = true ↔ ∃ s, p.socket? h = some s := by
  simp [contains, Option.isSome_iff_exists]

theorem enqueue_eq (hs : p.socket? h = some s) (bytes : Bytes) :
    p.enqueue h bytes = (.ok (), p.set h { s with queue := s.queue.push bytes }) := by
  simp only [enqueue, withSocket, hs]

end Pool

end IrcBot
