/-
A write queue over its whole life. Pieces are pushed, flushes write to streams that may
stop anywhere, and now and then the queue is cleared. What the streams have taken since
it was cleared last and what is queued are together the bytes that were pushed, in their
order, and the next flush goes on where they end (`writes_conserve`). It rests on one
invariant: no piece that is queued is empty.
-/
import IrcBot.Proofs.Stream.Flushing

namespace IrcBot

namespace WriteQueue

/-- What is done with a queue. The stream may be another one for each flush. -/
inductive Use where
  | push (bytes : Bytes)
  | flush (sink : Sink)
  | clear

/-- A queue, with the bytes pushed and the bytes taken since it was cleared last. -/
structure Course where
  queue : WriteQueue := {}
  pushed : Bytes := []
  taken : Bytes := []

def Course.use (c : Course) : Use → Course
  | .push bytes => { c with queue := c.queue.push bytes, pushed := c.pushed ++ bytes }
  | .flush s =>
    { c with queue := (c.queue.flush s).2.1, taken := c.taken ++ takenBy (c.queue.writes s) }
  | .clear => { queue := c.queue.clear }

/-- A course after some uses. -/
def Course.after (c : Course) (uses : List Use) : Course := uses.foldl Course.use c

/-- Nothing is lost, repeated or reordered, and no piece is empty. -/
structure Course.Sound (c : Course) : Prop where
  conserved : c.taken ++ c.queue.bytes = c.pushed
  substantial : Substantial c.queue.pieces

variable {c : Course} {q : WriteQueue} {a : Answer}

/-! ## Pieces and bytes -/

theorem Substantial.push (h : Substantial q.pieces) (bytes : Bytes) :
    Substantial (q.push bytes).pieces := by
  unfold WriteQueue.push
  split
  · exact h
  · next hnone =>
    intro piece hpiece
    rcases List.mem_append.1 hpiece with hold | hnew
    · exact h piece hold
    · exact List.mem_singleton.1 hnew ▸ hnone

theorem Substantial.pending_eq_zero_iff (h : Substantial q.pieces) :
    q.pending = 0 ↔ q.isEmpty = true := by
  rw [pending_eq, List.length_eq_zero_iff, isEmpty, List.isEmpty_iff, bytes,
    List.flatten_eq_nil_iff]
  refine ⟨fun hall => ?_, fun hnone => by simp [hnone]⟩
  exact List.eq_nil_iff_forall_not_mem.2 fun piece hpiece => h piece hpiece (hall piece hpiece)

/-! ## One use -/

theorem Course.Sound.new : Course.Sound {} := ⟨rfl, List.forall_mem_nil _⟩

theorem Course.Sound.use (hc : c.Sound) (u : Use) : (c.use u).Sound := by
  cases u with
  | push bytes =>
    refine ⟨?_, hc.substantial.push bytes⟩
    show c.taken ++ (c.queue.push bytes).bytes = c.pushed ++ bytes
    rw [bytes_push, ← List.append_assoc, hc.conserved]
  | flush s =>
    refine ⟨?_, (hc.substantial.flushPieces s).2⟩
    have hmoved : takenBy (c.queue.writes s) ++ (c.queue.flush s).2.1.bytes = c.queue.bytes :=
      takenBy_writesOf c.queue.pieces s
    show c.taken ++ takenBy (c.queue.writes s) ++ (c.queue.flush s).2.1.bytes = c.pushed
    rw [List.append_assoc, hmoved, hc.conserved]
  | clear => exact .new

theorem Course.Sound.after (hc : c.Sound) (uses : List Use) : (c.after uses).Sound := by
  induction uses generalizing c with
  | nil => exact hc
  | cons u uses ih => exact ih (hc.use u)

/-! ## The end of a flush -/

theorem stop?_eq_blocked_iff : a.stop? = some .blocked ↔ a = .blocked := by
  cases a with
  | accepted n => cases n <;> simp [Answer.stop?]
  | _ => simp [Answer.stop?]

theorem stop?_eq_failed_iff {e : IoError} :
    a.stop? = some (.failed e) ↔ a = .failed e ∨ (a = .accepted 0 ∧ e = .writeZero) := by
  cases a with
  | accepted n => cases n <;> simp [Answer.stop?, eq_comm]
  | _ => simp [Answer.stop?]

/-- **Writing conserves bytes, whatever the streams do.** Take a new queue and any uses of it. What
was taken since the last clearing, followed by what is queued, is what was pushed since, and the
queue counts its bytes and is empty exactly without any. Whatever stream is flushed to next: each
write of the flush offers something; what these writes take comes in front of what is left, and
both together are what was queued. If it ends as drained, nothing is left; if it ends as blocked,
something is, and the last write was refused so; and if it fails, something is left too, and the
last write has failed so or has taken nothing of what it was offered. -/
theorem writes_conserve (uses : List Use) :
    let c := Course.after {} uses
    c.taken ++ c.queue.bytes = c.pushed ∧
    c.queue.pending = c.queue.bytes.length ∧ (c.queue.pending = 0 ↔ c.queue.isEmpty = true) ∧
    ∀ s : Sink,
      let writes := c.queue.writes s
      let (flushed, left, s') := c.queue.flush s
      Made s writes s' ∧ (∀ w ∈ writes, w.offered ≠ []) ∧
      s'.taken = s.taken ++ takenBy writes ∧ takenBy writes ++ left.bytes = c.queue.bytes ∧
      match flushed with
      | .drained => left.isEmpty = true
      | .blocked => left.isEmpty = false ∧ ∃ w ∈ writes.getLast?, w.answer = .blocked
      | .failed e => left.isEmpty = false ∧
        ∃ w ∈ writes.getLast?, w.answer = .failed e ∨ (w.answer = .accepted 0 ∧ e = .writeZero) := by
  intro c
  have hc : c.Sound := Course.Sound.new.after uses
  refine ⟨hc.conserved, pending_eq c.queue, hc.substantial.pending_eq_zero_iff, fun s => ?_⟩
  have hmade : Made s (c.queue.writes s) (c.queue.flush s).2.2 := made_writesOf c.queue.pieces s
  refine ⟨hmade, (hc.substantial.flushPieces s).1, hmade.taken,
    takenBy_writesOf c.queue.pieces s, ?_⟩
  rcases flushPieces_ends c.queue.pieces s with ⟨hdrained, hnone⟩ | ⟨hleft, w, hw, hstop⟩
  · rw [hdrained]
    exact List.isEmpty_iff.2 hnone
  · have hsome : (c.queue.flush s).2.1.isEmpty = false := by
      rw [isEmpty, List.isEmpty_eq_false_iff]
      exact hleft
    cases hflushed : (flushPieces c.queue.pieces s).1 with
    | drained => exact absurd (hflushed ▸ hstop) (Answer.stop?_ne_drained w.answer)
    | blocked => exact ⟨hsome, w, hw, stop?_eq_blocked_iff.1 (hflushed ▸ hstop)⟩
    | failed e => exact ⟨hsome, w, hw, stop?_eq_failed_iff.1 (hflushed ▸ hstop)⟩

end WriteQueue

end IrcBot
