/-
Queues and what a flush makes of them. A flush is a run of writes, each of the first
piece that is queued, until an answer ends it or nothing is left (`writesOf`). So the
stream takes bytes off the front, and what it does not take stays queued, in order.
-/
import IrcBot.Stream.WriteQueue

namespace IrcBot

/-! ## Writes -/

/-- One write to a stream. -/
structure Write where
  offered : Bytes
  answer : Answer

/-- How an answer ends a flush, unless it goes on. -/
def Answer.stop? : Answer → Option WriteQueue.Flushed
  | .accepted 0 => some (.failed .writeZero)
  | .accepted (_ + 1) | .interrupted => none
  | .blocked => some .blocked
  | .failed e => some (.failed e)

theorem Answer.stop?_ne_drained (a : Answer) : a.stop? ≠ some .drained := by
  cases a with
  | accepted n => cases n <;> nofun
  | _ => nofun

namespace Write

/-- The bytes that the stream has taken. -/
def taken (w : Write) : Bytes :=
  match w.answer with
  | .accepted n => w.offered.take n
  | _ => []

/-- What is left of the offered piece, if anything is. -/
def left (w : Write) : List Bytes :=
  match w.answer with
  | .accepted n => if n < w.offered.length then [w.offered.drop n] else []
  | _ => [w.offered]

theorem taken_append_left (w : Write) : w.taken ++ w.left.flatten = w.offered := by
  unfold taken left
  split
  · split
    · rw [List.flatten_singleton, List.take_append_drop]
    · rw [List.flatten_nil, List.append_nil, List.take_of_length_le (by omega)]
  · exact List.append_nil _

/-- A write that ends a flush has taken nothing. -/
theorem taken_of_stop {w : Write} {flushed : WriteQueue.Flushed}
    (h : w.answer.stop? = some flushed) : w.taken = [] := by
  unfold taken
  cases ha : w.answer with
  | accepted n =>
    cases n with
    | zero => exact List.take_zero
    | succ n => simp [ha, Answer.stop?] at h
  | _ => rfl

theorem ne_nil_of_mem_left {w : Write} (h : w.offered ≠ []) : ∀ piece ∈ w.left, piece ≠ [] := by
  intro piece hpiece
  unfold left at hpiece
  split at hpiece
  · split at hpiece
    · obtain rfl := List.mem_singleton.1 hpiece
      rw [ne_eq, List.drop_eq_nil_iff]
      omega
    · cases hpiece
  · obtain rfl := List.mem_singleton.1 hpiece
    exact h

end Write

/-- All bytes taken by some writes. -/
def takenBy (writes : List Write) : Bytes := writes.flatMap Write.taken

/-- These writes, one after the other, take one state of a stream to another. -/
inductive Made : Sink → List Write → Sink → Prop where
  | done (s : Sink) : Made s [] s
  | write {s s' : Sink} {bytes : Bytes} {later : List Write}
    (h : Made (s.write bytes).2 later s') : Made s (⟨bytes, (s.write bytes).1⟩ :: later) s'

/-- A stream has what it had and what it has taken. -/
theorem Made.taken {s s' : Sink} {writes : List Write} (h : Made s writes s') :
    s'.taken = s.taken ++ takenBy writes := by
  induction h with
  | done s => exact (List.append_nil _).symm
  | @write s s' bytes later h ih =>
    have hone : (s.write bytes).2.taken = s.taken ++ Write.taken ⟨bytes, (s.write bytes).1⟩ := rfl
    rw [ih, hone, List.append_assoc]
    rfl

namespace WriteQueue

/-! ## The bytes of a queue -/

theorem bytes_push (q : WriteQueue) (bytes : Bytes) : (q.push bytes).bytes = q.bytes ++ bytes := by
  unfold push
  split
  · next hnone => rw [hnone, List.append_nil]
  · simp [WriteQueue.bytes]

theorem pending_eq (q : WriteQueue) : q.pending = q.bytes.length := by
  obtain ⟨pieces⟩ := q
  simp only [pending, bytes]
  induction pieces with
  | nil => rfl
  | cons piece pieces ih => rw [List.foldr_cons, List.flatten_cons, List.length_append, ih]

theorem bytes_of_isEmpty {q : WriteQueue} (h : q.isEmpty = true) : q.bytes = [] := by
  rw [isEmpty, List.isEmpty_iff] at h
  rw [bytes, h, List.flatten_nil]

/-! ## A flush, write by write -/

/-- The write that a flush makes first. -/
def firstWrite (piece : Bytes) (s : Sink) : Write := ⟨piece, (s.write piece).1⟩

variable {piece : Bytes} {pieces rest : List Bytes} {s : Sink}

/-- A flush makes a write, and by the answer stops or goes on. -/
theorem flushPieces_cons (piece : Bytes) (rest : List Bytes) (s : Sink) :
    flushPieces (piece :: rest) s =
      match (firstWrite piece s).answer.stop? with
      | some flushed => (flushed, piece :: rest, (s.write piece).2)
      | none => flushPieces ((firstWrite piece s).left ++ rest) (s.write piece).2 := by
  have hanswer : (firstWrite piece s).answer = s.answer piece.length := rfl
  have hoffered : (firstWrite piece s).offered = piece := rfl
  rw [flushPieces]
  unfold Write.left
  rw [hanswer, hoffered]
  split <;> rename_i h <;> rw [h] <;> simp only [Answer.stop?]
  · split <;> rfl
  · rfl

/-- What the termination of a flush rests on: a write that does not end it leaves fewer bytes,
fewer pieces or fewer answers. -/
theorem goes_down (h : (firstWrite piece s).answer.stop? = none) :
    ((firstWrite piece s).left ++ rest).flatten.length +
        ((firstWrite piece s).left ++ rest).length + (s.write piece).2.answers.length <
      (piece :: rest).flatten.length + (piece :: rest).length + s.answers.length := by
  have hanswer : (firstWrite piece s).answer = s.answer piece.length := rfl
  have hrest : (s.write piece).2.answers = s.answers.tail := rfl
  have hoffered : (firstWrite piece s).offered = piece := rfl
  unfold Write.left
  rw [hanswer] at h ⊢
  rw [hrest, hoffered]
  cases ha : s.answer piece.length with
  | accepted n =>
    have hle := Sink.accepted_le ha
    cases n with
    | zero => simp [ha, Answer.stop?] at h
    | succ n =>
      dsimp only
      split <;> simp <;> omega
  | interrupted =>
    have := List.length_pos_iff.2 (Sink.answers_ne_nil ha)
    simp
    omega
  | blocked | failed e => simp [ha, Answer.stop?] at h

/-- The writes of a flush, in their order. -/
def writesOf (pieces : List Bytes) (s : Sink) : List Write :=
  match pieces with
  | [] => []
  | piece :: rest =>
    match _h : (firstWrite piece s).answer.stop? with
    | some _ => [firstWrite piece s]
    | none =>
      firstWrite piece s :: writesOf ((firstWrite piece s).left ++ rest) (s.write piece).2
  termination_by pieces.flatten.length + pieces.length + s.answers.length
  decreasing_by exact goes_down _h

/-- The writes are what takes the stream from before the flush to after it. -/
theorem made_writesOf (pieces : List Bytes) (s : Sink) :
    Made s (writesOf pieces s) (flushPieces pieces s).2.2 := by
  fun_induction writesOf pieces s with
  | case1 s =>
    rw [flushPieces]
    exact .done s
  | case2 s piece rest flushed h =>
    rw [flushPieces_cons, h]
    exact .write (.done _)
  | case3 s piece rest h ih =>
    rw [flushPieces_cons, h]
    exact .write ih

/-- What is taken and what is left are what was queued. -/
theorem takenBy_writesOf (pieces : List Bytes) (s : Sink) :
    takenBy (writesOf pieces s) ++ (flushPieces pieces s).2.1.flatten = pieces.flatten := by
  fun_induction writesOf pieces s with
  | case1 s =>
    rw [flushPieces]
    rfl
  | case2 s piece rest flushed h =>
    rw [flushPieces_cons, h, takenBy, List.flatMap_singleton, Write.taken_of_stop h, List.nil_append]
  | case3 s piece rest h ih =>
    rw [flushPieces_cons, h, takenBy, List.flatMap_cons, List.append_assoc]
    refine (congrArg _ ih).trans ?_
    rw [List.flatten_append, ← List.append_assoc, Write.taken_append_left]
    rfl

/-- A flush that drains leaves nothing. Any other leaves something, and its last write had the
answer that ended it. -/
theorem flushPieces_ends (pieces : List Bytes) (s : Sink) :
    ((flushPieces pieces s).1 = .drained ∧ (flushPieces pieces s).2.1 = []) ∨
      ((flushPieces pieces s).2.1 ≠ [] ∧
        ∃ w ∈ (writesOf pieces s).getLast?, w.answer.stop? = some (flushPieces pieces s).1) := by
  fun_induction writesOf pieces s with
  | case1 s => exact .inl (by rw [flushPieces]; exact ⟨rfl, rfl⟩)
  | case2 s piece rest flushed h =>
    rw [flushPieces_cons, h]
    exact .inr ⟨List.cons_ne_nil _ _, _, rfl, h⟩
  | case3 s piece rest h ih =>
    rw [flushPieces_cons, h]
    rcases ih with hdrained | ⟨hleft, w, hw, hstop⟩
    · exact .inl hdrained
    · refine .inr ⟨hleft, w, ?_, hstop⟩
      rw [List.getLast?_cons, hw]
      rfl

/-- No piece is empty. -/
def Substantial (pieces : List Bytes) : Prop := ∀ piece ∈ pieces, piece ≠ []

theorem Substantial.goes_on (h : Substantial (piece :: rest)) (s : Sink) :
    Substantial ((firstWrite piece s).left ++ rest) := by
  intro piece' hmem
  rcases List.mem_append.1 hmem with hleft | hrest
  · exact Write.ne_nil_of_mem_left (h piece List.mem_cons_self) piece' hleft
  · exact h piece' (List.mem_cons_of_mem _ hrest)

/-- Nothing empty is ever offered, and no piece gets empty. -/
theorem Substantial.flushPieces (h : Substantial pieces) (s : Sink) :
    (∀ w ∈ writesOf pieces s, w.offered ≠ []) ∧ Substantial (flushPieces pieces s).2.1 := by
  fun_induction writesOf pieces s with
  | case1 s =>
    rw [WriteQueue.flushPieces]
    exact ⟨List.forall_mem_nil _, List.forall_mem_nil _⟩
  | case2 s piece rest flushed hstop =>
    rw [flushPieces_cons, hstop]
    refine ⟨fun w hw => ?_, h⟩
    obtain rfl := List.mem_singleton.1 hw
    exact h piece List.mem_cons_self
  | case3 s piece rest hstop ih =>
    rw [flushPieces_cons, hstop]
    obtain ⟨hoffered, hleft⟩ := ih (h.goes_on s)
    refine ⟨fun w hw => ?_, hleft⟩
    rcases List.mem_cons.1 hw with rfl | hw
    · exact h piece List.mem_cons_self
    · exact hoffered w hw

/-! ## The flush of a queue -/

/-- The writes that a flush makes, in their order. -/
def writes (q : WriteQueue) (s : Sink) : List Write := writesOf q.pieces s

/-- A flush moves a front of what is queued to the stream; a drained queue is empty. -/
theorem flush_spec (q : WriteQueue) (s : Sink) :
    ∃ front, (q.flush s).2.2.taken = s.taken ++ front ∧
      q.bytes = front ++ (q.flush s).2.1.bytes ∧
      ((q.flush s).1 = .drained → (q.flush s).2.1.bytes = []) := by
  refine ⟨takenBy (q.writes s), (made_writesOf q.pieces s).taken,
    (takenBy_writesOf q.pieces s).symm, fun hdrained => ?_⟩
  rcases flushPieces_ends q.pieces s with ⟨-, hnone⟩ | ⟨-, w, -, hstop⟩
  · exact congrArg List.flatten hnone
  · have hend : (flushPieces q.pieces s).1 = .drained := hdrained
    rw [hend] at hstop
    exact absurd hstop (Answer.stop?_ne_drained w.answer)

end WriteQueue

end IrcBot
