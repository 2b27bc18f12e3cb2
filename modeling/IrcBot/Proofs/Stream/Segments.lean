/-
Segments: what a stream is made of between its line feeds. The segments that are
terminated are those before a line feed; a buffer takes them off its front one by
one, and what it has already searched never makes it miss one.
-/
import IrcBot.Stream.LineBuffer
import Mathlib.Data.List.Basic

namespace IrcBot

/-! ## Terminated segments -/

section Terminated

variable {α : Type} [DecidableEq α] {sep : α} {l segment tail : List α}

/-- The segments of a list that end in a separator, each without it. -/
def terminated (sep : α) (l : List α) : List (List α) := (l.splitOn sep).dropLast

/-- Segments one after the other, each with a separator behind it. -/
def joined (sep : α) (segments : List (List α)) : List α := segments.flatMap (· ++ [sep])

theorem terminated_of_not_mem (h : sep ∉ l) : terminated sep l = [] := by
  rw [terminated, List.splitOn_eq_singleton h, List.dropLast_singleton]

theorem terminated_append_cons (h : sep ∉ segment) (rest : List α) :
    terminated sep (segment ++ sep :: rest) = segment :: terminated sep rest := by
  rw [terminated, List.splitOn_append_cons_self_of_not_mem h,
    List.dropLast_cons_of_ne_nil (List.splitOn_ne_nil sep rest), terminated]

/-- Every list is its terminated segments with a tail behind them. -/
theorem exists_joined (sep : α) (l : List α) :
    ∃ segments tail, l = joined sep segments ++ tail ∧
      (∀ segment ∈ segments, sep ∉ segment) ∧ sep ∉ tail := by
  by_cases h : sep ∈ l
  · obtain ⟨segment, rest, hl, hsegment⟩ := List.eq_append_cons_of_mem h
    have hshort : rest.length < l.length := by
      rw [hl, List.length_append, List.length_cons]
      omega
    obtain ⟨segments, tail, hrest, hsegments, htail⟩ := exists_joined sep rest
    refine ⟨segment :: segments, tail, ?_, ?_, htail⟩
    · rw [hl, hrest]
      simp [joined]
    · exact List.forall_mem_cons.2 ⟨hsegment, hsegments⟩
  · exact ⟨[], l, rfl, by simp, h⟩
  termination_by l.length

theorem terminated_joined {segments : List (List α)} (h : ∀ segment ∈ segments, sep ∉ segment)
    (tail : List α) :
    terminated sep (joined sep segments ++ tail) = segments ++ terminated sep tail := by
  induction segments with
  | nil => rfl
  | cons segment segments ih =>
    obtain ⟨hsegment, hsegments⟩ := List.forall_mem_cons.1 h
    have hsplit : joined sep (segment :: segments) ++ tail =
        segment ++ sep :: (joined sep segments ++ tail) := by
      simp [joined]
    rw [hsplit, terminated_append_cons hsegment, ih hsegments, List.cons_append]

/-- What has no separator in it belongs to the segment that follows. -/
theorem terminated_append (h : sep ∉ segment) (l : List α) :
    terminated sep (segment ++ l) = (terminated sep l).modifyHead (segment ++ ·) := by
  by_cases hl : sep ∈ l
  · obtain ⟨first, rest, rfl, hfirst⟩ := List.eq_append_cons_of_mem hl
    have hboth : sep ∉ segment ++ first := by simp [h, hfirst]
    rw [← List.append_assoc, terminated_append_cons hboth, terminated_append_cons hfirst,
      List.modifyHead_cons]
  · have hboth : sep ∉ segment ++ l := by simp [h, hl]
    rw [terminated_of_not_mem hboth, terminated_of_not_mem hl, List.modifyHead_nil]

end Terminated

namespace LineBuffer

variable {b : LineBuffer} {segment rest : Bytes}

/-! ## The next line of a buffer -/

/-- What has been searched is part of the buffer and holds no line feed. -/
structure Scanned (b : LineBuffer) : Prop where
  le : b.searched ≤ b.pending
  not_mem : lineFeed ∉ b.bytes.take b.searched

/-- What becomes of a terminated segment: its content is a line unless it is too long. -/
def verdict (limit : Nat) (segment : Bytes) : Except Overlong Text :=
  if (dropReturn segment).length > limit then .error ⟨(dropReturn segment).length, limit⟩
  else .ok (Text.decode (dropReturn segment))

theorem length_dropReturn_le (line : Bytes) : (dropReturn line).length ≤ line.length := by
  unfold dropReturn
  split
  · rw [List.length_dropLast]
    omega
  · exact Nat.le_refl _

theorem scanned_fresh (bytes : Bytes) (limit : Nat) : Scanned { bytes, limit } :=
  ⟨Nat.zero_le _, by simp⟩

theorem Scanned.extend (hb : b.Scanned) (bytes : Bytes) : (b.extend bytes).Scanned := by
  refine ⟨?_, ?_⟩
  · have hle := hb.le
    simp only [LineBuffer.extend, pending, List.length_append] at hle ⊢
    omega
  · rw [LineBuffer.extend, List.take_append_of_le_length hb.le]
    exact hb.not_mem

theorem lineFeed?_of_not_mem (h : lineFeed ∉ b.bytes) : b.lineFeed? = none := by
  rw [lineFeed?, Option.map_eq_none_iff, List.findIdx?_eq_none_iff]
  intro x hx
  exact beq_eq_false_iff_ne.2 fun he => h (he ▸ List.mem_of_mem_drop hx)

/-- The search finds the first line feed, for it cannot be among the bytes already searched. -/
theorem lineFeed?_of_segment (hb : b.Scanned) (hbytes : b.bytes = segment ++ lineFeed :: rest)
    (hsegment : lineFeed ∉ segment) : b.lineFeed? = some segment.length := by
  have hle : b.searched ≤ segment.length := by
    by_contra hlt
    obtain ⟨k, hk⟩ := Nat.exists_eq_add_of_lt (Nat.lt_of_not_le hlt)
    have hk : b.searched - segment.length = k + 1 := by omega
    refine hb.not_mem ?_
    rw [hbytes, List.take_append, hk, List.take_succ_cons]
    simp
  have hfirst : (segment.drop b.searched).findIdx? (· == lineFeed) = none := by
    rw [List.findIdx?_eq_none_iff]
    intro x hx
    exact beq_eq_false_iff_ne.2 fun he => hsegment (he ▸ List.mem_of_mem_drop hx)
  rw [lineFeed?, hbytes, List.drop_append_of_le_length hle, List.findIdx?_append, hfirst]
  simp only [List.findIdx?_cons, BEq.rfl, if_true, Option.map_some, Option.none_or,
    Nat.zero_add, List.length_drop]
  exact congrArg some (by omega)

theorem next_of_segment (hb : b.Scanned) (hbytes : b.bytes = segment ++ lineFeed :: rest)
    (hsegment : lineFeed ∉ segment) :
    b.next = (some (verdict b.limit segment), { b with bytes := rest, searched := 0 }) := by
  have htake : b.bytes.take segment.length = segment := by rw [hbytes, List.take_left]
  have hdrop : b.bytes.drop (segment.length + 1) = rest := by
    rw [hbytes, ← List.drop_drop, List.drop_left, List.drop_one, List.tail_cons]
  simp only [next, lineFeed?_of_segment hb hbytes hsegment, htake, hdrop, verdict]
  split <;> rfl

theorem next_of_not_mem (h : lineFeed ∉ b.bytes) :
    b.next = if b.pending > b.limit then (some (.error ⟨b.pending, b.limit⟩), b.clear)
      else (none, { b with searched := b.pending }) := by
  rw [next, lineFeed?_of_not_mem h]

theorem of_next_line {b' : LineBuffer} {line : Text} (hb : b.Scanned)
    (h : b.next = (some (.ok line), b')) :
    ∃ segment, b.bytes = segment ++ lineFeed :: b'.bytes ∧ lineFeed ∉ segment ∧
      line = Text.decode (dropReturn segment) := by
  by_cases hfeed : lineFeed ∈ b.bytes
  · obtain ⟨segment, rest, hbytes, hsegment⟩ := List.eq_append_cons_of_mem hfeed
    rw [next_of_segment hb hbytes hsegment] at h
    obtain ⟨hline, rfl⟩ := Prod.mk.inj h
    refine ⟨segment, hbytes, hsegment, ?_⟩
    unfold verdict at hline
    split at hline
    · simp at hline
    · simpa using hline.symm
  · rw [next_of_not_mem hfeed] at h
    split at h <;> simp at h

theorem of_next_none {b' : LineBuffer} (hb : b.Scanned) (h : b.next = (none, b')) :
    lineFeed ∉ b.bytes := by
  intro hfeed
  obtain ⟨segment, rest, hbytes, hsegment⟩ := List.eq_append_cons_of_mem hfeed
  rw [next_of_segment hb hbytes hsegment] at h
  simp at h

/-- What is refused begins with a run of bytes without a line feed that is too long. -/
theorem of_next_error {b' : LineBuffer} {e : Overlong} (hb : b.Scanned)
    (h : b.next = (some (.error e), b')) :
    ∃ segment rest, b.bytes = segment ++ rest ∧ lineFeed ∉ segment ∧
      b.limit < segment.length := by
  by_cases hfeed : lineFeed ∈ b.bytes
  · obtain ⟨segment, rest, hbytes, hsegment⟩ := List.eq_append_cons_of_mem hfeed
    refine ⟨segment, lineFeed :: rest, hbytes, hsegment, ?_⟩
    rw [next_of_segment hb hbytes hsegment] at h
    obtain ⟨herror, -⟩ := Prod.mk.inj h
    unfold verdict at herror
    split at herror
    · next hlong => exact Nat.lt_of_lt_of_le hlong (length_dropReturn_le segment)
    · simp at herror
  · refine ⟨b.bytes, [], (List.append_nil _).symm, hfeed, ?_⟩
    rw [next_of_not_mem hfeed] at h
    split at h
    · next hlong => exact hlong
    · simp at h

theorem limit_next (b : LineBuffer) : b.next.2.limit = b.limit := by
  unfold next
  split
  · dsimp only
    split <;> rfl
  · split <;> rfl

theorem Scanned.next (hb : b.Scanned) : b.next.2.Scanned := by
  by_cases h : lineFeed ∈ b.bytes
  · obtain ⟨segment, rest, hbytes, hsegment⟩ := List.eq_append_cons_of_mem h
    rw [next_of_segment hb hbytes hsegment]
    exact scanned_fresh rest b.limit
  · rw [next_of_not_mem h]
    split
    · exact scanned_fresh [] b.limit
    · exact ⟨Nat.le_refl _, fun hm => h (List.mem_of_mem_take hm)⟩

/-- What is left after a line is searched as far as it says, and has the same limit. -/
theorem Scanned.of_next {b' : LineBuffer} {line : Option (Except Overlong Text)} (hb : b.Scanned)
    (h : b.next = (line, b')) : b'.Scanned ∧ b'.limit = b.limit := by
  have hscanned := hb.next
  have hlimit := limit_next b
  rw [h] at hscanned hlimit
  exact ⟨hscanned, hlimit⟩

/-! ## All lines of a buffer -/

theorem drain_of_next {b' : LineBuffer} {line : Except Overlong Text}
    (h : b.next = (some line, b')) : b.drain = (line :: b'.drain.1, b'.drain.2) := by
  rw [drain]
  split
  · next h' => simp [h] at h'
  · next h' =>
    rw [h] at h'
    cases h'
    rfl

theorem drain_of_next_none {b' : LineBuffer} (h : b.next = (none, b')) : b.drain = ([], b') := by
  rw [drain]
  split
  · next h' =>
    rw [h] at h'
    cases h'
    rfl
  · next h' => simp [h] at h'

/-- Without a line feed there is no line; if there is too much of it, it is dropped. -/
theorem drain_of_not_mem (h : lineFeed ∉ b.bytes) :
    b.drain.1.filterMap Except.toOption = [] ∧
      b.drain.2.bytes = (if b.limit < b.bytes.length then [] else b.bytes) ∧
      b.drain.2.limit = b.limit ∧ b.drain.2.Scanned := by
  by_cases hlong : b.pending > b.limit
  · have hnext := next_of_not_mem h
    rw [if_pos hlong] at hnext
    have hcleared : b.clear.drain = ([], { b.clear with searched := b.clear.pending }) := by
      refine drain_of_next_none ?_
      rw [next_of_not_mem (by simp [clear]), if_neg (by simp [clear, pending])]
    rw [drain_of_next hnext, hcleared]
    exact ⟨rfl, (if_pos hlong).symm, rfl, Nat.le_refl _, by simp [clear]⟩
  · have hnext := next_of_not_mem h
    rw [if_neg hlong] at hnext
    rw [drain_of_next_none hnext]
    exact ⟨rfl, (if_neg hlong).symm, rfl, Nat.le_refl _, fun hm => h (List.mem_of_mem_take hm)⟩

/-- **A drained buffer has given the lines of all segments that were terminated**, and
keeps the tail unless it is too long already. -/
theorem drain_joined {segments : List Bytes} {tail : Bytes} (hb : b.Scanned)
    (hbytes : b.bytes = joined lineFeed segments ++ tail)
    (hsegments : ∀ segment ∈ segments, lineFeed ∉ segment) (htail : lineFeed ∉ tail) :
    b.drain.1.filterMap Except.toOption =
        segments.filterMap (fun segment => (verdict b.limit segment).toOption) ∧
      b.drain.2.bytes = (if b.limit < tail.length then [] else tail) ∧
      b.drain.2.limit = b.limit ∧ b.drain.2.Scanned := by
  induction segments generalizing b with
  | nil =>
    have hbytes : b.bytes = tail := hbytes
    rw [← hbytes] at htail ⊢
    exact drain_of_not_mem htail
  | cons segment segments ih =>
    obtain ⟨hsegment, hsegments⟩ := List.forall_mem_cons.1 hsegments
    have hsplit : b.bytes = segment ++ lineFeed :: (joined lineFeed segments ++ tail) := by
      rw [hbytes]
      simp [joined]
    obtain ⟨hlines, hkept⟩ :=
      ih (b := { b with bytes := joined lineFeed segments ++ tail, searched := 0 })
        (scanned_fresh _ _) rfl hsegments
    rw [drain_of_next (next_of_segment hb hsplit hsegment), List.filterMap_cons,
      List.filterMap_cons, hlines]
    exact ⟨rfl, hkept⟩

end LineBuffer

end IrcBot
