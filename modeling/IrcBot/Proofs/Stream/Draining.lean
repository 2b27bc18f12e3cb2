/-
All lines of a stream, whenever its reader is drained. What a reader has still to hand out
depends on its source only through the pieces in which reads cut it: it is what a line
buffer gives that is handed these pieces and is drained after each. An orderly source
fails no read, so its reader stops at its end only, when all is handed out.
-/
import IrcBot.Proofs.Stream.Delivery
import IrcBot.Proofs.Stream.Reading

namespace IrcBot

namespace Source

/-- The pieces in which reads hand out bytes that have arrived together. -/
def cut (bytes : Bytes) : List Bytes :=
  if bytes = [] then [] else bytes.take chunk :: cut (bytes.drop chunk)
  termination_by bytes.length
  decreasing_by
    have := List.length_pos_iff.2 ‹_›
    simp only [List.length_drop, chunk]
    omega

end Source

/-- The pieces in which reads hand out what an arrival brings. -/
def Arrival.pieces : Arrival → List Bytes
  | .data bytes => Source.cut bytes
  | _ => []

/-- An arrival on a stream that is neither broken nor at its end. -/
def Arrival.Orderly : Arrival → Prop
  | .data bytes => bytes ≠ []
  | .failed _ => False
  | .blocked | .interrupted => True

namespace Source

/-- The pieces in which reads cut what is still to come. -/
def pieces (s : Source) : List Bytes := s.arrivals.flatMap Arrival.pieces

/-- No read fails, and the stream ends after its arrivals if it does. -/
def Orderly (s : Source) : Prop := ∀ a ∈ s.arrivals, a.Orderly

@[simp] theorem cut_nil : cut [] = [] := by rw [cut, if_pos rfl]

theorem cut_of_ne_nil {bytes : Bytes} (h : bytes ≠ []) :
    cut bytes = bytes.take chunk :: cut (bytes.drop chunk) := by rw [cut, if_neg h]

theorem flatten_cut (bytes : Bytes) : (cut bytes).flatten = bytes := by
  fun_induction cut bytes with
  | case1 => rfl
  | case2 bytes hne ih => rw [List.flatten_cons, ih, List.take_append_drop]

theorem pieces_extend (s : Source) (arrivals : List Arrival) (ended : Bool) :
    (s.extend arrivals ended).pieces = s.pieces ++ arrivals.flatMap Arrival.pieces :=
  List.flatMap_append

theorem pieces_settled (s : Source) : s.settled.pieces = s.pieces := by
  obtain ⟨arrivals, ended⟩ := s
  simp only [pieces, settled]
  induction arrivals with
  | nil => rfl
  | cons a rest ih =>
    cases a with
    | interrupted =>
      rw [List.dropWhile_cons_of_pos rfl, ih]
      rfl
    | _ => rw [List.dropWhile_cons_of_neg (by simp [Arrival.isInterrupted])]

/-- A read hands out the next piece, or none. -/
theorem pieces_read (s : Source) :
    s.pieces = (if s.read.1.bytes = [] then [] else [s.read.1.bytes]) ++ s.read.2.pieces := by
  obtain ⟨arrivals, ended⟩ := s
  cases arrivals with
  | nil => cases ended <;> rfl
  | cons a rest =>
    cases a with
    | data piece =>
      have hleft : (Source.read ⟨.data piece :: rest, ended⟩).2.pieces =
          cut (piece.drop chunk) ++ rest.flatMap Arrival.pieces := by
        simp only [read]
        split
        · next hall => rw [hall, cut_nil, List.nil_append, pieces]
        · rfl
      by_cases hpiece : piece = []
      · subst hpiece
        rw [hleft]
        simp [read, Arrival.bytes, pieces, Arrival.pieces]
      · have htake : piece.take chunk ≠ [] := by simp [hpiece, chunk]
        rw [hleft]
        simp only [read, Arrival.bytes, htake, if_false, pieces, List.flatMap_cons,
          Arrival.pieces, cut_of_ne_nil hpiece, List.cons_append, List.nil_append]
    | _ => rfl

variable {s : Source}

theorem Orderly.settled (h : s.Orderly) : s.settled.Orderly :=
  fun a ha => h a ((List.dropWhile_sublist _).subset ha)

theorem Orderly.extend (h : s.Orderly) {arrivals : List Arrival}
    (harrivals : ∀ a ∈ arrivals, a.Orderly) (ended : Bool) :
    (s.extend arrivals ended).Orderly :=
  List.forall_mem_append.2 ⟨h, harrivals⟩

/-- A read of an orderly source does not fail, and finds the end only where no more is to come. -/
theorem Orderly.read (h : s.Orderly) :
    s.read.2.Orderly ∧ (∀ e, s.read.1 ≠ .failed e) ∧
      (s.read.1 = .data [] → s.read.2.pieces = []) := by
  obtain ⟨arrivals, ended⟩ := s
  cases arrivals with
  | nil => cases ended <;> simp [Source.read, Orderly, pieces]
  | cons a rest =>
    obtain ⟨ha, hrest⟩ := List.forall_mem_cons.1 h
    cases a with
    | data bytes =>
      have hne : bytes ≠ [] := ha
      refine ⟨?_, by simp [Source.read], by simp [Source.read, hne, chunk]⟩
      simp only [Source.read]
      split
      · exact hrest
      · next hleft => exact List.forall_mem_cons.2 ⟨hleft, hrest⟩
    | failed e => exact ha.elim
    | blocked | interrupted => exact ⟨hrest, by simp [Source.read], by simp [Source.read]⟩

/-- The stream is at its end after the arrivals, and none of them is a refusal. -/
def Closing (s : Source) : Prop := s.ended = true ∧ .blocked ∉ s.arrivals

theorem Closing.settled (h : s.Closing) : s.settled.Closing :=
  ⟨h.1, fun hmem => h.2 ((List.dropWhile_sublist _).subset hmem)⟩

theorem Closing.read (h : s.Closing) : s.read.2.Closing ∧ s.read.1 ≠ .blocked := by
  obtain ⟨arrivals, ended⟩ := s
  obtain ⟨rfl, hblocked⟩ : ended = true ∧ Arrival.blocked ∉ arrivals := h
  cases arrivals with
  | nil => exact ⟨⟨rfl, hblocked⟩, by simp [Source.read]⟩
  | cons a rest =>
    obtain ⟨ha, hrest⟩ : Arrival.blocked ≠ a ∧ .blocked ∉ rest := by simpa using hblocked
    cases a with
    | data bytes =>
      refine ⟨?_, by simp [Source.read]⟩
      simp only [Source.read]
      split
      · exact ⟨rfl, hrest⟩
      · exact ⟨rfl, by simpa using hrest⟩
    | blocked => exact absurd rfl ha
    | failed e | interrupted => exact ⟨⟨rfl, hrest⟩, by simp [Source.read]⟩

/-- Interrupted reads are repeated, so none is left to be met. -/
theorem read_settled_ne (s : Source) : s.settled.read.1 ≠ .interrupted := by
  obtain ⟨arrivals, ended⟩ := s
  have hhead := List.head?_dropWhile_not Arrival.isInterrupted arrivals
  simp only [settled]
  generalize arrivals.dropWhile Arrival.isInterrupted = rest at hhead
  cases rest with
  | nil => cases ended <;> simp [Source.read]
  | cons a rest =>
    cases a with
    | interrupted => simp [Arrival.isInterrupted] at hhead
    | _ => simp [Source.read]

end Source

namespace LineBuffer

variable {b b' : LineBuffer}

/-- A buffer that has been found to hold no complete line is found so again. -/
theorem next_of_next_none (h : b.next = (none, b')) : b'.next = (none, b') := by
  unfold next at h
  split at h
  · dsimp only at h
    split at h <;> simp at h
  · split at h
    · simp at h
    · next hshort =>
      simp only [Prod.mk.injEq, true_and] at h
      subst h
      have hnone : lineFeed? { b with searched := b.pending } = none := by
        simp [lineFeed?, pending]
      rw [next, hnone]
      exact if_neg hshort

/-- What a buffer gives depends on its bytes and its limit only. -/
theorem deliver_congr (hb : b.Scanned) (hb' : b'.Scanned) (hbytes : b.bytes = b'.bytes)
    (hlimit : b.limit = b'.limit) (hfeed : lineFeed ∉ b.bytes) (pieces : List Bytes) :
    b.deliver pieces = b'.deliver pieces := by
  rw [deliver_eq hb hfeed, deliver_eq hb' (hbytes ▸ hfeed), hbytes, hlimit]

/-- What is buffered is as good as the first piece handed to a new buffer. -/
theorem deliver_buffered (hb : b.Scanned) (pieces : List Bytes) :
    b.drain.1.filterMap Except.toOption ++ b.drain.2.deliver pieces =
      deliver { limit := b.limit } (b.bytes :: pieces) := by
  obtain ⟨segments, tail, hbytes, hsegments, htail⟩ := exists_joined lineFeed b.bytes
  obtain ⟨hlines, hkept, hlimit, hscanned⟩ := drain_joined hb hbytes hsegments htail
  obtain ⟨hlines', hkept', hlimit', hscanned'⟩ :=
    drain_joined (b := extend { limit := b.limit } b.bytes) ((scanned_fresh [] _).extend _) hbytes
      hsegments htail
  have hfeed : lineFeed ∉ b.drain.2.bytes := by
    rw [hkept]
    split
    · exact List.not_mem_nil
    · exact htail
  rw [deliver_cons, hlines, hlines']
  exact congrArg _
    (deliver_congr hscanned hscanned' (hkept.trans hkept'.symm) (hlimit.trans hlimit'.symm) hfeed _)

end LineBuffer

namespace Reader

open LineBuffer (Scanned)

variable {r r' : Reader} {more : List Bytes}

/-- The lines that a reader has still to hand out, if these pieces come after what has arrived. -/
def toCome (r : Reader) (more : List Bytes) : List Text :=
  r.buffer.drain.1.filterMap Except.toOption ++ r.buffer.drain.2.deliver (r.source.pieces ++ more)

theorem toCome_eq (hb : r.buffer.Scanned) (more : List Bytes) :
    r.toCome more =
      LineBuffer.deliver { limit := r.buffer.limit }
        (r.buffer.bytes :: (r.source.pieces ++ more)) :=
  LineBuffer.deliver_buffered hb _

theorem toCome_extend (r : Reader) (arrivals : List Arrival) (ended : Bool) (more : List Bytes) :
    ({ r with source := r.source.extend arrivals ended } : Reader).toCome more =
      r.toCome (arrivals.flatMap Arrival.pieces ++ more) := by
  simp only [toCome, Source.pieces_extend, List.append_assoc]

/-! ## One refill -/

/-- A refill moves the next piece to the buffer; if it does not succeed, there is none to move. -/
theorem fill_pieces (r : Reader) :
    (∃ piece, r.fill.1 = .ok true ∧ r.source.pieces = piece :: r.fill.2.source.pieces ∧
        r.fill.2.buffer = r.buffer.extend piece) ∨
      (r.fill.1 ≠ .ok true ∧ r.source.pieces = r.fill.2.source.pieces ∧
        r.fill.2.buffer = r.buffer) := by
  have hread := Source.pieces_read r.source.settled
  rw [Source.pieces_settled] at hread
  simp only [fill, Source.fill]
  split
  · next h =>
    rw [h] at hread
    exact .inr ⟨by simp, hread, rfl⟩
  · next bytes _ hne h =>
    rw [h] at hread
    have hbytes : bytes ≠ [] := hne
    simp only [Arrival.bytes, hbytes, if_false, List.cons_append, List.nil_append] at hread
    exact .inl ⟨bytes, rfl, hread, rfl⟩
  all_goals
    next h =>
      rw [h] at hread
      exact .inr ⟨by simp, hread, rfl⟩

/-! ## One call, and all of them -/

theorem toCome_taken {buffer : LineBuffer} {result : Except LineBuffer.Overlong Text}
    (hn : r.buffer.next = (some result, buffer)) (more : List Bytes) :
    r.toCome more = result.toOption.toList ++ ({ r with buffer } : Reader).toCome more := by
  rw [toCome, LineBuffer.drain_of_next hn, toCome]
  cases result <;> rfl

/-- When no line is buffered and a refill brings nothing, all lines are still to come. -/
theorem toCome_unfilled {buffer : LineBuffer} (hn : r.buffer.next = (none, buffer))
    (hf : ({ r with buffer } : Reader).fill.1 ≠ .ok true) (more : List Bytes) :
    r.toCome more = ({ r with buffer } : Reader).fill.2.toCome more := by
  rcases fill_pieces { r with buffer } with ⟨_, hok, -⟩ | ⟨-, hpieces, hbuffer⟩
  · exact absurd hok hf
  · have hpieces : r.source.pieces = _ := hpieces
    rw [toCome, toCome, hbuffer, LineBuffer.drain_of_next_none hn,
      LineBuffer.drain_of_next_none (LineBuffer.next_of_next_none hn), hpieces]

/-- A call hands out the next of the lines to come, if it hands out any. -/
theorem toCome_next (r : Reader) (more : List Bytes) :
    r.toCome more = r.next.1.toOption.join.toList ++ r.next.2.toCome more := by
  fun_induction Reader.next r with
  | case1 r line buffer hn => exact toCome_taken hn more
  | case2 r e buffer hn ih => exact (toCome_taken hn more).trans ih
  | case3 r buffer hn filled hf ih =>
    rw [← ih]
    rcases fill_pieces { r with buffer } with ⟨piece, -, hpieces, hbuffer⟩ | ⟨hne, -⟩
    · rw [hf] at hpieces hbuffer
      have hpieces : r.source.pieces = piece :: filled.source.pieces := hpieces
      rw [toCome, LineBuffer.drain_of_next_none hn, hpieces, toCome, hbuffer]
      rfl
    · exact absurd (congrArg Prod.fst hf) hne
  | case4 r buffer hn left hf =>
    have hrest := toCome_unfilled hn (by simp [hf]) more
    rwa [hf] at hrest
  | case5 r buffer hn stop left hf =>
    have hrest := toCome_unfilled hn (by simp [hf]) more
    rwa [hf] at hrest

/-- What a reader keeps of its buffer from call to call. -/
theorem drain_scanned (hb : r.buffer.Scanned) :
    r.drain.2.2.buffer.Scanned ∧ r.drain.2.2.buffer.limit = r.buffer.limit := by
  fun_induction Reader.drain r with
  | case1 r line left hn lines stop last hdrain ih =>
    obtain ⟨-, -, hscanned, hlimit, -⟩ := next_answers hb
    rw [hn] at hscanned hlimit
    rw [hdrain] at ih
    exact ⟨(ih hscanned).1, (ih hscanned).2.trans hlimit⟩
  | case2 r left hn =>
    obtain ⟨-, -, hscanned, hlimit, -⟩ := next_answers hb
    rw [hn] at hscanned hlimit
    exact ⟨hscanned, hlimit⟩
  | case3 r stop left hn =>
    obtain ⟨-, -, hscanned, hlimit, -⟩ := next_answers hb
    rw [hn] at hscanned hlimit
    exact ⟨hscanned, hlimit⟩

/-- **Draining hands out the first of the lines to come**, and leaves the others. -/
theorem toCome_drain (r : Reader) (more : List Bytes) :
    r.toCome more = r.drain.1 ++ r.drain.2.2.toCome more := by
  fun_induction Reader.drain r with
  | case1 r line left hn lines stop last hdrain ih =>
    have hnext := toCome_next r more
    rw [hn] at hnext
    rw [hnext, ih, hdrain]
    rfl
  | case2 r left hn =>
    have hnext := toCome_next r more
    rwa [hn] at hnext
  | case3 r stop left hn =>
    have hnext := toCome_next r more
    rwa [hn] at hnext

/-! ## Orderly sources -/

theorem fill_orderly (h : r.source.Orderly) :
    r.fill.2.source.Orderly ∧ ∀ stop, r.fill.1 = .error stop → r.fill.2.source.pieces = [] := by
  obtain ⟨horderly, hfine, hend⟩ := h.settled.read
  simp only [fill, Source.fill]
  split
  · next hread =>
    rw [hread] at horderly hend
    exact ⟨horderly, fun _ _ => hend rfl⟩
  · next hread =>
    rw [hread] at horderly
    exact ⟨horderly, by simp⟩
  · next e _ hread => exact absurd (congrArg Prod.fst hread) (hfine e)
  all_goals
    next hread =>
      rw [hread] at horderly
      exact ⟨horderly, by simp⟩

/-- A call leaves an orderly source orderly, and answers that the stream has stopped only when
no line is to come. -/
theorem next_orderly (h : r.source.Orderly) :
    r.next.2.source.Orderly ∧ ∀ stop, r.next.1 = .error stop → r.next.2.toCome [] = [] := by
  fun_induction Reader.next r with
  | case1 r line buffer hn => exact ⟨h, by simp⟩
  | case2 r e buffer hn ih => exact ih h
  | case3 r buffer hn filled hf ih =>
    have hfill := (fill_orderly (r := { r with buffer }) h).1
    rw [hf] at hfill
    exact ih hfill
  | case4 r buffer hn left hf =>
    have hfill := (fill_orderly (r := { r with buffer }) h).1
    rw [hf] at hfill
    exact ⟨hfill, by simp⟩
  | case5 r buffer hn stop left hf =>
    obtain ⟨horderly, hspent⟩ := fill_orderly (r := { r with buffer }) h
    have hbuffer := buffer_fill (r := { r with buffer }) (by simp [hf])
    rw [hf] at horderly hspent hbuffer
    refine ⟨horderly, fun _ _ => ?_⟩
    rw [toCome, hspent stop rfl, hbuffer,
      LineBuffer.drain_of_next_none (LineBuffer.next_of_next_none hn)]
    rfl

/-- **An orderly stream stops when all its lines are handed out.** -/
theorem drain_orderly (h : r.source.Orderly) :
    r.drain.2.2.source.Orderly ∧ (r.drain.2.1.isSome → r.drain.2.2.toCome [] = []) := by
  fun_induction Reader.drain r with
  | case1 r line left hn lines stop last hdrain ih =>
    have hnext := (next_orderly h).1
    rw [hn] at hnext
    rw [hdrain] at ih
    exact ih hnext
  | case2 r left hn =>
    have hnext := (next_orderly h).1
    rw [hn] at hnext
    exact ⟨hnext, by simp⟩
  | case3 r stop left hn =>
    have hnext := next_orderly h
    rw [hn] at hnext
    exact ⟨hnext.1, fun _ => hnext.2 stop rfl⟩

theorem fill_closing (h : r.source.Closing) :
    r.fill.2.source.Closing ∧ r.fill.1 ≠ .ok false := by
  obtain ⟨hclosing, hfine⟩ := h.settled.read
  have hrepeated := r.source.read_settled_ne
  simp only [fill, Source.fill]
  split
  · next hread => exact ⟨by rwa [hread] at hclosing, by simp⟩
  · next hread => exact ⟨by rwa [hread] at hclosing, by simp⟩
  · next hread => exact ⟨by rwa [hread] at hclosing, by simp⟩
  · next hread => exact absurd (congrArg Prod.fst hread) hfine
  · next hread => exact absurd (congrArg Prod.fst hread) hrepeated

theorem next_closing (h : r.source.Closing) : r.next.2.source.Closing ∧ r.next.1 ≠ .ok none := by
  fun_induction Reader.next r with
  | case1 r line buffer hn => exact ⟨h, by simp⟩
  | case2 r e buffer hn ih => exact ih h
  | case3 r buffer hn filled hf ih =>
    have hfill := (fill_closing (r := { r with buffer }) h).1
    rw [hf] at hfill
    exact ih hfill
  | case4 r buffer hn left hf =>
    exact absurd (congrArg Prod.fst hf) (fill_closing (r := { r with buffer }) h).2
  | case5 r buffer hn stop left hf =>
    have hfill := (fill_closing (r := { r with buffer }) h).1
    rw [hf] at hfill
    exact ⟨hfill, by simp⟩

/-- A stream that is at its end and refuses no read is read to its end. -/
theorem drain_closing (h : r.source.Closing) : r.drain.2.1.isSome := by
  fun_induction Reader.drain r with
  | case1 r line left hn lines stop last hdrain ih =>
    have hnext := (next_closing h).1
    rw [hn] at hnext
    rw [hdrain] at ih
    exact ih hnext
  | case2 r left hn => exact absurd (congrArg Prod.fst hn) (next_closing h).2
  | case3 r stop left hn => rfl

end Reader

end IrcBot
