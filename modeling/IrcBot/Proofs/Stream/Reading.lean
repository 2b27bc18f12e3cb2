/-
Reading lines from a stream, call by call. Each call of a reader receives some bytes,
the next ones of its source, and answers. What the calls have received is the segments
they have handed out, each with its line feed, and then what is buffered; a call that
hands out no line leaves no line feed behind it.
-/
import IrcBot.Proofs.Stream.Segments
import IrcBot.Stream.Reader

namespace IrcBot

/-- The bytes an arrival brings. -/
def Arrival.bytes : Arrival → Bytes
  | .data bytes => bytes
  | _ => []

namespace Source

/-- All bytes that are still to come. -/
def content (s : Source) : Bytes := s.arrivals.flatMap Arrival.bytes

theorem content_settled (s : Source) : s.settled.content = s.content := by
  obtain ⟨arrivals, ended⟩ := s
  simp only [content, settled]
  induction arrivals with
  | nil => rfl
  | cons a rest ih =>
    cases a with
    | interrupted =>
      rw [List.dropWhile_cons_of_pos rfl, ih]
      rfl
    | _ => rw [List.dropWhile_cons_of_neg (by simp [Arrival.isInterrupted])]

/-- A source on which more arrives, or its end. -/
def extend (s : Source) (arrivals : List Arrival) (ended : Bool) : Source :=
  { arrivals := s.arrivals ++ arrivals, ended }

theorem content_extend (s : Source) (arrivals : List Arrival) (ended : Bool) :
    (s.extend arrivals ended).content = s.content ++ arrivals.flatMap Arrival.bytes :=
  List.flatMap_append

/-- What one read takes off a source: the bytes it hands out, and none if it hands out none. -/
theorem content_read (s : Source) : s.content = s.read.1.bytes ++ s.read.2.content := by
  obtain ⟨arrivals, ended⟩ := s
  cases arrivals with
  | nil => cases ended <;> rfl
  | cons a rest =>
    cases a with
    | data piece =>
      simp only [read, content, List.flatMap_cons, Arrival.bytes]
      split
      · next hall =>
        have hwhole := List.take_append_drop chunk piece
        rw [hall, List.append_nil] at hwhole
        rw [hwhole]
      · simp [Arrival.bytes, ← List.append_assoc]
    | _ => rfl

end Source

namespace Reader

variable {r : Reader}

/-- A refill moves the next bytes of the source to the buffer; if it does not succeed,
there are none to move. -/
theorem fill_spec (r : Reader) :
    ∃ bytes, r.source.content = bytes ++ r.fill.2.source.content ∧
      r.fill.2.buffer = r.buffer.extend bytes ∧ (r.fill.1 ≠ .ok true → bytes = []) := by
  have hread := Source.content_read r.source.settled
  rw [Source.content_settled] at hread
  have hextend : r.buffer.extend [] = r.buffer := by simp [LineBuffer.extend]
  simp only [fill, Source.fill]
  split
  · next h =>
    rw [h] at hread
    exact ⟨[], hread, hextend.symm, fun _ => rfl⟩
  · next bytes _ _ h =>
    rw [h] at hread
    exact ⟨bytes, hread, rfl, fun hne => absurd rfl hne⟩
  all_goals
    next h =>
      rw [h] at hread
      exact ⟨[], hread, hextend.symm, fun _ => rfl⟩

theorem buffer_fill (h : r.fill.1 ≠ .ok true) : r.fill.2.buffer = r.buffer := by
  obtain ⟨bytes, -, hbuffer, hnone⟩ := fill_spec r
  rw [hbuffer, hnone h, LineBuffer.extend, List.append_nil]

/-! ## One call -/

/-- The line that a segment is. -/
def lineOf (segment : Bytes) : Text := Text.decode (LineBuffer.dropReturn segment)

/-- No run of bytes without a line feed is longer than the limit. -/
def Short (limit : Nat) (bytes : Bytes) : Prop :=
  ∀ run, run <:+: bytes → LineBuffer.lineFeed ∉ run → run.length ≤ limit

/-- What is right to answer when these bytes are there, and what is to be left of them. -/
def Answers (bytes : Bytes) : Except Source.Stop (Option Text) → Bytes → Prop
  | .ok (some line), left => ∃ segment, bytes = segment ++ LineBuffer.lineFeed :: left ∧
      LineBuffer.lineFeed ∉ segment ∧ line = lineOf segment
  | .ok none, left | .error _, left => LineBuffer.lineFeed ∉ bytes ∧ left = bytes

theorem Short.of_infix {limit : Nat} {bytes part : Bytes} (h : Short limit bytes)
    (hpart : part <:+: bytes) : Short limit part :=
  fun run hrun => h run (hrun.trans hpart)

/-- No line is buffered and a refill brings nothing: then the buffer is left as it is. -/
theorem next_unfilled {buffer : LineBuffer} {left : Reader} {result : Except Source.Stop Bool}
    (hb : r.buffer.Scanned) (hn : r.buffer.next = (none, buffer))
    (hf : ({ r with buffer } : Reader).fill = (result, left)) (hresult : result ≠ .ok true) :
    r.source.content = left.source.content ∧ left.buffer.Scanned ∧
      left.buffer.limit = r.buffer.limit ∧
      LineBuffer.lineFeed ∉ r.buffer.bytes ∧ left.buffer.bytes = r.buffer.bytes := by
  obtain ⟨hscanned, hlimit⟩ := hb.of_next hn
  obtain ⟨bytes, hcontent, -, hnone⟩ := fill_spec { r with buffer }
  rw [hf] at hcontent hnone
  rw [hnone hresult] at hcontent
  have hbuffer : left.buffer = buffer := by
    have hkept := buffer_fill (r := { r with buffer }) (by rwa [hf])
    rwa [hf] at hkept
  rw [hbuffer]
  exact ⟨hcontent, hscanned, hlimit, LineBuffer.of_next_none hb hn,
    LineBuffer.bytes_next_none hn⟩

/-- A call receives the next bytes of the source, and if no segment is too long its answer
is right for what was buffered together with them. -/
theorem next_answers (hb : r.buffer.Scanned) :
    ∃ bytes, r.source.content = bytes ++ r.next.2.source.content ∧
      r.next.2.buffer.Scanned ∧ r.next.2.buffer.limit = r.buffer.limit ∧
      (Short r.buffer.limit (r.buffer.bytes ++ bytes) →
        Answers (r.buffer.bytes ++ bytes) r.next.1 r.next.2.buffer.bytes) := by
  fun_induction Reader.next r with
  | case1 r line buffer hn =>
    obtain ⟨hscanned, hlimit⟩ := hb.of_next hn
    refine ⟨[], rfl, hscanned, hlimit, fun _ => ?_⟩
    rw [List.append_nil]
    exact LineBuffer.of_next_line hb hn
  | case2 r e buffer hn ih =>
    obtain ⟨hscanned, hlimit⟩ := hb.of_next hn
    obtain ⟨bytes, hcontent, hscanned, hkept, -⟩ := ih hscanned
    refine ⟨bytes, hcontent, hscanned, hkept.trans hlimit, fun hshort => ?_⟩
    -- A call only passes over what the hypothesis rules out.
    obtain ⟨segment, rest, hbytes, hsegment, hlong⟩ := LineBuffer.of_next_error hb hn
    rw [hbytes, List.append_assoc] at hshort
    have hle := hshort segment (List.prefix_append segment _).isInfix hsegment
    exact absurd hle (Nat.not_le_of_lt hlong)
  | case3 r buffer hn filled hf ih =>
    obtain ⟨hscanned, hlimit⟩ := hb.of_next hn
    obtain ⟨piece, hpiece, hbuffer, -⟩ := fill_spec { r with buffer }
    rw [hf] at hpiece hbuffer
    have hfilled : filled.buffer.bytes = r.buffer.bytes ++ piece := by
      rw [hbuffer, LineBuffer.extend, LineBuffer.bytes_next_none hn]
    have hlimit : filled.buffer.limit = r.buffer.limit := by rw [hbuffer]; exact hlimit
    obtain ⟨bytes, hcontent, hscanned, hkept, hanswers⟩ := ih (hbuffer ▸ hscanned.extend piece)
    refine ⟨piece ++ bytes, ?_, hscanned, hkept.trans hlimit, fun hshort => ?_⟩
    · rw [List.append_assoc, ← hcontent]
      exact hpiece
    · rw [← List.append_assoc, ← hfilled] at hshort ⊢
      exact hanswers (hlimit ▸ hshort)
  | case4 r buffer hn left hf =>
    obtain ⟨hcontent, hscanned, hlimit, hanswers⟩ := next_unfilled hb hn hf (by simp)
    exact ⟨[], hcontent, hscanned, hlimit, fun _ => by rwa [List.append_nil]⟩
  | case5 r buffer hn stop left hf =>
    obtain ⟨hcontent, hscanned, hlimit, hanswers⟩ := next_unfilled hb hn hf (by simp)
    exact ⟨[], hcontent, hscanned, hlimit, fun _ => by rwa [List.append_nil]⟩

/-- What the next call takes off the source. -/
def received (r : Reader) : Bytes :=
  r.source.content.take (r.source.content.length - r.next.2.source.content.length)

theorem received_eq {bytes : Bytes} (h : r.source.content = bytes ++ r.next.2.source.content) :
    r.received = bytes := by
  rw [received, h, List.length_append, Nat.add_sub_cancel, List.take_left]

/-! ## Call by call -/

variable {ε : Type}

/-- The calls that reading all lines makes, each with what it receives and what it answers. -/
def calls (r : Reader) : List (Bytes × Except Source.Stop (Option Text)) :=
  match _h : r.next with
  | (.ok (some line), left) => (r.received, .ok (some line)) :: left.calls
  | (.ok none, _) => [(r.received, .ok none)]
  | (.error stop, _) => [(r.received, .error stop)]
  termination_by r.size
  decreasing_by exact size_next_lt _h

theorem calls_of_line {line : Text} {left : Reader} (h : r.next = (.ok (some line), left)) :
    r.calls = (r.received, .ok (some line)) :: left.calls := by
  rw [calls]
  split
  · next h' =>
    rw [h] at h'
    cases h'
    rfl
  · next h' => simp [h] at h'
  · next h' => simp [h] at h'

theorem calls_of_end {answer : Except Source.Stop (Option Text)} {left : Reader}
    (h : r.next = (answer, left)) (hend : answer.toOption.join = none) :
    r.calls = [(r.received, answer)] := by
  rw [calls]
  split
  · next h' =>
    rw [h] at h'
    cases h'
    simp [Except.toOption] at hend
  all_goals
    next h' =>
      rw [h] at h'
      cases h'
      rfl

/-- Reading all lines gives what its calls answer: lines, and at last why there are no more. -/
theorem answers_calls (r : Reader) :
    r.calls.map Prod.snd =
      r.drain.1.map (fun line => .ok (some line)) ++ [r.drain.2.1.elim (.ok none) .error] := by
  fun_induction Reader.drain r with
  | case1 r line left hn lines stop last hdrain ih =>
    rw [hdrain] at ih
    rw [calls_of_line hn, List.map_cons, ih]
    rfl
  | case2 r left hn => rw [calls_of_end hn rfl]; rfl
  | case3 r stop left hn => rw [calls_of_end hn rfl]; rfl

/-- All bytes that some calls have received. -/
def receivedBy (calls : List (Bytes × Except ε (Option Text))) : Bytes := calls.flatMap Prod.fst

/-- The lines that some calls have answered. -/
def linesOf (calls : List (Bytes × Except ε (Option Text))) : List Text :=
  calls.filterMap fun call => call.2.toOption.join

/-- The lines there are in some bytes. -/
def linesIn (bytes : Bytes) : List Text := (terminated LineBuffer.lineFeed bytes).map lineOf

/-- The calls have answered lines that there are, in order; and all of them if the last
call has answered that there is none or that the stream has stopped. -/
structure Right (calls : List (Bytes × Except ε (Option Text))) : Prop where
  ordered : linesOf calls <+: linesIn (receivedBy calls)
  complete : ∀ call ∈ calls.getLast?, call.2.toOption.join = none →
    linesOf calls = linesIn (receivedBy calls)

/-- What some calls have received is the segments that they have handed out, each with its
line feed, and what is left. -/
structure Accounted (calls : List (Bytes × Except ε (Option Text))) (left : Bytes)
    (handed : List Bytes) : Prop where
  received : receivedBy calls = joined LineBuffer.lineFeed handed ++ left
  not_mem : ∀ segment ∈ handed, LineBuffer.lineFeed ∉ segment
  lines : linesOf calls = handed.map lineOf

/-- What a reader has received of a stream and answered, call by call. -/
structure Heard (limit : Nat) (stream : Bytes) (calls : List (Bytes × Except ε (Option Text)))
    (r : Reader) : Prop where
  scanned : r.buffer.Scanned
  limit_eq : r.buffer.limit = limit
  content : stream = receivedBy calls ++ r.source.content
  accounted : Short limit (receivedBy calls) → ∃ handed, Accounted calls r.buffer.bytes handed
  right : Short limit (receivedBy calls) → ∀ seen, seen <+: calls → Right seen

variable {calls : List (Bytes × Except ε (Option Text))} {stream left bytes : Bytes}
  {handed : List Bytes} {answer : Except ε (Option Text)} {limit : Nat}

theorem receivedBy_concat : receivedBy (calls ++ [(bytes, answer)]) = receivedBy calls ++ bytes := by
  simp [receivedBy]

theorem linesOf_concat :
    linesOf (calls ++ [(bytes, answer)]) = linesOf calls ++ answer.toOption.join.toList := by
  cases h : answer.toOption.join <;> simp [linesOf, h]

theorem Accounted.linesIn_received (h : Accounted calls left handed) :
    linesIn (receivedBy calls) = linesOf calls ++ linesIn left := by
  rw [h.received, h.lines, linesIn, terminated_joined h.not_mem, List.map_append, linesIn]

/-- A line that is handed out is the next segment. -/
theorem Accounted.concat_line {segment : Bytes} {line : Text} {left' : Bytes}
    (h : Accounted calls left handed) (hanswer : answer.toOption.join = some line)
    (hbytes : left ++ bytes = segment ++ LineBuffer.lineFeed :: left')
    (hsegment : LineBuffer.lineFeed ∉ segment) (hline : line = lineOf segment) :
    Accounted (calls ++ [(bytes, answer)]) left' (handed ++ [segment]) where
  received := by
    rw [receivedBy_concat, h.received, List.append_assoc, hbytes]
    simp [joined]
  not_mem other hother := by
    rcases List.mem_append.1 hother with hold | hnew
    · exact h.not_mem other hold
    · exact List.mem_singleton.1 hnew ▸ hsegment
  lines := by
    rw [linesOf_concat, hanswer, h.lines, hline, List.map_append]
    rfl

/-- If no line is handed out, all that was received is left. -/
theorem Accounted.concat_none (h : Accounted calls left handed)
    (hanswer : answer.toOption.join = none) :
    Accounted (calls ++ [(bytes, answer)]) (left ++ bytes) handed where
  received := by rw [receivedBy_concat, h.received, List.append_assoc]
  not_mem := h.not_mem
  lines := by rw [linesOf_concat, hanswer, Option.toList_none, List.append_nil, h.lines]

/-- An answer that is right for the bytes that are there is accounted for. -/
theorem Accounted.concat {left' : Bytes} {found : Except Source.Stop (Option Text)}
    (h : Accounted calls left handed) (hfound : Answers (left ++ bytes) found left')
    (hanswer : answer.toOption = found.toOption) :
    (∃ handed', Accounted (calls ++ [(bytes, answer)]) left' handed') ∧
      (answer.toOption.join = none → linesIn left' = []) := by
  have hnone (hjoin : answer.toOption.join = none)
      (hleft : LineBuffer.lineFeed ∉ left ++ bytes ∧ left' = left ++ bytes) :
      (∃ handed', Accounted (calls ++ [(bytes, answer)]) left' handed') ∧
        (answer.toOption.join = none → linesIn left' = []) := by
    rw [hleft.2]
    refine ⟨⟨handed, h.concat_none hjoin⟩, fun _ => ?_⟩
    rw [linesIn, terminated_of_not_mem hleft.1, List.map_nil]
  match found with
  | .ok (some line) =>
    obtain ⟨segment, hbytes, hsegment, hline⟩ := hfound
    have hjoin : answer.toOption.join = some line := by rw [hanswer]; rfl
    exact ⟨⟨_, h.concat_line hjoin hbytes hsegment hline⟩, fun hend => by simp [hjoin] at hend⟩
  | .ok none => exact hnone (by rw [hanswer]; rfl) hfound
  | .error _ => exact hnone (by rw [hanswer]; rfl) hfound

theorem heard_fresh (source : Source) (limit : Nat) :
    Heard limit source.content ([] : List (Bytes × Except ε (Option Text)))
      { source, buffer := { limit } } where
  scanned := LineBuffer.scanned_fresh [] limit
  limit_eq := rfl
  content := rfl
  accounted _ := ⟨[], rfl, by simp, rfl⟩
  right _ seen hseen := by
    rw [List.prefix_nil.1 hseen]
    exact ⟨List.nil_prefix, by simp⟩

/-- **One more call is right again.** -/
theorem Heard.next (h : Heard limit stream calls r)
    (hanswer : answer.toOption = r.next.1.toOption) :
    Heard limit stream (calls ++ [(r.received, answer)]) r.next.2 := by
  obtain ⟨bytes, hcontent, hscanned, hlimit, hfound⟩ := next_answers h.scanned
  rw [received_eq hcontent]
  have hwhole (hshort : Short limit (receivedBy (calls ++ [(bytes, answer)]))) :
      (∃ handed, Accounted (calls ++ [(bytes, answer)]) r.next.2.buffer.bytes handed) ∧
        (answer.toOption.join = none → linesIn r.next.2.buffer.bytes = []) := by
    rw [receivedBy_concat] at hshort
    obtain ⟨handed, haccounted⟩ := h.accounted (hshort.of_infix (List.prefix_append _ _).isInfix)
    refine haccounted.concat (hfound ?_) hanswer
    rw [h.limit_eq]
    -- What is buffered is a tail of what was received, so no run in it is too long either.
    refine hshort.of_infix (List.IsSuffix.isInfix ⟨joined LineBuffer.lineFeed handed, ?_⟩)
    rw [haccounted.received, List.append_assoc]
  have hstream : stream =
      receivedBy (calls ++ [(bytes, answer)]) ++ r.next.2.source.content := by
    rw [receivedBy_concat, List.append_assoc, ← hcontent]
    exact h.content
  refine ⟨hscanned, hlimit.trans h.limit_eq, hstream, fun hshort => (hwhole hshort).1, ?_⟩
  intro hshort seen hseen
  rcases List.prefix_concat_iff.1 hseen with rfl | hearlier
  · obtain ⟨⟨handed, haccounted⟩, hend⟩ := hwhole hshort
    refine ⟨?_, fun call hcall hnone => ?_⟩
    · rw [haccounted.linesIn_received]
      exact List.prefix_append _ _
    · rw [List.getLast?_concat] at hcall
      obtain rfl := Option.some.inj hcall
      rw [haccounted.linesIn_received, hend hnone, List.append_nil]
  · rw [receivedBy_concat] at hshort
    exact h.right (hshort.of_infix (List.prefix_append _ _).isInfix) seen hearlier

theorem toOption_mapError {α δ : Type} (f : δ → ε) (result : Except δ α) :
    (result.mapError f).toOption = result.toOption := by
  cases result <;> rfl

theorem Heard.next_of (f : Source.Stop → ε) {found : Except Source.Stop (Option Text)}
    {left : Reader} (h : Heard limit stream calls r) (hn : r.next = (found, left)) :
    Heard limit stream (calls ++ [(r.received, found.mapError f)]) left := by
  have hnext := h.next (toOption_mapError f r.next.1)
  rwa [hn] at hnext

/-- So is every call of those that read all lines. -/
theorem Heard.drain (f : Source.Stop → ε) (h : Heard limit stream calls r) :
    Heard limit stream (calls ++ r.calls.map fun call => (call.1, call.2.mapError f)) r.drain.2.2 := by
  fun_induction Reader.drain r generalizing calls with
  | case1 r line left hn lines stop last hdrain ih =>
    have hrest := ih (h.next_of f hn)
    rw [hdrain, List.append_assoc] at hrest
    rw [calls_of_line hn]
    exact hrest
  | case2 r left hn =>
    rw [calls_of_end hn rfl]
    exact h.next_of f hn
  | case3 r stop left hn =>
    rw [calls_of_end hn rfl]
    exact h.next_of f hn

/-- More that arrives is more of the stream. -/
theorem Heard.extend (h : Heard limit stream calls r) (arrivals : List Arrival) (ended : Bool) :
    Heard limit (stream ++ arrivals.flatMap Arrival.bytes) calls
      { r with source := r.source.extend arrivals ended } where
  scanned := h.scanned
  limit_eq := h.limit_eq
  content := by rw [Source.content_extend, ← List.append_assoc, ← h.content]
  accounted := h.accounted
  right := h.right

/-- What there is in the beginning of a stream is the beginning of what there is in it. -/
theorem linesIn_mono (h : bytes <+: stream) : linesIn bytes <+: linesIn stream := by
  obtain ⟨rest, rfl⟩ := h
  obtain ⟨segments, tail, rfl, hsegments, htail⟩ := exists_joined LineBuffer.lineFeed bytes
  rw [linesIn, linesIn, List.append_assoc, terminated_joined hsegments,
    terminated_joined hsegments, terminated_of_not_mem htail, List.append_nil]
  exact (List.prefix_append _ _).map lineOf

end Reader

end IrcBot
