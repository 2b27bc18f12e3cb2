/-
Lines from a stream. A reader is a source with the line buffer it fills. It
reads from the source only when no complete line is buffered, and passes over
lines that are too long. Every line takes bytes away, so reading all lines
there are comes to an end (`Reader.drain`).
-/
import IrcBot.Stream.Source

namespace IrcBot

/-- How many bytes an arrival brings. -/
def Arrival.size : Arrival → Nat
  | .data bytes => bytes.length
  | _ => 0

namespace Source

/-- How many bytes can still be read. -/
def available (s : Source) : Nat := s.arrivals.foldr (fun a n => a.size + n) 0

theorem available_settled (s : Source) : s.settled.available = s.available := by
  obtain ⟨arrivals, ended⟩ := s
  simp only [available, settled]
  induction arrivals with
  | nil => rfl
  | cons a l ih =>
    cases a with
    | interrupted => simpa [List.dropWhile_cons, Arrival.isInterrupted, Arrival.size] using ih
    | _ => simp [Arrival.isInterrupted]

/-- Reading loses nothing: what is not handed out can still be read. -/
theorem available_read {s t : Source} {bytes : Bytes} (h : s.read = (.data bytes, t)) :
    t.available + bytes.length = s.available := by
  obtain ⟨arrivals, ended⟩ := s
  cases arrivals with
  | nil => cases ended <;> simp [read] at h; obtain ⟨rfl, rfl⟩ := h; rfl
  | cons a rest =>
    cases a with
    | data piece =>
      simp only [read, Prod.mk.injEq, Arrival.data.injEq] at h
      obtain ⟨rfl, rfl⟩ := h
      have hlen : (piece.drop chunk).length + (piece.take chunk).length = piece.length := by
        simp; omega
      by_cases hk : piece.drop chunk = []
      · rw [hk] at hlen
        simp only [List.length_nil] at hlen
        simp only [available, hk, if_true, List.foldr_cons, Arrival.size]
        omega
      · simp only [available, hk, if_false, List.foldr_cons, Arrival.size]
        omega
    | _ => simp [read] at h

end Source

structure Reader where
  source : Source := {}
  buffer : LineBuffer := {}
  deriving DecidableEq, Repr, Inhabited

namespace Reader

/-- All bytes between the peer and the lines already handed out. -/
def size (r : Reader) : Nat := r.source.available + r.buffer.pending

def fill (r : Reader) : Except Source.Stop Bool × Reader :=
  let (result, source, buffer) := r.source.fill r.buffer
  (result, { source, buffer })

/-- A refill moves bytes from the source to the buffer and loses none. -/
theorem fill_ok {r r' : Reader} (h : r.fill = (.ok true, r')) :
    r'.size = r.size ∧ r'.source.available < r.source.available := by
  obtain ⟨source, buffer⟩ := r
  simp only [fill, Source.fill] at h
  split at h <;> simp only [Prod.mk.injEq, reduceCtorEq, false_and, Except.ok.injEq,
    Bool.false_eq_true] at h
  next bytes s hne hread =>
    obtain ⟨-, rfl⟩ := h
    have hav := Source.available_read hread
    rw [Source.available_settled] at hav
    have hpos : 0 < bytes.length := List.length_pos_iff.2 hne
    simp only [size, LineBuffer.extend, LineBuffer.pending, List.length_append]
    omega

/-- The next line, read from the source if none is buffered. No line means
that there is no complete one to be had for now. -/
def next (r : Reader) : Except Source.Stop (Option Text) × Reader :=
  match _h : r.buffer.next with
  | (some (.ok line), buffer) => (.ok (some line), { r with buffer })
  | (some (.error _), buffer) => Reader.next { r with buffer }
  | (none, buffer) =>
    match _hf : ({ r with buffer } : Reader).fill with
    | (.ok true, filled) => filled.next
    | (.ok false, r) => (.ok none, r)
    | (.error stop, r) => (.error stop, r)
  termination_by r.size + r.source.available
  decreasing_by
    · have := LineBuffer.pending_next_lt (b := r.buffer) (by simp [_h])
      rw [_h] at this
      simpa [size] using this
    · obtain ⟨hs, ha⟩ := fill_ok _hf
      have hb := LineBuffer.bytes_next_none _h
      have hr : size { r with buffer } = r.size := by simp [size, LineBuffer.pending, hb]
      rw [hs, hr]
      exact Nat.add_lt_add_left ha _

/-- A line that is handed out takes bytes away. -/
theorem size_next_lt {r r' : Reader} {line : Text} (h : r.next = (.ok (some line), r')) :
    r'.size < r.size := by
  fun_induction Reader.next r with
  | case1 r line' buffer hn =>
    simp only [Prod.mk.injEq] at h
    have := LineBuffer.pending_next_lt (b := r.buffer) (by simp [hn])
    rw [hn] at this
    rw [← h.2]
    simpa [size] using this
  | case2 r e buffer hn ih =>
    have := LineBuffer.pending_next_lt (b := r.buffer) (by simp [hn])
    rw [hn] at this
    have hlt := ih h
    simp only [size] at hlt this ⊢
    omega
  | case3 r buffer hn r₁ hf ih =>
    have hb := LineBuffer.bytes_next_none hn
    have hr : size { r with buffer } = r.size := by simp [size, LineBuffer.pending, hb]
    have := (fill_ok hf).1
    have hlt := ih h
    omega
  | case4 => simp at h
  | case5 => simp at h

/-- All lines that can be had for now, and why the stream stopped, if it did. -/
def drain (r : Reader) : List Text × Option Source.Stop × Reader :=
  match _h : r.next with
  | (.ok (some line), r) =>
    let (lines, stop, r) := r.drain
    (line :: lines, stop, r)
  | (.ok none, r) => ([], none, r)
  | (.error stop, r) => ([], some stop, r)
  termination_by r.size
  decreasing_by exact size_next_lt _h

end Reader

end IrcBot
