/-
Reading comes to an end, and little is buffered meanwhile. A call for a line looks for one
again and again (`Reader.look`); each look that finds none drops bytes or takes some off the
source, so there are only so many. The buffer is filled only when no more than the limit is in
it, so there is never more in it than the limit and one chunk.
-/
import IrcBot.Proofs.Stream.Reading
import Mathlib.Logic.Function.Iterate

namespace IrcBot

/-- A loop whose every turn lowers a measure stops after at most as many turns. -/
theorem exists_stop {σ : Type} (turn : σ → σ) (stops : σ → Prop) (measure : σ → Nat)
    (hturn : ∀ s, ¬ stops s → measure (turn s) < measure s) (s : σ) :
    ∃ n ≤ measure s, (∀ k < n, ¬ stops (turn^[k] s)) ∧ stops (turn^[n] s) := by
  by_cases hs : stops s
  · exact ⟨0, Nat.zero_le _, by simp, hs⟩
  · have hlower := hturn s hs
    obtain ⟨n, hle, hgoes, hstop⟩ := exists_stop turn stops measure hturn (turn s)
    refine ⟨n + 1, by omega, fun k hk => ?_, hstop⟩
    cases k with
    | zero => exact hs
    | succ k => exact hgoes k (by omega)
  termination_by measure s

namespace LineBuffer

variable {b b' : LineBuffer}

/-- The buffer after some calls for a line. -/
def drawn (b : LineBuffer) (n : Nat) : LineBuffer := (fun b => b.next.2)^[n] b

theorem Scanned.drawn (hb : b.Scanned) (n : Nat) :
    (b.drawn n).Scanned ∧ (b.drawn n).limit = b.limit := by
  induction n generalizing b with
  | zero => exact ⟨hb, rfl⟩
  | succ n ih => exact ⟨(ih hb.next).1, (ih hb.next).2.trans (limit_next b)⟩

theorem pending_of_next_some {answer : Except Overlong Text} (h : b.next = (some answer, b')) :
    b'.pending < b.pending := by
  have hlt := pending_next_lt (b := b) (by rw [h]; rfl)
  rwa [h] at hlt

/-- What stays in the buffer for want of a line feed is not too long. -/
theorem pending_of_next_none (h : b.next = (none, b')) :
    b'.pending = b.pending ∧ b.pending ≤ b.limit := by
  refine ⟨congrArg List.length (bytes_next_none h), ?_⟩
  unfold next at h
  split at h
  · dsimp only at h
    split at h <;> simp at h
  · split at h
    · simp at h
    · next hshort => exact Nat.le_of_not_lt hshort

theorem pending_next_le (b : LineBuffer) : b.next.2.pending ≤ b.pending := by
  cases h : b.next with
  | mk answer b' =>
    cases answer with
    | some answer => exact Nat.le_of_lt (pending_of_next_some h)
    | none => exact Nat.le_of_eq (pending_of_next_none h).1

/-- **Drawing lines ends.** After at most as many answers as bytes are pending there is none, and
what is left then holds no line feed and is not too long. -/
theorem drawn_ends (hb : b.Scanned) :
    ∃ n ≤ b.pending, (∀ k < n, (b.drawn k).next.1.isSome) ∧
      ∃ left, (b.drawn n).next = (none, left) ∧ left.pending ≤ b.limit ∧
        lineFeed ∉ left.bytes := by
  obtain ⟨n, hle, hgoes, hstop⟩ := exists_stop (fun b : LineBuffer => b.next.2)
    (fun b => b.next.1 = none) pending
    (fun b hb => pending_next_lt (Option.isSome_iff_ne_none.2 hb)) b
  obtain ⟨hscanned, hlimit⟩ := hb.drawn n
  have hnone : (b.drawn n).next = (none, (b.drawn n).next.2) := Prod.ext hstop rfl
  obtain ⟨hsame, hshort⟩ := pending_of_next_none hnone
  refine ⟨n, hle, fun k hk => Option.isSome_iff_ne_none.2 (hgoes k hk), _, hnone, ?_, ?_⟩
  · rw [hsame, ← hlimit]
    exact hshort
  · rw [bytes_next_none hnone]
    exact of_next_none hscanned hnone

end LineBuffer

namespace Source

theorem length_read_le (s : Source) : s.read.1.bytes.length ≤ chunk := by
  obtain ⟨arrivals, ended⟩ := s
  cases arrivals with
  | nil => cases ended <;> exact Nat.zero_le _
  | cons a rest =>
    cases a with
    | data bytes => exact List.length_take_le _ _
    | _ => exact Nat.zero_le _

end Source

namespace Reader

variable {r r' : Reader} {limit : Nat}

/-! ## Looking for a line -/

/-- Looks for a line once: the buffer is searched, and filled if it holds none. There is no answer
if it has to be looked for again. -/
def look (r : Reader) : Option (Except Source.Stop (Option Text)) × Reader :=
  match r.buffer.next with
  | (some (.ok line), buffer) => (some (.ok (some line)), { r with buffer })
  | (some (.error _), buffer) => (none, { r with buffer })
  | (none, buffer) =>
    match ({ r with buffer } : Reader).fill with
    | (.ok true, filled) => (none, filled)
    | (.ok false, left) => (some (.ok none), left)
    | (.error stop, left) => (some (.error stop), left)

/-- The reader after it has been looked for a line some times. -/
def looked (r : Reader) (n : Nat) : Reader := (fun r => r.look.2)^[n] r

/-- A call for a line is a look, and another call if there is no answer. -/
theorem next_eq_look (r : Reader) : r.next = r.look.1.elim r.look.2.next (·, r.look.2) := by
  rw [Reader.next]
  unfold look
  split
  · next h => simp [h]
  · next h => simp [h]
  · next h =>
    simp only [h]
    split
    · next hf => simp [hf]
    · next hf => simp [hf]
    · next hf => simp [hf]

theorem next_eq_looked {n : Nat} (h : ∀ k < n, (r.looked k).look.1 = none) :
    r.next = (r.looked n).next := by
  induction n generalizing r with
  | zero => rfl
  | succ n ih =>
    rw [next_eq_look, show r.look.1 = none from h 0 (Nat.succ_pos n)]
    exact ih fun k hk => h (k + 1) (Nat.succ_lt_succ hk)

/-- How often a line can still be looked for without an answer. -/
def patience (r : Reader) : Nat := 2 * r.source.available + r.buffer.pending

/-- A look without an answer drops what is too long, or moves bytes from the source. -/
theorem patience_look (h : r.look.1 = none) : r.look.2.patience < r.patience := by
  unfold look at h ⊢
  split at h
  · simp at h
  · next hn =>
    have hlt := LineBuffer.pending_of_next_some hn
    dsimp only [patience]
    omega
  · next buffer hn =>
    obtain ⟨hsame, -⟩ := LineBuffer.pending_of_next_none hn
    split at h
    · next filled hf =>
      obtain ⟨hsize, havailable⟩ := fill_ok hf
      simp only [size, patience] at hsize havailable ⊢
      omega
    all_goals simp at h

/-- **A call for a line ends**, and the last look gives its answer. -/
theorem looked_ends (r : Reader) :
    ∃ n ≤ r.patience, (∀ k < n, (r.looked k).look.1 = none) ∧
      (r.looked n).look = (some r.next.1, r.next.2) := by
  obtain ⟨n, hle, hgoes, hstop⟩ := exists_stop (fun r : Reader => r.look.2)
    (fun r => r.look.1 ≠ none) patience
    (fun r hr => patience_look (Classical.not_not.1 hr)) r
  have hnone : ∀ k < n, (r.looked k).look.1 = none := fun k hk => Classical.not_not.1 (hgoes k hk)
  refine ⟨n, hle, hnone, ?_⟩
  obtain ⟨answer, hanswer⟩ := Option.ne_none_iff_exists'.1 hstop
  have hanswer : (r.looked n).look.1 = some answer := hanswer
  rw [next_eq_looked hnone, next_eq_look (r.looked n), hanswer]
  exact Prod.ext hanswer rfl

/-! ## How much is buffered -/

/-- No more is buffered than the limit and one chunk. -/
structure Fits (limit : Nat) (r : Reader) : Prop where
  limit_eq : r.buffer.limit = limit
  le : r.buffer.pending ≤ limit + Source.chunk

theorem fits_fresh (source : Source) (limit : Nat) :
    Fits limit { source, buffer := { limit } } := ⟨rfl, Nat.zero_le _⟩

/-- A refill adds what one read brings. -/
theorem buffer_fill_eq (r : Reader) :
    r.fill.2.buffer = r.buffer.extend r.source.settled.read.1.bytes := by
  have hextend : r.buffer.extend [] = r.buffer := by simp [LineBuffer.extend]
  simp only [fill, Source.fill]
  split
  all_goals
    next h =>
      rw [h]
      first | exact hextend.symm | rfl

/-- A refill of what holds no more than the limit leaves no more than the limit and one chunk. -/
theorem fits_fill (hlimit : r.buffer.limit = limit) (hle : r.buffer.pending ≤ limit) :
    r.fill.2.Fits limit := by
  have hread := r.source.settled.length_read_le
  refine ⟨?_, ?_⟩
  · rw [buffer_fill_eq]
    exact hlimit
  · rw [buffer_fill_eq]
    simp only [LineBuffer.pending, LineBuffer.extend, List.length_append] at hle ⊢
    omega

/-- **No look for a line makes the buffer hold more.** -/
theorem Fits.look (h : r.Fits limit) : r.look.2.Fits limit := by
  have hlimit := (LineBuffer.limit_next r.buffer).trans h.limit_eq
  have hle := Nat.le_trans (LineBuffer.pending_next_le r.buffer) h.le
  unfold Reader.look
  split
  · next hn =>
    rw [hn] at hlimit hle
    exact ⟨hlimit, hle⟩
  · next hn =>
    rw [hn] at hlimit hle
    exact ⟨hlimit, hle⟩
  · next buffer hn =>
    obtain ⟨hsame, hshort⟩ := LineBuffer.pending_of_next_none hn
    rw [hn] at hlimit
    -- Only here is the buffer filled, and what is in it has just been found short enough.
    have hfilled := fits_fill (r := { r with buffer }) hlimit (by
      rw [h.limit_eq] at hshort
      exact Nat.le_trans (Nat.le_of_eq hsame) hshort)
    split
    all_goals
      next hf => rwa [hf] at hfilled

theorem Fits.looked (h : r.Fits limit) (n : Nat) : (r.looked n).Fits limit := by
  induction n generalizing r with
  | zero => exact h
  | succ n ih => exact ih h.look

theorem Fits.next (h : r.Fits limit) : r.next.2.Fits limit := by
  obtain ⟨n, -, -, hlook⟩ := looked_ends r
  have hlast := (h.looked n).look
  rwa [hlook] at hlast

theorem Fits.drain (h : r.Fits limit) : r.drain.2.2.Fits limit := by
  fun_induction Reader.drain r with
  | case1 r line left hn lines stop last hdrain ih =>
    have hnext := h.next
    rw [hn] at hnext
    rw [hdrain] at ih
    exact ih hnext
  | case2 r left hn | case3 r stop left hn =>
    have hnext := h.next
    rwa [hn] at hnext

end Reader

end IrcBot
