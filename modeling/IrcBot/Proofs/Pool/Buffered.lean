/-
How much is buffered for the sockets of a pool, whatever their peers send. The buffer of a
socket is filled only by calls for a line, one chunk at a time, so it holds at most one line that
is not too long and one chunk more; this holds at every moment, also between the looks for a line
that one call makes.
-/
import IrcBot.Proofs.Pool.Steps
import IrcBot.Proofs.Stream.Bounds
import IrcBot.Proofs.Stream.Rescanning

namespace IrcBot.Pool

open Reader

variable {κ ω : Type} {R : Requests} {s s' : Socket κ} {deeds more : List Deed} {limit : Nat}

/-- **No turn of a socket makes its buffer hold more.** -/
theorem Turn.fits (hturn : Turn s more s') (h : s.reader.Fits limit) : s'.reader.Fits limit := by
  cases hturn with
  | update | unblock | prepare | queue | count => exact h
  | arrive arrivals ended => exact ⟨h.limit_eq, h.le⟩
  | flush blocked =>
    rw [Socket.reader_flush]
    exact h
  | read => exact h.next
  | drain => exact h.drain

theorem Life.fits {start last : Option (Socket κ)} (hlife : Life start deeds last)
    (h : ∀ s, start = some s → s.reader.Fits limit) : ∀ s, last = some s → s.reader.Fits limit := by
  induction hlife with
  | same => exact h
  | turn _ hturn ih =>
    intro s' hs'
    obtain rfl := Option.some.inj hs'
    exact hturn.fits (ih _ rfl)
  | clear _ _ ih =>
    intro s' hs'
    have hfits := ih _ rfl
    obtain rfl := Option.some.inj hs'
    exact hfits
  | leave => simp

theorem Audit.Story.fits {a : Audit κ ω} {h : Handle} (hstory : a.Story h)
    (hs : a.socket? h = some s) : s.reader.Fits 8191 := by
  cases hstory with
  | unused _ _ hsocket => exact nomatch hsocket.symm.trans hs
  | given stream callbacks deeds _ _ hlife =>
    refine hlife.fits (fun start hstart => ?_) s hs
    rw [← Option.some.inj hstart]
    exact fits_fresh stream.source 8191

/-- **Reading ends, and what is buffered stays bounded, whatever a peer sends.**

- Of a line buffer, of whatever limit and after whatever calls: a call for a line that answers one
  or refuses one leaves less pending than before. Called again and again it answers nothing after at
  most as many calls as bytes were pending, and then there is no line feed in what is left, which is
  not longer than the limit.
- After any run of a pool, and at every moment after that in the life of its sockets (so also
  in the middle of a pass): no more than 8191 + 4096 bytes are buffered for a socket, and no more
  while lines are looked for, however often.
- A call for a line looks for one at most so many times in vain that every byte there is to read has
  been counted twice and every buffered byte once; the look after that gives the answer of the
  call. So once there is nothing to read, only what is buffered is gone through. -/
theorem reading_ends_bounded (c : Conduct κ ω R) (pollTimeout : Nat) (world : ω)
    (steps : List (Step κ R)) :
    let a := Audit.after c pollTimeout world steps
    a.run = steps.foldl (Run.step c) (.fresh κ pollTimeout world) ∧
      (∀ limit cs,
        let b := (LineBuffer.resuming.calls { limit } cs).2
        (∀ answer left, b.next = (some answer, left) → left.pending < b.pending) ∧
          ∃ n ≤ b.pending, (∀ k < n, (b.drawn k).next.1.isSome) ∧
            ∃ left, (b.drawn n).next = (none, left) ∧ left.pending ≤ limit ∧
              LineBuffer.lineFeed ∉ left.bytes) ∧
      (∀ a', Audit.Since a a' → ∀ h s, a'.socket? h = some s →
        ∀ n, (s.reader.looked n).buffer.pending ≤ 8191 + 4096) ∧
      ∀ (p : Pool κ) h s, p.socket? h = some s →
        ∃ n ≤ 2 * s.reader.source.available + s.reader.buffer.pending,
          (∀ k < n, (s.reader.looked k).look.1 = none) ∧
            ∃ answer left, (s.reader.looked n).look = (some answer, left) ∧
              p.readLine h = (answer.mapError .ofStop, p.set h { s with reader := left }) := by
  intro a
  refine ⟨Audit.after_run c pollTimeout world steps, fun limit cs => ?_, ?_, ?_⟩
  · obtain ⟨hscanned, hlimit⟩ := LineBuffer.scanned_calls limit cs
    have hends := LineBuffer.drawn_ends hscanned
    rw [hlimit] at hends
    exact ⟨fun answer left => LineBuffer.pending_of_next_some, hends⟩
  · intro a' hsince h s hs n
    have hstory := (Audit.story c pollTimeout world steps h).since hsince
    exact ((hstory.fits hs).looked n).le
  · intro p h s hs
    obtain ⟨n, hle, hnone, hlook⟩ := looked_ends s.reader
    refine ⟨n, hle, hnone, s.reader.next.1, s.reader.next.2, hlook, ?_⟩
    simp only [readLine, hs]

/-- Two pieces of a line that does not end. -/
def unendedLine : List (Step Unit (.writing Unit)) :=
  [.add { source := { arrivals := [.data [97, 98], .data [99]] } } {}, .ask (.readLine 0)]

theorem reading_ends_bounded_of_unended_line :
    let a := Audit.after idle 5 () unendedLine
    let b := (LineBuffer.resuming.calls { limit := 1 } [.extend [97, 98, 10, 99]]).2
    (∃ left, b.next = (some (.error ⟨2, 1⟩), left) ∧ left.pending < b.pending) ∧
      ∃ s, a.socket? 0 = some s ∧ s.reader.buffer.pending = 3 ∧
        (∀ n, (s.reader.looked n).buffer.pending ≤ 8191 + 4096) ∧
        ∃ n ≤ 3, (s.reader.looked n).look.1.isSome := by
  intro a b
  obtain ⟨-, hbuffer, hbounded, hends⟩ := reading_ends_bounded idle 5 () unendedLine
  have hrefused : b.next = (some (.error ⟨2, 1⟩), b.next.2) := by decide +kernel
  refine ⟨⟨_, hrefused, (hbuffer 1 [.extend [97, 98, 10, 99]]).1 _ _ hrefused⟩, ?_⟩
  have hheld : (a.socket? 0).map (fun s => (s.reader.source.available, s.reader.buffer.pending)) =
      some (0, 3) := by decide +kernel
  obtain ⟨s, hs, hleft⟩ := Option.map_eq_some_iff.1 hheld
  obtain ⟨havailable, hpending⟩ := Prod.mk.inj hleft
  obtain ⟨n, hle, -, answer, left, hlook, -⟩ := hends a.run.pool 0 s hs
  rw [havailable, hpending] at hle
  exact ⟨s, hs, hpending, hbounded a (.refl _) 0 s hs, n, hle, by rw [hlook]; rfl⟩

end IrcBot.Pool
