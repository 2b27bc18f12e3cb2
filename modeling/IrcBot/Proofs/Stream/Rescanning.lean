/-
That a line buffer goes on searching where it stopped is never seen. The buffer it is compared
with remembers nothing of its searches: each call looks through all bytes from the first one.
No line feed stands before the point where a search goes on, so the two find the same one.
-/
import IrcBot.Proofs.Stream.Segments

namespace IrcBot

namespace LineBuffer

/-! ## Calls of a buffer -/

/-- What is done with a buffer. -/
inductive Call where
  | extend (bytes : Bytes)
  | next
  | clear
  deriving DecidableEq, Repr

/-- What is seen of a call: the answer, if it is a call for a line, and how many bytes are
pending after it. -/
structure Sight where
  answer : Option (Option (Except Overlong Text))
  pending : Nat

/-- A kind of buffer. -/
structure Kind (β : Type) where
  extend : β → Bytes → β
  next : β → Option (Except Overlong Text) × β
  clear : β → β
  pending : β → Nat

namespace Kind

variable {β γ : Type}

def call (kind : Kind β) (b : β) (c : Call) : Sight × β :=
  let (answer, b) : Option (Option (Except Overlong Text)) × β :=
    match c with
    | .extend bytes => (none, kind.extend b bytes)
    | .next => (some (kind.next b).1, (kind.next b).2)
    | .clear => (none, kind.clear b)
  (⟨answer, kind.pending b⟩, b)

/-- Calls one after the other, with what is seen of each and the buffer after the last. -/
def calls (kind : Kind β) (b : β) : List Call → List Sight × β
  | [] => ([], b)
  | c :: cs =>
    let (sight, b) := kind.call b c
    let (sights, b) := kind.calls b cs
    (sight :: sights, b)

/-- Buffers of one kind that behave like their images of another kind, where something holds of
them that each call keeps. -/
structure Mimics (kind : Kind β) (kind' : Kind γ) (image : β → γ) (Good : β → Prop) : Prop where
  extend : ∀ b bytes, Good b →
    Good (kind.extend b bytes) ∧ kind'.extend (image b) bytes = image (kind.extend b bytes)
  next : ∀ b, Good b →
    Good (kind.next b).2 ∧ kind'.next (image b) = ((kind.next b).1, image (kind.next b).2)
  clear : ∀ b, Good b → Good (kind.clear b) ∧ kind'.clear (image b) = image (kind.clear b)
  pending : ∀ b, kind'.pending (image b) = kind.pending b

variable {kind : Kind β} {kind' : Kind γ} {image : β → γ} {Good : β → Prop} {b : β}

theorem Mimics.call (h : Mimics kind kind' image Good) (hb : Good b) (c : Call) :
    Good (kind.call b c).2 ∧
      kind'.call (image b) c = ((kind.call b c).1, image (kind.call b c).2) := by
  cases c with
  | extend bytes =>
    obtain ⟨hgood, himage⟩ := h.extend b bytes hb
    exact ⟨hgood, by simp only [Kind.call, himage, h.pending]⟩
  | next =>
    obtain ⟨hgood, himage⟩ := h.next b hb
    exact ⟨hgood, by simp only [Kind.call, himage, h.pending]⟩
  | clear =>
    obtain ⟨hgood, himage⟩ := h.clear b hb
    exact ⟨hgood, by simp only [Kind.call, himage, h.pending]⟩

/-- What one call keeps and shows, any calls keep and show. -/
theorem Mimics.calls (h : Mimics kind kind' image Good) (hb : Good b) (cs : List Call) :
    Good (kind.calls b cs).2 ∧
      kind'.calls (image b) cs = ((kind.calls b cs).1, image (kind.calls b cs).2) := by
  induction cs generalizing b with
  | nil => exact ⟨hb, rfl⟩
  | cons c cs ih =>
    obtain ⟨hgood, himage⟩ := h.call hb c
    obtain ⟨hgood, hrest⟩ := ih hgood
    refine ⟨hgood, ?_⟩
    simp only [Kind.calls, himage, hrest]

end Kind

/-- The line buffer, which goes on where its last search ended. -/
def resuming : Kind LineBuffer where
  extend := LineBuffer.extend
  next := LineBuffer.next
  clear := LineBuffer.clear
  pending := LineBuffer.pending

/-! ## A buffer that searches all its bytes -/

structure Rescanning where
  bytes : Bytes := []
  limit : Nat := 8191
  deriving DecidableEq, Repr

/-- The next line, searched for from the first byte. -/
def Rescanning.next (b : Rescanning) : Option (Except Overlong Text) × Rescanning :=
  match b.bytes.findIdx? (· == lineFeed) with
  | some i =>
    let line := dropReturn (b.bytes.take i)
    let rest := { b with bytes := b.bytes.drop (i + 1) }
    if line.length > b.limit then (some (.error ⟨line.length, b.limit⟩), rest)
    else (some (.ok (Text.decode line)), rest)
  | none =>
    if b.bytes.length > b.limit then
      (some (.error ⟨b.bytes.length, b.limit⟩), { b with bytes := [] })
    else (none, b)

def rescanning : Kind Rescanning where
  extend b bytes := { b with bytes := b.bytes ++ bytes }
  next := Rescanning.next
  clear b := { b with bytes := [] }
  pending b := b.bytes.length

/-! ## Going on is not seen -/

/-- A buffer without the memory of its searches. -/
def forgetful (b : LineBuffer) : Rescanning := { bytes := b.bytes, limit := b.limit }

variable {b : LineBuffer}

theorem Scanned.clear (b : LineBuffer) : b.clear.Scanned := scanned_fresh [] b.limit

/-- The search that goes on finds what a search from the first byte finds. -/
theorem lineFeed?_eq (hb : b.Scanned) : b.lineFeed? = b.bytes.findIdx? (· == lineFeed) := by
  have hfresh : lineFeed? { bytes := b.bytes, limit := b.limit } =
      b.bytes.findIdx? (· == lineFeed) := by
    simp [lineFeed?]
  rw [← hfresh]
  by_cases h : lineFeed ∈ b.bytes
  · obtain ⟨segment, rest, hbytes, hsegment⟩ := List.eq_append_cons_of_mem h
    rw [lineFeed?_of_segment hb hbytes hsegment,
      lineFeed?_of_segment (scanned_fresh b.bytes b.limit) hbytes hsegment]
  · have hnone : lineFeed? { bytes := b.bytes, limit := b.limit } = none := lineFeed?_of_not_mem h
    rw [lineFeed?_of_not_mem h, hnone]

theorem next_forgetful (hb : b.Scanned) :
    b.forgetful.next = (b.next.1, b.next.2.forgetful) := by
  unfold Rescanning.next LineBuffer.next forgetful
  rw [lineFeed?_eq hb]
  cases b.bytes.findIdx? (· == lineFeed) with
  | some i =>
    dsimp only
    split <;> rfl
  | none =>
    dsimp only
    by_cases hlong : b.pending > b.limit
    · rw [if_pos hlong, if_pos (show b.bytes.length > b.limit from hlong)]
      rfl
    · rw [if_neg hlong, if_neg (show ¬ b.bytes.length > b.limit from hlong)]

theorem resuming_mimics (limit : Nat) :
    Kind.Mimics resuming rescanning forgetful fun b => b.Scanned ∧ b.limit = limit where
  extend _ bytes hb := ⟨⟨hb.1.extend bytes, hb.2⟩, rfl⟩
  next b hb := ⟨⟨hb.1.next, (limit_next b).trans hb.2⟩, next_forgetful hb.1⟩
  clear b hb := ⟨⟨.clear b, hb.2⟩, rfl⟩
  pending _ := rfl

/-- What any calls leave of a new buffer is searched as far as it says, and has the same limit. -/
theorem scanned_calls (limit : Nat) (cs : List Call) :
    (resuming.calls { limit } cs).2.Scanned ∧ (resuming.calls { limit } cs).2.limit = limit :=
  ((resuming_mimics limit).calls ⟨scanned_fresh [] limit, rfl⟩ cs).1

/-- **Going on where a search stopped is not seen.** Whatever is done with a new buffer, of
whatever limit, call by call its answers, the lengths in its refusals and the bytes pending are
those of a buffer that searches all its bytes at each call, and in the end both hold the same
bytes. What has been searched is always a part of what is buffered, and no line feed is in it. -/
theorem calls_rescan (limit : Nat) (cs : List Call) :
    let run := resuming.calls { limit } cs
    let reference := rescanning.calls { limit } cs
    run.1 = reference.1 ∧ run.2.bytes = reference.2.bytes ∧
      run.2.searched ≤ run.2.pending ∧ lineFeed ∉ run.2.bytes.take run.2.searched := by
  have hcalls : rescanning.calls { limit } cs = _ :=
    ((resuming_mimics limit).calls ⟨scanned_fresh [] limit, rfl⟩ cs).2
  obtain ⟨hscanned, -⟩ := scanned_calls limit cs
  rw [hcalls]
  exact ⟨rfl, rfl, hscanned.le, hscanned.not_mem⟩

end LineBuffer

end IrcBot
