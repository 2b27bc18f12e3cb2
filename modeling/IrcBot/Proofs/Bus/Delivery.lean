/-
What a poll delivers. It takes all that is pending; each of these events is dispatched in
its turn, to the handlers registered for its name when its turn comes, each once and with
the context and owner it has then. What handlers do meanwhile, and how they end, has no
part in this: it shows in the registrations that the next dispatch reads.
-/
import IrcBot.Proofs.Bus.Nesting
import IrcBot.Proofs.Bus.Replay
import IrcBot.Proofs.Bus.Signatures

namespace IrcBot.Bus

variable {κ γ ε ω : Type} {R : Requests} [DecidableEq κ]

/-- What a run that ended so has delivered, from a start without notes. -/
structure Delivers (c : Conduct κ γ ε ω R) (start last : Run κ γ ε ω) : Prop where
  /-- At every point of the notes the run was in the state that the notes before make. -/
  points : ∀ before after, last.notes.toList = before ++ after →
    ∃ mid, Steps c start mid ∧ Steps c mid last ∧ Replays c.name start before mid
  /-- Every poll takes what is pending then, and dispatches just these events in their order. -/
  batches : ∀ before batch after, last.notes.toList = before ++ .took batch :: after →
    batch = pendingAfter start.bus.pending before ∧ dispatchesOf 0 after = batch
  /-- Every dispatch reads what is registered then, and calls just these handlers in their
  order. -/
  snapshots : ∀ before event snapshot after,
    last.notes.toList = before ++ .dispatched event snapshot :: after →
    snapshot = (registryAfter start.bus.registry before).registrations (c.name event) ∧
      callsOf 0 after = snapshot.map (event, ·)
  /-- There are no calls but those of dispatches. -/
  complete : (last.notes.toList.flatMap Note.call).Perm (last.notes.toList.flatMap Note.listed)

theorem delivers {c : Conduct κ γ ε ω R} {start last : Run κ γ ε ω}
    (hstart : start.notes.toList = []) (hsteps : Steps c start last)
    (htells : Tells .doings start last) : Delivers c start last := by
  obtain ⟨ns, hreplays⟩ := hsteps.replays
  obtain ⟨ns', hns', htold⟩ := htells
  obtain rfl : ns = ns' := List.append_cancel_left (hreplays.notes.symm.trans hns')
  have hnotes : last.notes.toList = ns := by rw [hreplays.notes, hstart, List.nil_append]
  have hfulfilled : AllFulfilled (ns ++ []) := htold.fulfilled [] trivial trivial
  rw [List.append_nil] at hfulfilled
  refine ⟨fun before after hsplit => ?_, fun before batch after hsplit => ?_,
    fun before event snapshot after hsplit => ?_, hnotes ▸ htold.called_perm⟩
  · exact hsteps.point (by rw [hsplit, hstart, List.nil_append])
  · obtain rfl := hnotes.symm.trans hsplit
    exact ⟨hreplays.truthful _ _ _ rfl, hfulfilled.at⟩
  · obtain rfl := hnotes.symm.trans hsplit
    exact ⟨hreplays.truthful _ _ _ rfl, hfulfilled.at⟩

/-- **A poll delivers every event to the registrations at its turn**, whatever handlers do. What
it notes as calls are calls: handlers that sign when they are called have signed for just these. -/
theorem poll_delivers_registrations (c : Conduct κ γ ε ω R) (depth : Nat) (b : Bus κ γ ε)
    (world : ω) :
    let start : Run κ γ ε ω := { bus := b, world }
    let last := (poll c (depth + 1) start).2
    last.notes.toList.head? = some (.took b.pending) ∧ Delivers c start last ∧
      Countersigns (poll c.signed (depth + 1) { bus := b, world := (world, []) }).2 last := by
  intro start last
  have hdelivers : Delivers c start last :=
    delivers rfl (steps_poll c _ start) (tells_poll c _ start)
  have hsigned : Countersigns { bus := b, world := (world, []) } start := ⟨rfl, rfl⟩
  obtain ⟨inner, hnotes, -⟩ := notes_poll (tells_poll c depth) start
  refine ⟨?_, hdelivers, (poll_signed c _ _ _ hsigned).2⟩
  rw [hnotes]
  rfl

end IrcBot.Bus
