/-
What handlers trigger in a poll is left to polls that begin later (`poll_defers`). The
events triggered in a poll are those of what the handlers do, in order (`triggered_poll`).
-/
import IrcBot.Proofs.Bus.Conservation
import IrcBot.Proofs.Bus.Recording

namespace IrcBot.Bus

variable {κ γ ε ω : Type} {R : Requests}

/-- The events that a handler triggers by what it does. -/
def Doing.events : Doing κ ε ω R → List ε
  | .acted _ _ _ after => after.2
  | .triggered _ event => [event]

/-- The events triggered are those of what is recorded. -/
def Accounted (r : RecordedRun κ γ ε ω R) : Prop :=
  triggered r.notes.toList = r.world.2.flatMap Doing.events

theorem triggered_triggerAll (r : Run κ γ ε ω) (events : List ε) :
    triggered (events.foldl Run.trigger r).notes.toList = triggered r.notes.toList ++ events := by
  induction events generalizing r with
  | nil => exact (List.append_nil _).symm
  | cons event events ih =>
    have hfirst : triggered (r.trigger event).notes.toList = triggered r.notes.toList ++ [event] := by
      rw [Run.trigger, Run.toList_notes_note, triggered_concat]
      rfl
    rw [List.foldl_cons, ih, hfirst, List.append_assoc]
    rfl

theorem Accounted.note {r : RecordedRun κ γ ε ω R} (h : Accounted r) {n : Note κ γ ε}
    (hn : n.triggered? = none) : Accounted (r.note n) := by
  rw [Accounted, Run.toList_notes_note, triggered_concat, hn, Option.toList_none, List.append_nil]
  exact h

variable [DecidableEq κ] {c : Conduct κ γ ε ω R} {r : RecordedRun κ γ ε ω R}
  {poll : RecordedRun κ γ ε ω R → Nat × RecordedRun κ γ ε ω R}

theorem Accounted.serve (h : Accounted r) (hpoll : ∀ r, Accounted r → Accounted (poll r).2) (k : κ)
    (q : Ask κ γ ε R.Ask) : Accounted (serve c.recorded poll (q.mark k) r).2 := by
  cases q with
  | register | unregister | unregisterAll => exact h.note rfl
  | wake => exact h
  | poll => exact hpoll r h
  | act i =>
    let doing : Doing κ ε ω R := .acted k i r.world.1 (c.perform i r.world.1).2
    have hworld : (Bus.serve c.recorded poll ((Ask.act i : Ask κ γ ε R.Ask).mark k) r).2.world.2 =
        r.world.2 ++ [doing] := congrArg Prod.snd (world_triggerAll _ _)
    rw [Accounted, hworld, List.flatMap_append, List.flatMap_singleton, ← h]
    exact triggered_triggerAll _ _
  | trigger event =>
    let doing : Doing κ ε ω R := .triggered k event
    have hworld : (Bus.serve c.recorded poll ((Ask.trigger event : Ask κ γ ε R.Ask).mark k) r
        ).2.world.2 = r.world.2 ++ [doing] := rfl
    rw [Accounted, hworld, List.flatMap_append, List.flatMap_singleton, ← h]
    exact triggered_triggerAll _ [event]

theorem Accounted.run (h : Accounted r) (hpoll : ∀ r, Accounted r → Accounted (poll r).2) (k : κ)
    {α : Type} (p : Program (requests κ γ ε R) α) :
    Accounted ((marked k p).run (Bus.serve c.recorded poll) r).2 := by
  induction p generalizing r with
  | done | failed | panicked => exact h
  | ask q next ih => exact ih _ (h.serve hpoll k q)

theorem Accounted.dispatch (h : Accounted r) (hpoll : ∀ r, Accounted r → Accounted (poll r).2)
    (event : ε) : Accounted (dispatch c.recorded poll r event) := by
  refine List.foldlRecOn _ (call c.recorded poll event) (h.note rfl) fun r hr registration _ => ?_
  exact ((hr.note rfl).run hpoll _ _).note rfl

theorem accounted_poll (c : Conduct κ γ ε ω R) (depth : Nat) (r : RecordedRun κ γ ε ω R)
    (h : Accounted r) : Accounted (Bus.poll c.recorded depth r).2 := by
  induction depth generalizing r with
  | zero => exact h
  | succ depth ih =>
    have htaken : Accounted (({ r with bus := { r.bus with pending := [] } }).note
        (.took r.bus.pending)) :=
      Accounted.note (r := { r with bus := { r.bus with pending := [] } }) h rfl
    exact (List.foldlRecOn _ _ htaken fun r hr event _ => hr.dispatch ih event).note rfl

/-- **The events triggered in a poll are those of what the handlers do.** -/
theorem triggered_poll (c : Conduct κ γ ε ω R) (depth : Nat) (r : Run κ γ ε ω)
    (hr : r.notes.toList = []) :
    triggered (Bus.poll c depth r).2.notes.toList = (c.doings depth r).flatMap Doing.events := by
  have hsame : (Bus.poll c.recorded depth r.blank).2.notes = (Bus.poll c depth r).2.notes :=
    congrArg Run.notes (forget_recorded c depth r)
  have hblank : Accounted (R := R) r.blank := by
    rw [Accounted, show r.blank.notes.toList = [] from hr]
    rfl
  rw [← hsame]
  exact accounted_poll c depth r.blank hblank

/-- **What handlers trigger in a poll is left to later polls.** A poll, nested in this one or not,
takes what has been triggered up to then and was not taken, and dispatches just that; and what
is left when this one ends waits. -/
theorem poll_defers (c : Conduct κ γ ε ω R) (depth : Nat) (bus : Bus κ γ ε) (w : ω) :
    let final := (Bus.poll c depth { bus, world := w }).2
    (∀ before batch after, final.notes.toList = before ++ .took batch :: after →
      bus.pending ++ triggered before = taken before ++ batch ∧ dispatchesOf 0 after = batch) ∧
    bus.pending ++ triggered final.notes.toList = taken final.notes.toList ++ final.bus.pending := by
  intro final
  have hsteps := steps_poll c depth { bus, world := w }
  refine ⟨(conserves rfl hsteps (tells_poll c depth _)).batches, ?_⟩
  obtain ⟨ns, hreplays⟩ := hsteps.replays
  have hnotes : final.notes.toList = ns := hreplays.notes
  rw [hnotes, triggered_eq_taken hreplays.truthful, hreplays.pending]

end IrcBot.Bus
