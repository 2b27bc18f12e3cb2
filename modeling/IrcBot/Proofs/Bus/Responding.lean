/-
Polls with handlers that answer. Some handlers attend to some events and answer each of
them in a way that shows. While nobody triggers such events in a poll, and for each that
is dispatched just one of the handlers is registered, what shows of their answers is the
answers to the events that waited, in the order they waited in (`poll_answers`), whatever
other handlers do meanwhile and however deep they nest polls: all such events are taken by
the outermost poll.

The world may become such that answers are lost; it then stays so.
-/
import IrcBot.Proofs.Bus.Recording

namespace IrcBot.Bus

variable {κ γ ε ω τ : Type} {R : Requests}

/-- Handlers that answer events in a way that shows. -/
structure Responder (c : Conduct κ γ ε ω R) (τ : Type) where
  attends : ε → Bool
  mine : κ → Bool
  /-- What shows of something that a handler does. -/
  view : Doing κ ε ω R → List τ
  answer : ε → List τ
  Good : ω → Prop
  Lost : ω → Prop
  good : ∀ q w, Good w → Good (c.perform q w).2.1
  lost : ∀ q w, Lost w → Lost (c.perform q w).2.1
  others : ∀ d, mine d.actor = false → view d = []
  unattended : ∀ event, attends event = false → answer event = []

/-- Nobody triggers the events attended to, and where one is dispatched just one of the handlers
is called. -/
def Note.Calm (attends : ε → Bool) (mine : κ → Bool) : Note κ γ ε → Prop
  | .triggered event => attends event = false
  | .dispatched event snapshot =>
    attends event = true → (snapshot.filter fun r => mine r.handler).length = 1
  | _ => True

/-- All that has shown in a run. -/
def RecordedRun.viewed (view : Doing κ ε ω R → List τ) (r : RecordedRun κ γ ε ω R) : List τ :=
  r.world.2.flatMap view

namespace Responder

variable {c : Conduct κ γ ε ω R} (d : Responder c τ)

/-- Answers are lost, or something has gone astray. -/
def Off (r : RecordedRun κ γ ε ω R) : Prop :=
  d.Lost r.world.1 ∨ ∃ n ∈ r.notes.toList, ¬ n.Calm d.attends d.mine

/-- None of the events waits. -/
def Quiet (events : List ε) : Prop := ∀ event ∈ events, d.attends event = false

/-- So much has shown, and no event waits to be answered, unless things are off. -/
def Shown (said : List τ) (r : RecordedRun κ γ ε ω R) : Prop :=
  d.Off r ∨ d.Good r.world.1 ∧ d.Quiet r.bus.pending ∧ r.viewed d.view = said

/-- The handlers answer, whenever they are called. -/
def Answers [DecidableEq κ] : Prop :=
  ∀ (k : κ) (context : Option γ) (event : ε) (poll) (r : RecordedRun κ γ ε ω R),
    d.mine k = true → d.Good r.world.1 →
      let r' := ((c.recorded.behave k context event).run (serve c.recorded poll) r).2
      d.Lost r'.world.1 ∨ r'.viewed d.view = r.viewed d.view ++ d.answer event

variable {d} {said : List τ} {r r' : RecordedRun κ γ ε ω R}

theorem Quiet.answer {events : List ε} (h : d.Quiet events) : events.flatMap d.answer = [] :=
  List.flatMap_eq_nil_iff.2 fun event hevent => d.unattended event (h event hevent)

theorem Off.note (h : d.Off r) (n : Note κ γ ε) : d.Off (r.note n) := by
  refine h.imp_right fun ⟨m, hm, hstray⟩ => ⟨m, ?_, hstray⟩
  rw [Run.toList_notes_note]
  exact List.mem_append_left _ hm

theorem off_of_stray {n : Note κ γ ε} (hn : ¬ n.Calm d.attends d.mine) : d.Off (r.note n) :=
  .inr ⟨n, by rw [Run.toList_notes_note]; exact List.mem_append_right _ List.mem_cons_self, hn⟩

theorem good_recorded (q : κ × (R.Ask ⊕ ε)) (w : ω × List (Doing κ ε ω R)) (hw : d.Good w.1) :
    d.Good (c.recorded.perform q w).2.1.1 := by
  obtain ⟨k, q | event⟩ := q
  · exact d.good q w.1 hw
  · exact hw

theorem lost_recorded (q : κ × (R.Ask ⊕ ε)) (w : ω × List (Doing κ ε ω R)) (hw : d.Lost w.1) :
    d.Lost (c.recorded.perform q w).2.1.1 := by
  obtain ⟨k, q | event⟩ := q
  · exact d.lost q w.1 hw
  · exact hw

variable [DecidableEq κ]

/-! ## Steps -/

theorem Off.step (h : d.Off r) (hstep : Step c.recorded r r') : d.Off r' := by
  cases hstep with
  | wake => exact h
  | act q => exact h.imp_left (lost_recorded q r.world)
  | trigger event =>
    exact Off.note (r := { r with bus := r.bus.trigger event }) h _
  | register event registration =>
    exact Off.note (r := r.setRegistry _) h _
  | unregister | unregisterAll => exact Off.note (r := r.setRegistry _) h _
  | take => exact Off.note (r := { r with bus := { r.bus with pending := [] } }) h _
  | dispatch | call | leave | finish => exact h.note _

theorem Off.steps (h : d.Off r) (hsteps : Steps c.recorded r r') : d.Off r' := by
  induction hsteps with
  | refl => exact h
  | tail _ hstep ih => exact ih.step hstep

/-- A step brings no event to be answered, unless it goes astray. -/
theorem quiet_step (hstep : Step c.recorded r r') (hgood : d.Good r.world.1)
    (hquiet : d.Quiet r.bus.pending) :
    d.Off r' ∨ d.Good r'.world.1 ∧ d.Quiet r'.bus.pending := by
  cases hstep with
  | act q => exact .inr ⟨good_recorded q r.world hgood, hquiet⟩
  | trigger event =>
    cases hevent : d.attends event with
    | true =>
      refine .inl (off_of_stray (r := { r with bus := r.bus.trigger event }) fun hcalm => ?_)
      cases hevent.symm.trans hcalm
    | false =>
      refine .inr ⟨hgood, fun e he => ?_⟩
      rcases List.mem_append.1 he with he | he
      · exact hquiet e he
      · exact List.mem_singleton.1 he ▸ hevent
  | take => exact .inr ⟨hgood, fun _ he => absurd he List.not_mem_nil⟩
  | _ => exact .inr ⟨hgood, hquiet⟩

theorem quiet_steps (hsteps : Steps c.recorded r r') (hgood : d.Good r.world.1)
    (hquiet : d.Quiet r.bus.pending) :
    d.Off r' ∨ d.Good r'.world.1 ∧ d.Quiet r'.bus.pending := by
  induction hsteps with
  | refl => exact .inr ⟨hgood, hquiet⟩
  | tail _ hstep ih =>
    rcases ih with hoff | ⟨hgood, hquiet⟩
    · exact .inl (hoff.step hstep)
    · exact quiet_step hstep hgood hquiet

/-- Steps in which this much more shows. -/
theorem Shown.steps (h : d.Shown said r) (hsteps : Steps c.recorded r r') (more : List τ)
    (hview : d.Good r.world.1 → d.Off r' ∨ r'.viewed d.view = r.viewed d.view ++ more) :
    d.Shown (said ++ more) r' := by
  rcases h with hoff | ⟨hgood, hquiet, rfl⟩
  · exact .inl (hoff.steps hsteps)
  · rcases quiet_steps hsteps hgood hquiet with hoff | ⟨hgood', hquiet'⟩
    · exact .inl hoff
    · exact (hview hgood).imp_right fun hview => ⟨hgood', hquiet', hview⟩

/-- Steps in which nothing shows. -/
theorem Shown.still (h : d.Shown said r) (hsteps : Steps c.recorded r r')
    (hview : r'.viewed d.view = r.viewed d.view) : d.Shown said r' := by
  have := h.steps hsteps [] fun _ => .inr (hview.trans (List.append_nil _).symm)
  rwa [List.append_nil] at this

/-! ## Handlers -/

/-- A poll that only has events of no concern, and leaves it at that. -/
def KeepsShown (d : Responder c τ)
    (poll : RecordedRun κ γ ε ω R → Nat × RecordedRun κ γ ε ω R) : Prop :=
  (∀ r, Steps c.recorded r (poll r).2) ∧ ∀ said r, d.Shown said r → d.Shown said (poll r).2

variable {poll : RecordedRun κ γ ε ω R → Nat × RecordedRun κ γ ε ω R}

/-- What other handlers ask for does not show. -/
theorem Shown.serve (h : d.Shown said r) (hpoll : d.KeepsShown poll) {k : κ}
    (hk : d.mine k = false) (q : Ask κ γ ε R.Ask) :
    d.Shown said (serve c.recorded poll (q.mark k) r).2 := by
  have hsteps := steps_serve hpoll.1 (q.mark k) r
  have hview (doing : Doing κ ε ω R) (hdoing : doing.actor = k) (r' : RecordedRun κ γ ε ω R)
      (hworld : r'.world.2 = r.world.2 ++ [doing]) : r'.viewed d.view = r.viewed d.view := by
    rw [RecordedRun.viewed, hworld, List.flatMap_append, List.flatMap_singleton,
      d.others doing (hdoing ▸ hk), List.append_nil]
    rfl
  cases q with
  | poll => exact hpoll.2 said r h
  | act i =>
    exact h.still hsteps (hview (.acted k i r.world.1 (c.perform i r.world.1).2) rfl _
      (congrArg Prod.snd (world_triggerAll _ _)))
  | trigger event => exact h.still hsteps (hview (.triggered k event) rfl _ rfl)
  | register | unregister | unregisterAll | wake => exact h.still hsteps rfl

theorem Shown.run (h : d.Shown said r) (hpoll : d.KeepsShown poll) {k : κ}
    (hk : d.mine k = false) {α : Type} (p : Program (requests κ γ ε R) α) :
    d.Shown said ((marked k p).run (Bus.serve c.recorded poll) r).2 := by
  induction p generalizing r with
  | done | failed | panicked => exact h
  | ask q next ih => exact ih _ (h.serve hpoll hk q)

/-- A call shows the answer if it is a call of one of the handlers, and else nothing. -/
theorem Shown.call (hanswers : d.Answers) (h : d.Shown said r) (hpoll : d.KeepsShown poll)
    (event : ε) (registration : Registration κ γ) :
    d.Shown (said ++ if d.mine registration.handler then d.answer event else [])
      (call c.recorded poll event r registration) := by
  have hcalled : d.Shown said (r.note (.called event registration)) :=
    h.still (.single (.call event registration)) rfl
  have hrun : d.Shown (said ++ if d.mine registration.handler then d.answer event else [])
      ((c.recorded.behave registration.handler registration.context event).run
        (Bus.serve c.recorded poll) (r.note (.called event registration))).2 := by
    cases hk : d.mine registration.handler with
    | true =>
      exact hcalled.steps (steps_run hpoll.1 _ _) _ fun hgood =>
        (hanswers _ registration.context event poll _ hk hgood).imp_left .inl
    | false =>
      rw [if_neg Bool.false_ne_true, List.append_nil]
      exact hcalled.run hpoll hk _
  exact hrun.still (.single (.leave _)) rfl

theorem Shown.calls (hanswers : d.Answers) (h : d.Shown said r) (hpoll : d.KeepsShown poll)
    (event : ε) (registrations : List (Registration κ γ)) :
    d.Shown (said ++ (registrations.filter fun r => d.mine r.handler).flatMap
        fun _ => d.answer event)
      (registrations.foldl (Bus.call c.recorded poll event) r) := by
  induction registrations generalizing said r with
  | nil => simpa using h
  | cons registration rest ih =>
    have hrest := ih (h.call hanswers hpoll event registration)
    rw [List.append_assoc] at hrest
    rw [List.foldl_cons, List.filter_cons]
    split
    · next hk => simpa [hk] using hrest
    · next hk => simpa [hk] using hrest

/-- A dispatch shows the answer to its event. -/
theorem Shown.dispatch (hanswers : d.Answers) (h : d.Shown said r) (hpoll : d.KeepsShown poll)
    (event : ε) : d.Shown (said ++ d.answer event) (dispatch c.recorded poll r event) := by
  let snapshot := r.bus.registry.registrations (c.name event)
  have hbegun : d.Shown said (r.note (.dispatched event snapshot)) :=
    h.still (.single (.dispatch event)) rfl
  have hdone := hbegun.calls hanswers hpoll event snapshot
  cases hattends : d.attends event with
  | false =>
    rw [d.unattended event hattends]
    rw [d.unattended event hattends, List.flatMap_eq_nil_iff.2 fun _ _ => rfl] at hdone
    exact hdone
  | true =>
    by_cases hone : (snapshot.filter fun r => d.mine r.handler).length = 1
    · obtain ⟨registration, honly⟩ := List.length_eq_one_iff.1 hone
      rw [honly, List.flatMap_singleton] at hdone
      exact hdone
    · have hoff : d.Off (r.note (.dispatched event snapshot)) := off_of_stray fun hcalm =>
        hone (hcalm hattends)
      exact .inl (hoff.steps (steps_calls hpoll.1 event snapshot _))

/-! ## Polls -/

theorem Shown.dispatches (hanswers : d.Answers) (h : d.Shown said r) (hpoll : d.KeepsShown poll)
    (batch : List ε) :
    d.Shown (said ++ batch.flatMap d.answer)
      (batch.foldl (Bus.dispatch c.recorded poll) r) := by
  induction batch generalizing said r with
  | nil => simpa using h
  | cons event rest ih =>
    have hrest := ih (h.dispatch hanswers hpoll event)
    rwa [List.append_assoc] at hrest

/-- A poll takes all events that wait, and shows the answers to them. -/
theorem shown_poll {depth : Nat} (hanswers : d.Answers)
    (hpoll : d.KeepsShown (Bus.poll c.recorded depth))
    (h : d.Off r ∨ d.Good r.world.1 ∧ r.viewed d.view = said) :
    d.Shown (said ++ r.bus.pending.flatMap d.answer) (Bus.poll c.recorded (depth + 1) r).2 := by
  have htaken : d.Shown said (({ r with bus := { r.bus with pending := [] } }).note
      (.took r.bus.pending)) :=
    h.imp (·.step .take) fun ⟨hgood, hview⟩ =>
      ⟨hgood, fun _ he => absurd he List.not_mem_nil, hview⟩
  have hdone := htaken.dispatches hanswers hpoll r.bus.pending
  exact hdone.still (.single (.finish _)) rfl

theorem keepsShown_poll (hanswers : d.Answers) (depth : Nat) :
    d.KeepsShown (Bus.poll c.recorded depth) := by
  refine ⟨steps_poll c.recorded depth, ?_⟩
  induction depth with
  | zero => exact fun said r h => h
  | succ depth ih =>
    intro said r h
    rcases h with hoff | ⟨hgood, hquiet, hview⟩
    · exact .inl (hoff.steps (steps_poll c.recorded (depth + 1) r))
    · have hdone := shown_poll hanswers ⟨steps_poll c.recorded depth, ih⟩ (.inr ⟨hgood, hview⟩)
      rwa [hquiet.answer, List.append_nil] at hdone

/-- **What shows of a poll is the answers to the events that waited**, in the order they waited
in; and no such event waits afterwards. -/
theorem poll_answers (hanswers : d.Answers) (depth : Nat) (bus : Bus κ γ ε) (w : ω)
    (hgood : d.Good w) :
    let r : Run κ γ ε ω := { bus, world := w }
    let final := (Bus.poll c depth r).2
    (∀ n ∈ final.notes.toList, n.Calm d.attends d.mine) → ¬ d.Lost final.world →
      (c.doings depth r).flatMap d.view ++ final.bus.pending.flatMap d.answer =
        bus.pending.flatMap d.answer := by
  intro r final hnotes hkept
  cases depth with
  | zero => rfl
  | succ depth =>
    have hshown := shown_poll (r := r.blank) hanswers (keepsShown_poll hanswers depth)
      (.inr ⟨hgood, rfl⟩)
    have hsame : (Bus.poll c.recorded (depth + 1) r.blank).2.forget = final :=
      forget_recorded c (depth + 1) r
    rcases hshown with (hlost | ⟨n, hn, hstray⟩) | ⟨-, hquiet, hview⟩
    · exact absurd ((congrArg Run.world hsame).symm ▸ hlost) hkept
    · exact absurd (hnotes n ((congrArg Run.notes hsame) ▸ hn)) hstray
    · have hnone : final.bus.pending.flatMap d.answer = [] := hsame ▸ hquiet.answer
      rw [hnone, List.append_nil]
      exact hview

end Responder

end IrcBot.Bus
