/-
Services on the bus of a bot. Some handlers attend to events that tell what servers have
said, and answer each of them in a way that shows. While they are left to it, what shows
of a whole run is the answers to all such events, in the order the events were triggered
in, short of the answers to those that still wait (`Service.run_answers`): whatever is done
to connections, whatever other handlers do, and whenever and however deep the bus is polled.
They are left to it while all others respect them and just one of them is registered for
each such event (`undisturbedIn_of_respected`).
-/
import IrcBot.Proofs.Bot.Queued
import IrcBot.Proofs.Bus.Respect
import IrcBot.Proofs.Session.Reactions

namespace IrcBot.Bot

variable {μ κ γ ν τ : Type} {registered : Nat} {n n' : Net} {es : List Entry}

/-- What handlers attend to, what they do about it, and what shows of that. -/
structure Service (κ γ ν τ : Type) where
  attends : Event → Bool
  mine : κ → Bool
  behave : Event → Bus.Handler κ γ Event (calls ν)
  /-- What shows of something that a handler does. -/
  view : Bus.Doing κ Event (World ν) (calls ν) → List τ
  answer : Event → List τ
  /-- Answers show while this holds, or else they are lost for good. -/
  Good : Net → Prop
  Lost : Net → Prop
  others : ∀ d, mine d.actor = false → view d = []
  unattended : ∀ event, attends event = false → answer event = []
  /-- Only lines from servers bring such events about. -/
  protocol : ∀ event, attends event = true →
    ∃ i what, event = .occurred i what ∧ what.isProtocol = true
  good : ∀ {registered : Nat} {n n' : Net} {es : List Entry},
    n.Sound → n.Moves registered es n' → Good n → Good n'
  lost : ∀ {registered : Nat} {n n' : Net} {es : List Entry},
    n.Sound → n.Moves registered es n' → Lost n → Lost n'

/-! ## Events that no line brings about -/

/-- While no line is heard, nothing of the protocol is told. -/
theorem isProtocol_move (hm : n.Move registered es n')
    (hunheard : ∀ i line, .triggered (.occurred i (.rawLineReceived line)) ∉ es) :
    ∀ i what, .triggered (.occurred i what) ∈ es → what.isProtocol = false := by
  cases hm with
  | touch | rename | attach | drop => simp
  | speak | lose =>
    intro i what hmem
    cases List.mem_singleton.1 hmem
    rfl
  | @hear j c h line hc hsocket =>
    obtain ⟨whats, hwhats, -⟩ := c.session.occurrences_handleLine registered line
    rw [hwhats] at hunheard
    exact absurd List.mem_cons_self (hunheard j line)

theorem isProtocol_moves (hm : n.Moves registered es n')
    (hunheard : ∀ i line, .triggered (.occurred i (.rawLineReceived line)) ∉ es) :
    ∀ i what, .triggered (.occurred i what) ∈ es → what.isProtocol = false := by
  induction hm with
  | refl => simp
  | head first _ ih =>
    simp only [List.mem_append, not_or] at hunheard
    intro i what hmem
    rcases List.mem_append.1 hmem with hmem | hmem
    · exact isProtocol_move first (fun j line => (hunheard j line).1) i what hmem
    · exact ih (fun j line => (hunheard j line).2) i what hmem

/-- While no line is heard, no event is triggered that only lines bring about. -/
theorem unheard_events {p : Event → Bool}
    (hp : ∀ event, p event = true → ∃ i what, event = .occurred i what ∧ what.isProtocol = true)
    (hm : n.Moves registered es n')
    (hunheard : ∀ i line, .triggered (.occurred i (.rawLineReceived line)) ∉ es) :
    ∀ event ∈ es.filterMap Entry.event?, p event = false := by
  intro event hevent
  refine Bool.eq_false_iff.2 fun hevent' => ?_
  obtain ⟨i, what, rfl, hwhat⟩ := hp event hevent'
  obtain ⟨e, he, hsome⟩ := List.mem_filterMap.1 hevent
  cases e with
  | attached => cases hsome
  | triggered event =>
    cases hsome
    rw [isProtocol_moves hm hunheard i what he] at hwhat
    cases hwhat

/-! ## Steps that respect handlers -/

/-- The notes of a poll of the bus. -/
def polled [DecidableEq κ] (b : Bot μ κ γ)
    (handle : κ → Option γ → Event → Bus.Handler κ γ Event (calls ν)) (depth : Nat) :
    List (Bus.Note κ γ Event) :=
  (Bus.poll (handling handle) depth { bus := b.bus, world := { net := b.net } }).2.notes.toList

/-- All that is done with the bus in a step respects some handlers, registered under one owner. -/
def Step.Respects [DecidableEq κ] (attends : Event → Bool) (mine : κ → Bool) (owner : Text)
    (b : Bot μ κ γ) : Step κ γ ν → Prop
  | .pollBus handle depth => ∀ n ∈ b.polled handle depth, n.Respects attends mine owner
  | .useBus f => (f b.bus).pending.filter attends = b.bus.pending.filter attends ∧
    ∃ ops : List (Bus.Operation κ γ),
      (f b.bus).registry = ops.foldl Bus.Registry.apply b.bus.registry ∧
        ∀ op ∈ ops, op.Respects mine owner
  | .order .. | .close .. | .disturb .. | .pollSockets .. => True

/-- Triggering registers nothing. -/
theorem registry_triggerAll (b : Bus κ γ Event) (events : List Event) :
    (b.triggerAll events).registry = b.registry := by
  induction events generalizing b with
  | nil => rfl
  | cons event events ih => exact ih (b.trigger event)

/-- Such a step leaves registered what there was of the handlers. -/
theorem has_step [DecidableEq κ] {b : Bot μ κ γ} {attends : Event → Bool} {mine : κ → Bool}
    {owner : Text} {own : Bus.Subscriptions κ γ} (h : b.bus.registry.Has mine own)
    (howned : ∀ e ∈ own.entries, e.2.owner = owner) {step : Step κ γ ν}
    (hstep : step.Respects attends mine owner b) :
    (b.step step).bus.registry.Has mine own := by
  cases step with
  | order | close | pollSockets => exact (registry_triggerAll b.bus _).symm ▸ h
  | disturb => exact h
  | useBus f =>
    obtain ⟨-, ops, hops, hrespects⟩ := hstep
    show (f b.bus).registry.Has mine own
    rw [hops]
    exact h.applyAll howned hrespects
  | pollBus handle depth =>
    exact Bus.has_poll (handling handle) depth { net := b.net } h howned hstep

namespace Service

variable (s : Service κ γ ν τ)

/-! ## Answers -/

/-- The answers to these events. -/
def answers (events : List Event) : List τ := events.flatMap s.answer

@[simp] theorem answers_append (events more : List Event) :
    s.answers (events ++ more) = s.answers events ++ s.answers more := List.flatMap_append

theorem answers_filter (events : List Event) :
    s.answers (events.filter s.attends) = s.answers events := by
  induction events with
  | nil => rfl
  | cons event events ih =>
    cases hevent : s.attends event with
    | true =>
      simp only [List.filter_cons_of_pos hevent, answers, List.flatMap_cons] at ih ⊢
      rw [ih]
    | false =>
      rw [List.filter_cons_of_neg (Bool.eq_false_iff.1 hevent), ih, answers, answers,
        List.flatMap_cons, s.unattended event hevent]
      rfl

theorem answers_congr {events events' : List Event}
    (h : events.filter s.attends = events'.filter s.attends) :
    s.answers events = s.answers events' := by
  rw [← answers_filter, h, answers_filter]

/-! ## Polls of the bus -/

/-- The handlers do what they are there for. -/
def Provided (handle : κ → Option γ → Event → Bus.Handler κ γ Event (calls ν)) : Prop :=
  ∀ k context event, s.mine k = true → handle k context event = s.behave event

theorem moves_call {w : World ν} (hw : w.net.Sound) (q : Call ν) :
    w.net.Moves 0 (callEntries q w (perform q w).2) (perform q w).2.1.net :=
  moves_perform hw q w [] (.refl _)

/-- The service, to one poll of the bus. -/
def responder (handle : κ → Option γ → Event → Bus.Handler κ γ Event (calls ν)) :
    Bus.Responder (handling handle) τ where
  attends := s.attends
  mine := s.mine
  view := s.view
  answer := s.answer
  Good w := w.net.Sound ∧ s.Good w.net
  Lost w := w.net.Sound ∧ s.Lost w.net
  good q _ hw := ⟨(moves_call hw.1 q).sound hw.1, s.good hw.1 (moves_call hw.1 q) hw.2⟩
  lost q _ hw := ⟨(moves_call hw.1 q).sound hw.1, s.lost hw.1 (moves_call hw.1 q) hw.2⟩
  others := s.others
  unattended := s.unattended

variable [DecidableEq κ]

/-- What one of the handlers does about an event shows the answer, unless that is lost. -/
def Answers : Prop :=
  ∀ (handle : κ → Option γ → Event → Bus.Handler κ γ Event (calls ν)) (k : κ) (event : Event) (poll)
    (r : Bus.RecordedRun κ γ Event (World ν) (calls ν)),
    s.mine k = true → r.world.1.net.Sound → s.Good r.world.1.net →
      let r' := ((Bus.marked k (s.behave event)).run (Bus.serve (handling handle).recorded poll) r).2
      (r'.world.1.net.Sound ∧ s.Lost r'.world.1.net) ∨
        r'.viewed s.view = r.viewed s.view ++ s.answer event

variable {s} in
theorem Answers.responder {handle : κ → Option γ → Event → Bus.Handler κ γ Event (calls ν)}
    (h : s.Answers) (hprovided : s.Provided handle) : (s.responder handle).Answers := by
  intro k context event poll r hk hgood
  have hbehave : (handling handle).recorded.behave k context event = Bus.marked k (s.behave event) :=
    congrArg _ (hprovided k context event hk)
  rw [hbehave]
  exact h handle k event poll r hk hgood.1 hgood.2

/-! ## Steps -/

/-- The service is not interfered with in a step. No poll has anybody else trigger an event
attended to, and for each that is dispatched just one of the handlers is called; and no other
use of the bus adds or takes away such events. -/
def Undisturbed (b : Bot μ κ γ) : Step κ γ ν → Prop
  | .pollBus handle depth =>
    s.Provided handle ∧ ∀ n ∈ b.polled handle depth, n.Calm s.attends s.mine
  | .useBus f => (f b.bus).pending.filter s.attends = b.bus.pending.filter s.attends
  | .order .. | .close .. | .disturb .. | .pollSockets .. => True

/-- Nor in any of several steps. -/
def UndisturbedIn (b : Bot μ κ γ) : List (Step κ γ ν) → Prop
  | [] => True
  | step :: steps => s.Undisturbed b step ∧ UndisturbedIn (b.step step) steps

/-- The service is left to its handlers in a step: they do what they are there for, and all that
is done with the bus respects them. -/
def Respected (owner : Text) (b : Bot μ κ γ) (step : Step κ γ ν) : Prop :=
  (∀ handle depth, step = .pollBus handle depth → s.Provided handle) ∧
    step.Respects s.attends s.mine owner b

/-- So it is in each of several steps. -/
def RespectedIn (owner : Text) (b : Bot μ κ γ) : List (Step κ γ ν) → Prop
  | [] => True
  | step :: steps => s.Respected owner b step ∧ RespectedIn owner (b.step step) steps

/-- What shows of a step. -/
def shownBy (b : Bot μ κ γ) : Step κ γ ν → List τ
  | .pollBus handle depth => (b.doings handle depth).flatMap s.view
  | .order .. | .close .. | .disturb .. | .pollSockets .. | .useBus _ => []

/-- What shows in the course of these steps. -/
def shown (b : Bot μ κ γ) : List (Step κ γ ν) → List τ
  | [] => []
  | step :: steps => s.shownBy b step ++ shown (b.step step) steps

variable {s} {b : Bot μ κ γ}

/-- **A service that is respected is not interfered with**, if just one of its handlers is
registered for each event it attends to. -/
theorem undisturbedIn_of_respected {owner : Text} {own : Bus.Subscriptions κ γ}
    (h : b.bus.registry.Has s.mine own) (hown : own.Serves Event.name s.attends owner)
    {steps : List (Step κ γ ν)} (hsteps : s.RespectedIn owner b steps) :
    s.UndisturbedIn b steps := by
  induction steps generalizing b with
  | nil => trivial
  | cons step steps ih =>
    obtain ⟨⟨hprovided, hstep⟩, hrest⟩ := hsteps
    refine ⟨?_, ih (has_step h hown.owned hstep) hrest⟩
    cases step with
    | pollBus handle depth =>
      exact ⟨hprovided handle depth rfl,
        Bus.calm_poll (handling handle) depth { net := b.net } h hown hstep⟩
    | useBus f => exact hstep.1
    | order | close | disturb | pollSockets => trivial

/-- What handlers bring about on connections is not attended to. -/
theorem answers_pollBus (hn : b.net.Sound)
    (handle : κ → Option γ → Event → Bus.Handler κ γ Event (calls ν)) (depth : Nat) :
    s.answers ((b.entries (.pollBus handle depth)).filterMap Entry.event?) = [] :=
  List.flatMap_eq_nil_iff.2 fun event hevent => s.unattended event
    (unheard_events s.protocol (moves_pollBus hn handle depth)
      (still_pollBus hn handle depth).unheard event hevent)

/-- What shows of a step, with the answers to what waits after it, is the answers to what waited
before it and to what is triggered in it. -/
theorem step_answers (hanswers : s.Answers) (hn : b.net.Sound) (hgood : s.Good b.net)
    {step : Step κ γ ν} (hleft : s.Undisturbed b step) (hkept : ¬ s.Lost (b.step step).net) :
    s.shownBy b step ++ s.answers (b.step step).bus.pending =
      s.answers b.bus.pending ++ s.answers ((b.entries step).filterMap Entry.event?) := by
  cases step with
  | order i o => rw [pending_step (.inl ⟨i, o, rfl⟩), answers_append]; rfl
  | close i => rw [pending_step (.inr (.inl ⟨i, rfl⟩)), answers_append]; rfl
  | pollSockets report => rw [pending_step (.inr (.inr ⟨report, rfl⟩)), answers_append]; rfl
  | disturb => exact (List.append_nil _).symm
  | useBus f =>
    show s.answers (f b.bus).pending = _
    rw [s.answers_congr hleft]
    exact (List.append_nil _).symm
  | pollBus handle depth =>
    obtain ⟨hprovided, hcalm⟩ := hleft
    rw [answers_pollBus hn, List.append_nil]
    exact (s.responder handle).poll_answers (hanswers.responder hprovided) depth b.bus
      { net := b.net } ⟨hn, hgood⟩ hcalm fun hlost => hkept hlost.2

/-- What is lost stays lost. -/
theorem lost_run (hn : b.net.Sound) (steps : List (Step κ γ ν)) (hlost : s.Lost b.net) :
    s.Lost (b.run steps).net :=
  s.lost hn (moves_run hn steps) hlost

/-- **What shows of a run is the answers to the events attended to**, in the order they were
triggered in, short of the answers to those that still wait. -/
theorem run_answers (hanswers : s.Answers) (hn : b.net.Sound) (hgood : s.Good b.net)
    {steps : List (Step κ γ ν)} (hleft : s.UndisturbedIn b steps)
    (hkept : ¬ s.Lost (b.run steps).net) :
    s.shown b steps ++ s.answers (b.run steps).bus.pending =
      s.answers b.bus.pending ++ s.answers ((b.history steps).filterMap Entry.event?) := by
  induction steps generalizing b with
  | nil => exact (List.append_nil _).symm
  | cons step steps ih =>
    have hmoves := moves_step hn step
    have hn' : (b.step step).net.Sound := hmoves.sound hn
    have hfirst := step_answers hanswers hn hgood hleft.1 fun hlost =>
      hkept (lost_run hn' steps hlost)
    have hrest := ih hn' (s.good hn hmoves hgood) hleft.2 hkept
    calc s.shown b (step :: steps) ++ s.answers (b.run (step :: steps)).bus.pending
        = s.shownBy b step ++
            (s.shown (b.step step) steps ++ s.answers ((b.step step).run steps).bus.pending) :=
          List.append_assoc ..
      _ = (s.shownBy b step ++ s.answers (b.step step).bus.pending) ++
            s.answers (((b.step step).history steps).filterMap Entry.event?) := by
          rw [hrest, List.append_assoc]
      _ = s.answers b.bus.pending ++
            s.answers ((b.history (step :: steps)).filterMap Entry.event?) := by
          rw [hfirst, history, List.filterMap_append, answers_append, List.append_assoc]

end Service

end IrcBot.Bot
