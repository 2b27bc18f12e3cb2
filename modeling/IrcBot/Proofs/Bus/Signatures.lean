/-
Handlers that sign. Any conduct can be changed so that every handler, before it does
anything else, writes down that it was called, with which context and which event. This
changes nothing in what a poll does, and what the handlers have written is what the poll
notes as its calls (`poll_signed`): a call that is noted is a call that is made.
-/
import IrcBot.Proofs.Bus.Observed

namespace IrcBot.Bus

variable {κ γ ε ω τ : Type} {R : Requests}

/-- These requests, and another that has something written down. -/
def signing (R : Requests) (τ : Type) : Requests where
  Ask := R.Ask ⊕ τ
  Answer
    | .inl i => R.Answer i
    | .inr _ => Unit

def Ask.unsigned (τ : Type) : Ask κ γ ε R.Ask → Ask κ γ ε (signing R τ).Ask
  | .register event registration => .register event registration
  | .unregister event handler => .unregister event handler
  | .unregisterAll owner => .unregisterAll owner
  | .trigger event => .trigger event
  | .wake => .wake
  | .poll => .poll
  | .act i => .act (.inl i)

/-- A request is answered alike whether or not there are others beside it. -/
def Ask.answer : (q : Ask κ γ ε R.Ask) →
    (requests κ γ ε (signing R τ)).Answer (q.unsigned τ) → (requests κ γ ε R).Answer q
  | .register .., a | .unregister .., a | .unregisterAll _, a | .trigger _, a | .wake, a
  | .poll, a | .act _, a => a

/-- The same program among more requests. -/
def unsigned (τ : Type) {α : Type} : Program (requests κ γ ε R) α →
    Program (requests κ γ ε (signing R τ)) α
  | .done a => .done a
  | .failed => .failed
  | .panicked => .panicked
  | .ask (q : Ask κ γ ε R.Ask) next => .ask (q.unsigned τ) fun a => unsigned τ (next (q.answer a))

/-- That a handler was called, with which context and which event. -/
abbrev Signature (κ γ ε : Type) := κ × Option γ × ε

def Note.signature? : Note κ γ ε → Option (Signature κ γ ε)
  | .called event registration => some (registration.handler, registration.context, event)
  | _ => none

/-- The same conduct, but every handler signs before it does anything else. -/
def Conduct.signed (c : Conduct κ γ ε ω R) :
    Conduct κ γ ε (ω × List (Signature κ γ ε)) (signing R (Signature κ γ ε)) where
  name := c.name
  behave handler context event :=
    .ask (.act (.inr (handler, context, event))) fun _ =>
      unsigned _ (c.behave handler context event)
  perform
    | .inl i, w =>
      let (a, world, events) := c.perform i w.1
      (a, (world, w.2), events)
    | .inr signature, w => ((), (w.1, w.2 ++ [signature]), [])

/-- A run with handlers that sign. -/
abbrev SignedRun (κ γ ε ω : Type) := Run κ γ ε (ω × List (Signature κ γ ε))

/-- The first run is the second one with signatures, which are there for all calls noted. -/
structure Countersigns (r' : SignedRun κ γ ε ω) (r : Run κ γ ε ω) : Prop where
  forget : r'.forget = r
  signatures : r'.world.2 = r'.notes.toList.filterMap Note.signature?

variable {r' : SignedRun κ γ ε ω} {r : Run κ γ ε ω}

theorem Countersigns.note {n : Note κ γ ε} (h : Countersigns r' r) (hn : n.signature? = none) :
    Countersigns (r'.note n) (r.note n) where
  forget := by rw [Run.forget_note, h.forget]
  signatures := by
    rw [Run.toList_notes_note, List.filterMap_append, ← h.signatures]
    simp [hn, Run.note]

theorem Countersigns.trigger (h : Countersigns r' r) (event : ε) :
    Countersigns (r'.trigger event) (r.trigger event) :=
  Countersigns.note (n := .triggered event) ⟨congrArg (fun r : Run κ γ ε ω =>
    { r with bus := r.bus.trigger event }) h.forget, h.signatures⟩ rfl

theorem Countersigns.triggerAll (h : Countersigns r' r) (events : List ε) :
    Countersigns (events.foldl Run.trigger r') (events.foldl Run.trigger r) := by
  induction events generalizing r' r with
  | nil => exact h
  | cons event events ih => exact ih (h.trigger event)

variable [DecidableEq κ] {c : Conduct κ γ ε ω R}
variable {poll' : SignedRun κ γ ε ω → Nat × SignedRun κ γ ε ω}
variable {poll : Run κ γ ε ω → Nat × Run κ γ ε ω}

/-- Two ways to poll that agree but for the signatures. -/
def PollsAlike (poll' : SignedRun κ γ ε ω → Nat × SignedRun κ γ ε ω)
    (poll : Run κ γ ε ω → Nat × Run κ γ ε ω) : Prop :=
  ∀ r' r, Countersigns r' r → (poll' r').1 = (poll r).1 ∧ Countersigns (poll' r').2 (poll r).2

theorem serve_signed (hpoll : PollsAlike poll' poll) (q : Ask κ γ ε R.Ask)
    (h : Countersigns r' r) :
    q.answer (serve c.signed poll' (q.unsigned _) r').1 = (serve c poll q r).1 ∧
      Countersigns (serve c.signed poll' (q.unsigned _) r').2 (serve c poll q r).2 := by
  obtain ⟨rfl, hsigned⟩ := h
  cases q with
  | poll => exact hpoll r' _ ⟨rfl, hsigned⟩
  | act i =>
    have hacted : Countersigns { r' with world := ((c.perform i r'.world.1).2.1, r'.world.2) }
        { r'.forget with world := (c.perform i r'.world.1).2.1 } := ⟨rfl, hsigned⟩
    exact ⟨rfl, hacted.triggerAll _⟩
  | wake => exact ⟨rfl, rfl, hsigned⟩
  | register | unregister | unregisterAll => exact ⟨rfl, Countersigns.note ⟨rfl, hsigned⟩ rfl⟩
  | trigger event => exact ⟨rfl, Countersigns.trigger ⟨rfl, hsigned⟩ event⟩

theorem run_unsigned (hpoll : PollsAlike poll' poll) {α : Type}
    (p : Program (requests κ γ ε R) α) (h : Countersigns r' r) :
    ((unsigned _ p).run (serve c.signed poll') r').1 = (p.run (serve c poll) r).1 ∧
      Countersigns ((unsigned _ p).run (serve c.signed poll') r').2 (p.run (serve c poll) r).2 := by
  induction p generalizing r' r with
  | done | failed | panicked => exact ⟨rfl, h⟩
  | ask q next ih =>
    obtain ⟨hanswer, hnext⟩ := serve_signed (c := c) hpoll q h
    have hrest := ih (q.answer (serve c.signed poll' (q.unsigned _) r').1) hnext
    simp only [Program.run]
    rw [← hanswer]
    exact hrest

theorem call_signed (hpoll : PollsAlike poll' poll) (event : ε) (registration : Registration κ γ)
    (h : Countersigns r' r) :
    Countersigns (call c.signed poll' event r' registration) (call c poll event r registration) := by
  let signature : Signature κ γ ε := (registration.handler, registration.context, event)
  -- the handler signs for its call first of all
  have hsigned : Countersigns
      { r'.note (.called event registration) with
        world := (r'.world.1, r'.world.2 ++ [signature]) }
      (r.note (.called event registration)) := by
    obtain ⟨rfl, hsigned⟩ := h
    refine ⟨rfl, ?_⟩
    show r'.world.2 ++ [signature] = (r'.note (.called event registration)).notes.toList.filterMap _
    rw [Run.toList_notes_note, List.filterMap_append, ← hsigned]
    rfl
  obtain ⟨houtcome, hrun⟩ := run_unsigned (c := c) hpoll
    (c.behave registration.handler registration.context event) hsigned
  simp only [call]
  rw [← houtcome]
  exact hrun.note rfl

theorem dispatch_signed (hpoll : PollsAlike poll' poll) (event : ε) (h : Countersigns r' r) :
    Countersigns (dispatch c.signed poll' r' event) (dispatch c poll r event) := by
  have hcalls (registrations : List (Registration κ γ)) {r' : SignedRun κ γ ε ω}
      {r : Run κ γ ε ω} (h : Countersigns r' r) :
      Countersigns (registrations.foldl (call c.signed poll' event) r')
        (registrations.foldl (call c poll event) r) := by
    induction registrations generalizing r' r with
    | nil => exact h
    | cons registration rest ih => exact ih (call_signed hpoll event registration h)
  obtain ⟨rfl, hsigned⟩ := h
  exact hcalls _ (Countersigns.note ⟨rfl, hsigned⟩ rfl)

/-- **Signing changes nothing, and every call noted is signed for.** -/
theorem poll_signed (c : Conduct κ γ ε ω R) (depth : Nat) :
    PollsAlike (Bus.poll c.signed depth) (Bus.poll c depth) := by
  induction depth with
  | zero => exact fun r' r h => ⟨rfl, h⟩
  | succ depth ih =>
    have hdispatches (batch : List ε) {r' : SignedRun κ γ ε ω} {r : Run κ γ ε ω}
        (h : Countersigns r' r) :
        Countersigns (batch.foldl (dispatch c.signed (Bus.poll c.signed depth)) r')
          (batch.foldl (dispatch c (Bus.poll c depth)) r) := by
      induction batch generalizing r' r with
      | nil => exact h
      | cons event rest ihb => exact ihb (dispatch_signed ih event h)
    rintro r' r ⟨rfl, hsigned⟩
    have htaken : Countersigns
        (({ r' with bus := { r'.bus with pending := [] } }).note (.took r'.bus.pending))
        (({ r'.forget with bus := { r'.bus with pending := [] } }).note
          (.took r'.bus.pending)) := Countersigns.note ⟨rfl, hsigned⟩ rfl
    exact ⟨rfl, (hdispatches r'.bus.pending htaken).note rfl⟩

end IrcBot.Bus
