/-
A poll with a record of who does what. Any conduct can be changed so that every act on
the world, and every event that a handler triggers itself, is entered under the handler
that does it. This changes nothing in what a poll does, and whatever any observer sees
of the acts can be read off the record (`poll_recorded`).
-/
import IrcBot.Proofs.Bus.Observed

namespace IrcBot.Bus

variable {κ γ ε ω τ : Type} {R : Requests}

/-- Something that a handler does in a poll. -/
inductive Doing (κ ε ω : Type) (R : Requests) where
  /-- An act on the world: how the world was, and what came of it. -/
  | acted (actor : κ) (i : R.Ask) (before : ω) (after : ω × List ε)
  | triggered (actor : κ) (event : ε)

def Doing.actor : Doing κ ε ω R → κ
  | .acted actor .. | .triggered actor _ => actor

/-- What an observer sees of it. -/
def Doing.seen (see : R.Ask → ω → ω × List ε → List τ) : Doing κ ε ω R → List τ
  | .acted _ i before after => see i before after
  | .triggered .. => []

/-- These requests and triggering an event, each with the handler that makes it. -/
def marking (R : Requests) (κ ε : Type) : Requests where
  Ask := κ × (R.Ask ⊕ ε)
  Answer
    | (_, .inl i) => R.Answer i
    | (_, .inr _) => Unit

def Ask.mark (k : κ) : Ask κ γ ε R.Ask → Ask κ γ ε (marking R κ ε).Ask
  | .register event registration => .register event registration
  | .unregister event handler => .unregister event handler
  | .unregisterAll owner => .unregisterAll owner
  | .trigger event => .act (k, .inr event)
  | .wake => .wake
  | .poll => .poll
  | .act i => .act (k, .inl i)

/-- A request is answered alike whether or not it is marked. -/
def Ask.unmark (k : κ) : (q : Ask κ γ ε R.Ask) →
    (requests κ γ ε (marking R κ ε)).Answer (q.mark k) → (requests κ γ ε R).Answer q
  | .register .., a | .unregister .., a | .unregisterAll _, a | .trigger _, a | .wake, a
  | .poll, a | .act _, a => a

/-- The same program, with all it does marked as done by this handler. -/
def marked (k : κ) {α : Type} : Program (requests κ γ ε R) α →
    Program (requests κ γ ε (marking R κ ε)) α
  | .done a => .done a
  | .failed => .failed
  | .panicked => .panicked
  | .ask (q : Ask κ γ ε R.Ask) next => .ask (q.mark k) fun a => marked k (next (q.unmark k a))

/-- The same conduct, but all that handlers do is recorded. -/
def Conduct.recorded (c : Conduct κ γ ε ω R) :
    Conduct κ γ ε (ω × List (Doing κ ε ω R)) (marking R κ ε) where
  name := c.name
  behave k context event := marked k (c.behave k context event)
  perform
    | (k, .inl i), w =>
      let (a, world, events) := c.perform i w.1
      (a, (world, w.2 ++ [.acted k i w.1 (world, events)]), events)
    | (k, .inr event), w => ((), (w.1, w.2 ++ [.triggered k event]), [event])

abbrev RecordedRun (κ γ ε ω : Type) (R : Requests) := Run κ γ ε (ω × List (Doing κ ε ω R))

theorem world_triggerAll (r : Run κ γ ε ω) (events : List ε) :
    (events.foldl Run.trigger r).world = r.world := by
  induction events generalizing r with
  | nil => rfl
  | cons event events ih => exact ih (r.trigger event)

/-- The run before anything is recorded. -/
def Run.blank (r : Run κ γ ε ω) : RecordedRun κ γ ε ω R :=
  { bus := r.bus, world := (r.world, []), notes := r.notes }

/-! ## Recording changes nothing -/

section Recorded

variable {see : R.Ask → ω → ω × List ε → List τ}

/-- The run with what an observer sees instead of the record. -/
def Run.shown (see : R.Ask → ω → ω × List ε → List τ) (r : RecordedRun κ γ ε ω R) :
    Run κ γ ε (ω × List τ) where
  bus := r.bus
  world := (r.world.1, r.world.2.flatMap (Doing.seen see))
  notes := r.notes

theorem shown_triggerAll (r : RecordedRun κ γ ε ω R) (events : List ε) :
    (events.foldl Run.trigger r).shown see = events.foldl Run.trigger (r.shown see) :=
  (List.foldl_hom (Run.shown see) fun _ _ => rfl).symm

variable [DecidableEq κ] {c : Conduct κ γ ε ω R}
variable {poll' : RecordedRun κ γ ε ω R → Nat × RecordedRun κ γ ε ω R}
variable {poll : Run κ γ ε (ω × List τ) → Nat × Run κ γ ε (ω × List τ)}

/-- Two ways to poll that agree, one with a record and one with an observer. -/
def PollsShown (see : R.Ask → ω → ω × List ε → List τ)
    (poll' : RecordedRun κ γ ε ω R → Nat × RecordedRun κ γ ε ω R)
    (poll : Run κ γ ε (ω × List τ) → Nat × Run κ γ ε (ω × List τ)) : Prop :=
  ∀ r, (poll' r).1 = (poll (r.shown see)).1 ∧ (poll' r).2.shown see = (poll (r.shown see)).2

theorem serve_recorded (h : PollsShown see poll' poll) (k : κ) (q : Ask κ γ ε R.Ask)
    (r : RecordedRun κ γ ε ω R) :
    q.unmark k (serve c.recorded poll' (q.mark k) r).1 =
        (serve (c.observed see) poll q (r.shown see)).1 ∧
      (serve c.recorded poll' (q.mark k) r).2.shown see =
        (serve (c.observed see) poll q (r.shown see)).2 := by
  cases q with
  | poll => exact h r
  | act i =>
    refine ⟨rfl, (shown_triggerAll _ _).trans ?_⟩
    simp only [Run.shown, List.flatMap_append, List.flatMap_singleton, Doing.seen]
    rfl
  | trigger event =>
    refine ⟨rfl, ?_⟩
    simp only [Ask.mark, serve, Conduct.recorded, List.foldl_cons, List.foldl_nil, Run.shown,
      Run.trigger, Run.note, List.flatMap_append, List.flatMap_singleton, Doing.seen,
      List.append_nil]
  | register | unregister | unregisterAll | wake => exact ⟨rfl, rfl⟩

theorem run_marked (h : PollsShown see poll' poll) (k : κ) {α : Type}
    (p : Program (requests κ γ ε R) α) (r : RecordedRun κ γ ε ω R) :
    ((marked k p).run (serve c.recorded poll') r).1 =
        (p.run (serve (c.observed see) poll) (r.shown see)).1 ∧
      ((marked k p).run (serve c.recorded poll') r).2.shown see =
        (p.run (serve (c.observed see) poll) (r.shown see)).2 := by
  induction p generalizing r with
  | done | failed | panicked => exact ⟨rfl, rfl⟩
  | ask q next ih =>
    obtain ⟨hanswer, hnext⟩ := serve_recorded (c := c) h k q r
    have hrest := ih (q.unmark k (serve c.recorded poll' (q.mark k) r).1)
      (serve c.recorded poll' (q.mark k) r).2
    simp only [Program.run]
    rw [← hanswer, ← hnext]
    exact hrest

theorem call_recorded (h : PollsShown see poll' poll) (event : ε) (r : RecordedRun κ γ ε ω R)
    (registration : Registration κ γ) :
    (call c.recorded poll' event r registration).shown see =
      call (c.observed see) poll event (r.shown see) registration := by
  obtain ⟨houtcome, hrun⟩ := run_marked (c := c) h registration.handler
    (c.behave registration.handler registration.context event)
    (r.note (.called event registration))
  simp only [call]
  show Run.note (Run.shown see _) _ = _
  rw [show c.recorded.behave registration.handler registration.context event = marked _ _ from rfl,
    houtcome, hrun]
  rfl

theorem dispatch_recorded (h : PollsShown see poll' poll) (r : RecordedRun κ γ ε ω R)
    (event : ε) :
    (dispatch c.recorded poll' r event).shown see =
      dispatch (c.observed see) poll (r.shown see) event :=
  (List.foldl_hom (Run.shown see) fun r registration =>
    (call_recorded h event r registration).symm).symm

/-- **A poll with a record does what the poll does**, and an observer of the poll sees what the
record shows. -/
theorem poll_recorded (c : Conduct κ γ ε ω R) (see : R.Ask → ω → ω × List ε → List τ)
    (depth : Nat) :
    PollsShown see (Bus.poll c.recorded depth) (Bus.poll (c.observed see) depth) := by
  induction depth with
  | zero => exact fun r => ⟨rfl, rfl⟩
  | succ depth ih =>
    intro r
    refine ⟨rfl, ?_⟩
    have hdispatches (batch : List ε) (r : RecordedRun κ γ ε ω R) :
        (batch.foldl (dispatch c.recorded (Bus.poll c.recorded depth)) r).shown see =
          batch.foldl (dispatch (c.observed see) (Bus.poll (c.observed see) depth))
            (r.shown see) :=
      (List.foldl_hom (Run.shown see) fun r event => (dispatch_recorded ih r event).symm).symm
    simp only [Bus.poll]
    show Run.note (Run.shown see _) _ = _
    rw [hdispatches]
    rfl

end Recorded

/-! ## The record of a poll -/

section Doings

variable [DecidableEq κ]

/-- What handlers do in a poll, in order. -/
def Conduct.doings (c : Conduct κ γ ε ω R) (depth : Nat) (r : Run κ γ ε ω) :
    List (Doing κ ε ω R) :=
  (Bus.poll c.recorded depth r.blank).2.world.2

/-- What an observer of a poll has in the log is what the record of the poll shows. -/
theorem observed_log (c : Conduct κ γ ε ω R) (see : R.Ask → ω → ω × List ε → List τ)
    (depth : Nat) (r : Run κ γ ε ω) :
    (Bus.poll (c.observed see) depth { bus := r.bus, world := (r.world, []), notes := r.notes
        }).2.world.2 =
      (c.doings depth r).flatMap (Doing.seen see) := by
  have hshown := (poll_recorded c see depth r.blank).2
  exact (congrArg (fun r => r.world.2) hshown).symm

/-- A poll with a record leaves the run as the poll itself does. -/
theorem forget_recorded (c : Conduct κ γ ε ω R) (depth : Nat) (r : Run κ γ ε ω) :
    (Bus.poll c.recorded depth r.blank).2.forget = (Bus.poll c depth r).2 := by
  let see : R.Ask → ω → ω × List ε → List Unit := fun _ _ _ => []
  have hshown := (poll_recorded c see depth r.blank).2
  have hobserved := (poll_observed c see depth (r.blank.shown see)).2
  exact (congrArg Run.forget hshown).trans hobserved

end Doings

end IrcBot.Bus
