/-
Polling the bus with an observer. A conduct can be observed: beside its world it
then keeps a log of what is seen of each act. Observing changes nothing in what a
poll does (`poll_observed`), so the log tells what happens during the poll that is
not observed. What every act keeps of the world, a poll keeps (`poll_keeps`).
-/
import IrcBot.Proofs.Bus.Steps
import IrcBot.Proofs.Program

namespace IrcBot.Bus

variable {κ γ ε ω τ : Type} {R : Requests}

/-- The same conduct, with a log of what is seen of the acts on the world. -/
def Conduct.observed (c : Conduct κ γ ε ω R) (see : R.Ask → ω → ω × List ε → List τ) :
    Conduct κ γ ε (ω × List τ) R where
  name := c.name
  behave := c.behave
  perform i w :=
    let (a, world, events) := c.perform i w.1
    (a, (world, w.2 ++ see i w.1 (world, events)), events)

namespace Run

/-- The run without the log of its observer. -/
def forget (r : Run κ γ ε (ω × List τ)) : Run κ γ ε ω :=
  { bus := r.bus, world := r.world.1, notes := r.notes }

theorem forget_note (r : Run κ γ ε (ω × List τ)) (n : Note κ γ ε) :
    (r.note n).forget = r.forget.note n := rfl

theorem forget_triggerAll (r : Run κ γ ε (ω × List τ)) (events : List ε) :
    (events.foldl trigger r).forget = events.foldl trigger r.forget := by
  induction events generalizing r with
  | nil => rfl
  | cons e events ih => exact ih (r.trigger e)

end Run

variable [DecidableEq κ] {c : Conduct κ γ ε ω R}

/-! ## An observer changes nothing -/

section Observed

variable {see : R.Ask → ω → ω × List ε → List τ}

/-- Two ways to poll that agree but for the log. -/
def Agree (poll' : Run κ γ ε (ω × List τ) → Nat × Run κ γ ε (ω × List τ))
    (poll : Run κ γ ε ω → Nat × Run κ γ ε ω) : Prop :=
  ∀ r, (poll' r).1 = (poll r.forget).1 ∧ (poll' r).2.forget = (poll r.forget).2

variable {poll' : Run κ γ ε (ω × List τ) → Nat × Run κ γ ε (ω × List τ)}
variable {poll : Run κ γ ε ω → Nat × Run κ γ ε ω}

theorem serve_observed (h : Agree poll' poll) (q : Ask κ γ ε R.Ask) (r : Run κ γ ε (ω × List τ)) :
    (serve (c.observed see) poll' q r).1 = (serve c poll q r.forget).1 ∧
      (serve (c.observed see) poll' q r).2.forget = (serve c poll q r.forget).2 := by
  cases q with
  | poll => exact h r
  | act i => exact ⟨rfl, Run.forget_triggerAll _ _⟩
  | _ => exact ⟨rfl, rfl⟩

theorem call_observed (h : Agree poll' poll) (event : ε) (r : Run κ γ ε (ω × List τ))
    (registration : Registration κ γ) :
    (call (c.observed see) poll' event r registration).forget =
      call c poll event r.forget registration := by
  have hserve (q : Ask κ γ ε R.Ask) (r : Run κ γ ε (ω × List τ)) (t : Run κ γ ε ω)
      (hr : r.forget = t) :
      (serve (c.observed see) poll' q r).1 = (serve c poll q t).1 ∧
        (serve (c.observed see) poll' q r).2.forget = (serve c poll q t).2 :=
    hr ▸ serve_observed h q r
  have hrun := Program.run_sim (Run.forget · = ·) hserve
    (c.behave registration.handler registration.context event)
    (Run.forget_note r (.called event registration))
  simp only [call, Run.forget_note]
  rw [← hrun.1, ← hrun.2]
  rfl

theorem dispatch_observed (h : Agree poll' poll) (r : Run κ γ ε (ω × List τ)) (event : ε) :
    (dispatch (c.observed see) poll' r event).forget = dispatch c poll r.forget event := by
  have hcalls (registrations : List (Registration κ γ)) (r : Run κ γ ε (ω × List τ)) :
      (registrations.foldl (call (c.observed see) poll' event) r).forget =
        registrations.foldl (call c poll event) r.forget := by
    induction registrations generalizing r with
    | nil => rfl
    | cons registration rest ih =>
      rw [List.foldl_cons, List.foldl_cons, ih, call_observed h]
  exact hcalls _ _

/-- **A poll that is observed does what the poll does.** -/
theorem poll_observed (c : Conduct κ γ ε ω R) (see : R.Ask → ω → ω × List ε → List τ)
    (depth : Nat) : Agree (Bus.poll (c.observed see) depth) (Bus.poll c depth) := by
  induction depth with
  | zero => exact fun r => ⟨rfl, rfl⟩
  | succ depth ih =>
    have hdispatches (batch : List ε) (r : Run κ γ ε (ω × List τ)) :
        (batch.foldl (dispatch (c.observed see) (Bus.poll (c.observed see) depth)) r).forget =
          batch.foldl (dispatch c (Bus.poll c depth)) r.forget := by
      induction batch generalizing r with
      | nil => rfl
      | cons event rest ihb =>
        rw [List.foldl_cons, List.foldl_cons, ihb, dispatch_observed ih]
    intro r
    refine ⟨rfl, ?_⟩
    simp only [Bus.poll, Run.forget_note, hdispatches]
    rfl

end Observed

/-! ## What acts keep -/

theorem Step.keeps {P : ω → Prop} {r r' : Run κ γ ε ω} (hstep : Step c r r')
    (hact : ∀ i w, P w → P (c.perform i w).2.1) (hr : P r.world) : P r'.world := by
  cases hstep with
  | act i => exact hact i r.world hr
  | _ => exact hr

/-- What every act keeps of the world, a poll keeps, however deep polls are nested. -/
theorem poll_keeps {P : ω → Prop} (hact : ∀ i w, P w → P (c.perform i w).2.1) (depth : Nat)
    (r : Run κ γ ε ω) (hr : P r.world) : P (Bus.poll c depth r).2.world := by
  have hsteps := steps_poll c depth r
  generalize (Bus.poll c depth r).2 = r' at hsteps ⊢
  induction hsteps with
  | refl => exact hr
  | tail _ hstep ih => exact hstep.keeps hact ih

end IrcBot.Bus
