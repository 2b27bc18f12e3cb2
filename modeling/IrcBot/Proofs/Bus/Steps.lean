/-
What may happen to the bus in a run, step by step: the requests that handlers make
and the notes that a poll takes in between. A run of a program and a poll are such
steps, however deep polls are nested, so what each step keeps both of them keep.
-/
import IrcBot.Bus.Poll
import Mathlib.Logic.Relation

namespace IrcBot.Bus

variable {κ γ ε ω : Type} {R : Requests} [DecidableEq κ]

/-- Everything that happens to a run: what requests do to it, and what a poll does and notes. -/
inductive Step (c : Conduct κ γ ε ω R) (r : Run κ γ ε ω) : Run κ γ ε ω → Prop where
  | register (event : Text) (registration : Registration κ γ) :
    Step c r ((r.setRegistry (r.bus.registry.register event registration)).note
      (.registered event registration))
  | unregister (event : Text) (handler : κ) :
    Step c r ((r.setRegistry (r.bus.registry.unregister event handler).2).note
      (.unregistered event handler (r.bus.registry.unregister event handler).1))
  | unregisterAll (owner : Text) :
    Step c r ((r.setRegistry (r.bus.registry.unregisterAll owner).2).note
      (.unregisteredAll owner (r.bus.registry.unregisterAll owner).1))
  | trigger (event : ε) : Step c r (r.trigger event)
  | wake : Step c r { r with bus := r.bus.wake }
  | act (i : R.Ask) : Step c r { r with world := (c.perform i r.world).2.1 }
  | take :
    Step c r (({ r with bus := { r.bus with pending := [] } }).note (.took r.bus.pending))
  | dispatch (event : ε) :
    Step c r (r.note (.dispatched event (r.bus.registry.registrations (c.name event))))
  | call (event : ε) (registration : Registration κ γ) :
    Step c r (r.note (.called event registration))
  | leave (outcome : Outcome Unit) : Step c r (r.note (.returned outcome))
  | finish (count : Nat) : Step c r (r.note (.polled count))

abbrev Steps (c : Conduct κ γ ε ω R) : Run κ γ ε ω → Run κ γ ε ω → Prop :=
  Relation.ReflTransGen (Step c)

variable {c : Conduct κ γ ε ω R} {poll : Run κ γ ε ω → Nat × Run κ γ ε ω}

theorem steps_triggerAll (r : Run κ γ ε ω) (events : List ε) :
    Steps c r (events.foldl Run.trigger r) := by
  induction events generalizing r with
  | nil => exact .refl
  | cons event events ih => exact .head (.trigger event) (ih _)

theorem steps_serve (hpoll : ∀ r, Steps c r (poll r).2) (q : Ask κ γ ε R.Ask)
    (r : Run κ γ ε ω) : Steps c r (serve c poll q r).2 := by
  cases q with
  | register event registration => exact .single (.register event registration)
  | unregister event handler => exact .single (.unregister event handler)
  | unregisterAll owner => exact .single (.unregisterAll owner)
  | trigger event => exact .single (.trigger event)
  | wake => exact .single .wake
  | poll => exact hpoll r
  | act i => exact .head (.act i) (steps_triggerAll _ _)

theorem steps_run {α : Type} (hpoll : ∀ r, Steps c r (poll r).2)
    (p : Program (requests κ γ ε R) α) (r : Run κ γ ε ω) :
    Steps c r (p.run (serve c poll) r).2 :=
  Program.run_keeps (P := Steps c r) (fun q _ h => h.trans (steps_serve hpoll q _)) p r .refl

theorem steps_call (hpoll : ∀ r, Steps c r (poll r).2) (event : ε) (r : Run κ γ ε ω)
    (registration : Registration κ γ) : Steps c r (call c poll event r registration) :=
  (Relation.ReflTransGen.head (.call event registration) (steps_run hpoll _ _)).tail (.leave _)

theorem steps_calls (hpoll : ∀ r, Steps c r (poll r).2) (event : ε)
    (registrations : List (Registration κ γ)) (r : Run κ γ ε ω) :
    Steps c r (registrations.foldl (call c poll event) r) := by
  induction registrations generalizing r with
  | nil => exact .refl
  | cons registration rest ih => exact (steps_call hpoll event r registration).trans (ih _)

theorem steps_dispatch (hpoll : ∀ r, Steps c r (poll r).2) (r : Run κ γ ε ω) (event : ε) :
    Steps c r (dispatch c poll r event) :=
  .head (.dispatch event) (steps_calls hpoll event _ _)

/-- A poll takes steps, those of the polls inside it among them. -/
theorem steps_poll (c : Conduct κ γ ε ω R) (depth : Nat) (r : Run κ γ ε ω) :
    Steps c r (Bus.poll c depth r).2 := by
  induction depth generalizing r with
  | zero => exact .refl
  | succ depth ih =>
    have hdispatches (batch : List ε) (r : Run κ γ ε ω) :
        Steps c r (batch.foldl (dispatch c (Bus.poll c depth)) r) := by
      induction batch generalizing r with
      | nil => exact .refl
      | cons event rest ihb => exact (steps_dispatch ih r event).trans (ihb _)
    exact (Relation.ReflTransGen.head .take (hdispatches _ _)).tail (.finish _)

end IrcBot.Bus
