/-
The event bus: a registry of handlers and a queue of events that wait for
the next poll. A wake-up can be stored for whoever waits on the bus; there
is never more than one.
-/
import IrcBot.Bus.Registry
import IrcBot.Text.Numeral
import IrcBot.Text.Quoted

namespace IrcBot

structure Bus (κ γ ε : Type) where
  registry : Bus.Registry κ γ := {}
  /-- Events triggered and not yet taken, oldest first. -/
  pending : List ε := []
  wakeUp : Bool := false

namespace Bus

variable {κ γ ε : Type}

def wake (b : Bus κ γ ε) : Bus κ γ ε := { b with wakeUp := true }

/-- Queues an event and stores a wake-up. -/
def trigger (b : Bus κ γ ε) (event : ε) : Bus κ γ ε :=
  { b with pending := b.pending ++ [event], wakeUp := true }

def triggerAll (b : Bus κ γ ε) (events : List ε) : Bus κ γ ε := events.foldl trigger b

/-- Whether a wait ends before its time is up. Pending events end it at once
and leave the stored wake-up alone. -/
def wait (b : Bus κ γ ε) : Bool × Bus κ γ ε :=
  if b.pending.isEmpty then (b.wakeUp, { b with wakeUp := false }) else (true, b)

@[simp] theorem pending_triggerAll (b : Bus κ γ ε) (events : List ε) :
    (b.triggerAll events).pending = b.pending ++ events := by
  induction events generalizing b with
  | nil => simp [triggerAll]
  | cons e es ih => simpa [triggerAll, trigger] using ih (b.trigger e)

/-- A description of the bus: how many event names and owners have
registrations, and how many events wait. -/
def describe (b : Bus κ γ ε) : Text :=
  Text.describeRecord "EventBus"
    [("events", .ofNat b.registry.handlers.size), ("owners", .ofNat b.registry.owners.size),
      ("pending", .ofNat b.pending.length)]

end Bus

end IrcBot
