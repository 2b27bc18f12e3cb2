/-
Dispatch. A poll takes all pending events; what handlers trigger meanwhile
waits for the next poll. For each event, in turn, the registrations of its
name are read once, and each of their handlers is run, whatever becomes of
the ones before it.

Handlers are programs. They may use the whole bus, also poll it, and make
requests of their own on a world beside it. A poll inside a poll takes one
level of nesting; at the last level a poll takes nothing.
-/
import IrcBot.Bus.Basic
import IrcBot.Program

namespace IrcBot.Bus

variable {κ γ ε ι ω : Type}

/-- Requests a handler makes: of the bus, or (`act`) of the world. -/
inductive Ask (κ γ ε ι : Type) where
  | register (event : Text) (registration : Registration κ γ)
  | unregister (event : Text) (handler : κ)
  | unregisterAll (owner : Text)
  | trigger (event : ε)
  | wake
  | poll
  | act (i : ι)

def requests (κ γ ε : Type) (R : Requests) : Requests where
  Ask := Ask κ γ ε R.Ask
  Answer
    | .register .. | .trigger _ | .wake => Unit
    | .unregister .. => Bool
    | .unregisterAll _ | .poll => Nat
    | .act i => R.Answer i

abbrev Handler (κ γ ε : Type) (R : Requests) := Program (requests κ γ ε R) Unit

/-- What happened during a run, for whoever wants to look into it. -/
inductive Note (κ γ ε : Type) where
  | triggered (event : ε)
  /-- A poll started and took these events. -/
  | took (events : List ε)
  | registered (event : Text) (registration : Registration κ γ)
  /-- A handler was taken off an event, if it was found there. -/
  | unregistered (event : Text) (handler : κ) (found : Bool)
  /-- All an owner had registered was removed, so many registrations. -/
  | unregisteredAll (owner : Text) (count : Nat)
  /-- The dispatch of an event started, for these registrations. -/
  | dispatched (event : ε) (snapshot : List (Registration κ γ))
  | called (event : ε) (registration : Registration κ γ)
  | returned (outcome : Outcome Unit)
  /-- A poll came to its end. -/
  | polled (count : Nat)

/-- The bus and its world while handlers run. -/
structure Run (κ γ ε ω : Type) where
  bus : Bus κ γ ε
  world : ω
  notes : Array (Note κ γ ε) := #[]

namespace Run

def note (r : Run κ γ ε ω) (n : Note κ γ ε) : Run κ γ ε ω := { r with notes := r.notes.push n }

@[simp] theorem toList_notes_note (r : Run κ γ ε ω) (n : Note κ γ ε) :
    (r.note n).notes.toList = r.notes.toList ++ [n] := Array.toList_push

def trigger (r : Run κ γ ε ω) (event : ε) : Run κ γ ε ω :=
  ({ r with bus := r.bus.trigger event }).note (.triggered event)

def setRegistry (r : Run κ γ ε ω) (registry : Registry κ γ) : Run κ γ ε ω :=
  { r with bus := { r.bus with registry } }

end Run

/-- What events are called, what handlers do, and what acts on the world do:
an act answers, changes the world and triggers events. -/
structure Conduct (κ γ ε ω : Type) (R : Requests) where
  name : ε → Text
  behave : κ → Option γ → ε → Handler κ γ ε R
  perform : (i : R.Ask) → ω → R.Answer i × ω × List ε

variable {R : Requests} [DecidableEq κ]

/-- Serves one request; `poll` serves a nested poll. -/
def serve (c : Conduct κ γ ε ω R) (poll : Run κ γ ε ω → Nat × Run κ γ ε ω) :
    (q : Ask κ γ ε R.Ask) → Run κ γ ε ω → (requests κ γ ε R).Answer q × Run κ γ ε ω
  | .register event registration, r =>
    ((), (r.setRegistry (r.bus.registry.register event registration)).note
      (.registered event registration))
  | .unregister event handler, r =>
    let (found, registry) := r.bus.registry.unregister event handler
    (found, (r.setRegistry registry).note (.unregistered event handler found))
  | .unregisterAll owner, r =>
    let (count, registry) := r.bus.registry.unregisterAll owner
    (count, (r.setRegistry registry).note (.unregisteredAll owner count))
  | .trigger event, r => ((), r.trigger event)
  | .wake, r => ((), { r with bus := r.bus.wake })
  | .poll, r => poll r
  | .act i, r =>
    let (a, world, events) := c.perform i r.world
    (a, events.foldl Run.trigger { r with world })

/-- Calls one handler with an event. -/
def call (c : Conduct κ γ ε ω R) (poll : Run κ γ ε ω → Nat × Run κ γ ε ω) (event : ε)
    (r : Run κ γ ε ω) (registration : Registration κ γ) : Run κ γ ε ω :=
  let (outcome, r) := (c.behave registration.handler registration.context event).run (serve c poll)
    (r.note (.called event registration))
  r.note (.returned outcome)

/-- Runs all handlers that are registered for an event when its turn comes. -/
def dispatch (c : Conduct κ γ ε ω R) (poll : Run κ γ ε ω → Nat × Run κ γ ε ω)
    (r : Run κ γ ε ω) (event : ε) : Run κ γ ε ω :=
  let snapshot := r.bus.registry.registrations (c.name event)
  snapshot.foldl (call c poll event) (r.note (.dispatched event snapshot))

/-- Dispatches all pending events and counts them; polls may nest to this depth. -/
def poll (c : Conduct κ γ ε ω R) : Nat → Run κ γ ε ω → Nat × Run κ γ ε ω
  | 0, r => (0, r)
  | depth + 1, r =>
    let batch := r.bus.pending
    let start := ({ r with bus := { r.bus with pending := [] } }).note (.took batch)
    let r := batch.foldl (dispatch c (poll c depth)) start
    (batch.length, r.note (.polled batch.length))

/-- The nesting allowed when nothing else is asked for, far beyond what handlers need that come
to an end. -/
def usualDepth : Nat := 1000000

/-- Polls until nothing is pending, a number of times at most, and uses up the stored wake-up. -/
def runUntilIdle (c : Conduct κ γ ε ω R) (depth : Nat) : Nat → Run κ γ ε ω → Run κ γ ε ω
  | 0, r => r
  | rounds + 1, r =>
    if r.bus.pending.isEmpty then { r with bus := { r.bus with wakeUp := false } }
    else runUntilIdle c depth rounds (poll c depth r).2

end IrcBot.Bus
