/-
Trials of loading and unloading: modules that do as they are told when they
are started, and write down what they meet.
-/
import IrcBot.Bus.Poll
import IrcBot.Module.Host

namespace IrcBot

namespace HostTrial

/-- A module to try a host with. Its starts are numbered from one. -/
structure Stub where
  id : Text
  name : Text
  /-- The events it registers for. -/
  events : List Text
  /-- The starts that fail. -/
  failing : List Nat
  reason : Text
  /-- It publishes an event of its own on starting. -/
  publishes : Bool

/-- Who handles events: a recorder, or what a module registered at one of
its starts for the event at some place of its list. -/
inductive Listener where
  | recorder
  | registered (id : Text) (start place : Nat)
  deriving DecidableEq, Repr

inductive Entry where
  | started (id : Text) (start : Nat) (owner : Text)
  | stopped (id : Text)
  | heard (id : Text) (context : Option Nat) (event : Event)
  | recorded (event : Event)

/-- How often each module was started, and what was written down. -/
structure World where
  starts : Table Text Nat := .empty
  journal : List Entry := []

def World.write (w : World) (entry : Entry) : World := { w with journal := w.journal ++ [entry] }

/-- The handlers at odd places get the number of the start as context. -/
def contextAt (place start : Nat) : Option Nat := if place % 2 = 0 then none else some start

def conduct : ModuleConduct Stub Listener Nat World where
  name := Stub.name
  start m w :=
    let start := (w.starts.get? m.id).getD 0 + 1
    let w := { w with starts := w.starts.insert m.id start }.write (.started m.id start m.name)
    let registrations := m.events.zipIdx.map fun (event, place) =>
      StartStep.register event (Listener.registered m.id start place) (contextAt place start)
    let published :=
      if m.publishes then [StartStep.publish (.module .loaded ("published by ".toList ++ m.id))]
      else []
    if m.failing.contains start then (registrations, .error m.reason, w)
    else (registrations ++ published, .ok (), w)
  stop m w := w.write (.stopped m.id)

def entry : Listener → Option Nat → Event → Entry
  | .recorder, _, event => .recorded event
  | .registered id _ _, context, event => .heard id context event

def busConduct : Bus.Conduct Listener Nat Event World (.writing Entry) where
  name := Event.name
  behave listener context event :=
    Program.request (R := Bus.requests Listener Nat Event (.writing Entry))
      (.act (entry listener context event))
  perform entry w := ((), w.write entry, [])

end HostTrial

abbrev HostTrial := Host HostTrial.Stub HostTrial.Listener Nat HostTrial.World

namespace HostTrial

/-- A host without modules; a recorder may listen to what becomes of them. -/
def start (recording : Bool) : HostTrial :=
  let stages := if recording then [ModuleStage.loading, .loaded, .unloading, .unloaded] else []
  let registry := stages.foldl (fun (r : Bus.Registry Listener Nat) stage =>
    r.register stage.name { handler := .recorder, context := none, owner := "recorder".toList }) {}
  { bus := { registry }, world := {} }

def poll (t : HostTrial) : Nat × HostTrial :=
  let (count, r) := Bus.poll busConduct Bus.usualDepth { bus := t.bus, world := t.world }
  (count, { t with bus := r.bus, world := r.world })

end HostTrial

end IrcBot
