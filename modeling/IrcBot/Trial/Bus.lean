/-
Trials of the bus: events with a name and a number, and handlers that carry
out lists of actions and write down what they meet.
-/
import IrcBot.Bus.Poll

namespace IrcBot

/-- An event to try a bus with. -/
structure Signal where
  name : Text
  payload : Int
  deriving DecidableEq, Repr

namespace BusTrial

inductive Action where
  /-- Triggers an event with the next number, unless the limit is reached;
  its name is that of the event handled if none is given. -/
  | triggerNext (limit : Int) (event : Option Text)
  | fail
  | panic
  | register (event handler owner : Text) (context : Option Text)
  | unregister (event handler : Text)
  | unregisterAll (owner : Text)
  | trigger (signal : Signal)
  | poll
  | wake

/-- What an action answers. -/
inductive Answer where
  | nothing
  | found (b : Bool)
  | count (n : Nat)

inductive Entry where
  | called (handler : Text) (context : Option Text) (signal : Signal)
  | answered (handler : Text) (answer : Answer)

abbrev Asks := Bus.requests Text Text Signal (.writing Entry)

def ask (q : Bus.Ask Text Text Signal Entry) : Program Asks (Asks.Answer q) :=
  Program.request (R := Asks) q

/-- Carries out an action in answer to a signal. -/
def perform (signal : Signal) : Action → Program Asks (Option Answer)
  | .triggerNext limit name => do
    if signal.payload < limit then
      let _ ← ask (.trigger ⟨name.getD signal.name, signal.payload + 1⟩)
    return none
  | .fail => .failed
  | .panic => .panicked
  | .register name handler owner context => do
    let _ ← ask (.register name { handler, context, owner })
    return some .nothing
  | .unregister name handler => do
    let found ← ask (.unregister name handler)
    return some (.found found)
  | .unregisterAll owner => do
    let count ← ask (.unregisterAll owner)
    return some (.count count)
  | .trigger next => do
    let _ ← ask (.trigger next)
    return some .nothing
  | .poll => do
    let count ← ask .poll
    return some (.count count)
  | .wake => do
    let _ ← ask .wake
    return some .nothing

/-- Carries out actions in turn and writes their answers down. -/
def performAll (handler : Text) (signal : Signal) : List Action → Program Asks Unit
  | [] => pure ()
  | action :: rest => do
    match ← perform signal action with
    | some answer => ask (.act (.answered handler answer))
    | none => pure ()
    performAll handler signal rest

end BusTrial

structure BusTrial where
  /-- The actions of each handler; one that is not there does nothing. -/
  script : List (Text × List BusTrial.Action)
  bus : Bus Text Text Signal := {}
  journal : List BusTrial.Entry := []

namespace BusTrial

def behave (script : List (Text × List Action)) (handler : Text) (context : Option Text)
    (signal : Signal) : Program Asks Unit := do
  ask (.act (.called handler context signal))
  performAll handler signal ((script.lookup handler).getD [])

def conduct (script : List (Text × List Action)) :
    Bus.Conduct Text Text Signal (List Entry) (.writing Entry) where
  name := Signal.name
  behave := behave script
  perform (entry : Entry) journal := ((), journal ++ [entry], [])

def run (t : BusTrial) : Bus.Run Text Text Signal (List Entry) :=
  { bus := t.bus, world := t.journal }

def ofRun (t : BusTrial) (r : Bus.Run Text Text Signal (List Entry)) : BusTrial :=
  { t with bus := r.bus, journal := r.world }

/-- Carries out an action from outside. -/
def carryOut (t : BusTrial) (action : Action) : Answer × BusTrial :=
  let (outcome, r) := (perform ⟨[], 0⟩ action).run
    (Bus.serve (conduct t.script) (Bus.poll (conduct t.script) Bus.usualDepth)) t.run
  (match outcome with
    | .done (some answer) => answer
    | _ => .nothing,
    t.ofRun r)

def runUntilIdle (t : BusTrial) (rounds : Nat) : BusTrial :=
  t.ofRun (Bus.runUntilIdle (conduct t.script) Bus.usualDepth rounds t.run)

def wait (t : BusTrial) : Bool × BusTrial :=
  let (woken, bus) := t.bus.wait
  (woken, { t with bus })

end BusTrial

end IrcBot
