/-
What handlers of a bot are made of: acts on its connections and its bus. An
act that asks something of a connection is told when it is refused.
-/
import IrcBot.Bot.Basic

namespace IrcBot

/-- Part of a handler; it comes to a result of type `α`. -/
abbrev Bot.Act (κ γ ν α : Type) := Program (Bus.requests κ γ Event (Bot.calls ν)) α

namespace Bot.Act

variable {κ γ ν : Type}

def call (c : Call ν) : Act κ γ ν ((calls ν).Answer c) :=
  Program.request (R := Bus.requests κ γ Event (calls ν)) (.act c)

def look (i : Nat) : Act κ γ ν (Option Connection) := call (.look i)

def order (i : Nat) (o : Circuit.Order) : Act κ γ ν (Except Refusal Unit) := call (.order i o)

def tell (news : ν) : Act κ γ ν Unit := call (.tell news)

def trigger (event : Event) : Act κ γ ν Unit :=
  Program.request (R := Bus.requests κ γ Event (calls ν)) (.trigger event)

/-- Ends the handler with an error if something was refused. -/
def require : Except Refusal Unit → Act κ γ ν Unit
  | .ok () => .done ()
  | .error _ => .failed

/-- Answers an event where it came from, and says whether it can be answered. -/
def reply (event : Event) (text : Text) : Act κ γ ν (Except Refusal Bool) :=
  match event.connection?, event.replyTarget? with
  | some i, some target => do
    let result ← order i (.message target text)
    return result.map fun _ => true
  | _, _ => return .ok false

end Bot.Act

end IrcBot
