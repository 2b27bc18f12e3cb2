/-
Who wants to hear of which events. For every event name the registry keeps
its registrations in the order they were made, and beside that, for every
owner, the pairs of name and handler it has registered. Each pair is there
once; registering it again changes its context and its owner in place. Names
and owners without registrations are not kept.
-/
import IrcBot.Table
import IrcBot.Text.Basic

namespace IrcBot.Bus

/-- A handler registered for an event, with the data handed back to it. -/
structure Registration (κ γ : Type) where
  handler : κ
  context : Option γ
  owner : Text
  deriving DecidableEq

structure Registry (κ γ : Type) where
  handlers : Table Text (List (Registration κ γ)) := .empty
  owners : Table Text (List (Text × κ)) := .empty
  deriving DecidableEq

namespace Registry

variable {κ γ : Type} [DecidableEq κ]

/-- The registrations for an event name, oldest first. -/
def registrations (r : Registry κ γ) (event : Text) : List (Registration κ γ) :=
  (r.handlers.get? event).getD []

/-- What an owner has registered. -/
def owned (r : Registry κ γ) (owner : Text) : List (Text × κ) := (r.owners.get? owner).getD []

def handlerCount (r : Registry κ γ) (event : Text) : Nat := (r.registrations event).length

def ownedCount (r : Registry κ γ) (owner : Text) : Nat := (r.owned owner).length

/-- A list to store, unless it is empty. -/
def nonempty? {α : Type} (l : List α) : Option (List α) := if l.isEmpty then none else some l

def setRegistrations (r : Registry κ γ) (event : Text) (l : List (Registration κ γ)) :
    Registry κ γ :=
  { r with handlers := r.handlers.put? event (nonempty? l) }

def setOwned (r : Registry κ γ) (owner : Text) (l : List (Text × κ)) : Registry κ γ :=
  { r with owners := r.owners.put? owner (nonempty? l) }

/-- Strikes a pair off an owner's list. -/
def disown (r : Registry κ γ) (owner event : Text) (handler : κ) : Registry κ γ :=
  r.setOwned owner ((r.owned owner).filter (· != (event, handler)))

def find? (r : Registry κ γ) (event : Text) (handler : κ) : Option (Registration κ γ) :=
  (r.registrations event).find? (·.handler == handler)

/-- The registrations with `new` in the place of the one of the same handler. -/
def replaceIn (l : List (Registration κ γ)) (new : Registration κ γ) : List (Registration κ γ) :=
  l.map fun old => if old.handler = new.handler then new else old

def register (r : Registry κ γ) (event : Text) (new : Registration κ γ) : Registry κ γ :=
  let l := r.registrations event
  let r : Registry κ γ :=
    match r.find? event new.handler with
    | some old => (r.setRegistrations event (replaceIn l new)).disown old.owner event new.handler
    | none => r.setRegistrations event (l ++ [new])
  r.setOwned new.owner (r.owned new.owner ++ [(event, new.handler)])

/-- Removes a handler from an event, if it is registered for it. -/
def unregister (r : Registry κ γ) (event : Text) (handler : κ) : Bool × Registry κ γ :=
  match r.find? event handler with
  | none => (false, r)
  | some old =>
    let kept := (r.registrations event).eraseP (·.handler == handler)
    (true, (r.setRegistrations event kept).disown old.owner event handler)

/-- Removes a handler from an event whoever owns it, and counts what went. -/
def removePair (r : Registry κ γ) (p : Text × κ) : Nat × Registry κ γ :=
  let l := r.registrations p.1
  let kept := l.filter (·.handler != p.2)
  (l.length - kept.length, r.setRegistrations p.1 kept)

/-- Removes all that an owner has registered, and counts it. -/
def unregisterAll (r : Registry κ γ) (owner : Text) : Nat × Registry κ γ :=
  (r.owned owner).foldl
    (fun acc p => let (n, r) := removePair acc.2 p; (acc.1 + n, r))
    (0, { r with owners := r.owners.erase owner })

end Registry

end IrcBot.Bus
