/-
The registry over a run. A run notes what was asked of the registry and what each
dispatch read from it, also when a handler asked in the middle of a poll. The
registry is at any time what the operations noted so far make of an empty one
(`Recorded`), and what the notes tell agrees with the ordered map that the same
operations make (`Faithful`). One induction over the steps of a run carries both.
-/
import IrcBot.Proofs.Bus.Registry
import IrcBot.Proofs.Bus.Steps
import IrcBot.Proofs.Record

namespace IrcBot.Bus

variable {κ γ ε ω : Type} {R : Requests}

/-- What changes a registry. -/
inductive Operation (κ γ : Type) where
  | register (event : Text) (registration : Registration κ γ)
  | unregister (event : Text) (handler : κ)
  | unregisterAll (owner : Text)

/-! ## Sequences of operations -/

section Operations

variable [DecidableEq κ]

def Registry.apply (r : Registry κ γ) : Operation κ γ → Registry κ γ
  | .register event registration => r.register event registration
  | .unregister event handler => (r.unregister event handler).2
  | .unregisterAll owner => (r.unregisterAll owner).2

def Subscriptions.apply (s : Subscriptions κ γ) : Operation κ γ → Subscriptions κ γ
  | .register event registration => s.register event registration
  | .unregister event handler => s.unregister (event, handler)
  | .unregisterAll owner => s.unregisterAll owner

/-- What a sequence of operations makes of an empty registry. -/
def Registry.after (ops : List (Operation κ γ)) : Registry κ γ := ops.foldl Registry.apply {}

def Subscriptions.after (ops : List (Operation κ γ)) : Subscriptions κ γ :=
  ops.foldl Subscriptions.apply .empty

theorem Registry.Refines.apply {r : Registry κ γ} {s : Subscriptions κ γ} (h : r.Refines s)
    (op : Operation κ γ) : (r.apply op).Refines (s.apply op) := by
  cases op with
  | register event registration => exact h.register event registration
  | unregister event handler => exact h.unregister event handler
  | unregisterAll owner => exact h.unregisterAll owner

theorem Registry.Refines.applyAll {r : Registry κ γ} {s : Subscriptions κ γ} (h : r.Refines s)
    (ops : List (Operation κ γ)) :
    (ops.foldl Registry.apply r).Refines (ops.foldl Subscriptions.apply s) := by
  induction ops generalizing r s with
  | nil => exact h
  | cons op ops ih => exact ih (h.apply op)

theorem Registry.refines_after (ops : List (Operation κ γ)) :
    (Registry.after ops).Refines (Subscriptions.after ops) := refines_empty.applyAll ops

/-- The first handler goes from one owner to another and stays first. -/
example :
    let r := Registry.after (γ := Nat)
      [.register "ping".toList ⟨1, none, "core".toList⟩,
        .register "ping".toList ⟨2, none, "core".toList⟩,
        .register "ping".toList ⟨1, some 7, "guest".toList⟩]
    r.registrations "ping".toList = [⟨1, some 7, "guest".toList⟩, ⟨2, none, "core".toList⟩] ∧
      r.owned "core".toList = [("ping".toList, 2)] ∧
      r.owned "guest".toList = [("ping".toList, 1)] := by
  decide

end Operations

/-! ## What the notes tell -/

def Note.operation? : Note κ γ ε → Option (Operation κ γ)
  | .registered event registration => some (.register event registration)
  | .unregistered event handler _ => some (.unregister event handler)
  | .unregisteredAll owner _ => some (.unregisterAll owner)
  | _ => none

/-- The operations of a run, in the order they were made. -/
def operations (notes : List (Note κ γ ε)) : List (Operation κ γ) :=
  notes.filterMap Note.operation?

theorem operations_concat (notes : List (Note κ γ ε)) (n : Note κ γ ε) :
    operations (notes ++ [n]) = operations notes ++ n.operation?.toList := by
  rw [operations, List.filterMap_append, ← operations]
  cases h : n.operation? <;> simp [h]

variable [DecidableEq κ]

/-- What a note tells is what the subscriptions say. -/
def Note.Fits (name : ε → Text) (s : Subscriptions κ γ) : Note κ γ ε → Prop
  | .unregistered event handler found => found = s.contains (event, handler)
  | .unregisteredAll owner count => count = (s.owned owner).length
  | .dispatched event snapshot => snapshot = s.registrations (name event)
  | _ => True

/-- Each note fits the subscriptions that the operations before it have made. -/
def Faithful (name : ε → Text) (notes : List (Note κ γ ε)) : Prop :=
  ∀ before n after, notes = before ++ n :: after →
    n.Fits name (Subscriptions.after (operations before))

theorem faithful_nil (name : ε → Text) : Faithful name ([] : List (Note κ γ ε)) :=
  forall_split_nil

theorem Faithful.concat {name : ε → Text} {notes : List (Note κ γ ε)} {n : Note κ γ ε}
    (h : Faithful name notes) (hn : n.Fits name (Subscriptions.after (operations notes))) :
    Faithful name (notes ++ [n]) := forall_split_concat h hn

/-! ## The registry is what was made of it -/

/-- The notes account for the registry, and what they tell is so. -/
structure Recorded (c : Conduct κ γ ε ω R) (r : Run κ γ ε ω) : Prop where
  registry : r.bus.registry = Registry.after (operations r.notes.toList)
  faithful : Faithful c.name r.notes.toList

section Recorded

variable {c : Conduct κ γ ε ω R} {r r' : Run κ γ ε ω}

theorem Recorded.refines (h : Recorded c r) :
    r.bus.registry.Refines (Subscriptions.after (operations r.notes.toList)) :=
  h.registry ▸ Registry.refines_after _

/-- One more note, with the registry its operation makes. -/
theorem Recorded.note (h : Recorded c r) {n : Note κ γ ε}
    (hregistry : r'.bus.registry = n.operation?.toList.foldl Registry.apply r.bus.registry)
    (hnotes : r'.notes = r.notes)
    (hfits : n.Fits c.name (Subscriptions.after (operations r.notes.toList))) :
    Recorded c (r'.note n) where
  registry := by
    rw [Run.toList_notes_note, hnotes, operations_concat, Registry.after, List.foldl_append,
      ← Registry.after, ← h.registry]
    exact hregistry
  faithful := by
    rw [Run.toList_notes_note, hnotes]
    exact h.faithful.concat hfits

theorem Step.recorded (hstep : Step c r r') (h : Recorded c r) : Recorded c r' := by
  cases hstep with
  | register event registration => exact h.note rfl rfl trivial
  | unregister event handler => exact h.note rfl rfl (h.refines.unregister_fst event handler)
  | unregisterAll owner => exact h.note rfl rfl (h.refines.unregisterAll_fst owner)
  | dispatch event => exact h.note rfl rfl (h.refines.registrations (c.name event))
  | wake | act => exact ⟨h.registry, h.faithful⟩
  | trigger | take | call | leave | finish => exact h.note rfl rfl trivial

theorem Steps.recorded (hsteps : Steps c r r') (h : Recorded c r) : Recorded c r' := by
  induction hsteps with
  | refl => exact h
  | tail _ hstep ih => exact hstep.recorded ih

end Recorded

/-- **The registry is an ordered map with an exact index of owners.** After any sequence of
operations it holds for every event what the ordered map holds: a new pair comes last, a pair that
is registered again changes in place, a pair taken off is gone. No pair is there twice, the list of
an owner holds the pairs of its registrations and each once, and both tables count alike. A run
makes such a sequence, whoever asks for the operations: what it notes is the answer of the ordered
map at that time. -/
theorem registry_refines_subscriptions :
    (∀ ops : List (Operation κ γ),
      let registry := Registry.after ops
      let subscriptions := Subscriptions.after ops
      registry.Refines subscriptions ∧
      (∀ event, ((registry.registrations event).map (·.handler)).Nodup) ∧
      (∀ owner, (registry.owned owner).Nodup ∧ ∀ event handler,
        (event, handler) ∈ registry.owned owner ↔
          ∃ reg ∈ registry.registrations event, reg.handler = handler ∧ reg.owner = owner) ∧
      (registry.handlers.keys.map registry.handlerCount).sum =
        (registry.owners.keys.map registry.ownedCount).sum ∧
      ∀ event handler,
        (registry.unregister event handler).1 = subscriptions.contains (event, handler)) ∧
    ∀ (c : Conduct κ γ ε ω R) (depth : Nat) (world : ω) {α : Type}
      (p : Program (requests κ γ ε R) α),
      Recorded c (p.run (serve c (poll c depth)) { bus := {}, world }).2 := by
  constructor
  · intro ops
    have h := Registry.refines_after ops
    refine ⟨h, h.nodup_registrations, fun owner => ⟨h.nodup_owned owner, ?_⟩, ?_,
      h.unregister_fst⟩
    · exact fun event handler => h.mem_owned
    · rw [h.sum_handlerCount, h.sum_ownedCount]
  · intro c depth world α p
    have hstart : Recorded c ({ bus := {}, world } : Run κ γ ε ω) := ⟨rfl, faithful_nil c.name⟩
    exact (steps_run (steps_poll c depth) p _).recorded hstart

end IrcBot.Bus
