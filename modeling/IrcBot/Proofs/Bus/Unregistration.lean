/-
Removing all that an owner has registered. The index of owners tells what to remove, and
as it is exact, just the registrations of this owner go (`Clears`). From then on no
dispatch that begins calls a handler for the owner, not even of an event that was waiting
already, until the owner registers again (`Spares`).
-/
import IrcBot.Proofs.Bus.Delivery

namespace IrcBot.Bus

variable {κ γ ε ω : Type} {R : Requests}

/-- How many registrations there are, of all events. -/
def Registry.size (r : Registry κ γ) : Nat := (r.handlers.keys.map r.handlerCount).sum

/-- What is left when the registrations of an owner are removed, so many. -/
structure Registry.Clears (r : Registry κ γ) (owner : Text) (count : Nat) (r' : Registry κ γ) :
    Prop where
  counted : count = r.ownedCount owner
  gone : r'.size + count = r.size
  /-- All registrations of others stay as they are and in their order. -/
  registrations : ∀ event,
    r'.registrations event = (r.registrations event).filter (·.owner ≠ owner)
  owned : ∀ other, r'.owned other = if owner = other then [] else r.owned other

section Registry

variable [DecidableEq κ]

theorem Registry.Refines.clears {r : Registry κ γ} {s : Subscriptions κ γ} (h : r.Refines s)
    (owner : Text) :
    r.Clears owner (r.unregisterAll owner).1 (r.unregisterAll owner).2 where
  counted := (h.unregisterAll_fst owner).trans (h.owned owner).length_eq.symm
  gone := by
    have hkept : (s.unregisterAll owner).entries.length =
        (s.entries.filter (·.2.owner ≠ owner)).length := rfl
    have howned : (s.owned owner).length = (s.entries.filter (·.2.owner = owner)).length :=
      List.length_map _
    have hall := List.length_eq_length_filter_add (l := s.entries) (·.2.owner = owner)
    rw [Registry.size, (h.unregisterAll owner).sum_handlerCount, Registry.size, h.sum_handlerCount,
      h.unregisterAll_fst, hkept, howned, hall]
    simp only [ne_eq, decide_not]
    omega
  registrations event := by
    rw [(h.unregisterAll owner).registrations, h.registrations]
    exact Subscriptions.registrations_filter s _ event
  owned other := Registry.owned_unregisterAll r owner other

end Registry

/-! ## No handler is called for whoever is gone -/

def Operation.owner? : Operation κ γ → Option Text
  | .register _ registration => some registration.owner
  | .unregister .. | .unregisterAll _ => none

/-- The owner has no registration. -/
def Subscriptions.Lacks (s : Subscriptions κ γ) (owner : Text) : Prop :=
  ∀ e ∈ s.entries, e.2.owner ≠ owner

theorem Subscriptions.lacks_unregisterAll (s : Subscriptions κ γ) (owner : Text) :
    (s.unregisterAll owner).Lacks owner := fun _ he => of_decide_eq_true (List.mem_filter.1 he).2

variable [DecidableEq κ]

theorem Subscriptions.Lacks.apply {s : Subscriptions κ γ} {owner : Text} (h : s.Lacks owner)
    {op : Operation κ γ} (hop : op.owner? ≠ some owner) : (s.apply op).Lacks owner := by
  intro e he
  cases op with
  | register event registration =>
    obtain rfl | ⟨he, -⟩ := Subscriptions.mem_register.1 he
    · exact fun howner => hop (congrArg some howner)
    · exact h e he
  | unregister event handler => exact h e (List.mem_filter.1 he).1
  | unregisterAll other => exact h e (List.mem_filter.1 he).1

theorem Subscriptions.Lacks.applyAll {s : Subscriptions κ γ} {owner : Text} (h : s.Lacks owner)
    {ops : List (Operation κ γ)} (hops : ∀ op ∈ ops, op.owner? ≠ some owner) :
    (ops.foldl Subscriptions.apply s).Lacks owner := by
  induction ops generalizing s with
  | nil => exact h
  | cons op ops ih =>
    obtain ⟨hop, hops⟩ := List.forall_mem_cons.1 hops
    exact ih (h.apply hop) hops

/-- An owner that is gone and has not registered again has no registrations. -/
theorem owner_ne_of_gone {owner event : Text} {registration : Registration κ γ}
    (ops later : List (Operation κ γ)) (hlater : ∀ op ∈ later, op.owner? ≠ some owner)
    (hmem : registration ∈ (Registry.after (ops ++ .unregisterAll owner :: later)).registrations
      event) : registration.owner ≠ owner := by
  have hgone : (Subscriptions.after (ops ++ .unregisterAll owner :: later)).Lacks owner := by
    rw [Subscriptions.after, List.foldl_append, List.foldl_cons]
    exact ((ops.foldl Subscriptions.apply .empty).lacks_unregisterAll owner).applyAll hlater
  exact hgone _ ((Registry.refines_after _).mem_registrations.1 hmem)

/-- What notes tell of owners whose registrations were all removed. -/
structure Spares (notes : List (Note κ γ ε)) : Prop where
  /-- They are removed from the registry as it is then, and nothing else is. -/
  cleared : ∀ before owner count after, notes = before ++ .unregisteredAll owner count :: after →
    let registry := Registry.after (operations before)
    registry.Clears owner count (registry.unregisterAll owner).2
  /-- No handler is called for the owner by a dispatch that begins later, unless the owner has
  registered again by then. -/
  silent : ∀ before owner count between event snapshot after,
    notes = before ++ .unregisteredAll owner count ::
      (between ++ .dispatched event snapshot :: after) →
    (∀ op ∈ operations between, op.owner? ≠ some owner) →
      ∀ call ∈ callsOf 0 after, call.2.owner ≠ owner

theorem Delivers.spares {c : Conduct κ γ ε ω R} {start last : Run κ γ ε ω}
    (h : Delivers c start last) (hstart : start.bus.registry = {}) : Spares last.notes.toList where
  cleared before owner count after hsplit := by
    obtain ⟨mid, -, -, hreplays⟩ := h.points _ [] (hsplit.trans (List.append_nil _).symm)
    have hcount : count = ((registryAfter start.bus.registry before).unregisterAll owner).1 :=
      hreplays.truthful _ _ _ rfl
    rw [hstart] at hcount
    subst hcount
    exact (Registry.refines_after (operations before)).clears owner
  silent before owner count between event snapshot after hsplit hlater := by
    obtain ⟨hsnapshot, hcalls⟩ := h.snapshots
      (before ++ .unregisteredAll owner count :: between) event snapshot after
      (by rw [hsplit, List.append_assoc, List.cons_append])
    have hops : operations (before ++ .unregisteredAll owner count :: between) =
        operations before ++ .unregisterAll owner :: operations between := by
      simp [operations, Note.operation?]
    rw [hstart, registryAfter, hops] at hsnapshot
    rw [hcalls, List.forall_mem_map]
    intro registration hmem
    rw [hsnapshot] at hmem
    exact owner_ne_of_gone _ _ hlater hmem

/-- **Removing an owner removes all its registrations and nothing else**, after any history; and
in every run no handler is called for it from then on, until it registers again. -/
theorem unregisterAll_clears_owner :
    (∀ (ops : List (Operation κ γ)) (owner : Text),
      let registry := Registry.after ops
      registry.Clears owner (registry.unregisterAll owner).1 (registry.unregisterAll owner).2) ∧
    ∀ (c : Conduct κ γ ε ω R) (depth : Nat) (world : ω) {α : Type}
      (p : Program (requests κ γ ε R) α),
      let start : Run κ γ ε ω := { bus := {}, world }
      Spares (p.run (serve c (poll c depth)) start).2.notes.toList := by
  refine ⟨fun ops owner => (Registry.refines_after ops).clears owner, fun c depth world _ p => ?_⟩
  let start : Run κ γ ε ω := { bus := {}, world }
  have hdelivers := delivers rfl (steps_run (steps_poll c depth) p start)
    (tells_run (tells_poll c depth) p start)
  exact hdelivers.spares rfl

end IrcBot.Bus
