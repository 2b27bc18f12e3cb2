/-
Handlers that are left alone. An operation on the registry, a note of a poll or a request
of a handler respects some handlers, registered under one owner, if it takes none of them
off or on and triggers none of the events they attend to. What is registered of them then
stays what it was (`Has.applyAll`), also in the course of a poll, whatever handlers do: if
there is just one of them for each such event, the event is dispatched to it (`calm_poll`).
A poll whose handlers ask for nothing else has no other notes (`respecting_poll`).
-/
import IrcBot.Proofs.Bus.Replay
import IrcBot.Proofs.Bus.Responding

namespace IrcBot.Bus

variable {κ γ ε ι ω : Type} {R : Requests}

/-! ## What is registered of some handlers -/

/-- Takes none of these handlers off or on; they are registered under this owner. -/
def Operation.Respects (mine : κ → Bool) (owner : Text) : Operation κ γ → Prop
  | .register _ registration => mine registration.handler = false
  | .unregister _ handler => mine handler = false
  | .unregisterAll other => other ≠ owner

/-- The entries of the handlers that are mine. -/
def Subscriptions.of (s : Subscriptions κ γ) (mine : κ → Bool) : Subscriptions κ γ :=
  s.filter fun e => mine e.2.handler

/-- These entries are all under one owner, and for each of these events there is just one. -/
structure Subscriptions.Serves (own : Subscriptions κ γ) (name : ε → Text) (attends : ε → Bool)
    (owner : Text) : Prop where
  owned : ∀ e ∈ own.entries, e.2.owner = owner
  once : ∀ event, attends event = true → (own.registrations (name event)).length = 1

/-- Each of these events is for just one of the handlers. -/
def Registry.Serves (registry : Registry κ γ) (name : ε → Text) (attends : ε → Bool)
    (mine : κ → Bool) : Prop :=
  ∀ event, attends event = true →
    ((registry.registrations (name event)).filter fun r => mine r.handler).length = 1

section Has

variable {registry : Registry κ γ} {mine few : κ → Bool} {own : Subscriptions κ γ}
  {owner : Text} {name : ε → Text} {attends : ε → Bool}

/-- What is registered of the handlers is just this. -/
def Registry.Has (registry : Registry κ γ) (mine : κ → Bool) (own : Subscriptions κ γ) : Prop :=
  ∃ s : Subscriptions κ γ, registry.Refines s ∧ s.of mine = own

namespace Registry.Has

theorem registrations (h : registry.Has mine own) (event : Text) :
    (registry.registrations event).filter (fun r => mine r.handler) = own.registrations event := by
  obtain ⟨s, hs, rfl⟩ := h
  rw [hs.registrations, Subscriptions.of, Subscriptions.registrations_filter]

/-- So it is of a few of them. -/
theorem restrict (h : registry.Has mine own) (hfew : ∀ k, few k = true → mine k = true) :
    registry.Has few (own.of few) := by
  obtain ⟨s, hs, rfl⟩ := h
  exact ⟨s, hs, (Subscriptions.filter_filter fun e _ he => hfew _ he).symm⟩

theorem serves (h : registry.Has mine own) (hown : own.Serves name attends owner) :
    registry.Serves name attends mine := by
  intro event hevent
  rw [h.registrations]
  exact hown.once event hevent

variable [DecidableEq κ]

theorem apply (h : registry.Has mine own) (howned : ∀ e ∈ own.entries, e.2.owner = owner)
    {op : Operation κ γ} (hop : op.Respects mine owner) : (registry.apply op).Has mine own := by
  obtain ⟨s, hs, rfl⟩ := h
  refine ⟨s.apply op, hs.apply op, ?_⟩
  cases op with
  | register event registration =>
    -- an old entry of the pair has the same handler, which is not one of mine
    have hkeep : mine registration.handler ≠ true := ne_true_of_eq_false hop
    refine (Subscriptions.register_filter _ fun e _ hp => ?_).trans (if_neg hkeep)
    have hhandler : e.2.handler = registration.handler := congrArg Prod.snd hp
    exact congrArg mine hhandler
  | unregister event handler =>
    refine Subscriptions.filter_filter fun e _ he => decide_eq_true fun hp => ?_
    obtain rfl : e.2.handler = handler := congrArg Prod.snd hp
    exact Bool.false_ne_true (hop.symm.trans he)
  | unregisterAll other =>
    refine Subscriptions.filter_filter fun e hmem he => decide_eq_true fun hother => hop ?_
    exact hother.symm.trans (howned e (List.mem_filter.2 ⟨hmem, he⟩))

/-- **Who respects the handlers changes nothing that is registered of them.** -/
theorem applyAll (h : registry.Has mine own) (howned : ∀ e ∈ own.entries, e.2.owner = owner)
    {ops : List (Operation κ γ)} (hops : ∀ op ∈ ops, op.Respects mine owner) :
    (ops.foldl Registry.apply registry).Has mine own :=
  List.foldlRecOn (motive := fun registry => Registry.Has registry mine own) ops Registry.apply h
    fun _ hr op hmem => hr.apply howned (hops op hmem)

end Registry.Has

end Has

/-! ## Polls -/

/-- An operation that respects the handlers, or an event triggered that they do not attend to. -/
def Note.Respects (attends : ε → Bool) (mine : κ → Bool) (owner : Text) : Note κ γ ε → Prop
  | .triggered event => attends event = false
  | .registered event registration => (Operation.register event registration).Respects mine owner
  | .unregistered event handler _ =>
    (Operation.unregister event handler : Operation κ γ).Respects mine owner
  | .unregisteredAll other _ => (Operation.unregisterAll other : Operation κ γ).Respects mine owner
  | .took _ | .dispatched .. | .called .. | .returned _ | .polled _ => True

section Polls

variable {attends : ε → Bool} {mine : κ → Bool} {owner : Text} {name : ε → Text}
  {own : Subscriptions κ γ} {ns : List (Note κ γ ε)}

theorem Note.Respects.operation {n : Note κ γ ε} (hn : n.Respects attends mine owner)
    {op : Operation κ γ} (hop : n.operation? = some op) : op.Respects mine owner := by
  cases n with
  | registered | unregistered | unregisteredAll => cases hop; exact hn
  | _ => cases hop

variable [DecidableEq κ] {b : Bus κ γ ε}

theorem Registry.Has.after (h : b.registry.Has mine own)
    (howned : ∀ e ∈ own.entries, e.2.owner = owner)
    (hns : ∀ n ∈ ns, n.Respects attends mine owner) :
    (registryAfter b.registry ns).Has mine own := by
  refine h.applyAll howned fun op hop => ?_
  obtain ⟨n, hn, hsome⟩ := List.mem_filterMap.1 hop
  exact (hns n hn).operation hsome

/-- While all respect the handlers, just one of them is called for each of their events. -/
theorem calm_of_respects (h : b.registry.Has mine own) (hown : own.Serves name attends owner)
    (htruthful : Truthful name b ns) (hns : ∀ n ∈ ns, n.Respects attends mine owner) :
    ∀ n ∈ ns, n.Calm attends mine := by
  intro n hn
  have hrespects := hns n hn
  obtain ⟨before, after, rfl⟩ := List.append_of_mem hn
  cases n with
  | triggered event => exact hrespects
  | dispatched event snapshot =>
    have hsnapshot : snapshot = _ := htruthful before _ after rfl
    have hbefore : (registryAfter b.registry before).Has mine own :=
      h.after hown.owned fun m hm => hns m (List.mem_append_left _ hm)
    exact fun hevent => hsnapshot ▸ hbefore.serves hown event hevent
  | _ => trivial

theorem replays_poll (c : Conduct κ γ ε ω R) (depth : Nat) (b : Bus κ γ ε) (w : ω) :
    let final := (Bus.poll c depth { bus := b, world := w }).2
    Replays c.name { bus := b, world := w } final.notes.toList final := by
  intro final
  obtain ⟨ns, hreplays⟩ := (steps_poll c depth { bus := b, world := w }).replays
  obtain rfl : final.notes.toList = ns := hreplays.notes
  exact hreplays

/-- A poll in which all respect the handlers leaves registered what there was of them. -/
theorem has_poll (c : Conduct κ γ ε ω R) (depth : Nat) (w : ω) (h : b.registry.Has mine own)
    (howned : ∀ e ∈ own.entries, e.2.owner = owner) :
    let final := (Bus.poll c depth { bus := b, world := w }).2
    (∀ n ∈ final.notes.toList, n.Respects attends mine owner) →
      final.bus.registry.Has mine own := by
  intro final hnotes
  rw [(replays_poll c depth b w).registry]
  exact h.after howned hnotes

/-- **In a poll in which all respect the handlers**, just one of them is called for each of their
events that is dispatched. -/
theorem calm_poll (c : Conduct κ γ ε ω R) (depth : Nat) (w : ω) (h : b.registry.Has mine own)
    (hown : own.Serves c.name attends owner) :
    let final := (Bus.poll c depth { bus := b, world := w }).2
    (∀ n ∈ final.notes.toList, n.Respects attends mine owner) →
      ∀ n ∈ final.notes.toList, n.Calm attends mine :=
  calm_of_respects h hown (replays_poll c depth b w).truthful

end Polls

/-! ## Handlers that respect others -/

/-- A request that respects the handlers and triggers none of the events they attend to. -/
def Ask.Respects (attends : ε → Bool) (mine : κ → Bool) (owner : Text) : Ask κ γ ε ι → Prop
  | .register event registration => (Operation.register event registration).Respects mine owner
  | .unregister event handler =>
    (Operation.unregister event handler : Operation κ γ).Respects mine owner
  | .unregisterAll other => (Operation.unregisterAll other : Operation κ γ).Respects mine owner
  | .trigger event => attends event = false
  | .wake | .poll | .act _ => True

/-- All that handlers ask for respects some of them, and so does what they do to a world that is
as it should be. -/
structure Conduct.Respects (c : Conduct κ γ ε ω R) (attends : ε → Bool) (mine : κ → Bool)
    (owner : Text) (Good : ω → Prop) : Prop where
  asks : ∀ k context event, (c.behave k context event).Asks (Ask.Respects attends mine owner)
  good : ∀ i w, Good w → Good (c.perform i w).2.1
  acts : ∀ i w, Good w → ∀ event ∈ (c.perform i w).2.2, attends event = false

/-- All that was done so far respects the handlers. -/
structure Respecting (attends : ε → Bool) (mine : κ → Bool) (owner : Text) (Good : ω → Prop)
    (r : Run κ γ ε ω) : Prop where
  notes : ∀ n ∈ r.notes.toList, n.Respects attends mine owner
  good : Good r.world

namespace Respecting

variable {c : Conduct κ γ ε ω R} {attends : ε → Bool} {mine : κ → Bool} {owner : Text}
  {Good : ω → Prop} {r : Run κ γ ε ω} {poll : Run κ γ ε ω → Nat × Run κ γ ε ω}

theorem note (h : Respecting attends mine owner Good r) {n : Note κ γ ε}
    (hn : n.Respects attends mine owner) : Respecting attends mine owner Good (r.note n) := by
  refine ⟨?_, h.good⟩
  rw [Run.toList_notes_note]
  exact List.forall_mem_append.2 ⟨h.notes, List.forall_mem_singleton.2 hn⟩

theorem onBus (h : Respecting attends mine owner Good r) (bus : Bus κ γ ε) :
    Respecting attends mine owner Good { r with bus } := ⟨h.notes, h.good⟩

theorem trigger (h : Respecting attends mine owner Good r) {event : ε}
    (hevent : attends event = false) : Respecting attends mine owner Good (r.trigger event) :=
  (h.onBus (r.bus.trigger event)).note (n := .triggered event) hevent

theorem triggerAll (h : Respecting attends mine owner Good r) {events : List ε}
    (hevents : ∀ event ∈ events, attends event = false) :
    Respecting attends mine owner Good (events.foldl Run.trigger r) :=
  List.foldlRecOn events Run.trigger h fun _ hr event hmem => hr.trigger (hevents event hmem)

variable [DecidableEq κ]

theorem serve (hc : c.Respects attends mine owner Good) (h : Respecting attends mine owner Good r)
    (hpoll : ∀ r, Respecting attends mine owner Good r →
      Respecting attends mine owner Good (poll r).2)
    {q : Ask κ γ ε R.Ask} (hq : q.Respects attends mine owner) :
    Respecting attends mine owner Good (serve c poll q r).2 := by
  cases q with
  | register event registration =>
    exact (h.onBus _).note (n := .registered event registration) hq
  | unregister event handler =>
    exact (h.onBus _).note (n := .unregistered event handler _) hq
  | unregisterAll other =>
    exact (h.onBus _).note (n := .unregisteredAll other _) hq
  | trigger event => exact h.trigger hq
  | wake => exact h.onBus _
  | poll => exact hpoll r h
  | act i =>
    have hacted : Respecting attends mine owner Good
        { r with world := (c.perform i r.world).2.1 } := ⟨h.notes, hc.good i r.world h.good⟩
    exact hacted.triggerAll (hc.acts i r.world h.good)

theorem run (hc : c.Respects attends mine owner Good) (h : Respecting attends mine owner Good r)
    (hpoll : ∀ r, Respecting attends mine owner Good r →
      Respecting attends mine owner Good (poll r).2)
    {α : Type} {p : Program (requests κ γ ε R) α} (hp : p.Asks (Ask.Respects attends mine owner)) :
    Respecting attends mine owner Good (p.run (Bus.serve c poll) r).2 := by
  induction p generalizing r with
  | done | failed | panicked => exact h
  | ask q next ih => exact ih _ (h.serve hc hpoll hp.1) (hp.2 _)

theorem dispatch (hc : c.Respects attends mine owner Good)
    (h : Respecting attends mine owner Good r)
    (hpoll : ∀ r, Respecting attends mine owner Good r →
      Respecting attends mine owner Good (poll r).2)
    (event : ε) : Respecting attends mine owner Good (dispatch c poll r event) := by
  have hbegun : Respecting attends mine owner Good
      (r.note (.dispatched event (r.bus.registry.registrations (c.name event)))) :=
    h.note trivial
  refine List.foldlRecOn _ (call c poll event) hbegun fun r hr registration _ => ?_
  have hcalled := hr.note (n := .called event registration) trivial
  exact (hcalled.run hc hpoll (hc.asks _ _ event)).note trivial

end Respecting

/-- **Where all handlers respect some of them, so does all that a poll does.** -/
theorem respecting_poll [DecidableEq κ] {c : Conduct κ γ ε ω R} {attends : ε → Bool}
    {mine : κ → Bool} {owner : Text} {Good : ω → Prop} {r : Run κ γ ε ω}
    (hc : c.Respects attends mine owner Good) (depth : Nat)
    (h : Respecting attends mine owner Good r) :
    Respecting attends mine owner Good (Bus.poll c depth r).2 := by
  induction depth generalizing r with
  | zero => exact h
  | succ depth ih =>
    have htaken := (h.onBus { r.bus with pending := [] }).note (n := .took r.bus.pending) trivial
    have hdone := List.foldlRecOn r.bus.pending (Bus.dispatch c (Bus.poll c depth)) htaken
      fun _ hr event _ => hr.dispatch hc (fun _ => ih) event
    exact hdone.note (n := .polled r.bus.pending.length) trivial

end IrcBot.Bus
