/-
A bus replayed from notes. Whoever knows the bus at the start and the notes since knows
its registry (`registryAfter`) and its pending events (`pendingAfter`) at every point
between; and what a note tells is so at its point (`Truthful`). The points are states the
run went through: for every front of its notes there is one (`Steps.point`).
-/
import IrcBot.Proofs.Bus.History

namespace IrcBot.Bus

variable {κ γ ε ω : Type} {R : Requests} [DecidableEq κ]

/-- What the operations among these notes make of a registry. -/
def registryAfter (start : Registry κ γ) (ns : List (Note κ γ ε)) : Registry κ γ :=
  (operations ns).foldl Registry.apply start

/-- What waits after a note. -/
def Note.queue (pending : List ε) : Note κ γ ε → List ε
  | .triggered event => pending ++ [event]
  | .took _ => []
  | _ => pending

def pendingAfter (start : List ε) (ns : List (Note κ γ ε)) : List ε := ns.foldl Note.queue start

/-- What a note tells is so of this registry and these events. -/
def Note.Holds (name : ε → Text) (registry : Registry κ γ) (pending : List ε) :
    Note κ γ ε → Prop
  | .took events => events = pending
  | .unregistered event handler found => found = (registry.unregister event handler).1
  | .unregisteredAll owner count => count = (registry.unregisterAll owner).1
  | .dispatched event snapshot => snapshot = registry.registrations (name event)
  | _ => True

/-- Every note holds of what the notes before it have made of a bus. -/
def Truthful (name : ε → Text) (b : Bus κ γ ε) (ns : List (Note κ γ ε)) : Prop :=
  ∀ before n after, ns = before ++ n :: after →
    n.Holds name (registryAfter b.registry before) (pendingAfter b.pending before)

variable {name : ε → Text} {b : Bus κ γ ε} {ns more : List (Note κ γ ε)} {n : Note κ γ ε}

omit [DecidableEq κ] in
theorem pendingAfter_concat (start : List ε) :
    pendingAfter start (ns ++ [n]) = n.queue (pendingAfter start ns) := by
  simp [pendingAfter]

theorem registryAfter_concat (start : Registry κ γ) :
    registryAfter start (ns ++ [n]) =
      n.operation?.toList.foldl Registry.apply (registryAfter start ns) := by
  rw [registryAfter, operations_concat, List.foldl_append, ← registryAfter]

theorem truthful_nil : Truthful name b [] := forall_split_nil

theorem Truthful.concat (h : Truthful name b ns)
    (hn : n.Holds name (registryAfter b.registry ns) (pendingAfter b.pending ns)) :
    Truthful name b (ns ++ [n]) := forall_split_concat h hn

theorem Truthful.front (h : Truthful name b (ns ++ more)) : Truthful name b ns := by
  rintro before n after rfl
  exact h before n (after ++ more) (by simp)

/-! ## Steps can be replayed -/

/-- The second run is the first one replayed with these notes. -/
structure Replays (name : ε → Text) (r : Run κ γ ε ω) (ns : List (Note κ γ ε))
    (r' : Run κ γ ε ω) : Prop where
  notes : r'.notes.toList = r.notes.toList ++ ns
  registry : r'.bus.registry = registryAfter r.bus.registry ns
  pending : r'.bus.pending = pendingAfter r.bus.pending ns
  truthful : Truthful name r.bus ns

variable {c : Conduct κ γ ε ω R} {r r' r'' : Run κ γ ε ω}

theorem Replays.refl (name : ε → Text) (r : Run κ γ ε ω) : Replays name r [] r :=
  ⟨by simp, rfl, rfl, truthful_nil⟩

/-- One more note. -/
theorem Replays.note (h : Replays name r ns r') (hnotes : r''.notes = r'.notes)
    (hregistry : r''.bus.registry = n.operation?.toList.foldl Registry.apply r'.bus.registry)
    (hpending : r''.bus.pending = n.queue r'.bus.pending)
    (hn : n.Holds name r'.bus.registry r'.bus.pending) : Replays name r (ns ++ [n]) (r''.note n) where
  notes := by rw [Run.toList_notes_note, hnotes, h.notes, List.append_assoc]
  registry := by
    rw [registryAfter_concat, ← h.registry]
    exact hregistry
  pending := by
    rw [pendingAfter_concat, ← h.pending]
    exact hpending
  truthful := h.truthful.concat (h.registry ▸ h.pending ▸ hn)

theorem Step.replays (hstep : Step c r' r'') (h : Replays c.name r ns r') :
    Replays c.name r ns r'' ∨ ∃ n, Replays c.name r (ns ++ [n]) r'' := by
  cases hstep with
  | wake | act => exact .inl ⟨h.notes, h.registry, h.pending, h.truthful⟩
  | register | trigger | call | leave | finish => exact .inr ⟨_, h.note rfl rfl rfl trivial⟩
  | unregister | unregisterAll | take | dispatch => exact .inr ⟨_, h.note rfl rfl rfl rfl⟩

theorem Steps.replays (hsteps : Steps c r r') : ∃ ns, Replays c.name r ns r' := by
  induction hsteps with
  | refl => exact ⟨[], .refl c.name r⟩
  | tail _ hstep ih =>
    obtain ⟨ns, h⟩ := ih
    obtain h | ⟨n, h⟩ := hstep.replays h
    · exact ⟨ns, h⟩
    · exact ⟨_, h⟩

theorem Replays.of_notes {before : List (Note κ γ ε)} (h : Replays name r ns r')
    (hnotes : r'.notes.toList = r.notes.toList ++ before) : Replays name r before r' := by
  rwa [List.append_cancel_left (h.notes.symm.trans hnotes)] at h

/-- The run went through a state in which its notes were just these. -/
theorem Steps.point (hsteps : Steps c r r') {before after : List (Note κ γ ε)}
    (hnotes : r'.notes.toList = r.notes.toList ++ (before ++ after)) :
    ∃ mid, Steps c r mid ∧ Steps c mid r' ∧ Replays c.name r before mid := by
  induction hsteps generalizing after with
  | refl =>
    have hnone : before = [] := (List.append_eq_nil_iff.1 (by simpa using hnotes)).1
    exact ⟨r, .refl, .refl, hnone ▸ .refl c.name r⟩
  | @tail r₁ r₂ hfirst hstep ih =>
    obtain rfl | ⟨front, last, rfl⟩ := List.eq_nil_or_concat after
    · obtain ⟨ns, h⟩ := Steps.replays (hfirst.tail hstep)
      exact ⟨r₂, hfirst.tail hstep, .refl, h.of_notes (by simpa using hnotes)⟩
    · -- one step adds one note at most, so the state looked for is not after the others
      have hfront : ∃ rest, r₁.notes.toList = r.notes.toList ++ (before ++ rest) := by
        obtain ⟨ns, h⟩ := Steps.replays hfirst
        obtain h' | ⟨n, h'⟩ := hstep.replays h
        · exact ⟨front ++ [last], by rw [h.notes, ← h'.notes, hnotes, List.concat_eq_append]⟩
        · refine ⟨front, ?_⟩
          have hsplit := List.append_cancel_left (h'.notes.symm.trans hnotes)
          rw [List.concat_eq_append, ← List.append_assoc] at hsplit
          rw [h.notes, (List.append_inj' hsplit rfl).1]
      obtain ⟨rest, hrest⟩ := hfront
      obtain ⟨mid, hmid, hlater, hreplays⟩ := ih hrest
      exact ⟨mid, hmid, hlater.tail hstep, hreplays⟩

end IrcBot.Bus
