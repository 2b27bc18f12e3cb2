/-
What a registry is for: an ordered map. All registrations stand in one list, each
pair of event and handler once, in the order in which the pairs came up. A pair
that is registered again keeps its place; owners are read off the list itself, so
nothing has to be kept in step with it.
-/
import IrcBot.Bus.Registry
import Mathlib.Data.List.Nodup

namespace IrcBot.Bus

variable {κ γ : Type}

/-- What tells an entry from all others. -/
def pair (e : Text × Registration κ γ) : Text × κ := (e.1, e.2.handler)

@[ext]
structure Subscriptions (κ γ : Type) where
  entries : List (Text × Registration κ γ)
  nodup : (entries.map pair).Nodup

namespace Subscriptions

variable {s : Subscriptions κ γ} {new reg : Registration κ γ} {event owner : Text}
variable {p : Text × κ} {e : Text × Registration κ γ}

def empty : Subscriptions κ γ := ⟨[], .nil⟩

def registrations (s : Subscriptions κ γ) (event : Text) : List (Registration κ γ) :=
  (s.entries.filter (·.1 = event)).map (·.2)

def owned (s : Subscriptions κ γ) (owner : Text) : List (Text × κ) :=
  (s.entries.filter (·.2.owner = owner)).map pair

/-- The entries of which something holds. -/
def filter (s : Subscriptions κ γ) (keep : Text × Registration κ γ → Bool) : Subscriptions κ γ :=
  ⟨s.entries.filter keep, s.nodup.sublist (List.filter_sublist.map pair)⟩

def unregisterAll (s : Subscriptions κ γ) (owner : Text) : Subscriptions κ γ :=
  s.filter (·.2.owner ≠ owner)

/-- Dropping first what is dropped anyway changes nothing. -/
theorem filter_filter {first keep : Text × Registration κ γ → Bool}
    (h : ∀ e ∈ s.entries, keep e = true → first e = true) :
    (s.filter first).filter keep = s.filter keep := by
  refine Subscriptions.ext ((List.filter_filter).trans (List.filter_congr fun e he => ?_))
  cases hkeep : keep e with
  | true => rw [h e he hkeep, Bool.and_self]
  | false => rw [Bool.false_and]

variable [DecidableEq κ]

def contains (s : Subscriptions κ γ) (p : Text × κ) : Bool := p ∈ s.entries.map pair

def unregister (s : Subscriptions κ γ) (p : Text × κ) : Subscriptions κ γ :=
  s.filter (pair · ≠ p)

/-- The entry, or the new one if it is of the same pair. -/
def supersede (new e : Text × Registration κ γ) : Text × Registration κ γ :=
  if pair e = pair new then new else e

@[simp] theorem pair_supersede (new e : Text × Registration κ γ) :
    pair (supersede new e) = pair e := by
  unfold supersede
  split
  · next h => exact h.symm
  · rfl

@[simp] theorem map_pair_supersede (new : Text × Registration κ γ)
    (l : List (Text × Registration κ γ)) : (l.map (supersede new)).map pair = l.map pair := by
  simp [Function.comp_def]

theorem nodup_concat (h : s.contains (pair e) = false) :
    ((s.entries ++ [e]).map pair).Nodup := by
  have habsent : pair e ∉ s.entries.map pair := by simpa [contains] using h
  rw [List.map_append, List.map_singleton, ← List.concat_eq_append]
  exact s.nodup.concat habsent

/-- Takes a registration in, in the place of the pair's old one if there is one. -/
def register (s : Subscriptions κ γ) (event : Text) (new : Registration κ γ) :
    Subscriptions κ γ :=
  if h : s.contains (event, new.handler) = true then
    ⟨s.entries.map (supersede (event, new)), by rw [map_pair_supersede]; exact s.nodup⟩
  else ⟨s.entries ++ [(event, new)], nodup_concat (eq_false_of_ne_true h)⟩

/-! ## What is in there -/

omit [DecidableEq κ] in
theorem mem_registrations : reg ∈ s.registrations event ↔ (event, reg) ∈ s.entries := by
  simp [registrations]

omit [DecidableEq κ] in
theorem mem_owned : p ∈ s.owned owner ↔ ∃ e ∈ s.entries, e.2.owner = owner ∧ pair e = p := by
  simp [owned, and_assoc]

theorem contains_iff : s.contains p = true ↔ ∃ e ∈ s.entries, pair e = p := by
  simp [contains]

omit [DecidableEq κ] in
/-- The entry of a pair is the only one. -/
theorem eq_of_pair_eq {e' : Text × Registration κ γ} (he : e ∈ s.entries) (he' : e' ∈ s.entries)
    (h : pair e = pair e') : e = e' :=
  List.inj_on_of_nodup_map s.nodup he he' h

theorem entries_register_of_contains (h : s.contains (event, new.handler) = true) :
    (s.register event new).entries = s.entries.map (supersede (event, new)) := by
  rw [register, dif_pos h]

theorem entries_register_of_not_contains (h : s.contains (event, new.handler) = false) :
    (s.register event new).entries = s.entries ++ [(event, new)] := by
  rw [register, dif_neg (by simp [h])]

theorem mem_register :
    e ∈ (s.register event new).entries ↔
      e = (event, new) ∨ (e ∈ s.entries ∧ pair e ≠ (event, new.handler)) := by
  cases hc : s.contains (event, new.handler) with
  | true =>
    rw [entries_register_of_contains hc, List.mem_map]
    constructor
    · rintro ⟨old, hold, rfl⟩
      unfold supersede
      split
      · exact .inl rfl
      · next hne => exact .inr ⟨hold, hne⟩
    · rintro (rfl | ⟨he, hne⟩)
      · obtain ⟨old, hold, hp⟩ := contains_iff.1 hc
        exact ⟨old, hold, if_pos hp⟩
      · exact ⟨e, he, if_neg hne⟩
  | false =>
    have habsent (he : e ∈ s.entries) : pair e ≠ (event, new.handler) := fun hp =>
      Bool.false_ne_true (hc.symm.trans (contains_iff.2 ⟨e, he, hp⟩))
    rw [entries_register_of_not_contains hc, List.mem_append, List.mem_singleton]
    constructor
    · rintro (he | he)
      · exact .inr ⟨he, habsent he⟩
      · exact .inl he
    · rintro (he | ⟨he, -⟩)
      · exact .inr he
      · exact .inl he

/-! ## Registering in a part -/

theorem filter_supersede {keep : Text × Registration κ γ → Bool}
    (h : ∀ e ∈ s.entries, pair e = (event, new.handler) → keep e = keep (event, new)) :
    (s.entries.map (supersede (event, new))).filter keep =
      (s.entries.filter keep).map (supersede (event, new)) := by
  rw [List.filter_map]
  congr 1
  refine List.filter_congr fun e he => ?_
  simp only [Function.comp_apply, supersede]
  split
  · next hp => exact (h e he hp).symm
  · rfl

/-- Registering in a part of the entries, when the pair is in the same part before and after. -/
theorem register_filter (keep : Text × Registration κ γ → Bool)
    (h : ∀ e ∈ s.entries, pair e = (event, new.handler) → keep e = keep (event, new)) :
    (s.register event new).filter keep =
      if keep (event, new) = true then (s.filter keep).register event new
      else s.filter keep := by
  have hcontains (hkeep : keep (event, new) = true) :
      (s.filter keep).contains (event, new.handler) = s.contains (event, new.handler) := by
    rw [Bool.eq_iff_iff, contains_iff, contains_iff]
    constructor
    · rintro ⟨e, he, hp⟩
      exact ⟨e, (List.mem_filter.1 he).1, hp⟩
    · rintro ⟨e, he, hp⟩
      exact ⟨e, List.mem_filter.2 ⟨he, (h e he hp).trans hkeep⟩, hp⟩
  refine Subscriptions.ext ?_
  show (s.register event new).entries.filter keep = _
  cases hc : s.contains (event, new.handler) with
  | true =>
    rw [entries_register_of_contains hc, filter_supersede h]
    split
    · next hkeep =>
      rw [entries_register_of_contains ((hcontains hkeep).trans hc)]
      rfl
    · next hdrop =>
      -- no entry of the pair is left to be superseded
      refine (List.map_congr_left fun e he => ?_).trans (List.map_id _)
      obtain ⟨hmem, hkeep⟩ := List.mem_filter.1 he
      exact if_neg fun hp => hdrop ((h e hmem hp).symm.trans hkeep)
  | false =>
    rw [entries_register_of_not_contains hc, List.filter_append]
    split
    · next hkeep =>
      rw [entries_register_of_not_contains ((hcontains hkeep).trans hc),
        List.filter_cons_of_pos hkeep]
      rfl
    · next hdrop =>
      rw [List.filter_cons_of_neg hdrop, List.filter_nil, List.append_nil]
      rfl

/-! ## Nothing is in there twice -/

omit [DecidableEq κ] in
theorem nodup_registrations (s : Subscriptions κ γ) (event : Text) :
    ((s.registrations event).map (·.handler)).Nodup := by
  rw [registrations, List.map_map]
  refine List.Nodup.map_on ?_ ((List.Nodup.of_map pair s.nodup).filter _)
  intro e he e' he' h
  obtain ⟨hmem, hevent⟩ := List.mem_filter.1 he
  obtain ⟨hmem', hevent'⟩ := List.mem_filter.1 he'
  have hevents : e.1 = e'.1 := (of_decide_eq_true hevent).trans (of_decide_eq_true hevent').symm
  exact eq_of_pair_eq hmem hmem' (Prod.ext hevents h)

omit [DecidableEq κ] in
theorem nodup_owned (s : Subscriptions κ γ) (owner : Text) : (s.owned owner).Nodup :=
  s.nodup.sublist (List.filter_sublist.map pair)

/-! ## The registrations of an event -/

omit [DecidableEq κ] in
theorem registrations_filter (s : Subscriptions κ γ) (keep : Text × Registration κ γ → Bool)
    (event : Text) :
    (s.filter keep).registrations event =
      (s.registrations event).filter fun reg => keep (event, reg) := by
  rw [registrations, registrations, List.filter_map, filter, List.filter_comm]
  congr 1
  refine List.filter_congr fun e he => ?_
  have hevent : e.1 = event := of_decide_eq_true (List.mem_filter.1 he).2
  rw [← hevent]
  rfl

theorem registrations_register_of_contains (h : s.contains (event, new.handler) = true)
    (event' : Text) :
    (s.register event new).registrations event' =
      if event = event' then Registry.replaceIn (s.registrations event) new
      else s.registrations event' := by
  have hfirst (e : Text × Registration κ γ) : (supersede (event, new) e).1 = e.1 :=
    congrArg (Prod.fst : Text × κ → Text) (pair_supersede (event, new) e)
  rw [registrations, entries_register_of_contains h, List.filter_map, List.map_map]
  simp only [Function.comp_def, hfirst]
  split
  · next he =>
    subst he
    rw [Registry.replaceIn, registrations, List.map_map]
    refine List.map_congr_left fun e hmem => ?_
    have hevent : e.1 = event := of_decide_eq_true (List.mem_filter.1 hmem).2
    simp [supersede, pair, hevent, apply_ite Prod.snd]
  · next he =>
    refine List.map_congr_left fun e hmem => ?_
    have hevent : e.1 = event' := of_decide_eq_true (List.mem_filter.1 hmem).2
    simp [supersede, pair, hevent, Ne.symm he]

theorem registrations_register_of_not_contains (h : s.contains (event, new.handler) = false)
    (event' : Text) :
    (s.register event new).registrations event' =
      if event = event' then s.registrations event ++ [new] else s.registrations event' := by
  rw [registrations, entries_register_of_not_contains h, List.filter_append, List.map_append]
  split
  · next he => simp [he, registrations]
  · next he => simp [he, registrations]

theorem contains_iff_registrations {handler : κ} :
    s.contains (event, handler) = true ↔ ∃ reg ∈ s.registrations event, reg.handler = handler := by
  rw [contains_iff]
  constructor
  · rintro ⟨⟨event', reg⟩, he, hp⟩
    obtain ⟨rfl, rfl⟩ := Prod.mk.inj hp
    exact ⟨reg, mem_registrations.2 he, rfl⟩
  · rintro ⟨reg, hreg, rfl⟩
    exact ⟨(event, reg), mem_registrations.1 hreg, rfl⟩

end Subscriptions

end IrcBot.Bus
