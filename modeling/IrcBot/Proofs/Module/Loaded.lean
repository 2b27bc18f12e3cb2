/-
What a loaded module has registered. The handlers of one name are those that modules of
this name register, and nobody else does. What is registered of them is what the module
loaded under the name registers at a start, and nothing while there is none
(`Kept.carryOut`), whatever operations there are on modules of this and other names.
-/
import IrcBot.Proofs.Bus.Respect
import IrcBot.Proofs.Module.Moves
import IrcBot.Proofs.Module.Registering

namespace IrcBot

open Bus

variable {μ κ γ ω : Type}

/-- The handlers of the modules of this name. -/
def homed (home : κ → Option Text) (name : Text) : κ → Bool := fun k => home k = some name

section Registry

variable {registry : Registry κ γ} {mine : κ → Bool} {own : Subscriptions κ γ}
  {owner : Text} {es : List (Text × Registration κ γ)}

theorem respects_registering (hes : ∀ e ∈ es, mine e.2.handler = false) :
    ∀ op ∈ registering es, op.Respects mine owner := by
  intro op hop
  obtain ⟨e, he, rfl⟩ := List.mem_map.1 hop
  exact hes e he

variable [DecidableEq κ]

/-- What is registered under the owner of the handlers goes, and so all of them. -/
theorem Bus.Registry.Has.clear (h : registry.Has mine own)
    (howned : ∀ e ∈ own.entries, e.2.owner = owner) :
    (registry.unregisterAll owner).2.Has mine .empty := by
  obtain ⟨s, hs, rfl⟩ := h
  refine ⟨s.unregisterAll owner, hs.unregisterAll owner, Subscriptions.ext ?_⟩
  refine List.filter_eq_nil_iff.2 fun e he hmine => ?_
  obtain ⟨hmem, hother⟩ := List.mem_filter.1 he
  exact of_decide_eq_true hother (howned e (List.mem_filter.2 ⟨hmem, hmine⟩))

/-- Registering some of the handlers is registering them among their like. -/
theorem Bus.Registry.Has.registerAll (h : registry.Has mine own)
    (hes : ∀ e ∈ es, mine e.2.handler = true) :
    ((registering es).foldl Registry.apply registry).Has mine
      ((registering es).foldl Subscriptions.apply own) := by
  induction es generalizing registry own with
  | nil => exact h
  | cons e es ih =>
    obtain ⟨hmine, hes⟩ := List.forall_mem_cons.1 hes
    obtain ⟨s, hs, rfl⟩ := h
    refine ih ⟨s.register e.1 e.2, hs.register e.1 e.2, ?_⟩ hes
    refine (Subscriptions.register_filter _ fun old _ hp => ?_).trans (if_pos hmine)
    have hhandler : old.2.handler = e.2.handler := congrArg Prod.snd hp
    exact congrArg mine hhandler

/-- All that comes of registering under one owner is under this owner. -/
theorem owned_registering (hes : ∀ e ∈ es, e.2.owner = owner)
    (howned : ∀ e ∈ own.entries, e.2.owner = owner) :
    ∀ e ∈ ((registering es).foldl Subscriptions.apply own).entries, e.2.owner = owner := by
  induction es generalizing own with
  | nil => exact howned
  | cons e es ih =>
    obtain ⟨howner, hes⟩ := List.forall_mem_cons.1 hes
    refine ih hes fun old hold => ?_
    obtain rfl | ⟨hold, -⟩ := Subscriptions.mem_register.1 hold
    · exact howner
    · exact howned old hold

end Registry

/-- What a start of a module registers where there is nothing else. -/
def ModuleConduct.registers [DecidableEq κ] (c : ModuleConduct μ κ γ ω) (m : μ) (w : ω) :
    Subscriptions κ γ :=
  Subscriptions.after (registering (registered (c.name m) (c.start m w).1))

namespace Host

variable {c : ModuleConduct μ κ γ ω} {home : κ → Option Text} {m : μ} {w : ω} {name other : Text}
  {h h' : Host μ κ γ ω}

theorem ne_of_not_loaded (hloaded : h.isLoaded name = false) (m : μ) :
    h.slots.get? name ≠ some ⟨m, true⟩ := fun hslot =>
  Bool.false_ne_true (hloaded.symm.trans (isLoaded_iff.2 ⟨m, hslot⟩))

theorem homed_registered (hown : c.RegistersOwn home) (hname : c.name m = name) :
    ∀ e ∈ registered (c.name m) (c.start m w).1, homed home name e.2.handler = true :=
  fun e he => decide_eq_true (hname ▸ (own_registered hown m w e he).2)

theorem not_homed_registered (hown : c.RegistersOwn home) (hname : c.name m ≠ name) :
    ∀ e ∈ registered (c.name m) (c.start m w).1, homed home name e.2.handler = false := by
  intro e he
  have hhome := (own_registered hown m w e he).2
  exact decide_eq_false fun hother => hname (Option.some.inj (hhome.symm.trans hother))

variable [DecidableEq κ]

/-- What is registered of the handlers of a name is what the module loaded under it registers. -/
structure Kept (c : ModuleConduct μ κ γ ω) (home : κ → Option Text) (name : Text)
    (slots : Table Text (Slot μ)) (registry : Registry κ γ) : Prop where
  named : slots.All fun name slot => c.name slot.module = name
  loaded : ∀ m, slots.get? name = some ⟨m, true⟩ →
    ∃ w, registry.Has (homed home name) (c.registers m w)
  unloaded : (∀ m, slots.get? name ≠ some ⟨m, true⟩) → registry.Has (homed home name) .empty

theorem owned_registers (hown : c.RegistersOwn home) :
    ∀ e ∈ (c.registers m w).entries, e.2.owner = c.name m :=
  owned_registering (fun e he => (own_registered hown m w e he).1) fun _ he => nomatch he

/-- What is registered of the handlers stays as it is, and so does the slot. -/
theorem Kept.congr {slots slots' : Table Text (Slot μ)} {registry registry' : Registry κ γ}
    (hk : Kept c home name slots registry) (hown : c.RegistersOwn home)
    (hnamed : slots'.All fun name slot => c.name slot.module = name)
    (hslot : slots'.get? name = slots.get? name)
    (hregistry : ∀ own : Subscriptions κ γ, (∀ e ∈ own.entries, e.2.owner = name) →
      registry.Has (homed home name) own → registry'.Has (homed home name) own) :
    Kept c home name slots' registry' where
  named := hnamed
  loaded m hm := by
    rw [hslot] at hm
    obtain ⟨w, hw⟩ := hk.loaded m hm
    have hname : c.name m = name := hk.named name _ hm
    exact ⟨w, hregistry _ (hname ▸ owned_registers hown) hw⟩
  unloaded hnone := by
    rw [hslot] at hnone
    exact hregistry _ (fun _ he => nomatch he) (hk.unloaded hnone)

/-- A move under another name leaves the handlers alone. -/
theorem Kept.move_other (hk : Kept c home name h.slots h.bus.registry)
    (hown : c.RegistersOwn home) (hmove : Move c h other h') (hne : other ≠ name) :
    Kept c home name h'.slots h'.bus.registry := by
  have hstop : (Operation.unregisterAll other : Operation κ γ).Respects (homed home name) name := hne
  refine hk.congr hown (hmove.named hk.named) ?_ fun own howned hhas => ?_
  · cases hmove with
    | start _ hstart => exact (Table.get?_insert_other _ _ hne).trans (by rw [slots_start hstart])
    | fail _ hstart => rw [slots_start hstart]
    | stop => exact Table.get?_insert_other _ _ hne
    | drop => exact Table.get?_erase_other _ hne
  · cases hmove with
    | @start m h₁ _ hstart =>
      have hregistry : h₁.bus.registry = _ := registry_start_ok hstart
      show h₁.bus.registry.Has _ _
      rw [hregistry]
      exact hhas.applyAll howned (respects_registering (not_homed_registered hown hne))
    | @fail m _ _ _ hstart =>
      rw [registry_start_error hstart]
      have hstarted := hhas.applyAll howned
        (respects_registering (not_homed_registered (w := h.world) hown hne))
      exact hstarted.apply howned hstop
    | stop => exact hhas.apply howned hstop
    | drop => exact hhas

/-- A start registers what it does where there is nothing else of the handlers. -/
theorem has_registering (hown : c.RegistersOwn home) (m : μ)
    (hnone : h.bus.registry.Has (homed home (c.name m)) .empty) :
    ((registering (registered (c.name m) (c.start m w).1)).foldl Registry.apply
      h.bus.registry).Has (homed home (c.name m)) (c.registers m w) :=
  hnone.registerAll (homed_registered hown rfl)

theorem Kept.move_self (hk : Kept c home name h.slots h.bus.registry)
    (hown : c.RegistersOwn home) (hmove : Move c h name h') :
    Kept c home name h'.slots h'.bus.registry := by
  have hnamed : h'.Named c := hmove.named hk.named
  cases hmove with
  | @start m h₁ hloaded hstart =>
    have hslot : (h₁.slots.insert (c.name m) ⟨m, true⟩).get? (c.name m) = some ⟨m, true⟩ :=
      Table.get?_insert_self _ _ _
    refine ⟨hnamed, fun m' hm' => ?_, fun hnone => absurd hslot (hnone m)⟩
    obtain ⟨rfl, -⟩ := Slot.mk.inj (Option.some.inj (hslot.symm.trans hm'))
    refine ⟨h.world, ?_⟩
    show h₁.bus.registry.Has _ _
    rw [registry_start_ok hstart]
    exact has_registering hown m (hk.unloaded (ne_of_not_loaded hloaded))
  | @fail m _ _ hloaded hstart =>
    have hnone := ne_of_not_loaded ((isLoaded_congr (slots_start hstart) _).trans hloaded)
    refine ⟨hnamed, fun m' hm' => absurd hm' (hnone m'), fun _ => ?_⟩
    rw [registry_start_error hstart]
    exact (has_registering hown m (hk.unloaded (ne_of_not_loaded hloaded))).clear
      (owned_registers hown)
  | @stop m hslot =>
    have hnone (m' : μ) : (h.slots.insert (c.name m) ⟨m, false⟩).get? (c.name m) ≠
        some ⟨m', true⟩ := by
      rw [Table.get?_insert_self]
      exact fun hm' => nomatch hm'
    refine ⟨hnamed, fun m' hm' => absurd hm' (hnone m'), fun _ => ?_⟩
    obtain ⟨w, hw⟩ := hk.loaded m hslot
    exact hw.clear (owned_registers hown)
  | drop hloaded =>
    refine ⟨hnamed, fun m' hm' => ?_, fun _ => hk.unloaded (ne_of_not_loaded hloaded)⟩
    cases (Table.get?_erase_self _ _).symm.trans hm'

theorem Kept.move (hk : Kept c home name h.slots h.bus.registry) (hown : c.RegistersOwn home)
    (hmove : Move c h other h') : Kept c home name h'.slots h'.bus.registry := by
  by_cases hname : other = name
  · subst hname
    exact hk.move_self hown hmove
  · exact hk.move_other hown hmove hname

theorem Kept.moves {names : Text → Prop} (hk : Kept c home name h.slots h.bus.registry)
    (hown : c.RegistersOwn home) (hmoves : Moves c names h h') :
    Kept c home name h'.slots h'.bus.registry := by
  induction hmoves with
  | refl => exact hk
  | tail _ hmove ih =>
    obtain ⟨_, -, hmove⟩ := hmove
    exact ih.move hown hmove

/-- **What is registered of the handlers of a name is what the module loaded under it registers**,
after every operation on modules, if it was so before. -/
theorem Kept.carryOut (hk : Kept c home name h.slots h.bus.registry) (hown : c.RegistersOwn home)
    (o : Order μ) :
    Kept c home name (carryOut c h o).2.slots (carryOut c h o).2.bus.registry :=
  hk.moves hown (moves_carryOut hk.named o)

end Host

end IrcBot
