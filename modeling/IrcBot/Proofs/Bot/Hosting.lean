/-
Bots with modules. A bot starts without any, and lives: its modules are operated on and it
takes steps, in any order, and in the steps everybody respects the handlers of one name.
What is registered of them is then always what the module loaded under the name registers
at a start (`Lives.kept`). A module that comes with the bot registers each of its handlers
for one event, so while it is loaded it serves its events (`Lives.serves`), from the moment
it is loaded on (`Lives.load_serves`).
-/
import IrcBot.Bot.Builtin
import IrcBot.Proofs.Bot.Agreement
import IrcBot.Proofs.Bot.Buffers
import IrcBot.Proofs.Bot.Serving
import IrcBot.Proofs.Module.Loaded

namespace IrcBot

open Bus

variable {μ κ γ ν ω : Type}

/-! ## Modules that come with the bot -/

namespace Builtin

/-- The modules that come with the bot are among the modules. -/
structure Among (c : ModuleConduct μ κ γ ω) (key : HandlerId → κ) (builtin : Instance → μ) :
    Prop where
  name : ∀ m, c.name (builtin m) = (conduct key : ModuleConduct Instance κ γ ω).name m
  start : ∀ m w, c.start (builtin m) w = (conduct key).start m w

theorem Kind.nodup_events (kind : Kind) : kind.events.Nodup := by
  cases kind <;> decide

theorem Kind.name_injective {kind kind' : Kind} (h : kind.name = kind'.name) : kind = kind' := by
  cases kind <;> cases kind' <;> first | rfl | exact absurd h (by decide)

variable {c : ModuleConduct μ κ γ ω} {key : HandlerId → κ} {builtin : Instance → μ}
  {home : κ → Option Text} {m : Instance} {attends : Event → Bool} {k : κ}

/-- Modules that come with the bot register their own handlers only. -/
theorem registersOwn_conduct (hhome : ∀ id, home (key id) = some id.owner.kind.name) :
    (conduct key : ModuleConduct Instance κ γ ω).RegistersOwn home := by
  intro m w event handler context hmem
  obtain ⟨event', -, he⟩ := List.mem_map.1 hmem
  cases he
  exact hhome ⟨m, event⟩

/-- There may be no modules but these. -/
theorem among_conduct (key : HandlerId → κ) :
    Among (conduct key : ModuleConduct Instance κ γ ω) key id := ⟨fun _ => rfl, fun _ _ => rfl⟩

/-- The handler of a module for an event, under the name of the module. -/
def Instance.entry (key : HandlerId → κ) (m : Instance) (event : Text) :
    Text × Registration κ γ :=
  (event, { handler := key ⟨m, event⟩, context := none, owner := m.kind.name })

/-- Each event of a module has its own handler, and no others have any. -/
theorem registrations_of_entries {own : Subscriptions κ γ}
    (hentries : own.entries = m.kind.events.map (m.entry key)) (event : Text) :
    own.registrations event =
      if event ∈ m.kind.events then [(m.entry key event).2] else [] := by
  have hfilter : m.kind.events.filter ((fun e => decide (e.1 = event)) ∘ m.entry (γ := γ) key) =
      List.replicate (m.kind.events.count event) event := List.filter_eq event
  rw [Subscriptions.registrations, hentries, List.filter_map, hfilter,
    m.kind.nodup_events.count]
  split <;> rfl

theorem serves_of_entries {own : Subscriptions κ γ}
    (hentries : own.entries = m.kind.events.map (m.entry key))
    (hattends : ∀ event, attends event = true → event.name ∈ m.kind.events) :
    own.Serves Event.name attends m.kind.name where
  owned e he := by
    rw [hentries] at he
    obtain ⟨event, -, rfl⟩ := List.mem_map.1 he
    rfl
  once event hevent := by
    rw [registrations_of_entries hentries, if_pos (hattends event hevent)]
    rfl

variable [DecidableEq κ]

/-- The handlers of a module. -/
def Instance.owns (key : HandlerId → κ) (m : Instance) (k : κ) : Bool :=
  m.kind.events.any fun event => key ⟨m, event⟩ = k

theorem Among.entries_registers (hc : Among c key builtin) (m : Instance) (w : ω) :
    (c.registers (builtin m) w).entries = m.kind.events.map (m.entry key) := by
  have hregistered : registered (c.name (builtin m)) (c.start (builtin m) w).1 =
      m.kind.events.map (m.entry key) := by
    rw [hc.name, hc.start]
    exact List.filterMap_map.trans (congrFun List.filterMap_eq_map _)
  rw [ModuleConduct.registers, hregistered]
  refine entries_registering .empty _ ?_
  have hevents : (m.kind.events.map (m.entry (γ := γ) key)).map (Prod.fst ∘ pair) = m.kind.events :=
    List.map_map.trans (List.map_id _)
  refine List.Nodup.of_map Prod.fst ?_
  rw [List.map_map, Subscriptions.empty, List.nil_append, hevents]
  exact m.kind.nodup_events

/-- They are all of handlers of the module. -/
theorem Among.of_owns (hc : Among c key builtin) (m : Instance) (w : ω) :
    ((c.registers (builtin m) w).of (m.owns key)).entries = m.kind.events.map (m.entry key) := by
  show (c.registers (builtin m) w).entries.filter _ = _
  rw [hc.entries_registers]
  refine List.filter_eq_self.2 fun e he => ?_
  obtain ⟨event, hevent, rfl⟩ := List.mem_map.1 he
  exact List.any_eq_true.2 ⟨event, hevent, decide_eq_true rfl⟩

theorem Among.homed_of_owns (hc : Among c key builtin) (hown : c.RegistersOwn home) (w : ω)
    (hk : m.owns key k = true) : homed home m.kind.name k = true := by
  obtain ⟨event, hevent, he⟩ := List.any_eq_true.1 hk
  obtain rfl : key ⟨m, event⟩ = k := of_decide_eq_true he
  have hregisters : .register event (key ⟨m, event⟩) none ∈ (c.start (builtin m) w).1 := by
    rw [hc.start]
    exact List.mem_map.2 ⟨event, hevent, rfl⟩
  have hhome := hown (builtin m) w event _ none hregisters
  rw [hc.name] at hhome
  exact decide_eq_true hhome

/-- To start such a module cannot fail, so to load it only fails if one of its name is loaded. -/
theorem Among.load_ok (hc : Among c key builtin) {h : Host μ κ γ ω}
    (hloaded : h.isLoaded m.kind.name = false) :
    ∃ h' : Host μ κ γ ω, h.load c (builtin m) = (.ok (), h') ∧
      h'.slots.get? m.kind.name = some ⟨builtin m, true⟩ := by
  have hname : c.name (builtin m) = m.kind.name := hc.name m
  rw [← hname] at hloaded ⊢
  rcases hstart : Host.start c h (c.name (builtin m)) (builtin m) with ⟨_ | _, h₁⟩
  · obtain ⟨reason, hreason, -⟩ := Host.start_error hstart
    rw [hc.start] at hreason
    cases hreason
  · refine ⟨h₁.setSlot (c.name (builtin m)) ⟨builtin m, true⟩, ?_, Table.get?_insert_self _ _ _⟩
    simp only [Host.load, hloaded, hstart, Bool.false_eq_true, if_false]

end Builtin

/-! ## Lives of a bot -/

namespace Bot

variable [DecidableEq κ] {c : ModuleConduct μ κ γ ω} {home : κ → Option Text} {name : Text}
  {networks : List Config.Network} {b : Bot μ κ γ}

/-- What a bot with these networks may have become, while everybody respects the handlers of
modules of this name, whatever events they trigger. -/
inductive Lives (ν : Type) (c : ModuleConduct μ κ γ ω) (home : κ → Option Text) (name : Text)
    (networks : List Config.Network) : Bot μ κ γ → Prop where
  | fresh (settings : Config.Bot) :
    Lives ν c home name networks { settings, net := .ofNetworks networks }
  /-- An operation on its modules, the world being whatever it is by then. -/
  | order {b : Bot μ κ γ} (hb : Lives ν c home name networks b) (o : Host.Order μ) (w : ω) :
    Lives ν c home name networks (b.withHost w fun h => h.carryOut c o).2.2
  | step {b : Bot μ κ γ} (hb : Lives ν c home name networks b) {s : Step κ γ ν}
    (hs : s.Respects (fun _ => false) (homed home name) name b) :
    Lives ν c home name networks (b.step s)

namespace Lives

/-- **What is registered of the handlers of the name** is what the module loaded under it
registers. -/
theorem kept (hb : Lives ν c home name networks b) (hown : c.RegistersOwn home) :
    Host.Kept c home name b.slots b.bus.registry := by
  induction hb with
  | fresh settings =>
    exact ⟨Table.all_empty, fun _ hm => (nomatch hm), fun _ =>
      ⟨.empty, Registry.refines_empty, rfl⟩⟩
  | @order b _ o w ih =>
    exact Host.Kept.carryOut (h := { slots := b.slots, bus := b.bus, world := w }) ih hown o
  | @step b _ s hs ih =>
    have hslots : (b.step s).slots = b.slots := by cases s <;> rfl
    rw [hslots]
    exact ih.congr hown ih.named rfl fun own howned hhas => has_step hhas howned hs

theorem sound (hb : Lives ν c home name networks b) : b.net.Sound := by
  induction hb with
  | fresh => exact Net.sound_ofNetworks networks
  | order _ _ _ ih => exact ih
  | @step b _ s _ ih => exact (moves_step ih s).sound ih

theorem sane (hb : Lives ν c home name networks b) : b.net.Sane := by
  induction hb with
  | fresh => exact sane_run (κ := κ) (γ := γ) (ν := ν) (μ := μ) {} networks []
  | order _ _ _ ih => exact ih
  | @step b hb s _ ih => exact sane_step hb.sound ih s

variable {key : Builtin.HandlerId → κ} {builtin : Builtin.Instance → μ} {m : Builtin.Instance}
  {attends : Event → Bool}

/-- The kind of a module is told by the name it is loaded under. -/
theorem name_eq (hb : Lives ν c home name networks b) (hown : c.RegistersOwn home)
    (hc : Builtin.Among c key builtin) {loaded : Bool}
    (hslot : b.slots.get? name = some ⟨builtin m, loaded⟩) : m.kind.name = name := by
  have hname : c.name (builtin m) = name := (hb.kept hown).named name _ hslot
  rw [← hname, hc.name]
  rfl

/-- **A module that comes with the bot has its handlers registered while it is loaded**, each of
them for one of its events. -/
theorem has_own (hb : Lives ν c home name networks b) (hown : c.RegistersOwn home)
    (hc : Builtin.Among c key builtin) (hslot : b.slots.get? name = some ⟨builtin m, true⟩) :
    ∃ own : Subscriptions κ γ, b.bus.registry.Has (m.owns key) own ∧
      own.entries = m.kind.events.map (m.entry key) := by
  obtain rfl : m.kind.name = name := hb.name_eq hown hc hslot
  obtain ⟨w, hw⟩ := (hb.kept hown).loaded (builtin m) hslot
  exact ⟨_, hw.restrict fun k hk => hc.homed_of_owns hown w hk, hc.of_owns m w⟩

/-- So it serves its events. -/
theorem serves (hb : Lives ν c home name networks b) (hown : c.RegistersOwn home)
    (hc : Builtin.Among c key builtin) (hslot : b.slots.get? name = some ⟨builtin m, true⟩)
    (hattends : ∀ event, attends event = true → event.name ∈ m.kind.events) :
    ∃ own : Subscriptions κ γ, b.bus.registry.Has (m.owns key) own ∧
      own.Serves Event.name attends name := by
  obtain ⟨own, hhas, hentries⟩ := hb.has_own hown hc hslot
  obtain rfl : m.kind.name = name := hb.name_eq hown hc hslot
  exact ⟨own, hhas, Builtin.serves_of_entries hentries hattends⟩

/-- **Loading such a module registers its handlers**, each of them once, for the event it is for,
under the name of the module; so the module serves its events. Loading cannot fail, unless a
module of this name is loaded already. -/
theorem load_serves (hb : Lives ν c home m.kind.name networks b) (hown : c.RegistersOwn home)
    (hc : Builtin.Among c key builtin) (w : ω)
    (hfree : ∀ other, b.slots.get? m.kind.name ≠ some ⟨other, true⟩) :
    let loading := b.withHost w fun h => h.load c (builtin m)
    let registry := loading.2.2.bus.registry
    loading.1 = .ok () ∧ loading.2.2.slots.get? m.kind.name = some ⟨builtin m, true⟩ ∧
      (∀ event, (registry.registrations event).filter (fun r => m.owns key r.handler) =
        if event ∈ m.kind.events then
          [{ handler := key ⟨m, event⟩, context := none, owner := m.kind.name }]
        else []) ∧
      registry.Serves Event.name (fun event => event.name ∈ m.kind.events) (m.owns key) := by
  intro loading registry
  have hfree : ({ slots := b.slots, bus := b.bus, world := w } : Host μ κ γ ω).isLoaded
      m.kind.name = false := by
    refine eq_false_of_ne_true fun hloaded => ?_
    obtain ⟨other, hother⟩ := Host.isLoaded_iff.1 hloaded
    exact hfree other hother
  obtain ⟨h', hload, hslot'⟩ := hc.load_ok hfree
  have hslot : loading.2.2.slots.get? m.kind.name = some ⟨builtin m, true⟩ :=
    (congrArg (fun r : _ × Host μ κ γ ω => r.2.slots.get? m.kind.name) hload).trans hslot'
  obtain ⟨own, hhas, hentries⟩ := (hb.order (.load (builtin m)) w).has_own hown hc hslot
  refine ⟨congrArg Prod.fst hload, hslot, fun event => ?_, hhas.serves
    (Builtin.serves_of_entries hentries fun event hevent => of_decide_eq_true hevent)⟩
  exact (hhas.registrations event).trans (Builtin.registrations_of_entries hentries event)

end Lives

end Bot

end IrcBot
