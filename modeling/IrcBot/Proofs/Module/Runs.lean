/-
Runs of a host of modules. A step is an operation on the modules, a change that somebody
else makes to the registry of the bus, or anything else that goes on meanwhile. To tell
what the modules have done when they were started, a conduct can be recorded: beside its
world it then keeps what each start did. Recording changes nothing else (`forget_run`).
-/
import IrcBot.Module.Host
import IrcBot.Proofs.Bus.History

namespace IrcBot

variable {μ κ γ ω : Type}

namespace Host

/-- An operation on the modules. -/
inductive Order (μ : Type) where
  | load (module : μ)
  | loadKnown (name : Text)
  | unload (name : Text)
  | reload (name : Text)
  | replace (module : μ)
  | unloadAll

inductive Step (μ κ γ ω : Type) where
  | order (o : Order μ)
  /-- Somebody else registers a handler, or takes handlers off. -/
  | other (op : Bus.Operation κ γ)
  /-- Events are triggered and taken, and the world goes on. -/
  | pass (pending : List Event → List Event) (world : ω → ω)

variable [DecidableEq κ]

def carryOut (c : ModuleConduct μ κ γ ω) (h : Host μ κ γ ω) :
    Order μ → Except ModuleError Unit × Host μ κ γ ω
  | .load module => load c h module
  | .loadKnown name => loadKnown c h name
  | .unload name => unload c h name
  | .reload name => reload c h name
  | .replace module => replace c h module
  | .unloadAll => (.ok (), unloadAll c h)

def proceed (c : ModuleConduct μ κ γ ω) (h : Host μ κ γ ω) : Step μ κ γ ω → Host μ κ γ ω
  | .order o => (carryOut c h o).2
  | .other op => { h with bus := { h.bus with registry := h.bus.registry.apply op } }
  | .pass pending world =>
    { h with bus := { h.bus with pending := pending h.bus.pending }, world := world h.world }

def run (c : ModuleConduct μ κ γ ω) (h : Host μ κ γ ω) (steps : List (Step μ κ γ ω)) :
    Host μ κ γ ω := steps.foldl (proceed c) h

theorem run_concat (c : ModuleConduct μ κ γ ω) (h : Host μ κ γ ω)
    (steps : List (Step μ κ γ ω)) (s : Step μ κ γ ω) :
    run c h (steps ++ [s]) = proceed c (run c h steps) s := by
  rw [run, List.foldl_append]
  rfl

end Host

/-! ## Keeping more beside the world -/

/-- A conduct that does the same, and may keep more in its world. -/
structure ModuleConduct.Extends {ω' : Type} (c' : ModuleConduct μ κ γ ω')
    (c : ModuleConduct μ κ γ ω) (f : ω' → ω) : Prop where
  name : c'.name = c.name
  start : ∀ m w, (c'.start m w).map id (Prod.map id f) = c.start m (f w)
  stop : ∀ m w, f (c'.stop m w) = c.stop m (f w)

namespace Host

/-- The host as it is with less in its world. -/
def onWorld {ω' : Type} (f : ω' → ω) (h : Host μ κ γ ω') : Host μ κ γ ω :=
  { slots := h.slots, bus := h.bus, world := f h.world }

/-- The same step, beside which the rest of the world stays as it is. -/
def Step.Extends {ω' : Type} (f : ω' → ω) : Step μ κ γ ω' → Step μ κ γ ω → Prop
  | .order o', .order o => o' = o
  | .other op', .other op => op' = op
  | .pass pending' world', .pass pending world =>
    pending' = pending ∧ ∀ w, f (world' w) = world (f w)
  | _, _ => False

section Extends

variable [DecidableEq κ] {ω' : Type} {c : ModuleConduct μ κ γ ω} {c' : ModuleConduct μ κ γ ω'}
variable {f : ω' → ω}

theorem onWorld_start (hc : c'.Extends c f) (h : Host μ κ γ ω') (name : Text) (m : μ) :
    (start c' h name m).map id (onWorld f) = start c (h.onWorld f) name m := by
  have hstart : c.start m ((h.onWorld f).publish .loading name).world =
      (c'.start m (h.publish .loading name).world).map id (Prod.map id f) := (hc.start m _).symm
  simp only [Host.start, hstart]
  dsimp only [Prod.map, id]
  cases (c'.start m (h.publish .loading name).world).2.1 <;> rfl

theorem onWorld_stop (hc : c'.Extends c f) (h : Host μ κ γ ω') (name : Text) (m : μ) :
    (stop c' h name m).onWorld f = stop c (h.onWorld f) name m := by
  have hstop : c.stop m ((h.onWorld f).publish .unloading name).world =
      f (c'.stop m (h.publish .unloading name).world) := (hc.stop m _).symm
  simp only [stop, hstop]
  rfl

theorem onWorld_load (hc : c'.Extends c f) (h : Host μ κ γ ω') (m : μ) :
    (load c' h m).map id (onWorld f) = load c (h.onWorld f) m := by
  have hloaded : (h.onWorld f).isLoaded (c.name m) = h.isLoaded (c.name m) := rfl
  simp only [load, hc.name, hloaded, ← onWorld_start hc]
  split
  · rfl
  · rcases start c' h (c.name m) m with ⟨_ | _, h'⟩ <;> rfl

theorem onWorld_loadKnown (hc : c'.Extends c f) (h : Host μ κ γ ω') (name : Text) :
    (loadKnown c' h name).map id (onWorld f) = loadKnown c (h.onWorld f) name := by
  have hslots : (h.onWorld f).slots = h.slots := rfl
  simp only [loadKnown, hslots, ← onWorld_load hc]
  rcases h.slots.get? name with _ | ⟨m, _ | _⟩ <;> rfl

theorem onWorld_unload (hc : c'.Extends c f) (h : Host μ κ γ ω') (name : Text) :
    (unload c' h name).map id (onWorld f) = unload c (h.onWorld f) name := by
  have hslots : (h.onWorld f).slots = h.slots := rfl
  simp only [unload, hslots, ← onWorld_stop hc]
  rcases h.slots.get? name with _ | ⟨m, _ | _⟩ <;> rfl

theorem onWorld_reload (hc : c'.Extends c f) (h : Host μ κ γ ω') (name : Text) :
    (reload c' h name).map id (onWorld f) = reload c (h.onWorld f) name := by
  have hslots : (h.onWorld f).slots = h.slots := rfl
  simp only [reload, hslots, ← onWorld_stop hc, ← onWorld_start hc]
  rcases h.slots.get? name with _ | ⟨m, _ | _⟩
  · rfl
  · rfl
  · dsimp only
    rcases start c' (stop c' h name m) name m with ⟨_ | _, h'⟩ <;> rfl

theorem onWorld_replace (hc : c'.Extends c f) (h : Host μ κ γ ω') (m : μ) :
    (replace c' h m).map id (onWorld f) = replace c (h.onWorld f) m := by
  have hunload := congrArg Prod.snd (onWorld_unload hc h (c.name m))
  simp only [replace, hc.name, ← hunload]
  exact onWorld_load hc { (unload c' h (c.name m)).2 with
    slots := (unload c' h (c.name m)).2.slots.erase (c.name m) } m

theorem onWorld_unloadAll (hc : c'.Extends c f) (h : Host μ κ γ ω') :
    (unloadAll c' h).onWorld f = unloadAll c (h.onWorld f) :=
  (List.foldl_hom (onWorld f) fun h name =>
    (congrArg Prod.snd (onWorld_unload hc h name)).symm).symm

theorem onWorld_carryOut (hc : c'.Extends c f) (h : Host μ κ γ ω') (o : Order μ) :
    (carryOut c' h o).map id (onWorld f) = carryOut c (h.onWorld f) o := by
  cases o with
  | load m => exact onWorld_load hc h m
  | loadKnown name => exact onWorld_loadKnown hc h name
  | unload name => exact onWorld_unload hc h name
  | reload name => exact onWorld_reload hc h name
  | replace m => exact onWorld_replace hc h m
  | unloadAll => exact congrArg (Prod.mk _) (onWorld_unloadAll hc h)

theorem onWorld_proceed (hc : c'.Extends c f) (h : Host μ κ γ ω') {s' : Step μ κ γ ω'}
    {s : Step μ κ γ ω} (hs : s'.Extends f s) :
    (proceed c' h s').onWorld f = proceed c (h.onWorld f) s := by
  cases s' <;> cases s <;> try cases hs
  case order.order.refl o => exact congrArg Prod.snd (onWorld_carryOut hc h o)
  case other.other.refl op => rfl
  case pass.pass.intro hpending hworld =>
    subst hpending
    exact congrArg (Host.mk _ _) (hworld _)

/-- What a conduct keeps beside the world changes nothing else. -/
theorem onWorld_run (hc : c'.Extends c f) {g : Step μ κ γ ω → Step μ κ γ ω'}
    (hg : ∀ s, (g s).Extends f s) (h : Host μ κ γ ω') (steps : List (Step μ κ γ ω)) :
    (run c' h (steps.map g)).onWorld f = run c (h.onWorld f) steps := by
  induction steps generalizing h with
  | nil => rfl
  | cons s steps ih =>
    rw [List.map_cons, run, List.foldl_cons, ← run, ih, onWorld_proceed hc h (hg s), run, run,
      List.foldl_cons]

end Extends

end Host

/-! ## What modules do when they start -/

/-- The starts of modules, oldest first: under which name each was, and what it did. -/
abbrev Starts (κ γ : Type) := List (Text × List (StartStep κ γ))

/-- What the last start under a name did. -/
def Starts.latest (starts : Starts κ γ) (name : Text) : List (StartStep κ γ) :=
  ((starts.filter (·.1 = name)).getLast?.map (·.2)).getD []

theorem Starts.latest_concat (starts : Starts κ γ) (name other : Text)
    (steps : List (StartStep κ γ)) :
    Starts.latest (starts ++ [(name, steps)]) other =
      if name = other then steps else starts.latest other := by
  unfold latest
  rw [List.filter_append]
  split
  · next he => simp [he]
  · next hne => simp [hne]

/-- The same conduct, with a record of what its starts do. -/
def ModuleConduct.recorded (c : ModuleConduct μ κ γ ω) :
    ModuleConduct μ κ γ (ω × Starts κ γ) where
  name := c.name
  start module w :=
    let (steps, result, world) := c.start module w.1
    (steps, result, (world, w.2 ++ [(c.name module, steps)]))
  stop module w := (c.stop module w.1, w.2)

namespace Host

def Step.recorded : Step μ κ γ ω → Step μ κ γ (ω × Starts κ γ)
  | .order o => .order o
  | .other op => .other op
  | .pass pending world => .pass pending fun w => (world w.1, w.2)

/-- The host without the record. -/
def forget (h : Host μ κ γ (ω × Starts κ γ)) : Host μ κ γ ω :=
  { slots := h.slots, bus := h.bus, world := h.world.1 }

@[simp] theorem name_recorded (c : ModuleConduct μ κ γ ω) : c.recorded.name = c.name := rfl

@[simp] theorem slots_forget (h : Host μ κ γ (ω × Starts κ γ)) : h.forget.slots = h.slots := rfl

theorem extends_recorded (c : ModuleConduct μ κ γ ω) : c.recorded.Extends c Prod.fst :=
  ⟨rfl, fun _ _ => rfl, fun _ _ => rfl⟩

variable [DecidableEq κ] {c : ModuleConduct μ κ γ ω}

theorem forget_carryOut (h : Host μ κ γ (ω × Starts κ γ)) (o : Order μ) :
    (carryOut c.recorded h o).map id forget = carryOut c h.forget o :=
  onWorld_carryOut (extends_recorded c) h o

/-- **Recording changes nothing else.** -/
theorem forget_run (h : Host μ κ γ (ω × Starts κ γ)) (steps : List (Step μ κ γ ω)) :
    (run c.recorded h (steps.map Step.recorded)).forget = run c h.forget steps := by
  refine onWorld_run (extends_recorded c) (fun s => ?_) h steps
  cases s <;> simp [Step.recorded, Step.Extends]

end Host

end IrcBot
