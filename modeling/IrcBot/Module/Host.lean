/-
Loading and unloading of modules. A module registers its handlers when it is
started, under its own name; stopping it removes whatever is registered under
that name. Each step is published on the bus. A module that has been loaded
stays known after it is unloaded and can be loaded again by its name.
-/
import IrcBot.Bus.Basic
import IrcBot.Event

namespace IrcBot

/-- What a module does on the bus while it starts. -/
inductive StartStep (κ γ : Type) where
  | register (event : Text) (handler : κ) (context : Option γ)
  | publish (event : Event)

/-- How modules are called and what they do when started and stopped, besides
changing a world of their own. A start that fails gives the reason. -/
structure ModuleConduct (μ κ γ ω : Type) where
  name : μ → Text
  start : μ → ω → List (StartStep κ γ) × Except Text Unit × ω
  stop : μ → ω → ω := fun _ w => w

inductive ModuleError where
  | alreadyLoaded (name : Text)
  | notLoaded (name : Text)
  | start (name reason : Text)
  deriving DecidableEq, Repr

def ModuleError.message : ModuleError → Text
  | .alreadyLoaded name => "module '".toList ++ name ++ "' is already loaded".toList
  | .notLoaded name => "module '".toList ++ name ++ "' is not loaded".toList
  | .start name reason =>
    "module '".toList ++ name ++ "' failed to initialize: ".toList ++ reason

/-- A known module. -/
structure Slot (μ : Type) where
  module : μ
  loaded : Bool
  deriving DecidableEq

/-- The modules, the bus they work on, and their world. -/
structure Host (μ κ γ ω : Type) where
  slots : Table Text (Slot μ) := .empty
  bus : Bus κ γ Event := {}
  world : ω

namespace Host

variable {μ κ γ ω : Type}

def isLoaded (h : Host μ κ γ ω) (name : Text) : Bool :=
  (h.slots.get? name).any (·.loaded)

/-- All known modules by name, and whether each is loaded. -/
def list (h : Host μ κ γ ω) : List (Text × Bool) :=
  h.slots.entries.map fun e => (e.1, e.2.loaded)

def publish (h : Host μ κ γ ω) (stage : ModuleStage) (name : Text) : Host μ κ γ ω :=
  { h with bus := h.bus.trigger (.module stage name) }

def setSlot (h : Host μ κ γ ω) (name : Text) (slot : Slot μ) : Host μ κ γ ω :=
  { h with slots := h.slots.insert name slot }

variable [DecidableEq κ]

def step (owner : Text) (b : Bus κ γ Event) : StartStep κ γ → Bus κ γ Event
  | .register event handler context =>
    { b with registry := b.registry.register event { handler, context, owner } }
  | .publish event => b.trigger event

/-- Removes all handlers registered under a name. -/
def unregister (h : Host μ κ γ ω) (name : Text) : Host μ κ γ ω :=
  { h with bus := { h.bus with registry := (h.bus.registry.unregisterAll name).2 } }

/-- Starts a module. If that fails, the handlers it has registered by then are removed. -/
def start (c : ModuleConduct μ κ γ ω) (h : Host μ κ γ ω) (name : Text) (module : μ) :
    Except ModuleError Unit × Host μ κ γ ω :=
  let h := h.publish .loading name
  let (steps, result, world) := c.start module h.world
  let h := { h with bus := steps.foldl (step name) h.bus, world }
  match result with
  | .error reason => (.error (.start name reason), h.unregister name)
  | .ok () => (.ok (), h.publish .loaded name)

def stop (c : ModuleConduct μ κ γ ω) (h : Host μ κ γ ω) (name : Text) (module : μ) :
    Host μ κ γ ω :=
  let h := h.publish .unloading name
  (({ h with world := c.stop module h.world }).unregister name).publish .unloaded name

def load (c : ModuleConduct μ κ γ ω) (h : Host μ κ γ ω) (module : μ) :
    Except ModuleError Unit × Host μ κ γ ω :=
  let name := c.name module
  if h.isLoaded name then (.error (.alreadyLoaded name), h)
  else
    match start c h name module with
    | (.ok (), h) => (.ok (), h.setSlot name { module, loaded := true })
    | (.error e, h) => (.error e, h)

/-- Loads a module that was loaded before. -/
def loadKnown (c : ModuleConduct μ κ γ ω) (h : Host μ κ γ ω) (name : Text) :
    Except ModuleError Unit × Host μ κ γ ω :=
  match h.slots.get? name with
  | none => (.error (.notLoaded name), h)
  | some slot => if slot.loaded then (.error (.alreadyLoaded name), h) else load c h slot.module

def unload (c : ModuleConduct μ κ γ ω) (h : Host μ κ γ ω) (name : Text) :
    Except ModuleError Unit × Host μ κ γ ω :=
  match h.slots.get? name with
  | some ⟨module, true⟩ =>
    (.ok (), (stop c h name module).setSlot name { module, loaded := false })
  | _ => (.error (.notLoaded name), h)

/-- Stops a module and starts it again. -/
def reload (c : ModuleConduct μ κ γ ω) (h : Host μ κ γ ω) (name : Text) :
    Except ModuleError Unit × Host μ κ γ ω :=
  match h.slots.get? name with
  | some ⟨module, true⟩ =>
    match start c (stop c h name module) name module with
    | (.ok (), h) => (.ok (), h.setSlot name { module, loaded := true })
    | (.error e, h) => (.error e, h.setSlot name { module, loaded := false })
  | _ => (.error (.notLoaded name), h)

/-- Puts a module in the place of the one of the same name. -/
def replace (c : ModuleConduct μ κ γ ω) (h : Host μ κ γ ω) (module : μ) :
    Except ModuleError Unit × Host μ κ γ ω :=
  let name := c.name module
  let h := (unload c h name).2
  load c { h with slots := h.slots.erase name } module

/-- Unloads all modules, the last by name first. -/
def unloadAll (c : ModuleConduct μ κ γ ω) (h : Host μ κ γ ω) : Host μ κ γ ω :=
  ((h.list.filter (·.2)).map (·.1)).reverse.foldl (fun h name => (unload c h name).2) h

/-- A description of the modules. -/
def describe (h : Host μ κ γ ω) : Text :=
  Text.describeRecord "ModuleManager"
    [("modules", Text.describeList (h.list.map fun m =>
      '(' :: Text.quoted m.1 ++ ", ".toList ++
        (if m.2 then "Loaded".toList else "Unloaded".toList) ++ [')']))]

end Host

end IrcBot
