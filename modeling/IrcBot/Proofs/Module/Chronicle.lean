/-
What the host says of its modules. Starting and stopping are published on the bus, among what
the modules publish themselves while they start. A conduct can be chronicled: beside its world
it then keeps every event with who published it. The chronicle is what the operations have put
on the bus (`map_event_chronicle`), and what the host says in it of a name follows the life of
the module (`Lifecycle`).
-/
import IrcBot.Proofs.Module.Moves

namespace IrcBot

variable {μ κ γ ω : Type}

/-- An event on the bus: the host says something of a module, or a module publishes an event of
its own while it starts. -/
inductive Notice where
  | host (stage : ModuleStage) (name : Text)
  | starting (event : Event)

def Notice.event : Notice → Event
  | .host stage name => .module stage name
  | .starting event => event

/-- The stage, if it is the host who says it of the name. -/
def Notice.stage? (name : Text) : Notice → Option ModuleStage
  | .host stage other => if other = name then some stage else none
  | .starting _ => none

/-- What the host says of a name. -/
def stagesOf (name : Text) (notices : List Notice) : List ModuleStage :=
  notices.filterMap (Notice.stage? name)

theorem stagesOf_append (name : Text) (l l' : List Notice) :
    stagesOf name (l ++ l') = stagesOf name l ++ stagesOf name l' := List.filterMap_append

def StartStep.event? : StartStep κ γ → Option Event
  | .register .. => none
  | .publish event => some event

/-- What a start puts on the bus under a name. -/
def startNotices (name : Text) (steps : List (StartStep κ γ)) (ok : Bool) : List Notice :=
  .host .loading name :: (steps.filterMap StartStep.event?).map .starting ++
    if ok then [.host .loaded name] else []

def stopNotices (name : Text) : List Notice := [.host .unloading name, .host .unloaded name]

theorem stagesOf_startNotices (name other : Text) (steps : List (StartStep κ γ)) (ok : Bool) :
    stagesOf other (startNotices name steps ok) =
      if name = other then if ok then [.loading, .loaded] else [.loading] else [] := by
  have hsteps (events : List Event) : stagesOf other (events.map .starting) = [] := by
    simp [stagesOf, Notice.stage?]
  unfold startNotices
  rw [stagesOf_append, ← List.singleton_append, stagesOf_append, hsteps]
  by_cases he : name = other
  · cases ok <;> simp [stagesOf, Notice.stage?, he]
  · cases ok <;> simp [stagesOf, Notice.stage?, he]

theorem stagesOf_stopNotices (name other : Text) :
    stagesOf other (stopNotices name) = if name = other then [.unloading, .unloaded] else [] := by
  split
  · next he => simp [stagesOf, stopNotices, Notice.stage?, he]
  · next hne => simp [stagesOf, stopNotices, Notice.stage?, hne]

/-- The same conduct, with a chronicle of what is published. -/
def ModuleConduct.chronicled (c : ModuleConduct μ κ γ ω) :
    ModuleConduct μ κ γ (ω × List Notice) where
  name := c.name
  start module w :=
    let (steps, result, world) := c.start module w.1
    (steps, result, (world, w.2 ++ startNotices (c.name module) steps result.isOk))
  stop module w := (c.stop module w.1, w.2 ++ stopNotices (c.name module))

/-- The stages that a module goes through, up to where it is loaded or is not. -/
inductive Lifecycle : List ModuleStage → Bool → Prop
  | new : Lifecycle [] false
  | started {stages : List ModuleStage} (h : Lifecycle stages false) :
      Lifecycle (stages ++ [.loading, .loaded]) true
  | failed {stages : List ModuleStage} (h : Lifecycle stages false) :
      Lifecycle (stages ++ [.loading]) false
  | stopped {stages : List ModuleStage} (h : Lifecycle stages true) :
      Lifecycle (stages ++ [.unloading, .unloaded]) false

/-- A module is loaded just when this is the last that was said. -/
theorem Lifecycle.loaded_iff {stages : List ModuleStage} {loaded : Bool}
    (h : Lifecycle stages loaded) : loaded = true ↔ stages.getLast? = some .loaded := by
  cases h <;> simp

namespace Host

def Step.beside (τ : Type) : Step μ κ γ ω → Step μ κ γ (ω × τ)
  | .order o => .order o
  | .other op => .other op
  | .pass pending world => .pass pending fun w => (world w.1, w.2)

variable [DecidableEq κ]

/-- What a step of the host puts on the bus. -/
def news (c : ModuleConduct μ κ γ ω) (h : Host μ κ γ ω) : Step μ κ γ ω → List Event
  | .order o => (carryOut c h o).2.bus.pending.drop h.bus.pending.length
  | .other _ | .pass .. => []

/-- All events that the operations put on the bus. -/
def history (c : ModuleConduct μ κ γ ω) (h : Host μ κ γ ω) : List (Step μ κ γ ω) → List Event
  | [] => []
  | step :: steps => news c h step ++ history c (proceed c h step) steps

/-- The chronicle of a run. The run that keeps it is the same run (`onWorld_run`). -/
def chronicle (c : ModuleConduct μ κ γ ω) (world : ω) (steps : List (Step μ κ γ ω)) :
    List Notice :=
  (run c.chronicled { world := (world, []) } (steps.map (Step.beside (List Notice)))).world.2

variable {c : ModuleConduct μ κ γ ω}

omit [DecidableEq κ] in
theorem extends_chronicled (c : ModuleConduct μ κ γ ω) : c.chronicled.Extends c Prod.fst :=
  ⟨rfl, fun _ _ => rfl, fun _ _ => rfl⟩

omit [DecidableEq κ] in
theorem extends_beside (τ : Type) (s : Step μ κ γ ω) : (s.beside τ).Extends Prod.fst s := by
  cases s <;> simp [Step.beside, Step.Extends]

/-! ## What is put on the bus -/

theorem pending_steps (owner : Text) (steps : List (StartStep κ γ)) (b : Bus κ γ Event) :
    (steps.foldl (step owner) b).pending = b.pending ++ steps.filterMap StartStep.event? := by
  induction steps generalizing b with
  | nil => exact (List.append_nil _).symm
  | cons s steps ih =>
    rw [List.foldl_cons, ih]
    cases s with
    | register event handler context => rfl
    | publish event => exact List.append_assoc _ _ _

theorem pending_start (h : Host μ κ γ ω) (name : Text) (m : μ) :
    (start c h name m).2.bus.pending = h.bus.pending ++
      (startNotices name (c.start m h.world).1 (c.start m h.world).2.1.isOk).map Notice.event := by
  have hsteps := pending_steps name (c.start m h.world).1 (h.publish .loading name).bus
  have hworld : (h.publish .loading name).world = h.world := rfl
  simp only [start, startNotices, hworld]
  cases (c.start m h.world).2.1 with
  | error reason =>
    refine hsteps.trans ?_
    simp [publish, Bus.trigger, Notice.event, Function.comp_def, Except.isOk, Except.toBool]
  | ok =>
    refine (congrArg (· ++ [Event.module .loaded name]) hsteps).trans ?_
    simp [publish, Bus.trigger, Notice.event, Function.comp_def, Except.isOk, Except.toBool]

theorem pending_stop (h : Host μ κ γ ω) (name : Text) (m : μ) :
    (stop c h name m).bus.pending = h.bus.pending ++ (stopNotices name).map Notice.event :=
  List.append_assoc _ _ _

theorem result_start (h : Host μ κ γ ω) (name : Text) (m : μ) :
    (start c h name m).1.isOk = (c.start m h.world).2.1.isOk := by
  have hworld : (h.publish .loading name).world = h.world := rfl
  simp only [start, hworld]
  cases (c.start m h.world).2.1 <;> rfl

theorem world_start (h : Host μ κ γ ω) (name : Text) (m : μ) :
    (start c h name m).2.world = (c.start m h.world).2.2 := by
  have hworld : (h.publish .loading name).world = h.world := rfl
  simp only [start, hworld]
  cases (c.start m h.world).2.1 <;> rfl

/-! ## The chronicle of the operations -/

variable {h h' : Host μ κ γ (ω × List Notice)} {name : Text}

/-- What is new in the chronicle is what is new on the bus. -/
structure Tells (h h' : Host μ κ γ (ω × List Notice)) (notices : List Notice) : Prop where
  world : h'.world.2 = h.world.2 ++ notices
  pending : h'.bus.pending = h.bus.pending ++ notices.map Notice.event

omit [DecidableEq κ] in
theorem Tells.nil (h : Host μ κ γ (ω × List Notice)) : Tells h h [] :=
  ⟨(List.append_nil _).symm, (List.append_nil _).symm⟩

omit [DecidableEq κ] in
theorem Tells.trans {h'' : Host μ κ γ (ω × List Notice)} {l l' : List Notice}
    (hl : Tells h h' l) (hl' : Tells h' h'' l') : Tells h h'' (l ++ l') where
  world := by rw [hl'.world, hl.world, List.append_assoc]
  pending := by rw [hl'.pending, hl.pending, List.map_append, List.append_assoc]

theorem tells_start (h : Host μ κ γ (ω × List Notice)) (m : μ) :
    Tells h (start c.chronicled h (c.name m) m).2
      (startNotices (c.name m) (c.start m h.world.1).1 (c.start m h.world.1).2.1.isOk) where
  world := congrArg Prod.snd (world_start h (c.name m) m)
  pending := pending_start h (c.name m) m

theorem tells_stop (h : Host μ κ γ (ω × List Notice)) (m : μ) :
    Tells h (stop c.chronicled h (c.name m) m) (stopNotices (c.name m)) where
  world := rfl
  pending := pending_stop h (c.name m) m

/-- What was said of every name follows the life of its module. -/
def Truthful (h : Host μ κ γ (ω × List Notice)) : Prop :=
  ∀ name, Lifecycle (stagesOf name h.world.2) (h.isLoaded name)

omit [DecidableEq κ] in
/-- One name goes on with its life, and nothing is said of the others. -/
theorem Truthful.go {notices : List Notice} {stages : List ModuleStage}
    (ht : h.Truthful) (htells : Tells h h' notices)
    (hstages : ∀ other, stagesOf other notices = if name = other then stages else [])
    (hothers : ∀ other, name ≠ other → h'.isLoaded other = h.isLoaded other)
    (hname : Lifecycle (stagesOf name h.world.2 ++ stages) (h'.isLoaded name)) : h'.Truthful := by
  intro other
  rw [htells.world, stagesOf_append, hstages]
  split
  · next he => exact he ▸ hname
  · next hne =>
    rw [List.append_nil, hothers other hne]
    exact ht other

/-- A start is said to go well when it does. -/
theorem tells_started {m : μ} {result : Except ModuleError Unit}
    (hstart : Host.start c.chronicled h (c.name m) m = (result, h')) :
    Tells h h' (startNotices (c.name m) (c.start m h.world.1).1 result.isOk) := by
  have htells := tells_start (c := c) h m
  have hok : _ = (c.start m h.world.1).2.1.isOk :=
    result_start (c := c.chronicled) h (c.name m) m
  rwa [← hok, hstart] at htells

theorem Move.tells (hmove : Move c.chronicled h name h') (ht : h.Truthful) :
    (∃ notices, Tells h h' notices) ∧ h'.Truthful := by
  cases hmove with
  | @start m h₁ hloaded hstart =>
    have hstarted := tells_started hstart
    have htells : Tells h (h₁.setSlot (c.name m) ⟨m, true⟩) _ :=
      ⟨hstarted.world, hstarted.pending⟩
    have hname : Lifecycle _ _ := .started (hloaded ▸ ht (c.name m))
    refine ⟨⟨_, htells⟩, ht.go htells (stagesOf_startNotices _ · _ _) (fun other hne => ?_) ?_⟩
    · rw [isLoaded_setSlot]
      exact (if_neg hne).trans (isLoaded_congr (slots_start hstart) other)
    · exact (isLoaded_setSlot_self _ _ _).symm ▸ hname
  | @fail m e _ hloaded hstart =>
    have htells := tells_started hstart
    have hname : Lifecycle _ _ := .failed (hloaded ▸ ht (c.name m))
    have hsame := isLoaded_congr (slots_start hstart)
    refine ⟨⟨_, htells⟩, ht.go htells (stagesOf_startNotices _ · _ _)
      (fun other _ => hsame other) ?_⟩
    exact ((hsame _).trans hloaded).symm ▸ hname
  | @stop m hslot =>
    have hstopped := tells_stop (c := c) h m
    have htells :
        Tells h ((Host.stop c.chronicled h (c.name m) m).setSlot (c.name m) ⟨m, false⟩) _ :=
      ⟨hstopped.world, hstopped.pending⟩
    have hloaded : h.isLoaded (c.name m) = true := isLoaded_iff.2 ⟨m, hslot⟩
    have hname : Lifecycle _ _ := .stopped (hloaded ▸ ht (c.name m))
    refine ⟨⟨_, htells⟩, ht.go htells (stagesOf_stopNotices _) (fun other hne => ?_) ?_⟩
    · exact (isLoaded_setSlot _ _).trans (if_neg hne)
    · exact (isLoaded_setSlot_self _ _ _).symm ▸ hname
  | drop hloaded =>
    refine ⟨⟨[], (Tells.nil h).world, (Tells.nil h).pending⟩, fun other => ?_⟩
    rw [isLoaded_erase]
    split
    · next he => exact he ▸ hloaded ▸ ht name
    · exact ht other

theorem Moves.tells {names : Text → Prop} (hmoves : Moves c.chronicled names h h')
    (ht : h.Truthful) : (∃ notices, Tells h h' notices) ∧ h'.Truthful := by
  induction hmoves with
  | refl => exact ⟨⟨[], .nil h⟩, ht⟩
  | tail _ hmove ih =>
    obtain ⟨⟨l, hl⟩, ht₁⟩ := ih
    obtain ⟨_, -, hmove⟩ := hmove
    obtain ⟨⟨l', hl'⟩, ht'⟩ := hmove.tells ht₁
    exact ⟨⟨l ++ l', hl.trans hl'⟩, ht'⟩

omit [DecidableEq κ] in
theorem Tells.news_eq {notices : List Notice} (h₁ : Tells h h' notices) :
    h'.bus.pending.drop h.bus.pending.length = notices.map Notice.event := by
  rw [h₁.pending, List.drop_left]

theorem chronicle_run (steps : List (Step μ κ γ ω)) (hnamed : h.Named c.chronicled)
    (ht : h.Truthful) :
    let last := run c.chronicled h (steps.map (Step.beside (List Notice)))
    last.Truthful ∧ ∃ notices, last.world.2 = h.world.2 ++ notices ∧
      notices.map Notice.event = history c (h.onWorld Prod.fst) steps := by
  induction steps generalizing h with
  | nil => exact ⟨ht, [], (List.append_nil _).symm, rfl⟩
  | cons s steps ih =>
    have hproceed := onWorld_proceed (extends_chronicled c) h (extends_beside (List Notice) s)
    have hrest (hnamed' : (proceed c.chronicled h (s.beside _)).Named c.chronicled)
        (ht' : (proceed c.chronicled h (s.beside _)).Truthful) := ih hnamed' ht'
    rw [hproceed] at hrest
    cases s with
    | order o =>
      have hmoves := moves_carryOut hnamed o
      obtain ⟨⟨first, hfirst⟩, ht'⟩ := hmoves.tells ht
      obtain ⟨hlast, notices, hworld, hnotices⟩ := hrest (hmoves.named hnamed) ht'
      have hnews : news c (h.onWorld Prod.fst) (.order o) = first.map Notice.event := by
        rw [← hfirst.news_eq, news, ← onWorld_carryOut (extends_chronicled c) h o]
        rfl
      refine ⟨hlast, first ++ notices, hworld.trans ?_, ?_⟩
      · exact (congrArg (· ++ notices) hfirst.world).trans (List.append_assoc ..)
      · rw [List.map_append, hnotices, history, hnews]
    | other op => exact hrest hnamed ht
    | pass pending world => exact hrest hnamed ht

/-- **The chronicle tells what the operations put on the bus**, and what the host says in it of
any name follows the life of its module. -/
theorem chronicle_spec (c : ModuleConduct μ κ γ ω) (world : ω) (steps : List (Step μ κ γ ω)) :
    (chronicle c world steps).map Notice.event = history c { world } steps ∧
      ∀ name, Lifecycle (stagesOf name (chronicle c world steps))
        ((run c { world } steps).isLoaded name) := by
  let first : Host μ κ γ (ω × List Notice) := { world := (world, []) }
  have hempty : first.Named c.chronicled := Table.all_empty
  obtain ⟨hlast, notices, hworld, hnotices⟩ := chronicle_run (c := c) steps hempty fun _ => .new
  have hrun := onWorld_run (extends_chronicled c) (extends_beside (List Notice)) first steps
  refine ⟨(congrArg (·.map Notice.event) hworld).trans hnotices, fun name => ?_⟩
  rw [show run c { world } steps = _ from hrun.symm]
  exact hlast name

end Host

end IrcBot
