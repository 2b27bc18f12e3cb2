/-
What modules register. A start is a list of calls to register under one name (`registered`).
When modules register their own handlers only and nobody meddles with these, the entries
under the name of a module come about as if there were no others (`under_registering`).
-/
import IrcBot.Proofs.Bus.Unregistration
import IrcBot.Proofs.Module.Runs

namespace IrcBot

open Bus

variable {μ κ γ ω : Type}

/-! ## What a start registers -/

def StartStep.entry? (owner : Text) : StartStep κ γ → Option (Text × Registration κ γ)
  | .register event handler context => some (event, ⟨handler, context, owner⟩)
  | .publish _ => none

/-- What a start registers under a name, call by call. -/
def registered (owner : Text) (steps : List (StartStep κ γ)) : List (Text × Registration κ γ) :=
  steps.filterMap (StartStep.entry? owner)

def registering (es : List (Text × Registration κ γ)) : List (Operation κ γ) :=
  es.map fun e => .register e.1 e.2

/-- A name that some module has. -/
def ModuleConduct.Names (c : ModuleConduct μ κ γ ω) (name : Text) : Prop :=
  ∃ module, c.name module = name

/-- Modules register handlers of their own only; `home` tells whose a handler is, if it is a
module's. -/
def ModuleConduct.RegistersOwn (c : ModuleConduct μ κ γ ω) (home : κ → Option Text) : Prop :=
  ∀ module w event handler context,
    .register event handler context ∈ (c.start module w).1 → home handler = some (c.name module)

/-- Nobody else registers under the name of a module, or meddles with the handlers of modules. -/
def Host.Step.Respects (c : ModuleConduct μ κ γ ω) (home : κ → Option Text) :
    Host.Step μ κ γ ω → Prop
  | .other (.register _ registration) =>
    home registration.handler = none ∧ ¬c.Names registration.owner
  | .other (.unregister _ handler) => home handler = none
  | .other (.unregisterAll owner) => ¬c.Names owner
  | .order _ | .pass .. => True

/-- A registration is of a module's handler under its name, or of no module at all. -/
def ModuleConduct.Fits (c : ModuleConduct μ κ γ ω) (home : κ → Option Text)
    (registration : Registration κ γ) : Prop :=
  home registration.handler = some registration.owner ∨
    home registration.handler = none ∧ ¬c.Names registration.owner

namespace Host

section Registered

variable [DecidableEq κ]

theorem registry_steps (owner : Text) (steps : List (StartStep κ γ)) (b : Bus κ γ Event) :
    (steps.foldl (step owner) b).registry =
      (registering (registered owner steps)).foldl Registry.apply b.registry := by
  induction steps generalizing b with
  | nil => rfl
  | cons s steps ih =>
    rw [List.foldl_cons, ih]
    cases s <;> rfl

variable {c : ModuleConduct μ κ γ ω} {h h' : Host μ κ γ ω} {name : Text} {m : μ}

theorem registry_start_ok (hstart : start c h name m = (.ok (), h')) :
    h'.bus.registry =
      (registering (registered name (c.start m h.world).1)).foldl Registry.apply
        h.bus.registry := by
  unfold start at hstart
  dsimp only at hstart
  split at hstart
  · cases hstart
  · cases hstart
    exact registry_steps name _ _

theorem registry_start_error {e : ModuleError} (hstart : start c h name m = (.error e, h')) :
    h'.bus.registry =
      (((registering (registered name (c.start m h.world).1)).foldl Registry.apply
        h.bus.registry).unregisterAll name).2 := by
  unfold start at hstart
  dsimp only at hstart
  split at hstart
  · cases hstart
    exact congrArg (fun r => (Registry.unregisterAll r name).2) (registry_steps name _ _)
  · cases hstart

end Registered

end Host

/-! ## The entries of some owners -/

/-- The entries of some of the owners. -/
def Bus.Subscriptions.under (s : Subscriptions κ γ) (keep : Text → Bool) : Subscriptions κ γ :=
  s.filter fun e => keep e.2.owner

/-- Every entry is of a module's handler under its name, or of no module at all. -/
def ModuleConduct.Proper (c : ModuleConduct μ κ γ ω) (home : κ → Option Text)
    (s : Subscriptions κ γ) : Prop := ∀ e ∈ s.entries, c.Fits home e.2

section Under

variable {c : ModuleConduct μ κ γ ω} {home : κ → Option Text} {s : Subscriptions κ γ}
variable {name owner : Text} {keep : Text → Bool} {event : Text} {new : Registration κ γ}

theorem under_unregisterAll (hkeep : keep owner = false) :
    (s.unregisterAll owner).under keep = s.under keep := by
  refine Subscriptions.filter_filter fun e _ he => decide_eq_true ?_
  rintro rfl
  exact Bool.false_ne_true (hkeep.symm.trans he)

theorem under_unregisterAll_self : (s.unregisterAll name).under (· = name) = .empty := by
  refine Subscriptions.ext (List.filter_eq_nil_iff.2 fun e he => ?_)
  have howner := s.lacks_unregisterAll name e he
  simpa using howner

theorem ModuleConduct.Proper.filter (hs : c.Proper home s)
    (keep : Text × Registration κ γ → Bool) : c.Proper home (s.filter keep) :=
  fun e he => hs e (List.mem_filter.1 he).1

theorem own_registered (hown : c.RegistersOwn home) (m : μ) (w : ω) :
    ∀ e ∈ registered (c.name m) (c.start m w).1,
      e.2.owner = c.name m ∧ home e.2.handler = some (c.name m) := by
  intro e he
  obtain ⟨step, hstep, hentry⟩ := List.mem_filterMap.1 he
  cases step with
  | register event handler context =>
    cases hentry
    exact ⟨rfl, hown m w event handler context hstep⟩
  | publish event => cases hentry

/-- No module has a handler that is no module's. -/
theorem ModuleConduct.Proper.owner_ne (hs : c.Proper home s) (hname : c.Names name)
    {e : Text × Registration κ γ} (he : e ∈ s.entries) (hhandler : home e.2.handler = none) :
    e.2.owner ≠ name := by
  rintro rfl
  obtain hown | ⟨-, hother⟩ := hs e he
  · cases hhandler.symm.trans hown
  · exact hother hname

variable [DecidableEq κ]

theorem ModuleConduct.Proper.register (hs : c.Proper home s) (event : Text)
    (hnew : c.Fits home new) : c.Proper home (s.register event new) := by
  intro e he
  obtain rfl | ⟨he, -⟩ := Subscriptions.mem_register.1 he
  · exact hnew
  · exact hs e he

/-- A module's handler stays with the name of the module. -/
theorem ModuleConduct.Proper.under_register (hs : c.Proper home s)
    (hnew : home new.handler = some new.owner) (keep : Text → Bool) :
    (s.register event new).under keep =
      if keep new.owner = true then (s.under keep).register event new else s.under keep := by
  -- an old entry of the pair has the module's handler, so the module's name
  refine Subscriptions.register_filter _ fun e he hp => ?_
  have hhandler : e.2.handler = new.handler := congrArg Prod.snd hp
  rw [← hhandler] at hnew
  obtain hown | ⟨hnone, -⟩ := hs e he
  · rw [Option.some.inj (hown.symm.trans hnew)]
  · cases hnone.symm.trans hnew

/-- Who is no module changes nothing for the modules. -/
theorem ModuleConduct.Proper.under_register_other (hs : c.Proper home s) (hname : c.Names name)
    (hnew : home new.handler = none) (howner : ¬c.Names new.owner) :
    (s.register event new).under (· = name) = s.under (· = name) := by
  have hdrop : decide (new.owner = name) = false := decide_eq_false fun he => howner (he ▸ hname)
  refine (Subscriptions.register_filter _ fun e he hp => ?_).trans
    (if_neg (ne_true_of_eq_false hdrop))
  have hhandler : e.2.handler = new.handler := congrArg Prod.snd hp
  exact (decide_eq_false (hs.owner_ne hname he (hhandler ▸ hnew))).trans hdrop.symm

theorem ModuleConduct.Proper.under_unregister_other {handler : κ} (hs : c.Proper home s)
    (hname : c.Names name) (hhandler : home handler = none) :
    (s.unregister (event, handler)).under (· = name) = s.under (· = name) := by
  refine Subscriptions.filter_filter fun e he howner => decide_eq_true fun hp => ?_
  obtain rfl : e.2.handler = handler := congrArg Prod.snd hp
  exact hs.owner_ne hname he hhandler (of_decide_eq_true howner)

/-- What a module registers changes the entries under its name as if there were no others. -/
theorem ModuleConduct.Proper.under_registering (hs : c.Proper home s)
    (es : List (Text × Registration κ γ))
    (hes : ∀ e ∈ es, e.2.owner = name ∧ home e.2.handler = some name) :
    c.Proper home ((registering es).foldl Subscriptions.apply s) ∧
      ∀ keep : Text → Bool, ((registering es).foldl Subscriptions.apply s).under keep =
        if keep name = true then (registering es).foldl Subscriptions.apply (s.under keep)
        else s.under keep := by
  induction es generalizing s with
  | nil => exact ⟨hs, fun keep => (ite_self _).symm⟩
  | cons e es ih =>
    obtain ⟨⟨howner, hhandler⟩, hes⟩ := List.forall_mem_cons.1 hes
    have hown : home e.2.handler = some e.2.owner := howner ▸ hhandler
    obtain ⟨hproper, hunder⟩ := ih (hs.register e.1 (.inl hown)) hes
    refine ⟨hproper, fun keep => (hunder keep).trans ?_⟩
    rw [hs.under_register hown keep, howner]
    split <;> rfl

/-- Calls for pairs that are all different are all there, in their order. -/
theorem entries_registering (s : Subscriptions κ γ) (es : List (Text × Registration κ γ))
    (hnodup : ((s.entries ++ es).map pair).Nodup) :
    ((registering es).foldl Subscriptions.apply s).entries = s.entries ++ es := by
  induction es generalizing s with
  | nil => exact (List.append_nil _).symm
  | cons e es ih =>
    have habsent : s.contains (pair e) = false := by
      rw [List.map_append, List.map_cons] at hnodup
      exact decide_eq_false fun hmem =>
        List.disjoint_of_nodup_append hnodup hmem List.mem_cons_self
    have hentries : (s.register e.1 e.2).entries = s.entries ++ [e] :=
      Subscriptions.entries_register_of_not_contains habsent
    refine (ih (s.register e.1 e.2) ?_).trans ?_
    · rwa [hentries, List.append_assoc]
    · rw [hentries, List.append_assoc]
      rfl

end Under

end IrcBot
