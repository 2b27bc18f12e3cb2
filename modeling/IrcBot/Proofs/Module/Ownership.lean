/-
Modules and their handlers. While a module is loaded, what is registered under its name is
what its last start registered, and while it is not, nothing is (`OwnTheirs`). The registry
has one list of entries behind it; a move under a name changes the entries of this name and
no others (`Accounts.move`), and all else follows by induction.
-/
import IrcBot.Proofs.Module.Moves
import IrcBot.Proofs.Module.Registering

namespace IrcBot

open Bus

variable {μ κ γ ω : Type}

/-! ## The account of the names -/

namespace Host

variable [DecidableEq κ]

/-- What there is under a name when its module is loaded: what the last start registered. -/
def due (h : Host μ κ γ (ω × Starts κ γ)) (name : Text) : Subscriptions κ γ :=
  if h.isLoaded name = true then
    Subscriptions.after (registering (registered name (h.world.2.latest name)))
  else .empty

/-- The registry agrees with a list of entries in which every module has what is due. -/
structure Accounts (c : ModuleConduct μ κ γ ω) (home : κ → Option Text)
    (h : Host μ κ γ (ω × Starts κ γ)) (s : Subscriptions κ γ) : Prop where
  refines : h.bus.registry.Refines s
  proper : c.Proper home s
  kept : ∀ name, c.Names name → s.under (· = name) = h.due name

section Accounts

variable {c : ModuleConduct μ κ γ ω} {home : κ → Option Text}
variable {h h' : Host μ κ γ (ω × Starts κ γ)} {s s' : Subscriptions κ γ} {name : Text} {m : μ}

theorem due_of_not_loaded (hloaded : h.isLoaded name = false) : h.due name = .empty := by
  rw [due, hloaded, if_neg Bool.false_ne_true]

theorem due_congr (hloaded : h'.isLoaded name = h.isLoaded name)
    (hlatest : h'.world.2.latest name = h.world.2.latest name) : h'.due name = h.due name := by
  rw [due, hloaded, hlatest, due]

/-- One name changes, the others stay as they are. -/
theorem Accounts.change (ha : Accounts c home h s) (hrefines : h'.bus.registry.Refines s')
    (hproper : c.Proper home s')
    (hunder : ∀ keep : Text → Bool, keep name = false → s'.under keep = s.under keep)
    (hothers : ∀ other, name ≠ other → h'.due other = h.due other)
    (hkept : c.Names name → s'.under (· = name) = h'.due name) : Accounts c home h' s' where
  refines := hrefines
  proper := hproper
  kept other hother := by
    by_cases hne : name = other
    · exact hne ▸ hkept (hne ▸ hother)
    · rw [hunder (· = other) (decide_eq_false hne), ha.kept other hother, hothers other hne]

theorem starts_start {result : Except ModuleError Unit}
    (hstart : start c.recorded h (c.name m) m = (result, h')) :
    h'.world.2 = h.world.2 ++ [(c.name m, (c.start m h.world.1).1)] := by
  unfold start at hstart
  dsimp only at hstart
  split at hstart <;> (cases hstart; rfl)

theorem due_setSlot_other {other : Text} (slot : Slot μ) (hne : name ≠ other) :
    (h.setSlot name slot).due other = h.due other :=
  due_congr ((isLoaded_setSlot slot other).trans (if_neg hne)) rfl

theorem due_start_other {other : Text} {result : Except ModuleError Unit}
    (hstart : start c.recorded h (c.name m) m = (result, h')) (hne : c.name m ≠ other) :
    h'.due other = h.due other := by
  refine due_congr (isLoaded_congr (slots_start hstart) other) ?_
  rw [starts_start hstart, Starts.latest_concat, if_neg hne]

/-- What a start has registered is due. -/
theorem due_started {result : Except ModuleError Unit}
    (hstart : start c.recorded h (c.name m) m = (result, h')) :
    (h'.setSlot (c.name m) ⟨m, true⟩).due (c.name m) =
      Subscriptions.after (registering (registered (c.name m) (c.start m h.world.1).1)) := by
  have hlatest : Starts.latest h'.world.2 (c.name m) = (c.start m h.world.1).1 := by
    rw [starts_start hstart, Starts.latest_concat, if_pos rfl]
  rw [due, isLoaded_setSlot, if_pos rfl, if_pos rfl, ← hlatest]
  rfl

/-- A start registers under its own name only, where nothing was. -/
theorem Accounts.started (ha : Accounts c home h s) (hown : c.RegistersOwn home)
    (hloaded : h.isLoaded (c.name m) = false) :
    let es := registered (c.name m) (c.start m h.world.1).1
    let s' := (registering es).foldl Subscriptions.apply s
    c.Proper home s' ∧
      (∀ keep : Text → Bool, keep (c.name m) = false → s'.under keep = s.under keep) ∧
      s'.under (· = c.name m) = Subscriptions.after (registering es) := by
  intro es s'
  obtain ⟨hproper, hunder⟩ := ha.proper.under_registering es (own_registered hown m h.world.1)
  refine ⟨hproper, fun keep hkeep => (hunder keep).trans (if_neg (ne_true_of_eq_false hkeep)), ?_⟩
  have hempty : s.under (· = c.name m) = .empty :=
    (ha.kept _ ⟨m, rfl⟩).trans (due_of_not_loaded hloaded)
  rw [hunder, if_pos (decide_eq_true rfl), hempty]
  rfl

/-- All that is registered under a name goes, and the module is not loaded. -/
theorem Accounts.clear (ha : Accounts c home h s) {s₁ : Subscriptions κ γ}
    (hrefines : h'.bus.registry.Refines (s₁.unregisterAll name)) (hproper : c.Proper home s₁)
    (hunder : ∀ keep : Text → Bool, keep name = false → s₁.under keep = s.under keep)
    (hothers : ∀ other, name ≠ other → h'.due other = h.due other)
    (hloaded : h'.isLoaded name = false) :
    ∃ s', Accounts c home h' s' ∧
      ∀ keep : Text → Bool, keep name = false → s'.under keep = s.under keep := by
  have hunder' (keep : Text → Bool) (hkeep : keep name = false) :
      (s₁.unregisterAll name).under keep = s.under keep :=
    (under_unregisterAll hkeep).trans (hunder keep hkeep)
  refine ⟨_, ha.change hrefines (hproper.filter _) hunder' hothers fun _ => ?_, hunder'⟩
  rw [under_unregisterAll_self, due_of_not_loaded hloaded]

theorem Accounts.move (ha : Accounts c home h s) (hown : c.RegistersOwn home)
    (hmove : Move c.recorded h name h') :
    ∃ s', Accounts c home h' s' ∧
      ∀ keep : Text → Bool, keep name = false → s'.under keep = s.under keep := by
  cases hmove with
  | @start m h₁ hloaded hstart =>
    obtain ⟨hproper, hunder, hkept⟩ := ha.started hown hloaded
    have hrefines : h₁.bus.registry.Refines _ := registry_start_ok hstart ▸ ha.refines.applyAll _
    refine ⟨_, ha.change hrefines hproper hunder (fun other hne => ?_) fun _ => ?_, hunder⟩
    · exact (due_setSlot_other _ hne).trans (due_start_other hstart hne)
    · exact hkept.trans (due_started hstart).symm
  | @fail m _ _ hloaded hstart =>
    -- what it had registered by then goes with all else under its name, which was nothing
    obtain ⟨hproper, hunder, -⟩ := ha.started hown hloaded
    have hrefines : h'.bus.registry.Refines _ :=
      registry_start_error hstart ▸ (ha.refines.applyAll _).unregisterAll _
    refine ha.clear hrefines hproper hunder (fun other hne => due_start_other hstart hne) ?_
    exact (isLoaded_congr (slots_start hstart) _).trans hloaded
  | @stop m hslot =>
    have hrefines := ha.refines.unregisterAll (c.name m)
    refine ha.clear hrefines ha.proper (fun _ _ => rfl) (fun other hne => ?_) ?_
    · exact due_setSlot_other _ hne
    · exact (isLoaded_setSlot _ _).trans (if_pos rfl)
  | drop hloaded =>
    have hothers (other : Text) (hne : name ≠ other) :
        due { h with slots := h.slots.erase name } other = h.due other :=
      due_congr ((isLoaded_erase other).trans (if_neg hne)) rfl
    refine ⟨s, ha.change ha.refines ha.proper (fun _ _ => rfl) hothers fun hname => ?_,
      fun _ _ => rfl⟩
    rw [ha.kept name hname, due_of_not_loaded hloaded, due_of_not_loaded]
    exact (isLoaded_erase name).trans (if_pos rfl)

theorem Accounts.moves {names : Text → Prop} (ha : Accounts c home h s)
    (hown : c.RegistersOwn home) (hmoves : Moves c.recorded names h h') :
    ∃ s', Accounts c home h' s' ∧
      ∀ keep : Text → Bool, (∀ name, names name → keep name = false) →
        s'.under keep = s.under keep := by
  induction hmoves with
  | refl => exact ⟨s, ha, fun _ _ => rfl⟩
  | tail _ hmove ih =>
    obtain ⟨s₁, ha₁, hunder₁⟩ := ih
    obtain ⟨name, hname, hmove⟩ := hmove
    obtain ⟨s', ha', hunder⟩ := ha₁.move hown hmove
    exact ⟨s', ha', fun keep hkeep =>
      (hunder keep (hkeep name hname)).trans (hunder₁ keep hkeep)⟩

/-- What is no module leaves the account of the modules as it is. -/
theorem Accounts.other (ha : Accounts c home h s) {op : Operation κ γ}
    (hop : (Step.other op : Step μ κ γ ω).Respects c home) :
    Accounts c home (proceed c.recorded h (.other op)) (s.apply op) where
  refines := ha.refines.apply op
  proper := by
    cases op with
    | register event registration => exact ha.proper.register event (.inr hop)
    | unregister | unregisterAll => exact ha.proper.filter _
  kept name hname := by
    refine Eq.trans ?_ (ha.kept name hname)
    cases op with
    | register event registration => exact ha.proper.under_register_other hname hop.1 hop.2
    | unregister event handler => exact ha.proper.under_unregister_other hname hop
    | unregisterAll owner => exact under_unregisterAll (decide_eq_false fun he => hop (he ▸ hname))

theorem accounts_run (hown : c.RegistersOwn home) (steps : List (Step μ κ γ ω))
    (hsteps : ∀ step ∈ steps, step.Respects c home) (hnamed : h.Named c.recorded)
    (ha : Accounts c home h s) :
    let last := run c.recorded h (steps.map Step.recorded)
    last.Named c.recorded ∧ ∃ s', Accounts c home last s' := by
  induction steps generalizing h s with
  | nil => exact ⟨hnamed, s, ha⟩
  | cons step steps ih =>
    obtain ⟨hstep, hrest⟩ := List.forall_mem_cons.1 hsteps
    cases step with
    | order o =>
      have hmoves := moves_carryOut hnamed o
      obtain ⟨s', ha', -⟩ := ha.moves hown hmoves
      exact ih hrest (hmoves.named hnamed) ha'
    | other op => exact ih hrest hnamed (ha.other hstep)
    | pass pending world => exact ih hrest hnamed ⟨ha.refines, ha.proper, ha.kept⟩

theorem Accounts.registrations_under (ha : Accounts c home h s) (keep : Text → Bool)
    (event : Text) :
    (h.bus.registry.registrations event).filter (keep ·.owner) =
      (s.under keep).registrations event := by
  rw [ha.refines.registrations, Subscriptions.under, Subscriptions.registrations_filter]

theorem Accounts.owned_under (ha : Accounts c home h s) {keep : Text → Bool} {owner : Text}
    (hkeep : keep owner = true) :
    (h.bus.registry.owned owner).Perm ((s.under keep).owned owner) := by
  have hsame : (s.under keep).filter (·.2.owner = owner) = s.filter (·.2.owner = owner) :=
    Subscriptions.filter_filter fun e _ he => (of_decide_eq_true he).symm ▸ hkeep
  exact (ha.refines.owned owner).trans (.of_eq (congrArg (·.entries.map pair) hsame.symm))

end Accounts

/-! ## Whose the handlers are -/

/-- What is registered under the names of modules, by what the last starts did. -/
structure OwnTheirs (c : ModuleConduct μ κ γ ω) (h : Host μ κ γ ω)
    (latest : Text → List (StartStep κ γ)) : Prop where
  /-- Nothing, while the module is not loaded. -/
  unloaded : ∀ name, c.Names name → h.isLoaded name = false →
    (∀ event, (h.bus.registry.registrations event).filter (·.owner = name) = []) ∧
      h.bus.registry.ownedCount name = 0
  /-- While it is, just what the last start would register where there is nothing else. -/
  loaded : ∀ name, c.Names name → h.isLoaded name = true →
    let own := Registry.after (registering (registered name (latest name)))
    (∀ event, (h.bus.registry.registrations event).filter (·.owner = name) =
      own.registrations event) ∧ (h.bus.registry.owned name).Perm (own.owned name)
  /-- That is call by call, if the start registers no handler twice for an event. -/
  inOrder : ∀ name, c.Names name → h.isLoaded name = true →
    ((registered name (latest name)).map pair).Nodup → ∀ event,
      (h.bus.registry.registrations event).filter (·.owner = name) =
        ((registered name (latest name)).filter (·.1 = event)).map (·.2)

/-- What two hosts have registered under some of the names is the same. -/
structure SameUnder (keep : Text → Bool) (h h' : Host μ κ γ ω) : Prop where
  registrations : ∀ event, (h'.bus.registry.registrations event).filter (keep ·.owner) =
    (h.bus.registry.registrations event).filter (keep ·.owner)
  owned : ∀ owner, keep owner = true →
    (h'.bus.registry.owned owner).Perm (h.bus.registry.owned owner)

/-- What the last start under a name did. The run that records it is the same run (`forget_run`). -/
def lastStart (c : ModuleConduct μ κ γ ω) (world : ω) (steps : List (Step μ κ γ ω)) (name : Text) :
    List (StartStep κ γ) :=
  (run c.recorded { world := (world, []) } (steps.map Step.recorded)).world.2.latest name

theorem Accounts.ownTheirs {c : ModuleConduct μ κ γ ω} {home : κ → Option Text}
    {h : Host μ κ γ (ω × Starts κ γ)} {s : Subscriptions κ γ} (ha : Accounts c home h s) :
    OwnTheirs c h.forget h.world.2.latest := by
  have hregistrations (name : Text) (hname : c.Names name) (event : Text) :
      (h.bus.registry.registrations event).filter (·.owner = name) =
        (h.due name).registrations event :=
    (ha.registrations_under _ event).trans (by rw [ha.kept name hname])
  have howned (name : Text) (hname : c.Names name) :
      (h.bus.registry.owned name).Perm ((h.due name).owned name) :=
    ha.kept name hname ▸ ha.owned_under (decide_eq_true rfl)
  have hdue {name : Text} (hloaded : h.isLoaded name = true) :
      h.due name = Subscriptions.after (registering (registered name (h.world.2.latest name))) :=
    if_pos hloaded
  refine ⟨fun name hname hloaded => ⟨fun event => ?_, ?_⟩,
    fun name hname hloaded => ⟨fun event => ?_, ?_⟩, fun name hname hloaded hnodup event => ?_⟩
  · refine (hregistrations name hname event).trans ?_
    rw [due_of_not_loaded hloaded]
    rfl
  · refine (howned name hname).length_eq.trans ?_
    rw [due_of_not_loaded hloaded]
    rfl
  · refine (hregistrations name hname event).trans ?_
    rw [hdue hloaded, (Registry.refines_after _).registrations]
  · refine (howned name hname).trans ?_
    rw [hdue hloaded]
    exact ((Registry.refines_after _).owned name).symm
  · refine (hregistrations name hname event).trans ?_
    have hentries : (h.due name).entries = registered name (h.world.2.latest name) :=
      (hdue hloaded).symm ▸ entries_registering .empty _ hnodup
    rw [Subscriptions.registrations, hentries]

/-- **Modules own just their handlers.** After any operations on modules, with anything else going
on between them that leaves the names and the handlers of modules alone, a module that is loaded
has registered what its last start did, and nothing is left of one that is not. No operation
changes anything registered under other names than it is about. -/
theorem loaded_modules_own_their_handlers (c : ModuleConduct μ κ γ ω) (home : κ → Option Text)
    (hown : c.RegistersOwn home) (world : ω) (steps : List (Step μ κ γ ω))
    (hsteps : ∀ step ∈ steps, step.Respects c home) :
    let h := run c { world } steps
    OwnTheirs c h (lastStart c world steps) ∧
      ∀ (o : Order μ) (keep : Text → Bool), (∀ name, o.Concerns c h name → keep name = false) →
        SameUnder keep h (carryOut c h o).2 := by
  intro h
  let first : Host μ κ γ (ω × Starts κ γ) := { world := (world, []) }
  have hfirst : Accounts c home first .empty :=
    ⟨Registry.refines_empty, fun e he => absurd he List.not_mem_nil, fun _ _ => rfl⟩
  have hempty : first.Named c.recorded := Table.all_empty
  obtain ⟨hnamed, s, ha⟩ := accounts_run hown steps hsteps hempty hfirst
  have hforget : (run c.recorded first (steps.map Step.recorded)).forget = h :=
    forget_run first steps
  rw [← hforget]
  refine ⟨ha.ownTheirs, fun o keep hkeep => ?_⟩
  obtain ⟨s', ha', hunder⟩ := ha.moves hown (moves_carryOut hnamed o)
  rw [← forget_carryOut]
  refine ⟨fun event => ?_, fun owner howner => ?_⟩
  · refine (ha'.registrations_under keep event).trans ?_
    rw [hunder keep hkeep]
    exact (ha.registrations_under keep event).symm
  · refine (ha'.owned_under howner).trans ?_
    rw [hunder keep hkeep]
    exact (ha.owned_under howner).symm

/-- A module that registers new handlers at each start, and fails at the second one. -/
def greeter : ModuleConduct Unit Nat Unit Nat where
  name _ := "greeter".toList
  start _ w :=
    ([.register "join".toList (w + 1) none, .register "part".toList (w + 1) none],
      if w = 1 then .error "no greeting".toList else .ok (), w + 1)

/-- The handler `0` is a guest's. -/
def greeterHome : Nat → Option Text
  | 0 => none
  | _ + 1 => some "greeter".toList

/-- A guest registers first, and the reload of the greeter fails. -/
def greeterSteps : List (Step Unit Nat Unit Nat) :=
  [.other (.register "join".toList ⟨0, none, "guest".toList⟩), .order (.load ()),
    .order (.reload "greeter".toList), .order (.loadKnown "greeter".toList)]

theorem greeter_owns_its_handlers :
    let h := run greeter { world := 0 } greeterSteps
    OwnTheirs greeter h (lastStart greeter 0 greeterSteps) ∧
      h.isLoaded "greeter".toList = true ∧
      h.bus.registry.registrations "join".toList =
        [⟨0, none, "guest".toList⟩, ⟨3, none, "greeter".toList⟩] := by
  have hown : greeter.RegistersOwn greeterHome := by
    intro _ w event handler context hmem
    obtain he | he := List.mem_pair.1 hmem
    · obtain ⟨-, rfl, -⟩ := StartStep.register.inj he
      rfl
    · obtain ⟨-, rfl, -⟩ := StartStep.register.inj he
      rfl
  have hguest : ¬greeter.Names "guest".toList := fun ⟨(), hname⟩ => absurd hname (by decide)
  have hsteps : ∀ step ∈ greeterSteps, step.Respects greeter greeterHome := by
    simp only [greeterSteps, List.forall_mem_cons]
    exact ⟨⟨rfl, hguest⟩, trivial, trivial, trivial, fun _ hstep => absurd hstep List.not_mem_nil⟩
  exact ⟨(loaded_modules_own_their_handlers greeter greeterHome hown 0 greeterSteps hsteps).1,
    by decide, by decide⟩

end Host

end IrcBot
