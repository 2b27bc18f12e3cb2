/-
Operations on modules that are answered with an error. One that is refused does nothing. A
start that fails takes all registrations under its name off again; the registry is what it was
before just when there were none of them and the start has taken no pair over from another
owner (`Refines.restored_iff`).
-/
import IrcBot.Proofs.Module.Chronicle
import IrcBot.Proofs.Module.Registering

namespace IrcBot

open Bus

variable {μ κ γ ω : Type}

/-! ## Registering under a name, and taking it all back -/

section Restored

variable [DecidableEq κ] {s : Subscriptions κ γ} {r : Registry κ γ} {name owner : Text}
variable {e : Text × Registration κ γ} {es : List (Text × Registration κ γ)}

/-- An entry is one of the calls, or was there before and no call is of its pair. -/
theorem mem_registering (he : e ∈ ((registering es).foldl Subscriptions.apply s).entries) :
    e ∈ es ∨ e ∈ s.entries ∧ pair e ∉ es.map pair := by
  induction es generalizing s with
  | nil => exact .inr ⟨he, List.not_mem_nil⟩
  | cons first es ih =>
    obtain he | ⟨he, hother⟩ := ih he
    · exact .inl (List.mem_cons_of_mem _ he)
    · obtain rfl | ⟨he, hne⟩ := Subscriptions.mem_register.1 he
      · exact .inl List.mem_cons_self
      · exact .inr ⟨he, fun hmem => (List.mem_cons.1 hmem).elim hne hother⟩

/-- Calls under a name take nothing over from other owners. -/
def Bus.Subscriptions.Grants (s : Subscriptions κ γ) (name : Text)
    (es : List (Text × Registration κ γ)) : Prop :=
  ∀ e ∈ s.entries, pair e ∈ es.map pair → e.2.owner = name

theorem Bus.Subscriptions.Grants.register (hgrants : s.Grants name (e :: es))
    (howner : e.2.owner = name) : (s.register e.1 e.2).Grants name es := by
  intro old hold hpair
  obtain rfl | ⟨hold, -⟩ := Subscriptions.mem_register.1 hold
  · exact howner
  · exact hgrants old hold (List.mem_cons_of_mem _ hpair)

theorem unregisterAll_registering (hgrants : s.Grants name es) (hes : ∀ e ∈ es, e.2.owner = name) :
    ((registering es).foldl Subscriptions.apply s).unregisterAll name = s.unregisterAll name := by
  induction es generalizing s with
  | nil => rfl
  | cons e es ih =>
    obtain ⟨howner, hes⟩ := List.forall_mem_cons.1 hes
    refine (ih (hgrants.register howner) hes).trans ?_
    have hpart : ∀ old ∈ s.entries, pair old = (e.1, e.2.handler) →
        decide (old.2.owner ≠ name) = decide (e.2.owner ≠ name) := fun old hold hpair => by
      rw [hgrants old hold (List.mem_cons.2 (.inl hpair)), howner]
    refine (Subscriptions.register_filter _ hpart).trans (if_neg ?_)
    simp [howner]

/-- The other owners keep what they have. -/
theorem Bus.Registry.Refines.owned_registering (h : r.Refines s) (hgrants : s.Grants name es)
    (hes : ∀ e ∈ es, e.2.owner = name) (hne : name ≠ owner) :
    ((registering es).foldl Registry.apply r).owned owner = r.owned owner := by
  induction es generalizing r s with
  | nil => rfl
  | cons e es ih =>
    obtain ⟨howner, hes⟩ := List.forall_mem_cons.1 hes
    refine (ih (h.register e.1 e.2) (hgrants.register howner) hes).trans ?_
    rw [h.owned_register, if_neg (howner ▸ hne), List.append_nil]
    refine h.filter_owned fun old hfind hold => hne ?_
    obtain ⟨hmem, hhandler⟩ := h.find?_eq_some.1 hfind
    have hpair : pair (e.1, old) = pair e := Prod.ext rfl hhandler
    have hgranted := hgrants (e.1, old) (h.mem_registrations.1 hmem)
      (List.mem_cons.2 (.inl hpair))
    exact hgranted.symm.trans hold

/-- No registration is of the name, or of the pair of one of the calls. -/
def Bus.Registry.Clear (r : Registry κ γ) (name : Text) (es : List (Text × Registration κ γ)) :
    Prop :=
  ∀ event, ∀ old ∈ r.registrations event,
    old.owner ≠ name ∧ ∀ e ∈ es, (event, old.handler) ≠ pair e

/-- Taking back all that is under a name, after calls under this name, restores the registry just
when it was clear of both. -/
theorem Bus.Registry.Refines.restored_iff (h : r.Refines s) (hes : ∀ e ∈ es, e.2.owner = name) :
    (((registering es).foldl Registry.apply r).unregisterAll name).2 = r ↔ r.Clear name es := by
  have hlast := (h.applyAll (registering es)).unregisterAll name
  constructor
  · intro hsame event old hold
    rw [hsame] at hlast
    obtain ⟨hmem, howner⟩ := List.mem_filter.1 (hlast.mem_registrations.1 hold)
    have howner : old.owner ≠ name := of_decide_eq_true howner
    refine ⟨howner, fun e he hpair => ?_⟩
    obtain hcall | ⟨-, hother⟩ := mem_registering hmem
    · exact howner (hes _ hcall)
    · exact hother (List.mem_map.2 ⟨e, he, hpair.symm⟩)
  · intro hclear
    have hgrants : s.Grants name es := fun old hold hpair => by
      obtain ⟨e, he, hpair⟩ := List.mem_map.1 hpair
      exact absurd hpair.symm ((hclear old.1 old.2 (h.mem_registrations.2 hold)).2 e he)
    have hnone : ∀ old ∈ s.entries, decide (old.2.owner ≠ name) = true := fun old hold =>
      decide_eq_true (hclear old.1 old.2 (h.mem_registrations.2 hold)).1
    have hs : s.unregisterAll name = s := Subscriptions.ext (List.filter_eq_self.2 hnone)
    refine h.pruned.ext hlast.pruned (fun event => ?_) fun owner => ?_
    · rw [hlast.registrations, unregisterAll_registering hgrants hes, hs, h.registrations]
    · rw [Registry.owned_unregisterAll]
      split
      · next he =>
        -- whoever has the name owned nothing before
        subst he
        refine Eq.symm (List.eq_nil_iff_forall_not_mem.2 fun p hp => ?_)
        obtain ⟨old, hold, -, howner⟩ := h.mem_owned.1 hp
        exact (hclear _ old hold).1 howner
      · next hne => exact h.owned_registering hgrants hes hne

end Restored

/-- Whether a start has failed, or the operation was refused before. -/
def ModuleError.isStart : ModuleError → Bool
  | .start .. => true
  | .alreadyLoaded _ | .notLoaded _ => false

namespace Host

variable [DecidableEq κ] {c : ModuleConduct μ κ γ ω} {h h' : Host μ κ γ ω} {name : Text}

/-! ## The registry behind the operations -/

theorem Move.refines {s : Subscriptions κ γ} (hmove : Move c h name h')
    (hs : h.bus.registry.Refines s) : ∃ s', h'.bus.registry.Refines s' := by
  cases hmove with
  | start _ hstart => exact ⟨_, registry_start_ok hstart ▸ hs.applyAll _⟩
  | fail _ hstart => exact ⟨_, registry_start_error hstart ▸ (hs.applyAll _).unregisterAll _⟩
  | @stop m => exact ⟨_, hs.unregisterAll (c.name m)⟩
  | drop => exact ⟨s, hs⟩

theorem Moves.refines {names : Text → Prop} {s : Subscriptions κ γ} (hmoves : Moves c names h h')
    (hs : h.bus.registry.Refines s) : ∃ s', h'.bus.registry.Refines s' := by
  induction hmoves with
  | refl => exact ⟨s, hs⟩
  | tail _ hmove ih =>
    obtain ⟨_, hs₁⟩ := ih
    obtain ⟨_, -, hmove⟩ := hmove
    exact hmove.refines hs₁

theorem refines_run (steps : List (Step μ κ γ ω)) {s : Subscriptions κ γ} (hnamed : h.Named c)
    (hs : h.bus.registry.Refines s) : ∃ s', (run c h steps).bus.registry.Refines s' := by
  induction steps generalizing h s with
  | nil => exact ⟨s, hs⟩
  | cons step steps ih =>
    cases step with
    | order o =>
      have hmoves := moves_carryOut hnamed o
      obtain ⟨_, hs'⟩ := hmoves.refines hs
      exact ih (hmoves.named hnamed) hs'
    | other op => exact ih hnamed (hs.apply op)
    | pass pending world => exact ih hnamed hs

/-! ## Errors -/

/-- What a start leaves that has failed for a reason. -/
structure FailedStart (c : ModuleConduct μ κ γ ω) (h : Host μ κ γ ω) (m : μ) (e : ModuleError)
    (h' : Host μ κ γ ω) : Prop where
  error : ∃ reason, (c.start m h.world).2.1 = .error reason ∧ e = .start (c.name m) reason
  slots : h'.slots = h.slots
  /-- The host says that it is loading, and nothing more. -/
  pending : h'.bus.pending = h.bus.pending ++
    .module .loading (c.name m) :: (c.start m h.world).1.filterMap StartStep.event?
  registry : h'.bus.registry = h.bus.registry ↔
    h.bus.registry.Clear (c.name m) (registered (c.name m) (c.start m h.world).1)

/-- A module is not loaded, but known, and has no handlers. -/
structure Unloaded (h : Host μ κ γ ω) (name : Text) : Prop where
  listed : (name, false) ∈ h.list
  registrations : ∀ event, ∀ old ∈ h.bus.registry.registrations event, old.owner ≠ name
  owned : h.bus.registry.ownedCount name = 0

/-- The module that an operation would load where it is not loaded. -/
def Order.Loads (h : Host μ κ γ ω) : Order μ → μ → Prop
  | .load m', m => m' = m
  | .loadKnown name, m => h.slots.get? name = some ⟨m, false⟩
  | .unload _, _ | .reload _, _ | .replace _, _ | .unloadAll, _ => False

/-- What an operation has done that is answered with an error. -/
structure Refusal (c : ModuleConduct μ κ γ ω) (h : Host μ κ γ ω) (o : Order μ) (e : ModuleError)
    (h' : Host μ κ γ ω) : Prop where
  refused : e.isStart = false → h' = h
  load : e.isStart = true → ∀ m, o.Loads h m → FailedStart c h m e h'
  reload : e.isStart = true → ∀ name, o = .reload name → h'.Unloaded name

omit [DecidableEq κ] in
theorem owner_registered (name : Text) (steps : List (StartStep κ γ)) :
    ∀ e ∈ registered name steps, e.2.owner = name := by
  intro e he
  obtain ⟨step, -, hentry⟩ := List.mem_filterMap.1 he
  cases step with
  | register => cases hentry; rfl
  | publish => cases hentry

theorem FailedStart.of_start {s : Subscriptions κ γ} (hs : h.bus.registry.Refines s) {m : μ}
    {e : ModuleError} (hstart : start c h (c.name m) m = (.error e, h')) :
    FailedStart c h m e h' where
  error := start_error hstart
  slots := slots_start hstart
  pending := by
    obtain ⟨reason, hreason, -⟩ := start_error hstart
    have hpending := pending_start (c := c) h (c.name m) m
    rw [hstart, hreason] at hpending
    simpa [startNotices, Notice.event, Function.comp_def, Except.isOk, Except.toBool] using hpending
  registry := by
    rw [registry_start_error hstart]
    exact hs.restored_iff (owner_registered _ _)

theorem Unloaded.of_start {s : Subscriptions κ γ} (hs : h.bus.registry.Refines s) {m : μ}
    {e : ModuleError} (hstart : start c h name m = (.error e, h')) :
    (h'.setSlot name ⟨m, false⟩).Unloaded name where
  listed := mem_list.2 ⟨m, (Table.get?_insert ..).trans (if_pos rfl)⟩
  registrations event old hold := by
    have hrefines := (hs.applyAll
      (registering (registered name (c.start m h.world).1))).unregisterAll name
    rw [← registry_start_error hstart] at hrefines
    exact of_decide_eq_true (List.mem_filter.1 (hrefines.mem_registrations.1 hold)).2
  owned := by
    have howned : h'.bus.registry.owned name = [] := by
      rw [registry_start_error hstart, Registry.owned_unregisterAll, if_pos rfl]
    exact congrArg List.length howned

theorem isStart_of_start {m : μ} {e : ModuleError} (hstart : start c h name m = (.error e, h')) :
    e.isStart = true := by
  obtain ⟨reason, -, rfl⟩ := start_error hstart
  rfl

omit [DecidableEq κ] in
theorem Refusal.of_refused {o : Order μ} {e : ModuleError} (he : e.isStart = false) :
    Refusal c h o e h where
  refused _ := rfl
  load hstart := absurd (he.symm.trans hstart) Bool.false_ne_true
  reload hstart := absurd (he.symm.trans hstart) Bool.false_ne_true

omit [DecidableEq κ] in
theorem Refusal.of_start {o : Order μ} {e : ModuleError} (he : e.isStart = true)
    (hload : ∀ m, o.Loads h m → FailedStart c h m e h')
    (hreload : ∀ name, o = .reload name → h'.Unloaded name) : Refusal c h o e h' where
  refused hrefused := absurd (hrefused.symm.trans he) Bool.false_ne_true
  load _ := hload
  reload _ := hreload

/-- A load is refused or its start fails. -/
theorem load_error {m : μ} {e : ModuleError} (hload : load c h m = (.error e, h')) :
    e.isStart = false ∧ h.isLoaded (c.name m) = true ∧ h' = h ∨
      start c h (c.name m) m = (.error e, h') := by
  unfold load at hload
  dsimp only at hload
  split at hload
  · next hloaded =>
    cases hload
    exact .inl ⟨rfl, hloaded, rfl⟩
  · split at hload
    · cases hload
    · next hstart =>
      cases hload
      exact .inr hstart

theorem refusal_load {s : Subscriptions κ γ} (hs : h.bus.registry.Refines s) {m : μ}
    {e : ModuleError} {o : Order μ} (hload : load c h m = (.error e, h'))
    (ho : ∀ m', o.Loads h m' → m' = m) (hreload : ∀ name, o ≠ .reload name) :
    Refusal c h o e h' := by
  obtain ⟨he, -, rfl⟩ | hstart := load_error hload
  · exact .of_refused he
  · exact .of_start (isStart_of_start hstart) (fun m' hm => ho m' hm ▸ .of_start hs hstart)
      fun name he => absurd he (hreload name)

theorem refusal_reload {s : Subscriptions κ γ} (hs : h.bus.registry.Refines s) {e : ModuleError}
    (hreload : reload c h name = (.error e, h')) : Refusal c h (.reload name) e h' := by
  unfold reload at hreload
  split at hreload
  · next m hslot =>
    split at hreload
    · cases hreload
    · next hstart =>
      cases hreload
      refine .of_start (isStart_of_start hstart) (fun _ => False.elim) fun name' he => ?_
      cases he
      exact .of_start (hs.unregisterAll name) hstart
  · cases hreload
    exact .of_refused rfl

/-- **What an error tells.** -/
theorem refusal_carryOut {s : Subscriptions κ γ} (hs : h.bus.registry.Refines s) {o : Order μ}
    {e : ModuleError} (ho : carryOut c h o = (.error e, h')) : Refusal c h o e h' := by
  cases o with
  | load m => exact refusal_load hs ho (fun m' hm => hm.symm) fun _ he => by cases he
  | loadKnown name =>
    simp only [carryOut, loadKnown] at ho
    split at ho
    · cases ho
      exact .of_refused rfl
    · next slot hslot =>
      split at ho
      · cases ho
        exact .of_refused rfl
      · refine refusal_load hs ho (fun m' hm => ?_) fun _ he => by cases he
        have hsame : some slot = some ⟨m', false⟩ := hslot.symm.trans hm
        cases hsame
        rfl
  | unload name =>
    simp only [carryOut, unload] at ho
    split at ho
    · cases ho
    · cases ho
      exact .of_refused rfl
  | reload name => exact refusal_reload hs ho
  | replace m =>
    -- the name has been dropped, so that the load is not refused
    obtain ⟨-, hloaded, -⟩ | hstart := load_error ho
    · rw [isLoaded_erase, if_pos rfl] at hloaded
      cases hloaded
    · exact .of_start (isStart_of_start hstart) (fun _ => False.elim) fun _ he => by cases he
  | unloadAll => cases ho

/-- **What the host says of its modules is true.** In any run, what it says of a name follows the
life of the module, and it has said last that the module is loaded just when it is. An operation
that is refused has done nothing. A start that fails leaves the modules as they were, and the host
has only said that it is loading; the registry is as it was just when nothing in it was of this
name, or of an event and handler that the start has registered. A module whose reload fails is
known, not loaded, and has no handlers. -/
theorem host_tells_the_truth (c : ModuleConduct μ κ γ ω) (world : ω)
    (steps : List (Step μ κ γ ω)) :
    let h := run c { world } steps
    let notices := chronicle c world steps
    notices.map Notice.event = history c { world } steps ∧
      (∀ name, Lifecycle (stagesOf name notices) (h.isLoaded name) ∧
        (h.isLoaded name = true ↔ (stagesOf name notices).getLast? = some .loaded)) ∧
      ∀ o e h', carryOut c h o = (.error e, h') → Refusal c h o e h' := by
  obtain ⟨hnotices, hlives⟩ := chronicle_spec c world steps
  have hempty : ({ world } : Host μ κ γ ω).Named c := Table.all_empty
  obtain ⟨s, hs⟩ := refines_run steps hempty Registry.refines_empty
  refine ⟨hnotices, fun name => ⟨hlives name, (hlives name).loaded_iff⟩, fun _ _ _ ho => ?_⟩
  exact refusal_carryOut hs ho

/-- A module of the name `recorder` that does not start. -/
def impostor : ModuleConduct Unit Unit Unit Unit where
  name _ := "recorder".toList
  start _ _ := ([], .error "refused".toList, ())

/-- Somebody has registered under that name, and loses the handler to the module that fails. -/
theorem impostor_takes_handlers :
    let h := run impostor { world := () }
      [.other (.register "module.loading".toList ⟨(), none, "recorder".toList⟩)]
    (carryOut impostor h (.load ())).1 = .error (.start "recorder".toList "refused".toList) ∧
      h.bus.registry.handlerCount "module.loading".toList = 1 ∧
      (carryOut impostor h (.load ())).2.bus.registry.handlerCount "module.loading".toList = 0 := by
  decide

end Host

end IrcBot
