/-
What the operations on modules are made of. Each is a sequence of moves: a module starts
under its name, or fails to, or stops, or a name is dropped. What every move keeps, every
operation keeps (`moves_carryOut`).
-/
import IrcBot.Proofs.Module.Runs
import IrcBot.Proofs.Table
import Mathlib.Logic.Relation

namespace IrcBot.Host

variable {μ κ γ ω : Type} {h h' : Host μ κ γ ω} {name : Text}

/-- Every known module is kept under its name. -/
def Named (c : ModuleConduct μ κ γ ω) (h : Host μ κ γ ω) : Prop :=
  h.slots.All fun name slot => c.name slot.module = name

theorem isLoaded_iff : h.isLoaded name = true ↔ ∃ m, h.slots.get? name = some ⟨m, true⟩ := by
  unfold isLoaded
  rcases h.slots.get? name with _ | ⟨m, _ | _⟩ <;> simp

theorem isLoaded_congr (hslots : h'.slots = h.slots) (name : Text) :
    h'.isLoaded name = h.isLoaded name := by
  rw [isLoaded, hslots, isLoaded]

theorem isLoaded_setSlot (slot : Slot μ) (name' : Text) :
    (h.setSlot name slot).isLoaded name' =
      if name = name' then slot.loaded else h.isLoaded name' := by
  unfold isLoaded setSlot
  rw [Table.get?_insert]
  split <;> rfl

theorem isLoaded_setSlot_self (h : Host μ κ γ ω) (name : Text) (slot : Slot μ) :
    (h.setSlot name slot).isLoaded name = slot.loaded :=
  (isLoaded_setSlot slot name).trans (if_pos rfl)

theorem isLoaded_erase (name' : Text) :
    ({ h with slots := h.slots.erase name } : Host μ κ γ ω).isLoaded name' =
      if name = name' then false else h.isLoaded name' := by
  unfold isLoaded
  rw [Table.get?_erase]
  split <;> rfl

theorem setSlot_setSlot (h : Host μ κ γ ω) (name : Text) (slot slot' : Slot μ) :
    (h.setSlot name slot).setSlot name slot' = h.setSlot name slot' := by
  have hslots : (h.slots.insert name slot).insert name slot' = h.slots.insert name slot' := by
    refine Table.ext_get? fun k => ?_
    simp only [Table.get?_insert]
    split <;> rfl
  exact congrArg (fun slots => { h with slots }) hslots

theorem Named.of_slots {c : ModuleConduct μ κ γ ω} (hnamed : h.Named c)
    (hslots : h'.slots = h.slots) : h'.Named c := by
  rw [Named, hslots]
  exact hnamed

theorem Named.setSlot {c : ModuleConduct μ κ γ ω} {m : μ} (hnamed : h.Named c) (loaded : Bool) :
    (h.setSlot (c.name m) ⟨m, loaded⟩).Named c := Table.All.insert hnamed rfl

variable [DecidableEq κ] {c : ModuleConduct μ κ γ ω}

/-! ## What a start does to the slots and answers -/

theorem slots_start {m : μ} {result : Except ModuleError Unit}
    (hstart : start c h name m = (result, h')) : h'.slots = h.slots := by
  unfold start at hstart
  dsimp only at hstart
  split at hstart <;> (cases hstart; rfl)

theorem start_error {m : μ} {e : ModuleError} (hstart : start c h name m = (.error e, h')) :
    ∃ reason, (c.start m h.world).2.1 = .error reason ∧ e = .start name reason := by
  have hworld : (h.publish .loading name).world = h.world := rfl
  simp only [start, hworld] at hstart
  split at hstart
  · next reason hreason =>
    cases hstart
    exact ⟨reason, hreason, rfl⟩
  · cases hstart

theorem start_setSlot (h : Host μ κ γ ω) (name name' : Text) (slot : Slot μ) (m : μ) :
    start c (h.setSlot name' slot) name m =
      (start c h name m).map id (setSlot · name' slot) := by
  have hresult : (c.start m ((h.setSlot name' slot).publish .loading name).world).2.1 =
      (c.start m (h.publish .loading name).world).2.1 := rfl
  simp only [start, hresult]
  cases (c.start m (h.publish .loading name).world).2.1 <;> rfl

/-! ## Moves -/

/-- A move under a name. -/
inductive Move (c : ModuleConduct μ κ γ ω) (h : Host μ κ γ ω) : Text → Host μ κ γ ω → Prop where
  | start {m : μ} {h' : Host μ κ γ ω} (hloaded : h.isLoaded (c.name m) = false)
      (hstart : start c h (c.name m) m = (.ok (), h')) :
      Move c h (c.name m) (h'.setSlot (c.name m) ⟨m, true⟩)
  | fail {m : μ} {e : ModuleError} {h' : Host μ κ γ ω} (hloaded : h.isLoaded (c.name m) = false)
      (hstart : start c h (c.name m) m = (.error e, h')) : Move c h (c.name m) h'
  | stop {m : μ} (hslot : h.slots.get? (c.name m) = some ⟨m, true⟩) :
      Move c h (c.name m) ((stop c h (c.name m) m).setSlot (c.name m) ⟨m, false⟩)
  | drop {name : Text} (hloaded : h.isLoaded name = false) :
      Move c h name { h with slots := h.slots.erase name }

/-- Moves under some of the names. -/
def Moves (c : ModuleConduct μ κ γ ω) (names : Text → Prop) :
    Host μ κ γ ω → Host μ κ γ ω → Prop :=
  Relation.ReflTransGen fun h h' => ∃ name, names name ∧ Move c h name h'

theorem Move.named (hmove : Move c h name h') (hnamed : h.Named c) : h'.Named c := by
  cases hmove with
  | start _ hstart => exact (hnamed.of_slots (slots_start hstart)).setSlot true
  | fail _ hstart => exact hnamed.of_slots (slots_start hstart)
  | stop hslot => exact Named.setSlot hnamed false
  | drop => exact Table.All.erase hnamed

theorem Moves.named {names : Text → Prop} (hmoves : Moves c names h h') (hnamed : h.Named c) :
    h'.Named c := by
  induction hmoves with
  | refl => exact hnamed
  | tail _ hmove ih =>
    obtain ⟨_, -, hmove⟩ := hmove
    exact hmove.named ih

theorem Moves.one {names : Text → Prop} (hname : names name) (hmove : Move c h name h') :
    Moves c names h h' := .single ⟨name, hname, hmove⟩

/-! ## Operations are made of moves -/

theorem moves_load (h : Host μ κ γ ω) (m : μ) : Moves c (· = c.name m) h (load c h m).2 := by
  unfold load
  dsimp only
  split
  · exact .refl
  · next hloaded =>
    have hloaded := eq_false_of_ne_true hloaded
    split
    · next hstart => exact .one rfl (.start hloaded hstart)
    · next hstart => exact .one rfl (.fail hloaded hstart)

theorem moves_loadKnown (hnamed : h.Named c) (name : Text) :
    Moves c (· = name) h (loadKnown c h name).2 := by
  unfold loadKnown
  split
  · exact .refl
  · next slot hslot =>
    split
    · exact .refl
    · have hload := moves_load (c := c) h slot.module
      rwa [hnamed name slot hslot] at hload

theorem unload_of_loaded {m : μ} (hslot : h.slots.get? name = some ⟨m, true⟩) :
    unload c h name = (.ok (), (stop c h name m).setSlot name ⟨m, false⟩) := by
  simp only [unload, hslot]

theorem unload_of_not_loaded (hloaded : h.isLoaded name = false) :
    unload c h name = (.error (.notLoaded name), h) := by
  unfold unload
  split
  · next m hslot =>
    rw [isLoaded_iff.2 ⟨m, hslot⟩] at hloaded
    cases hloaded
  · rfl

theorem isLoaded_unload (h : Host μ κ γ ω) (name : Text) :
    (unload c h name).2.isLoaded name = false := by
  cases hloaded : h.isLoaded name with
  | true =>
    obtain ⟨m, hslot⟩ := isLoaded_iff.1 hloaded
    rw [unload_of_loaded hslot, isLoaded_setSlot_self]
  | false => rwa [unload_of_not_loaded hloaded]

theorem moves_unload (hnamed : h.Named c) (name : Text) :
    Moves c (· = name) h (unload c h name).2 := by
  cases hloaded : h.isLoaded name with
  | true =>
    obtain ⟨m, hslot⟩ := isLoaded_iff.1 hloaded
    obtain rfl : c.name m = name := hnamed name _ hslot
    rw [unload_of_loaded hslot]
    exact .one rfl (.stop hslot)
  | false =>
    rw [unload_of_not_loaded hloaded]
    exact .refl

/-- A reload is an unload and then a start. -/
theorem moves_reload (hnamed : h.Named c) (name : Text) :
    Moves c (· = name) h (reload c h name).2 := by
  unfold reload
  split
  · next m hslot =>
    obtain rfl : c.name m = name := hnamed name _ hslot
    have hstop : Moves c (· = c.name m) h _ := .one rfl (.stop hslot)
    refine hstop.trans ?_
    -- the program marks the slot only after the start, which never looks at slots
    have hstart := start_setSlot (c := c) (stop c h (c.name m) m) (c.name m) (c.name m) ⟨m, false⟩ m
    have hloaded : ((stop c h (c.name m) m).setSlot (c.name m) ⟨m, false⟩).isLoaded (c.name m) =
        false := isLoaded_setSlot_self _ _ _
    rcases hresult : start c (stop c h (c.name m) m) (c.name m) m with ⟨_ | _, h'⟩
    · rw [hresult] at hstart
      exact Moves.one rfl (.fail hloaded hstart)
    · rw [hresult] at hstart
      have hmove := Move.start hloaded hstart
      rw [setSlot_setSlot] at hmove
      exact Moves.one rfl hmove
  · exact .refl

theorem moves_replace (hnamed : h.Named c) (m : μ) :
    Moves c (· = c.name m) h (replace c h m).2 := by
  have hdrop : Moves c (· = c.name m) (unload c h (c.name m)).2 _ :=
    .one rfl (.drop (isLoaded_unload h (c.name m)))
  exact ((moves_unload hnamed (c.name m)).trans hdrop).trans (moves_load _ m)

theorem Moves.mono {names names' : Text → Prop} (hmoves : Moves c names h h')
    (hnames : ∀ name, names name → names' name) : Moves c names' h h' :=
  Relation.ReflTransGen.mono (fun _ _ ⟨name, hname, hmove⟩ => ⟨name, hnames name hname, hmove⟩) _ _
    hmoves

theorem moves_unloads {names : Text → Prop} (l : List Text) (hl : ∀ name ∈ l, names name)
    (hnamed : h.Named c) : Moves c names h (l.foldl (fun h name => (unload c h name).2) h) := by
  induction l generalizing h with
  | nil => exact .refl
  | cons name l ih =>
    obtain ⟨hname, hl⟩ := List.forall_mem_cons.1 hl
    have hfirst := moves_unload hnamed name
    have hfirst : Moves c names h (unload c h name).2 := hfirst.mono fun _ he => he ▸ hname
    exact hfirst.trans (ih hl (hfirst.named hnamed))

omit [DecidableEq κ] in
theorem mem_list {loaded : Bool} : (name, loaded) ∈ h.list ↔
    ∃ m, h.slots.get? name = some ⟨m, loaded⟩ := by
  unfold list
  simp only [List.mem_map, Prod.exists, Prod.mk.injEq, Table.mem_entries]
  constructor
  · rintro ⟨_, ⟨m, _⟩, hslot, rfl, rfl⟩
    exact ⟨m, hslot⟩
  · rintro ⟨m, hslot⟩
    exact ⟨name, ⟨m, loaded⟩, hslot, rfl, rfl⟩

theorem moves_unloadAll (hnamed : h.Named c) : Moves c (h.isLoaded ·) h (unloadAll c h) := by
  refine moves_unloads _ (fun name hname => ?_) hnamed
  obtain ⟨⟨_, loaded⟩, hmem, rfl⟩ := List.mem_map.1 (List.mem_reverse.1 hname)
  obtain ⟨hmem, rfl⟩ := List.mem_filter.1 hmem
  exact isLoaded_iff.2 (mem_list.1 hmem)

/-- The names that an operation is about. -/
def Order.Concerns (c : ModuleConduct μ κ γ ω) (h : Host μ κ γ ω) : Order μ → Text → Prop
  | .load m | .replace m => (· = c.name m)
  | .loadKnown name | .unload name | .reload name => (· = name)
  | .unloadAll => (h.isLoaded ·)

/-- **Every operation is made of moves** under the names it is about. -/
theorem moves_carryOut (hnamed : h.Named c) (o : Order μ) :
    Moves c (o.Concerns c h) h (carryOut c h o).2 := by
  cases o with
  | load m => exact moves_load h m
  | loadKnown name => exact moves_loadKnown hnamed name
  | unload name => exact moves_unload hnamed name
  | reload name => exact moves_reload hnamed name
  | replace m => exact moves_replace hnamed m
  | unloadAll => exact moves_unloadAll hnamed

theorem named_proceed (hnamed : h.Named c) (s : Step μ κ γ ω) : (proceed c h s).Named c := by
  cases s with
  | order o => exact (moves_carryOut hnamed o).named hnamed
  | other op => exact hnamed
  | pass pending world => exact hnamed

theorem named_run (hnamed : h.Named c) (steps : List (Step μ κ γ ω)) : (run c h steps).Named c := by
  induction steps generalizing h with
  | nil => exact hnamed
  | cons s steps ih => exact ih (named_proceed hnamed s)

end IrcBot.Host
