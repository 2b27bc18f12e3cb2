/-
Which modules are known. A name becomes known when its module is loaded. After that it stays
known, unless the module is replaced by one that does not start: the old module is dropped
before the new one is loaded, and then there is neither (`modules_stay_known_iff`).
-/
import IrcBot.Proofs.Module.Moves

namespace IrcBot.Host

variable {μ κ γ ω : Type} {h h' : Host μ κ γ ω} {name : Text} {m : μ}

/-- A name is listed, be its module loaded or not. -/
def Lists (h : Host μ κ γ ω) (name : Text) : Prop := ∃ loaded, (name, loaded) ∈ h.list

theorem lists_iff : h.Lists name ↔ (h.slots.get? name).isSome = true := by
  unfold Lists
  simp only [mem_list]
  constructor
  · rintro ⟨loaded, m, hslot⟩
    rw [hslot]
    rfl
  · intro hsome
    obtain ⟨⟨m, loaded⟩, hslot⟩ := Option.isSome_iff_exists.1 hsome
    exact ⟨loaded, m, hslot⟩

theorem lists_of_loaded (hloaded : h.isLoaded name = true) : h.Lists name := by
  obtain ⟨m, hslot⟩ := isLoaded_iff.1 hloaded
  exact lists_iff.2 (by rw [hslot]; rfl)

theorem lists_congr (hslots : h'.slots = h.slots) (name : Text) : h'.Lists name ↔ h.Lists name := by
  rw [lists_iff, lists_iff, hslots]

theorem lists_setSlot (slot : Slot μ) (name' : Text) :
    (h.setSlot name slot).Lists name' ↔ h.Lists name' ∨ name = name' := by
  rw [lists_iff, lists_iff, setSlot, Table.get?_insert]
  split
  · next he => simp [he]
  · next hne => simp [hne]

/-- A known module stays known when its slot is written. -/
theorem lists_setSlot_known (hlists : h.Lists name) (slot : Slot μ) (name' : Text) :
    (h.setSlot name slot).Lists name' ↔ h.Lists name' := by
  rw [lists_setSlot]
  exact or_iff_left_of_imp fun he => he ▸ hlists

theorem lists_erase (name' : Text) :
    ({ h with slots := h.slots.erase name } : Host μ κ γ ω).Lists name' ↔
      name ≠ name' ∧ h.Lists name' := by
  rw [lists_iff, lists_iff, Table.get?_erase]
  split
  · next he => simp [he]
  · next hne => simp [hne]

variable [DecidableEq κ] {c : ModuleConduct μ κ γ ω}

/-! ## What the operations do to the list -/

theorem lists_load (h : Host μ κ γ ω) (m : μ) (name : Text) :
    (load c h m).2.Lists name ↔ h.Lists name ∨ c.name m = name ∧ (load c h m).1 = .ok () := by
  unfold load
  dsimp only
  split
  · simp
  · split
    · next hstart =>
      rw [lists_setSlot, lists_congr (slots_start hstart)]
      simp
    · next hstart =>
      rw [lists_congr (slots_start hstart)]
      simp

theorem loaded_of_load (hload : (load c h m).1 = .ok ()) :
    (load c h m).2.isLoaded (c.name m) = true := by
  unfold load at hload ⊢
  dsimp only at hload ⊢
  split at hload
  · cases hload
  · next hloaded =>
    rw [if_neg hloaded]
    split at hload
    · exact isLoaded_setSlot_self _ _ _
    · cases hload

theorem lists_loadKnown (hnamed : h.Named c) (known name : Text) :
    (loadKnown c h known).2.Lists name ↔ h.Lists name := by
  unfold loadKnown
  split
  · exact .rfl
  · next slot hslot =>
    split
    · exact .rfl
    · have hlists : h.Lists known := lists_iff.2 (by rw [hslot]; rfl)
      rw [lists_load, hnamed known slot hslot]
      exact or_iff_left_of_imp fun hnew => hnew.1 ▸ hlists

theorem lists_unload (h : Host μ κ γ ω) (gone name : Text) :
    (unload c h gone).2.Lists name ↔ h.Lists name := by
  cases hloaded : h.isLoaded gone with
  | true =>
    obtain ⟨m, hslot⟩ := isLoaded_iff.1 hloaded
    rw [unload_of_loaded hslot]
    exact lists_setSlot_known (h := stop c h gone m) (lists_of_loaded hloaded) _ name
  | false => rw [unload_of_not_loaded hloaded]

theorem lists_reload (h : Host μ κ γ ω) (again name : Text) :
    (reload c h again).2.Lists name ↔ h.Lists name := by
  unfold reload
  split
  · next m hslot =>
    have hloaded : (stop c h again m).isLoaded again = true := isLoaded_iff.2 ⟨m, hslot⟩
    have hlists {result : Except ModuleError Unit} {h₁ : Host μ κ γ ω}
        (hstart : start c (stop c h again m) again m = (result, h₁)) (loaded : Bool) :
        (h₁.setSlot again ⟨m, loaded⟩).Lists name ↔ h.Lists name := by
      have hsame := lists_congr (slots_start hstart)
      have hlisted : h₁.Lists again := (hsame again).2 (lists_of_loaded hloaded)
      exact (lists_setSlot_known hlisted _ name).trans (hsame name)
    split
    · next hstart => exact hlists hstart true
    · next hstart => exact hlists hstart false
  · exact .rfl

/-- A replacement that does not start takes its name off the list. -/
theorem lists_replace (h : Host μ κ γ ω) (m : μ) (name : Text) :
    (replace c h m).2.Lists name ↔
      c.name m ≠ name ∧ h.Lists name ∨ c.name m = name ∧ (replace c h m).1 = .ok () := by
  unfold replace
  dsimp only
  rw [lists_load, lists_erase, lists_unload]

theorem lists_unloadAll (h : Host μ κ γ ω) (name : Text) :
    (unloadAll c h).Lists name ↔ h.Lists name := by
  unfold unloadAll
  generalize ((h.list.filter (·.2)).map (·.1)).reverse = names
  induction names generalizing h with
  | nil => exact .rfl
  | cons first names ih => exact (ih _).trans (lists_unload h first name)

/-! ## Names stay known -/

/-- The step does not put a module in the place of a known one that then fails to start. -/
def Step.ReplacesWell (c : ModuleConduct μ κ γ ω) (h : Host μ κ γ ω) : Step μ κ γ ω → Prop
  | .order (.replace m) => h.Lists (c.name m) → (replace c h m).1 = .ok ()
  | .order _ | .other _ | .pass .. => True

theorem lists_proceed {s : Step μ κ γ ω} (hnamed : h.Named c) (hs : s.ReplacesWell c h)
    (hlists : h.Lists name) : (proceed c h s).Lists name := by
  cases s with
  | other op => exact hlists
  | pass pending world => exact hlists
  | order o =>
    cases o with
    | load m => exact (lists_load h m name).2 (.inl hlists)
    | loadKnown known => exact (lists_loadKnown hnamed known name).2 hlists
    | unload gone => exact (lists_unload h gone name).2 hlists
    | reload again => exact (lists_reload h again name).2 hlists
    | unloadAll => exact (lists_unloadAll h name).2 hlists
    | replace m =>
      refine (lists_replace h m name).2 ?_
      by_cases he : c.name m = name
      · exact .inr ⟨he, hs (he ▸ hlists)⟩
      · exact .inl ⟨he, hlists⟩

/-- What is listed after a step was listed before, or has just been loaded. -/
theorem lists_or_loaded {s : Step μ κ γ ω} (hnamed : h.Named c)
    (hlists : (proceed c h s).Lists name) :
    h.Lists name ∨ (proceed c h s).isLoaded name = true := by
  cases s with
  | other op => exact .inl hlists
  | pass pending world => exact .inl hlists
  | order o =>
    cases o with
    | load m => exact ((lists_load h m name).1 hlists).imp_right fun ⟨he, hok⟩ =>
        he ▸ loaded_of_load hok
    | loadKnown known => exact .inl ((lists_loadKnown hnamed known name).1 hlists)
    | unload gone => exact .inl ((lists_unload h gone name).1 hlists)
    | reload again => exact .inl ((lists_reload h again name).1 hlists)
    | unloadAll => exact .inl ((lists_unloadAll h name).1 hlists)
    | replace m =>
      refine ((lists_replace h m name).1 hlists).imp And.right fun ⟨he, hok⟩ => ?_
      exact he ▸ loaded_of_load hok

theorem lists_run (hnamed : h.Named c) {before after : List (Step μ κ γ ω)}
    (hwell : ∀ earlier s, earlier ++ [s] <+: before ++ after → s.ReplacesWell c (run c h earlier))
    (hlists : (run c h before).Lists name) : (run c h (before ++ after)).Lists name := by
  induction after using List.reverseRecOn with
  | nil => rwa [List.append_nil]
  | append_singleton after s ih =>
    rw [← List.append_assoc] at hwell ⊢
    rw [run_concat]
    have hwell' := fun earlier s' hfront =>
      hwell earlier s' (List.IsPrefix.trans hfront (List.prefix_append _ [s]))
    exact lists_proceed (named_run hnamed _) (hwell _ s (List.prefix_refl _)) (ih hwell')

/-- What is listed was loaded once. -/
theorem loaded_before (hnamed : h.Named c) (hnone : ∀ name, ¬h.Lists name)
    {steps : List (Step μ κ γ ω)} (hlists : (run c h steps).Lists name) :
    ∃ earlier, earlier <+: steps ∧ (run c h earlier).isLoaded name = true := by
  induction steps using List.reverseRecOn with
  | nil => exact absurd hlists (hnone name)
  | append_singleton steps s ih =>
    rw [run_concat] at hlists
    obtain hlists | hloaded := lists_or_loaded (named_run hnamed steps) hlists
    · obtain ⟨earlier, hfront, hloaded⟩ := ih hlists
      exact ⟨earlier, hfront.trans (List.prefix_append steps [s]), hloaded⟩
    · exact ⟨steps ++ [s], List.prefix_refl _, (run_concat c h steps s).symm ▸ hloaded⟩

/-- A module is listed, and to load it by its name is never to ask for one that is not known. -/
structure Remembers (c : ModuleConduct μ κ γ ω) (h : Host μ κ γ ω) (name : Text) : Prop where
  listed : h.Lists name
  loads : ∀ name', (loadKnown c h name).1 ≠ .error (.notLoaded name')

theorem remembers_of_lists (hlists : h.Lists name) : Remembers c h name where
  listed := hlists
  loads name' he := by
    obtain ⟨slot, hslot⟩ := Option.isSome_iff_exists.1 (lists_iff.1 hlists)
    simp only [loadKnown, hslot] at he
    split at he
    · cases he
    · unfold load at he
      dsimp only at he
      split at he
      · cases he
      · split at he
        · cases he
        · next hstart =>
          obtain ⟨_, -, rfl⟩ := start_error hstart
          cases he

/-- **Modules stay known as long as replacing goes well.** In a run every module that has been
loaded is remembered from then on, just when no module was put in the place of a known one and
then failed to start. -/
theorem modules_stay_known_iff (c : ModuleConduct μ κ γ ω) (world : ω)
    (steps : List (Step μ κ γ ω)) :
    (∀ earlier later name, earlier <+: later → later <+: steps →
        (run c { world } earlier).isLoaded name = true →
        Remembers c (run c { world } later) name) ↔
      ∀ earlier s, earlier ++ [s] <+: steps → s.ReplacesWell c (run c { world } earlier) := by
  have hnamed : ({ world } : Host μ κ γ ω).Named c := Table.all_empty
  have hnone (name : Text) : ¬({ world } : Host μ κ γ ω).Lists name := by simp [lists_iff]
  constructor
  · intro hknown earlier s hfront
    cases s with
    | other op => trivial
    | pass pending world => trivial
    | order o =>
      cases o with
      | load | loadKnown | unload | reload | unloadAll => trivial
      | replace m =>
        intro hlists
        obtain ⟨before, hbefore, hloaded⟩ := loaded_before hnamed hnone hlists
        have hkept := (hknown before _ _ (hbefore.trans (List.prefix_append _ _)) hfront
          hloaded).listed
        rw [run_concat] at hkept
        obtain ⟨hne, -⟩ | ⟨-, hok⟩ := (lists_replace _ m _).1 hkept
        · exact absurd rfl hne
        · exact hok
  · rintro hwell earlier later name ⟨after, rfl⟩ hlater hloaded
    have hwell' := fun before s hfront => hwell before s (List.IsPrefix.trans hfront hlater)
    exact remembers_of_lists (lists_run hnamed hwell' (lists_of_loaded hloaded))

/-- Two modules of one name, of which just one starts. -/
def relay : ModuleConduct Bool Unit Unit Unit where
  name _ := "relay".toList
  start works _ := ([], if works then .ok () else .error "refused".toList, ())

/-- The relay is loaded, and a replacement fails. -/
theorem failed_replacement_forgets :
    let loaded := (carryOut relay { world := () } (.load true)).2
    let replaced := carryOut relay loaded (.replace false)
    loaded.list = [("relay".toList, true)] ∧
      replaced.1 = .error (.start "relay".toList "refused".toList) ∧ replaced.2.list = [] ∧
      (carryOut relay replaced.2 (.loadKnown "relay".toList)).1 =
        .error (.notLoaded "relay".toList) := by
  decide

end IrcBot.Host
