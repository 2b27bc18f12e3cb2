/-
More on tables: what is stored is stored once, which keys a table holds after
each of its operations, and what holds of all entries (`All`) after each of them.
-/
import IrcBot.Table

namespace IrcBot.Table

variable {κ α : Type} [LT κ] [DecidableEq κ] {t : Table κ α} {k k' : κ}

theorem contains_iff : t.contains k = true ↔ ∃ a, t.get? k = some a := by
  simp [contains, Option.isSome_iff_exists]

theorem contains_erase : (t.erase k).contains k' = true ↔ k' ≠ k ∧ t.contains k' = true := by
  unfold contains
  rw [get?_erase]
  split
  · next h => simp [h]
  · next h => simp [Ne.symm h]

theorem contains_adjust {f : α → α} : (t.adjust k f).contains k' = t.contains k' := by
  unfold contains
  rw [get?_adjust]
  split
  · rw [Option.isSome_map]
  · rfl

theorem not_contains_of_isEmpty (h : t.entries.isEmpty = true) : t.contains k = false := by
  rw [List.isEmpty_iff] at h
  simp [contains, get?, h, getIn]

variable [Key κ]

theorem contains_filter {p : κ → α → Bool} :
    (t.filter p).contains k = true ↔ ∃ a, t.get? k = some a ∧ p k a = true := by
  rw [contains_iff, get?_filter]
  simp [Option.filter_eq_some_iff]

theorem mem_keys : k ∈ t.keys ↔ t.contains k = true := by
  simp [keys, contains_iff, mem_entries]

theorem isEmpty_iff_forall : t.entries.isEmpty = true ↔ ∀ k, t.contains k = false := by
  refine ⟨fun h k => not_contains_of_isEmpty h, fun h => ?_⟩
  rw [List.isEmpty_iff, List.eq_nil_iff_forall_not_mem]
  rintro ⟨k, a⟩ hmem
  have hin : t.contains k = true := contains_iff.2 ⟨a, mem_entries.1 hmem⟩
  rw [h k] at hin
  cases hin

variable [DecidableLT κ]

/-- Storing what is there changes nothing. -/
theorem insert_of_get? {a : α} (h : t.get? k = some a) : t.insert k a = t := by
  refine ext_get? fun k' => ?_
  rw [get?_insert]
  split
  · next he => rw [← he, h]
  · rfl

theorem contains_insert {a : α} :
    (t.insert k a).contains k' = true ↔ k' = k ∨ t.contains k' = true := by
  unfold contains
  rw [get?_insert]
  split
  · next h => simp [h]
  · next h => simp [Ne.symm h]

/-! ## What holds of every entry -/

/-- What holds of every key with its value. -/
def All (P : κ → α → Prop) (t : Table κ α) : Prop := ∀ k a, t.get? k = some a → P k a

omit [DecidableLT κ]

variable {P : κ → α → Prop}

omit [Key κ] in
theorem all_empty : (empty : Table κ α).All P := by
  intro k a h
  simp at h

omit [Key κ] in
theorem All.erase (h : t.All P) : (t.erase k).All P := by
  intro k' a ha
  rw [get?_erase] at ha
  split at ha
  · simp at ha
  · exact h k' a ha

omit [Key κ] in
theorem All.adjust {f : α → α} (h : t.All P) (hf : ∀ a, P k a → P k (f a)) :
    (t.adjust k f).All P := by
  intro k' a ha
  rw [get?_adjust] at ha
  split at ha
  · next he =>
    subst he
    obtain ⟨b, hb, rfl⟩ := Option.map_eq_some_iff.1 ha
    exact hf b (h k b hb)
  · exact h k' a ha

section AdjustAll

variable {β : Type} {g : β → κ} {f : α → α} {bs : List β}

omit [Key κ] in
/-- What is done to the values under some keys, one by one, keeps what holds of every entry. -/
theorem All.adjustAll (h : t.All P) (hf : ∀ k a, P k a → P k (f a)) :
    (bs.foldl (fun t b => t.adjust (g b) f) t).All P := by
  induction bs generalizing t with
  | nil => exact h
  | cons b bs ih => exact ih (h.adjust (hf (g b)))

omit [Key κ] in
/-- What is done to the values under some keys, each of them once. -/
theorem get?_adjustAll (hbs : (bs.map g).Nodup) :
    (bs.foldl (fun t b => t.adjust (g b) f) t).get? k =
      if k ∈ bs.map g then (t.get? k).map f else t.get? k := by
  induction bs generalizing t with
  | nil => simp
  | cons b bs ih =>
    obtain ⟨hb, hbs⟩ := List.nodup_cons.1 hbs
    rw [List.foldl_cons, ih hbs, get?_adjust]
    by_cases he : g b = k
    · subst he
      simp [hb]
    · simp [he, Ne.symm he]

end AdjustAll

theorem All.insert [DecidableLT κ] {a : α} (h : t.All P) (ha : P k a) : (t.insert k a).All P := by
  intro k' b hb
  rw [get?_insert] at hb
  split at hb
  · next he =>
    subst he
    cases hb
    exact ha
  · exact h k' b hb

theorem All.put? [DecidableLT κ] {a? : Option α} (h : t.All P) (ha : ∀ a ∈ a?, P k a) :
    (t.put? k a?).All P := by
  cases a? with
  | none => exact h.erase
  | some a => exact h.insert (ha a rfl)

end IrcBot.Table
