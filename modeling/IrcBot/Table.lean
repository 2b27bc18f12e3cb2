/-
Tables with ordered keys. A table lists its entries by ascending key and
holds each key once; that is part of the type, so two tables are equal as
soon as they answer every look-up alike (`Table.ext_get?`).

Names, owners, channels and socket handles are all keys of such tables.
-/
namespace IrcBot

/-- What a type of keys owes to the tables over it: `<` is a strict linear order. -/
class Key (κ : Type) [LT κ] : Prop where
  irrefl : ∀ a : κ, ¬ a < a
  trans : ∀ {a b c : κ}, a < b → b < c → a < c
  total : ∀ a b : κ, a < b ∨ a = b ∨ b < a

instance : Key Nat where
  irrefl := Nat.lt_irrefl
  trans := Nat.lt_trans
  total := Nat.lt_trichotomy

instance : Key (List Char) where
  irrefl := List.lt_irrefl
  trans := List.lt_trans
  total a b := by
    by_cases h : a < b
    · exact .inl h
    · by_cases h' : b < a
      · exact .inr (.inr h')
      · exact .inr (.inl (List.le_antisymm h' h))

/-- Entries by ascending key, each key once. -/
def Ascending {κ α : Type} [LT κ] (es : List (κ × α)) : Prop :=
  es.Pairwise fun a b => a.1 < b.1

structure Table (κ α : Type) [LT κ] where
  entries : List (κ × α)
  ascending : Ascending entries

namespace Table

/-! ## The list under a table -/

theorem nodup_keys {κ α : Type} [LT κ] [Key κ] {es : List (κ × α)} (h : Ascending es) :
    (es.map (·.1)).Nodup := by
  refine List.pairwise_map.2 (List.Pairwise.imp (fun {a b} hab e => ?_) h)
  rw [e] at hab
  exact Key.irrefl _ hab

section Entries

variable {κ α : Type} [DecidableEq κ]

def getIn : List (κ × α) → κ → Option α
  | [], _ => none
  | (k, a) :: es, k' => if k = k' then some a else getIn es k'

def adjustIn (es : List (κ × α)) (k : κ) (f : α → α) : List (κ × α) :=
  es.map fun e => if e.1 = k then (e.1, f e.2) else e

theorem getIn_eq_none {es : List (κ × α)} {k : κ} (h : ∀ e ∈ es, e.1 ≠ k) : getIn es k = none := by
  induction es with
  | nil => rfl
  | cons e es ih => grind [getIn]

theorem mem_of_getIn {es : List (κ × α)} {k : κ} {a : α} (h : getIn es k = some a) :
    (k, a) ∈ es := by
  induction es with
  | nil => simp [getIn] at h
  | cons e es ih => grind [getIn]

theorem getIn_filter (es : List (κ × α)) (k k' : κ) :
    getIn (es.filter fun e => e.1 ≠ k) k' = if k = k' then none else getIn es k' := by
  induction es with
  | nil => simp [getIn]
  | cons e es ih => grind [getIn]

theorem getIn_filter_of (es : List (κ × α)) (hs : (es.map (·.1)).Nodup) (p : κ → α → Bool) (k : κ) :
    getIn (es.filter fun e => p e.1 e.2) k = (getIn es k).filter (p k) := by
  induction es with
  | nil => rfl
  | cons e es ih =>
    obtain ⟨k', a⟩ := e
    simp only [List.map_cons, List.nodup_cons, List.mem_map, not_exists, not_and] at hs
    by_cases hk : k' = k
    · subst hk
      have hn : getIn (es.filter fun e => p e.1 e.2) k' = none :=
        getIn_eq_none fun e he => hs.1 e (List.mem_filter.1 he).1
      by_cases hp : p k' a <;> simp [getIn, hp, hn, Option.filter]
    · by_cases hp : p k' a <;> simp [getIn, hk, hp, ih hs.2]

theorem getIn_adjustIn (es : List (κ × α)) (k k' : κ) (f : α → α) :
    getIn (adjustIn es k f) k' = if k = k' then (getIn es k').map f else getIn es k' := by
  induction es with
  | nil => simp [adjustIn, getIn]
  | cons e es ih => grind [adjustIn, getIn]

variable [LT κ]

theorem getIn_of_mem [Key κ] {es : List (κ × α)} (hs : Ascending es) {k : κ} {a : α}
    (h : (k, a) ∈ es) : getIn es k = some a := by
  induction es with
  | nil => simp at h
  | cons e es ih =>
    rw [Ascending, List.pairwise_cons] at hs
    rcases List.mem_cons.1 h with rfl | hm
    · simp [getIn]
    · obtain ⟨k', b⟩ := e
      have hne : k' ≠ k := by rintro rfl; exact Key.irrefl k' (hs.1 (k', a) hm)
      simp [getIn, hne, ih hs.2 hm]

theorem ascending_adjustIn {es : List (κ × α)} (h : Ascending es) (k : κ) (f : α → α) :
    Ascending (adjustIn es k f) := by
  refine List.Pairwise.map _ (fun a b hab => ?_) h
  split <;> split <;> exact hab

theorem eq_of_getIn [Key κ] {es fs : List (κ × α)} (he : Ascending es) (hf : Ascending fs)
    (h : ∀ k, getIn es k = getIn fs k) : es = fs := by
  induction es generalizing fs with
  | nil =>
    cases fs with
    | nil => rfl
    | cons f fs => simpa [getIn] using h f.1
  | cons e es ih =>
    obtain ⟨k, a⟩ := e
    cases fs with
    | nil => simpa [getIn] using h k
    | cons f fs =>
      obtain ⟨k', b⟩ := f
      rw [Ascending, List.pairwise_cons] at he hf
      have hk : k = k' := by
        have h₁ := mem_of_getIn ((h k).symm.trans (by simp [getIn] : getIn ((k, a) :: es) k = some a))
        have h₂ := mem_of_getIn ((h k').trans (by simp [getIn] : getIn ((k', b) :: fs) k' = some b))
        rcases List.mem_cons.1 h₁ with h₁ | h₁
        · cases h₁; rfl
        · rcases List.mem_cons.1 h₂ with h₂ | h₂
          · cases h₂; rfl
          · exact absurd (Key.trans (hf.1 _ h₁) (he.1 _ h₂)) (Key.irrefl _)
      subst hk
      have hab : a = b := by simpa [getIn] using h k
      subst hab
      congr 1
      refine ih he.2 hf.2 fun k' => ?_
      by_cases hk : k = k'
      · subst hk
        rw [getIn_eq_none fun e m heq => Key.irrefl k (by have := he.1 e m; rwa [heq] at this),
          getIn_eq_none fun e m heq => Key.irrefl k (by have := hf.1 e m; rwa [heq] at this)]
      · simpa [getIn, hk] using h k'

variable [DecidableLT κ]

def putIn : List (κ × α) → κ → α → List (κ × α)
  | [], k, a => [(k, a)]
  | (k', b) :: es, k, a =>
    if k' = k then (k, a) :: es
    else if k < k' then (k, a) :: (k', b) :: es
    else (k', b) :: putIn es k a

theorem getIn_putIn (es : List (κ × α)) (k k' : κ) (a : α) :
    getIn (putIn es k a) k' = if k = k' then some a else getIn es k' := by
  induction es with
  | nil => simp [putIn, getIn]
  | cons e es ih => grind [putIn, getIn]

theorem mem_putIn {es : List (κ × α)} {k : κ} {a : α} {e : κ × α} (h : e ∈ putIn es k a) :
    e = (k, a) ∨ e ∈ es := by
  induction es with
  | nil => simpa [putIn] using h
  | cons e' es ih => grind [putIn]

theorem ascending_putIn [Key κ] {es : List (κ × α)} (h : Ascending es) (k : κ) (a : α) :
    Ascending (putIn es k a) := by
  induction es with
  | nil => simp [putIn, Ascending]
  | cons e es ih =>
    obtain ⟨k', b⟩ := e
    rw [Ascending, List.pairwise_cons] at h
    simp only [putIn]
    split
    · next he => subst he; exact List.pairwise_cons.2 ⟨h.1, h.2⟩
    · next hne =>
      split
      · next hlt =>
        refine List.pairwise_cons.2 ⟨?_, List.pairwise_cons.2 h⟩
        rintro e (_ | ⟨_, he⟩)
        · exact hlt
        · exact Key.trans hlt (h.1 e he)
      · next hge =>
        refine List.pairwise_cons.2 ⟨fun e he => ?_, ih h.2⟩
        rcases mem_putIn he with rfl | he
        · rcases Key.total k' k with hlt | heq | hlt
          · exact hlt
          · exact absurd heq hne
          · exact absurd hlt hge
        · exact h.1 e he

end Entries

variable {κ α : Type} [LT κ] [DecidableEq κ]

instance [DecidableEq α] : DecidableEq (Table κ α) := fun s t =>
  if h : s.entries = t.entries then
    .isTrue (by cases s; cases t; cases h; rfl)
  else
    .isFalse fun e => h (by rw [e])

/-! ## Operations -/

section Operations

def empty {κ α : Type} [LT κ] : Table κ α := ⟨[], .nil⟩

instance : Inhabited (Table κ α) := ⟨empty⟩

def size (t : Table κ α) : Nat := t.entries.length

def keys (t : Table κ α) : List κ := t.entries.map (·.1)

def values (t : Table κ α) : List α := t.entries.map (·.2)

/-- The value stored under a key. -/
def get? (t : Table κ α) (k : κ) : Option α := getIn t.entries k

def contains (t : Table κ α) (k : κ) : Bool := (t.get? k).isSome

/-- Drops what is stored under a key. -/
def erase (t : Table κ α) (k : κ) : Table κ α :=
  ⟨t.entries.filter fun e => e.1 ≠ k, List.Pairwise.filter _ t.ascending⟩

/-- Keeps the entries that satisfy `p`. -/
def filter (t : Table κ α) (p : κ → α → Bool) : Table κ α :=
  ⟨t.entries.filter fun e => p e.1 e.2, List.Pairwise.filter _ t.ascending⟩

/-- Changes the value stored under a key, if there is one. -/
def adjust (t : Table κ α) (k : κ) (f : α → α) : Table κ α :=
  ⟨adjustIn t.entries k f, ascending_adjustIn t.ascending k f⟩

variable [DecidableLT κ] [Key κ]

/-- Stores a value under a key, in place of the one stored before. -/
def insert (t : Table κ α) (k : κ) (a : α) : Table κ α :=
  ⟨putIn t.entries k a, ascending_putIn t.ascending k a⟩

/-- Stores a value under a key, or drops what is stored there. -/
def put? (t : Table κ α) (k : κ) : Option α → Table κ α
  | some a => t.insert k a
  | none => t.erase k

end Operations

/-! ## A table is its look-up -/

@[simp] theorem get?_empty (k : κ) : (empty : Table κ α).get? k = none := rfl

theorem get?_erase (t : Table κ α) (k k' : κ) :
    (t.erase k).get? k' = if k = k' then none else t.get? k' :=
  getIn_filter t.entries k k'

@[simp] theorem get?_erase_self (t : Table κ α) (k : κ) : (t.erase k).get? k = none := by
  simp [get?_erase]

theorem get?_erase_other (t : Table κ α) {k k' : κ} (h : k ≠ k') :
    (t.erase k).get? k' = t.get? k' := by simp [get?_erase, h]

theorem get?_filter [Key κ] (t : Table κ α) (p : κ → α → Bool) (k : κ) :
    (t.filter p).get? k = (t.get? k).filter (p k) :=
  getIn_filter_of t.entries (nodup_keys t.ascending) p k

theorem get?_adjust (t : Table κ α) (k k' : κ) (f : α → α) :
    (t.adjust k f).get? k' = if k = k' then (t.get? k').map f else t.get? k' :=
  getIn_adjustIn t.entries k k' f

/-- A table holds a pair exactly when looking up its key finds its value. -/
theorem mem_entries [Key κ] {t : Table κ α} {k : κ} {a : α} :
    (k, a) ∈ t.entries ↔ t.get? k = some a :=
  ⟨getIn_of_mem t.ascending, mem_of_getIn⟩

/-- Tables that answer every look-up alike are equal. -/
theorem ext_get? [Key κ] {s t : Table κ α} (h : ∀ k, s.get? k = t.get? k) : s = t := by
  have := eq_of_getIn s.ascending t.ascending h
  cases s; cases t; cases this; rfl

section Order

variable [DecidableLT κ] [Key κ]

theorem get?_insert (t : Table κ α) (k k' : κ) (a : α) :
    (t.insert k a).get? k' = if k = k' then some a else t.get? k' :=
  getIn_putIn t.entries k k' a

@[simp] theorem get?_insert_self (t : Table κ α) (k : κ) (a : α) :
    (t.insert k a).get? k = some a := by simp [get?_insert]

theorem get?_insert_other (t : Table κ α) {k k' : κ} (a : α) (h : k ≠ k') :
    (t.insert k a).get? k' = t.get? k' := by simp [get?_insert, h]

theorem get?_put? (t : Table κ α) (k k' : κ) (a? : Option α) :
    (t.put? k a?).get? k' = if k = k' then a? else t.get? k' := by
  cases a? with
  | none => exact get?_erase t k k'
  | some a => exact get?_insert t k k' a

end Order

end Table

end IrcBot
