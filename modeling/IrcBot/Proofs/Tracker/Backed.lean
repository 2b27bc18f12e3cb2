/-
Whoever a channel holds has an entry among the users, and that entry lists the
channel. `Change` says once what a line from the server can do to a tracker,
renaming apart: every such change keeps the members backed. A renaming keeps
them backed exactly when it takes no seat that the renamed user has not got.
-/
import IrcBot.Proofs.Tracker.Membership
import Mathlib.Logic.Relation

namespace IrcBot.Tracker

/-- Every channel stands under the key of the name it is shown by. -/
def Keyed (t : Tracker) : Prop := ∀ key c, t.channels.get? key = some c → key = fold c.name

/-- Every member of every channel has an entry among the users that lists the channel. -/
def Backed (t : Tracker) : Prop :=
  ∀ key c who, t.channels.get? key = some c → c.members.contains who = true →
    ∃ u, t.users.get? who = some u ∧ u.channels.contains c.name = true

/-- Some channel holds the new nick that the entry under the old nick does not list. -/
def Overwrites (t : Tracker) (old new : Text) : Prop :=
  fold new ≠ fold old ∧
    ∃ key name, Holds t.channels key name (fold new) ∧ ¬ Lists t.users (fold old) name

/-- What a line can do to a tracker, one operation at a time; renaming is kept apart. -/
inductive Change : Tracker → Tracker → Prop where
  | update (t : Tracker) (m : Mask) : Change t (t.update m)
  | addChannel (t : Tracker) (name : Text) : Change t (t.addChannel name)
  | removeChannel (t : Tracker) (name : Text) : Change t (t.removeChannel name)
  | addMember (t : Tracker) (channel nick modes : Text) : Change t (t.addMember channel nick modes)
  | removeMember (t : Tracker) (channel nick : Text) : Change t (t.removeMember channel nick)
  | setMemberMode (t : Tracker) (channel nick : Text) (mode : Char) (set : Bool) (rank : Text) :
    Change t (t.setMemberMode channel nick mode set rank)
  | removeUser (t : Tracker) (nick : Text) : Change t (t.removeUser nick)

/-- Any number of changes. -/
abbrev Changes : Tracker → Tracker → Prop := Relation.ReflTransGen Change

variable {t t' : Tracker} {key name who old new : Text}

theorem backed_iff :
    t.Backed ↔ ∀ key name who, Holds t.channels key name who → Lists t.users who name := by
  constructor
  · rintro h key _ who ⟨c, hc, rfl, hm⟩
    exact h key c who hc hm
  · intro h key c who hc hm
    exact h key c.name who ⟨c, hc, rfl, hm⟩

theorem backed_empty : Backed .empty := by
  intro key c who hc
  exact absurd hc (by simp [empty])

/-! ## Keys of channels -/

theorem keyed_empty : Keyed .empty := by
  intro key c hc
  exact absurd hc (by simp [empty])

theorem Keyed.fold_eq (hk : t.Keyed) (h : Holds t.channels key name who) : key = fold name := by
  obtain ⟨c, hc, rfl, -⟩ := h
  exact hk key c hc

theorem Keyed.insert {us : Table Text User} {c : Channel} (hk : t.Keyed) (hc : key = fold c.name) :
    Keyed { users := us, channels := t.channels.insert key c } := by
  intro key' c' h
  rw [Table.get?_insert] at h
  split at h
  · next he =>
    cases h
    rw [← he, hc]
  · exact hk key' c' h

theorem Keyed.adjust {us : Table Text User} {f : Channel → Channel} (hk : t.Keyed)
    (hf : ∀ c, (f c).name = c.name) :
    Keyed { users := us, channels := t.channels.adjust key f } := by
  intro key' c' h
  rw [Table.get?_adjust] at h
  split at h
  · obtain ⟨c, hc, rfl⟩ := Option.map_eq_some_iff.1 h
    rw [hf]
    exact hk key' c hc
  · exact hk key' c' h

theorem Keyed.adjustAll {us : Table Text User} {f : Channel → Channel} {names : List Text}
    (hk : t.Keyed) (hf : ∀ c, (f c).name = c.name) :
    Keyed {
      users := us
      channels := names.foldl (fun cs name => cs.adjust (fold name) f) t.channels } := by
  induction names generalizing t with
  | nil => exact hk
  | cons name names ih => exact ih (t := ⟨us, _⟩) (hk.adjust hf)

theorem Keyed.of_channels (hk : t.Keyed) (h : t'.channels = t.channels) : t'.Keyed := by
  unfold Keyed
  rw [h]
  exact hk

theorem Change.keyed (h : Change t t') (hk : t.Keyed) : t'.Keyed := by
  cases h with
  | update m => exact hk.of_channels rfl
  | addChannel name =>
    unfold Tracker.addChannel
    split
    · exact hk
    · exact hk.insert rfl
  | removeChannel name =>
    unfold Tracker.removeChannel
    split
    · exact hk
    · intro key c hc
      rw [channels_detachAll, Table.get?_erase] at hc
      split at hc
      · exact absurd hc (by simp)
      · exact hk key c hc
  | addMember channel nick modes =>
    unfold Tracker.addMember
    split
    · exact hk
    · next c hc => exact hk.insert (hk _ c hc)
  | removeMember channel nick =>
    unfold Tracker.removeMember
    split
    · exact hk
    · next c hc =>
      split
      · exact (hk.insert (c := c.remove (fold nick)) (hk _ c hc)).of_channels channels_detach
      · exact hk
  | setMemberMode channel nick mode set rank => exact hk.adjust fun _ => rfl
  | removeUser nick =>
    unfold Tracker.removeUser
    split
    · exact hk
    · exact hk.adjustAll fun _ => rfl

theorem Keyed.rename (hk : t.Keyed) : (t.rename old new).Keyed := by
  unfold Tracker.rename
  split
  · exact hk
  · exact hk.adjustAll fun _ => name_rename

/-! ## Members stay backed -/

/-- Removing a user leaves no member under its key: each was backed by its entry. -/
theorem not_holds_removeUser {nick : Text} (hk : t.Keyed) (hb : t.Backed) :
    ¬ Holds (t.removeUser nick).channels key name (fold nick) := by
  intro hold
  cases hu : t.user? nick with
  | none =>
    simp only [Tracker.removeUser, hu] at hold
    obtain ⟨u, hu', -⟩ := backed_iff.1 hb key name _ hold
    exact absurd (hu.symm.trans hu') (by simp)
  | some u =>
    obtain ⟨hold, hne⟩ := (holds_removeUser hu).1 hold
    obtain ⟨u', hu', hin⟩ := backed_iff.1 hb key name _ hold
    cases hu.symm.trans hu'
    rw [hk.fold_eq hold] at hne
    exact hne ⟨List.mem_map_of_mem (Table.mem_keys.2 hin), rfl⟩

/-- Every change but a renaming keeps the members backed. -/
theorem Change.backed (h : Change t t') (hk : t.Keyed) (hb : t.Backed) : t'.Backed := by
  rw [backed_iff] at hb ⊢
  intro key name who hold
  cases h with
  | update m => exact lists_update.2 (hb key name who hold)
  | addChannel channel =>
    have hlists := hb key name who (holds_addChannel.1 hold)
    unfold Tracker.addChannel
    split <;> exact hlists
  | removeChannel channel =>
    obtain ⟨hne, hold⟩ := holds_removeChannel.1 hold
    have hlists := hb key name who hold
    cases hc : t.channel? channel with
    | none => simpa [Tracker.removeChannel, hc] using hlists
    | some c =>
      refine (lists_removeChannel hc).2 ⟨hlists, ?_⟩
      rintro ⟨-, hname⟩
      exact hne ((hk.fold_eq hold).trans (hname.trans (hk _ c hc).symm))
  | addMember channel nick modes =>
    cases hc : t.channel? channel with
    | none =>
      simp only [Tracker.addMember, hc] at hold ⊢
      exact hb key name who hold
    | some c =>
      rw [holds_addMember hc] at hold
      rw [lists_addMember hc]
      rcases hold with hold | ⟨-, hname, hwho⟩
      · exact .inl (hb key name who hold)
      · exact .inr ⟨hwho, hname⟩
  | removeMember channel nick =>
    obtain ⟨hold, hne⟩ := holds_removeMember.1 hold
    have hlists := hb key name who hold
    cases hc : t.channel? channel with
    | none => simpa [Tracker.removeMember, hc] using hlists
    | some c =>
      by_cases hin : c.contains nick = true
      · refine (lists_removeMember hc hin).2 ⟨hlists, ?_⟩
        rintro ⟨hwho, hname⟩
        exact hne ⟨(hk.fold_eq hold).trans (hname.trans (hk _ c hc).symm), hwho⟩
      · simpa [Tracker.removeMember, hc, hin] using hlists
  | setMemberMode channel nick mode set rank => exact hb key name who (holds_setMemberMode.1 hold)
  | removeUser nick =>
    have hne : who ≠ fold nick := by
      rintro rfl
      exact not_holds_removeUser hk (backed_iff.2 hb) hold
    cases hu : t.user? nick with
    | none =>
      simp only [Tracker.removeUser, hu] at hold ⊢
      exact hb key name who hold
    | some u =>
      exact (lists_removeUser hu).2 ⟨hne, hb key name who ((holds_removeUser hu).1 hold).1⟩

theorem Changes.keyed (h : Changes t t') (hk : t.Keyed) : t'.Keyed := by
  induction h with
  | refl => exact hk
  | tail _ h ih => exact h.keyed ih

/-- Changes keep the channels keyed and the members backed. -/
theorem Changes.sound (h : Changes t t') (hs : t.Keyed ∧ t.Backed) : t'.Keyed ∧ t'.Backed := by
  induction h with
  | refl => exact hs
  | tail _ h ih => exact ⟨h.keyed ih.1, h.backed ih.1 ih.2⟩

/-- A renaming keeps the members backed unless it overwrites the entry of a member. -/
theorem backed_rename (hk : t.Keyed) (hb : t.Backed) (hu : (t.user? old).isSome) :
    (t.rename old new).Backed ↔ ¬ t.Overwrites old new := by
  obtain ⟨u, hu⟩ := Option.isSome_iff_exists.1 hu
  have hlists (name : Text) : u.channels.contains name = true ↔ Lists t.users (fold old) name := by
    simp [Lists, show t.users.get? (fold old) = some u from hu]
  have hnames {key name who : Text} (h : Holds t.channels key name who)
      (hl : Lists t.users (fold old) name) : key ∈ u.channels.keys.map fold := by
    rw [hk.fold_eq h]
    exact List.mem_map_of_mem (Table.mem_keys.2 ((hlists name).2 hl))
  rw [backed_iff] at hb ⊢
  simp only [holds_rename hu, lists_rename hu, hlists]
  constructor
  · rintro h ⟨hne, key, name, hold, hnot⟩
    have := h key name (fold new)
    rw [if_pos rfl] at this
    refine hnot (this ?_)
    by_cases hmoved : key ∈ u.channels.keys.map fold ∧ Holds t.channels key name (fold old)
    · exact .inl ⟨hmoved.1, hmoved.2, .inl rfl⟩
    · exact .inr ⟨hmoved, hold⟩
  · intro hno key name who hold
    split
    · next hwho =>
      subst hwho
      rcases hold with ⟨-, hold, -⟩ | ⟨-, hold⟩
      · exact hb key name _ hold
      · by_cases hne : fold new = fold old
        · exact hne ▸ hb key name _ hold
        · exact Classical.not_not.1 fun hnot => hno ⟨hne, key, name, hold, hnot⟩
    · next hwho =>
      rcases hold with ⟨-, -, hnew | ⟨hold, h⟩⟩ | ⟨hnot, hold⟩
      · exact absurd hnew hwho
      · exact ⟨hold, hb key name who h⟩
      · refine ⟨?_, hb key name who hold⟩
        rintro rfl
        exact hnot ⟨hnames hold (hb key name _ hold), hold⟩

end IrcBot.Tracker
