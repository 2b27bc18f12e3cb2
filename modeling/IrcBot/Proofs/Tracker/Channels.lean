/-
Which channels there are. Only adding and removing a channel change that; all other
operations, renaming among them, keep the keys of the channels (`SameChannels`). A
channel that goes leaves every other one as it is, and its members no longer list it:
who then lists nothing is forgotten (`deserted_removeChannel`).
-/
import IrcBot.Proofs.Tracker.Backed

namespace IrcBot.Tracker

/-- The same channels are tracked, by their keys. -/
def SameChannels (t t' : Tracker) : Prop :=
  ∀ key, t'.channels.contains key = t.channels.contains key

/-- Changes that leave it at the channels there are. -/
def Steadily (t t' : Tracker) : Prop := Changes t t' ∧ SameChannels t t'

variable {t t' t'' : Tracker} {us : Table Text User} {cs : Table Text Channel}
variable {key who channel nick old new : Text} {c : Channel}

/-! ## The keys of the channels -/

/-- Storing a channel where there is one keeps the keys. -/
theorem contains_insert_of_get? {c' : Channel} (hc : cs.get? key = some c) (k : Text) :
    (cs.insert key c').contains k = cs.contains k := by
  rw [Bool.eq_iff_iff, Table.contains_insert, or_iff_right_iff_imp]
  rintro rfl
  exact Table.contains_iff.2 ⟨c, hc⟩

theorem contains_adjustAll {f : Channel → Channel} {names : List Text} (k : Text) :
    (names.foldl (fun cs name => cs.adjust (fold name) f) cs).contains k = cs.contains k := by
  induction names generalizing cs with
  | nil => rfl
  | cons name names ih => rw [List.foldl_cons, ih, Table.contains_adjust]

theorem contains_addChannel :
    (t.addChannel channel).channels.contains key = true ↔
      key = fold channel ∨ t.channels.contains key = true := by
  unfold addChannel
  split
  · next htracked =>
    refine (or_iff_right_of_imp ?_).symm
    rintro rfl
    exact htracked
  · exact Table.contains_insert

theorem SameChannels.removeMember : SameChannels t (t.removeMember channel nick) := by
  intro key
  unfold Tracker.removeMember
  split
  · rfl
  · next c hc =>
    split
    · rw [channels_detach]
      exact contains_insert_of_get? hc key
    · rfl

theorem SameChannels.addMember {modes : Text} :
    SameChannels t (t.addMember channel nick modes) := by
  intro key
  unfold Tracker.addMember
  split
  · rfl
  · next c hc => exact contains_insert_of_get? hc key

theorem SameChannels.removeUser : SameChannels t (t.removeUser nick) := by
  intro key
  unfold Tracker.removeUser
  split
  · rfl
  · exact contains_adjustAll key

theorem SameChannels.rename : SameChannels t (t.rename old new) := by
  intro key
  unfold Tracker.rename
  split
  · rfl
  · exact contains_adjustAll key

namespace Steadily

theorem refl : Steadily t t := ⟨.refl, fun _ => rfl⟩

theorem trans (h : Steadily t t') (h' : Steadily t' t'') : Steadily t t'' :=
  ⟨h.1.trans h'.1, fun key => (h'.2 key).trans (h.2 key)⟩

theorem update (t : Tracker) (m : Mask) : Steadily t (t.update m) :=
  ⟨.single (.update t m), fun _ => rfl⟩

theorem addMember (t : Tracker) (channel nick modes : Text) :
    Steadily t (t.addMember channel nick modes) :=
  ⟨.single (.addMember t channel nick modes), .addMember⟩

theorem removeMember (t : Tracker) (channel nick : Text) :
    Steadily t (t.removeMember channel nick) :=
  ⟨.single (.removeMember t channel nick), .removeMember⟩

theorem setMemberMode (t : Tracker) (channel nick : Text) (mode : Char) (set : Bool)
    (rank : Text) : Steadily t (t.setMemberMode channel nick mode set rank) :=
  ⟨.single (.setMemberMode t channel nick mode set rank), fun _ => Table.contains_adjust⟩

theorem removeUser (t : Tracker) (nick : Text) : Steadily t (t.removeUser nick) :=
  ⟨.single (.removeUser t nick), .removeUser⟩

end Steadily

/-! ## A channel goes -/

/-- What becomes of the users when a channel goes: its members no longer list it, those of them
who then list nothing are forgotten, and all others are as they were. -/
structure Deserted (us : Table Text User) (c : Channel) (us' : Table Text User) : Prop where
  forgotten : ∀ who u, c.members.contains who = true → us.get? who = some u →
    (∀ name, (u.left c.name).channels.contains name = false) → us'.get? who = none
  kept : ∀ who u, c.members.contains who = true → us.get? who = some u →
    (∃ name, (u.left c.name).channels.contains name = true) →
    us'.get? who = some (u.left c.name)
  others : ∀ who, c.members.contains who = false ∨ us.get? who = none →
    us'.get? who = us.get? who

/-- The entry of a user who leaves a channel, if that leaves anything to list. -/
def remainder (channel : Text) (u : User) : Option User :=
  if (u.left channel).channels.entries.isEmpty then none else some (u.left channel)

theorem get?_users_detach :
    (t.detach key channel).users.get? who =
      if key = who then (t.users.get? who).bind (remainder channel) else t.users.get? who := by
  unfold detach
  split
  · next hnone =>
    split
    · next he => rw [← he, hnone, Option.bind_none]
    · rfl
  · next u hu =>
    rw [Table.get?_put?]
    split
    · next he =>
      rw [← he, hu, Option.bind_some]
      rfl
    · rfl

theorem get?_users_detachAll {keys : List Text} (hkeys : keys.Nodup) :
    (keys.foldl (fun t key => t.detach key channel) t).users.get? who =
      if who ∈ keys then (t.users.get? who).bind (remainder channel) else t.users.get? who := by
  induction keys generalizing t with
  | nil => simp
  | cons key keys ih =>
    obtain ⟨hkey, hkeys⟩ := List.nodup_cons.1 hkeys
    rw [List.foldl_cons, ih hkeys, get?_users_detach]
    by_cases he : key = who
    · subst he
      simp [hkey]
    · simp [he, Ne.symm he]

theorem get?_channels_removeChannel :
    (t.removeChannel channel).channels.get? key =
      if key = fold channel then none else t.channels.get? key := by
  unfold removeChannel
  split
  · next hnone =>
    split
    · next he => exact he ▸ hnone
    · rfl
  · rw [channels_detachAll, Table.get?_erase]
    simp only [eq_comm]

theorem removeChannel_untracked (hc : t.channel? channel = none) : t.removeChannel channel = t := by
  simp only [removeChannel, hc]

theorem get?_users_removeChannel (hc : t.channel? channel = some c) :
    (t.removeChannel channel).users.get? who =
      if c.members.contains who = true then (t.users.get? who).bind (remainder c.name)
      else t.users.get? who := by
  simp only [removeChannel, hc, ← Table.mem_keys]
  exact get?_users_detachAll (Table.nodup_keys c.members.ascending)

theorem deserted_removeChannel (hc : t.channel? channel = some c) :
    Deserted t.users c (t.removeChannel channel).users := by
  constructor
  · intro who u hmember hu hnothing
    rw [get?_users_removeChannel hc, if_pos hmember, hu, Option.bind_some, remainder,
      if_pos (Table.isEmpty_iff_forall.2 hnothing)]
  · rintro who u hmember hu ⟨name, hname⟩
    have hlists : ¬ (u.left c.name).channels.entries.isEmpty = true := fun h => by
      rw [Table.isEmpty_iff_forall.1 h name] at hname
      cases hname
    rw [get?_users_removeChannel hc, if_pos hmember, hu, Option.bind_some, remainder,
      if_neg hlists]
  · rintro who (hmember | hnone)
    · rw [get?_users_removeChannel hc, if_neg fun h => Bool.eq_false_iff.1 hmember h]
    · rw [get?_users_removeChannel hc, hnone, Option.bind_none, ite_self]

end IrcBot.Tracker
