/-
Who lists which channel, and which channel holds whom. Users and channels
refer to each other through two relations: `Lists` reads the users, `Holds`
the channels. Each operation of a tracker is described by what it does to
either, so nothing after this module opens a table.
-/
import IrcBot.Proofs.Casemap
import IrcBot.Proofs.Table
import IrcBot.Tracker.Basic

namespace IrcBot

namespace User

variable {u : User} {channel name : Text}

theorem contains_joined :
    (u.joined channel).channels.contains name = true ↔
      name = channel ∨ u.channels.contains name = true :=
  Table.contains_insert

theorem contains_left :
    (u.left channel).channels.contains name = true ↔
      u.channels.contains name = true ∧ fold name ≠ fold channel := by
  unfold left
  rw [Table.contains_filter, Table.contains_iff]
  simp [← same_iff]

end User

namespace Tracker

/-- The user under a key lists a channel by that name. -/
def Lists (us : Table Text User) (who name : Text) : Prop :=
  ∃ u, us.get? who = some u ∧ u.channels.contains name = true

/-- The channel under a key is shown by that name and holds a member under the key `who`. -/
def Holds (cs : Table Text Channel) (key name who : Text) : Prop :=
  ∃ c, cs.get? key = some c ∧ c.name = name ∧ c.members.contains who = true

variable {t : Tracker} {us : Table Text User} {cs : Table Text Channel}
variable {k k' key name who nick : Text}

/-! ## What users list -/

theorem lists_insert {u : User} :
    Lists (us.insert k u) who name ↔
      if k = who then u.channels.contains name = true else Lists us who name := by
  unfold Lists
  rw [Table.get?_insert]
  split
  · simp
  · rfl

theorem lists_erase : Lists (us.erase k) who name ↔ k ≠ who ∧ Lists us who name := by
  unfold Lists
  rw [Table.get?_erase]
  split
  · next h => simp [h]
  · next h => simp [h]

/-- A user that is yet unknown lists nothing. -/
theorem contains_getD {u : User} (hu : u.channels = .empty) :
    ((t.user? nick).getD u).channels.contains name = true ↔ Lists t.users (fold nick) name := by
  unfold Lists user?
  cases t.users.get? (fold nick) with
  | none => simp [hu, Table.contains]
  | some u => simp

theorem contains_known {m : Mask} :
    (t.known m).channels.contains name = true ↔ Lists t.users (fold m.nick) name :=
  contains_getD rfl

theorem user?_update {m : Mask} : (t.update m).user? m.nick = some (t.known m) :=
  Table.get?_insert_self ..

theorem lists_update {m : Mask} : Lists (t.update m).users who name ↔ Lists t.users who name := by
  simp only [update, lists_insert, contains_known]
  split
  · next h => rw [h]
  · rfl

theorem lists_detach {channel : Text} :
    Lists (t.detach k channel).users who name ↔
      Lists t.users who name ∧ ¬ (who = k ∧ fold name = fold channel) := by
  unfold detach
  split
  · next hnone =>
    refine ⟨fun h => ⟨h, ?_⟩, And.left⟩
    rintro ⟨rfl, -⟩
    obtain ⟨u, hu, -⟩ := h
    rw [hnone] at hu
    exact absurd hu (by simp)
  · next u hu =>
    unfold Lists
    simp only [Table.get?_put?]
    by_cases hk : k = who
    · subst hk
      simp only [if_true, hu, Option.some.injEq, exists_eq_left', true_and, ← User.contains_left]
      split
      · next hempty => simp [Table.not_contains_of_isEmpty hempty]
      · simp
    · simp [hk, Ne.symm hk]

theorem channels_detach {channel : Text} : (t.detach k channel).channels = t.channels := by
  unfold detach
  split <;> rfl

/-! ## What channels hold -/

theorem holds_insert {c : Channel} :
    Holds (cs.insert k c) key name who ↔
      if k = key then c.name = name ∧ c.members.contains who = true else Holds cs key name who := by
  unfold Holds
  rw [Table.get?_insert]
  split
  · simp
  · rfl

theorem holds_erase : Holds (cs.erase k) key name who ↔ k ≠ key ∧ Holds cs key name who := by
  unfold Holds
  rw [Table.get?_erase]
  split
  · next h => simp [h]
  · next h => simp [h]

theorem holds_adjust {f : Channel → Channel} (hf : ∀ c, (f c).name = c.name) :
    Holds (cs.adjust k f) key name who ↔
      if k = key then ∃ c, cs.get? key = some c ∧ c.name = name ∧ (f c).members.contains who = true
      else Holds cs key name who := by
  unfold Holds
  rw [Table.get?_adjust]
  split
  · next h =>
    simp only [Option.map_eq_some_iff]
    constructor
    · rintro ⟨_, ⟨c, hc, rfl⟩, hn, hm⟩
      exact ⟨c, hc, (hf c).symm.trans hn, hm⟩
    · rintro ⟨c, hc, hn, hm⟩
      exact ⟨f c, ⟨c, hc, rfl⟩, (hf c).trans hn, hm⟩
  · rfl

theorem holds_iff {c : Channel} (hc : cs.get? key = some c) :
    Holds cs key name who ↔ c.name = name ∧ c.members.contains who = true := by
  simp [Holds, hc]

theorem holds_addChannel {channel : Text} :
    Holds (t.addChannel channel).channels key name who ↔ Holds t.channels key name who := by
  unfold addChannel
  split
  · rfl
  · next hnew =>
    rw [holds_insert]
    split
    · next h =>
      simp only [hasChannel, channel?, Bool.not_eq_true, Option.isSome_eq_false_iff,
        Option.isNone_iff_eq_none] at hnew
      simp [Holds, ← h, hnew, Table.contains]
    · rfl

/-! ## Adding and removing members -/

section Members

variable {channel modes : Text} {c : Channel}

theorem lists_addMember (hc : t.channel? channel = some c) :
    Lists (t.addMember channel nick modes).users who name ↔
      Lists t.users who name ∨ (who = fold nick ∧ name = c.name) := by
  simp only [addMember, hc, lists_insert, User.contains_joined, contains_getD]
  split
  · next h =>
    subst h
    simp [or_comm]
  · next h => simp [Ne.symm h]

theorem holds_addMember (hc : t.channel? channel = some c) :
    Holds (t.addMember channel nick modes).channels key name who ↔
      Holds t.channels key name who ∨ (key = fold channel ∧ name = c.name ∧ who = fold nick) := by
  simp only [addMember, hc, holds_insert]
  split
  · next h =>
    subst h
    rw [holds_iff hc]
    simp only [Channel.add, Table.contains_insert, true_and]
    grind
  · next h => simp [Ne.symm h]

theorem lists_removeMember (hc : t.channel? channel = some c) (hin : c.contains nick = true) :
    Lists (t.removeMember channel nick).users who name ↔
      Lists t.users who name ∧ ¬ (who = fold nick ∧ fold name = fold c.name) := by
  simp only [removeMember, hc, hin, if_true, lists_detach]

theorem holds_removeMember :
    Holds (t.removeMember channel nick).channels key name who ↔
      Holds t.channels key name who ∧ ¬ (key = fold channel ∧ who = fold nick) := by
  unfold removeMember
  split
  · next hnone =>
    refine ⟨fun h => ⟨h, ?_⟩, And.left⟩
    rintro ⟨rfl, -⟩
    obtain ⟨c, hc, -⟩ := h
    exact absurd (hnone.symm.trans hc) (by simp)
  · next c hc =>
    split
    · rw [channels_detach, holds_insert]
      split
      · next h =>
        subst h
        rw [holds_iff hc]
        simp only [Channel.remove, Table.contains_erase, true_and]
        grind
      · next h => simp [Ne.symm h]
    · next hout =>
      refine ⟨fun h => ⟨h, ?_⟩, And.left⟩
      rintro ⟨rfl, rfl⟩
      exact hout ((holds_iff hc).1 h).2

theorem holds_setMemberMode {mode : Char} {set : Bool} {rank : Text} :
    Holds (t.setMemberMode channel nick mode set rank).channels key name who ↔
      Holds t.channels key name who := by
  unfold setMemberMode
  rw [holds_adjust (f := fun c => { c with members := c.members.adjust (fold nick) _ }) fun _ => rfl]
  split
  · simp only [Table.contains_adjust, Holds]
  · rfl

end Members

/-! ## Removing a channel -/

theorem lists_detachAll {keys : List Text} {channel : Text} :
    Lists (keys.foldl (fun t k => t.detach k channel) t).users who name ↔
      Lists t.users who name ∧ ¬ (who ∈ keys ∧ fold name = fold channel) := by
  induction keys generalizing t with
  | nil => simp
  | cons k keys ih =>
    simp only [List.foldl_cons, ih, lists_detach, List.mem_cons]
    grind

theorem channels_detachAll {keys : List Text} {channel : Text} :
    (keys.foldl (fun t k => t.detach k channel) t).channels = t.channels := by
  induction keys generalizing t with
  | nil => rfl
  | cons k keys ih => rw [List.foldl_cons, ih, channels_detach]

theorem lists_removeChannel {channel : Text} {c : Channel} (hc : t.channel? channel = some c) :
    Lists (t.removeChannel channel).users who name ↔
      Lists t.users who name ∧ ¬ (c.members.contains who = true ∧ fold name = fold c.name) := by
  simp only [removeChannel, hc, lists_detachAll, Table.mem_keys]

theorem holds_removeChannel {channel : Text} :
    Holds (t.removeChannel channel).channels key name who ↔
      key ≠ fold channel ∧ Holds t.channels key name who := by
  unfold removeChannel
  split
  · next hnone =>
    refine ⟨fun h => ⟨?_, h⟩, And.right⟩
    rintro rfl
    obtain ⟨c, hc, -⟩ := h
    exact absurd (hnone.symm.trans hc) (by simp)
  · rw [channels_detachAll, holds_erase, ne_comm]

/-! ## Removing and renaming a user -/

section Users

variable {names : List Text} {old new : Text} {u : User}

theorem holds_adjust_remove :
    Holds (cs.adjust k' (·.remove k)) key name who ↔
      Holds cs key name who ∧ ¬ (key = k' ∧ who = k) := by
  have hname (c : Channel) : (c.remove k).name = c.name := rfl
  rw [holds_adjust hname]
  split
  · next h =>
    subst h
    simp only [Holds, Channel.remove, Table.contains_erase]
    grind
  · next h => simp [Ne.symm h]

theorem holds_removeAll :
    Holds (names.foldl (fun cs name => cs.adjust (fold name) (·.remove k)) cs) key name who ↔
      Holds cs key name who ∧ ¬ (key ∈ names.map fold ∧ who = k) := by
  induction names generalizing cs with
  | nil => simp
  | cons n names ih =>
    rw [List.foldl_cons, ih, holds_adjust_remove, List.map_cons, List.mem_cons]
    grind

theorem lists_removeUser (hu : t.user? nick = some u) :
    Lists (t.removeUser nick).users who name ↔ who ≠ fold nick ∧ Lists t.users who name := by
  simp only [removeUser, hu, lists_erase, ne_comm]

theorem holds_removeUser (hu : t.user? nick = some u) :
    Holds (t.removeUser nick).channels key name who ↔
      Holds t.channels key name who ∧ ¬ (key ∈ u.channels.keys.map fold ∧ who = fold nick) := by
  simp only [removeUser, hu, holds_removeAll]

theorem contains_rename {c : Channel} :
    (c.rename k new).members.contains who = true ↔
      if c.members.contains k = true then
        who = fold new ∨ (who ≠ k ∧ c.members.contains who = true)
      else c.members.contains who = true := by
  unfold Channel.rename
  split
  · next m hm =>
    simp [Table.contains_insert, Table.contains_erase, Table.contains_iff.2 ⟨m, hm⟩]
  · next hm => simp [Table.contains, hm]

theorem name_rename {c : Channel} : (c.rename k new).name = c.name := by
  unfold Channel.rename
  split <;> rfl

theorem holds_adjust_rename :
    Holds (cs.adjust k' (·.rename k new)) key name who ↔
      (key = k' ∧ Holds cs key name k ∧
        (who = fold new ∨ (who ≠ k ∧ Holds cs key name who))) ∨
      (¬ (key = k' ∧ Holds cs key name k) ∧ Holds cs key name who) := by
  have hname (c : Channel) : (c.rename k new).name = c.name := name_rename
  rw [holds_adjust hname]
  split
  · next h =>
    subst h
    simp only [Holds, contains_rename]
    grind
  · next h => simp [Ne.symm h]

/-- What was held under the old key is held under the new one. A second pass over
the same channel finds nothing under the old key, unless the keys are equal. -/
theorem holds_renameAll :
    Holds (names.foldl (fun cs name => cs.adjust (fold name) (·.rename k new)) cs) key name who ↔
      (key ∈ names.map fold ∧ Holds cs key name k ∧
        (who = fold new ∨ (who ≠ k ∧ Holds cs key name who))) ∨
      (¬ (key ∈ names.map fold ∧ Holds cs key name k) ∧ Holds cs key name who) := by
  induction names generalizing cs with
  | nil => simp
  | cons n names ih =>
    simp only [List.foldl_cons, ih, holds_adjust_rename, List.map_cons, List.mem_cons]
    by_cases hk : k = fold new <;> grind

theorem lists_rename (hu : t.user? old = some u) :
    Lists (t.rename old new).users who name ↔
      if who = fold new then u.channels.contains name = true
      else who ≠ fold old ∧ Lists t.users who name := by
  simp only [rename, hu, lists_insert, lists_erase, eq_comm, ne_comm]

theorem holds_rename (hu : t.user? old = some u) :
    Holds (t.rename old new).channels key name who ↔
      (key ∈ u.channels.keys.map fold ∧ Holds t.channels key name (fold old) ∧
        (who = fold new ∨ (who ≠ fold old ∧ Holds t.channels key name who))) ∨
      (¬ (key ∈ u.channels.keys.map fold ∧ Holds t.channels key name (fold old)) ∧
        Holds t.channels key name who) := by
  simp only [rename, hu, holds_renameAll]

end Users

end Tracker

end IrcBot
