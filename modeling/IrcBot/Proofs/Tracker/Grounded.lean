/-
The other direction: whatever channel a user lists is tracked, is shown by the
very name that is listed, and holds the user. With it goes what the keys of the
tables are: each is the fold of the name that its entry is shown by. Every change
keeps both, and so does every renaming, also one that takes the place of another
user: the entry that is lost takes its list along.
-/
import IrcBot.Proofs.Tracker.Backed

namespace IrcBot.Tracker

/-- Users, channels and members stand under the folds of the names they are shown by. -/
structure Folded (t : Tracker) : Prop where
  users : t.users.All fun key u => key = fold u.nick
  channels : t.channels.All fun key c => key = fold c.name
  members : t.channels.All fun _ c => c.members.All fun key m => key = fold m.nick

/-- A user lists a channel only by the name it is shown by, and only while it holds the user. -/
def Grounded (t : Tracker) : Prop :=
  ∀ who name, Lists t.users who name → Holds t.channels (fold name) name who

variable {t t' : Tracker} {us : Table Text User} {old new nick : Text}

/-- What every change keeps, any number of them keep. -/
theorem Changes.keeps {P : Tracker → Prop} (hchange : ∀ t t', Change t t' → P t → P t')
    (h : Changes t t') (ht : P t) : P t' := by
  induction h with
  | refl => exact ht
  | tail _ hlast ih => exact hchange _ _ hlast ih

/-! ## Keys -/

theorem folded_empty : Folded .empty := ⟨Table.all_empty, Table.all_empty, Table.all_empty⟩

/-- The entry that is found under a nick, or else begun, is shown by a name with that fold. -/
theorem fold_nick_getD (hu : t.users.All fun key u => key = fold u.nick) (nick : Text) :
    fold nick = fold ((t.user? nick).getD { nick }).nick := by
  unfold user?
  cases hfound : t.users.get? (fold nick) with
  | none => rfl
  | some found => exact hu _ _ hfound

theorem users_detach {key channel : Text} (hu : t.users.All fun key u => key = fold u.nick) :
    (t.detach key channel).users.All fun key u => key = fold u.nick := by
  unfold detach
  split
  · exact hu
  · next u hfound =>
    refine hu.put? fun u' hu' => ?_
    split at hu'
    · simp at hu'
    · cases hu'
      have hkey : key = fold u.nick := hu key u hfound
      exact hkey

theorem users_detachAll {keys : List Text} {channel : Text}
    (hu : t.users.All fun key u => key = fold u.nick) :
    (keys.foldl (fun t key => t.detach key channel) t).users.All fun key u => key = fold u.nick := by
  induction keys generalizing t with
  | nil => exact hu
  | cons key keys ih => exact ih (users_detach hu)

theorem Change.folded (h : Change t t') (hf : t.Folded) : t'.Folded := by
  refine ⟨?_, h.keyed hf.channels, ?_⟩
  · cases h with
    | update m => exact hf.users.insert (fold_nick_getD hf.users m.nick)
    | addChannel name =>
      unfold Tracker.addChannel
      split <;> exact hf.users
    | removeChannel name =>
      unfold Tracker.removeChannel
      split
      · exact hf.users
      · exact users_detachAll hf.users
    | addMember channel nick modes =>
      unfold Tracker.addMember
      split
      · exact hf.users
      · exact hf.users.insert (fold_nick_getD hf.users nick)
    | removeMember channel nick =>
      unfold Tracker.removeMember
      split
      · exact hf.users
      · split
        · exact users_detach hf.users
        · exact hf.users
    | setMemberMode channel nick mode set rank => exact hf.users
    | removeUser nick =>
      unfold Tracker.removeUser
      split
      · exact hf.users
      · exact hf.users.erase
  · cases h with
    | update m => exact hf.members
    | addChannel name =>
      unfold Tracker.addChannel
      split
      · exact hf.members
      · exact hf.members.insert Table.all_empty
    | removeChannel name =>
      unfold Tracker.removeChannel
      split
      · exact hf.members
      · rw [channels_detachAll]
        exact hf.members.erase
    | addMember channel nick modes =>
      unfold Tracker.addMember
      split
      · exact hf.members
      · next c hc => exact hf.members.insert ((hf.members _ c hc).insert rfl)
    | removeMember channel nick =>
      unfold Tracker.removeMember
      split
      · exact hf.members
      · next c hc =>
        split
        · rw [channels_detach]
          exact hf.members.insert (hf.members _ c hc).erase
        · exact hf.members
    | setMemberMode channel nick mode set rank =>
      exact hf.members.adjust fun c hc => hc.adjust fun m hm => hm
    | removeUser nick =>
      unfold Tracker.removeUser
      split
      · exact hf.members
      · exact hf.members.adjustAll fun _ c hc => hc.erase

theorem members_rename {c : Channel} {key : Text}
    (hc : c.members.All fun key m => key = fold m.nick) :
    (c.rename key new).members.All fun key m => key = fold m.nick := by
  unfold Channel.rename
  split
  · exact hc.erase.insert rfl
  · exact hc

theorem Folded.rename (hf : t.Folded) : (t.rename old new).Folded := by
  refine ⟨?_, Keyed.rename hf.channels, ?_⟩
  · unfold Tracker.rename
    split
    · exact hf.users
    · exact hf.users.erase.insert rfl
  · unfold Tracker.rename
    split
    · exact hf.members
    · exact hf.members.adjustAll fun _ _ => members_rename

/-! ## Lists -/

theorem grounded_empty : Grounded .empty := by
  rintro who name ⟨u, hu, -⟩
  simp [empty] at hu

/-- Every change but a renaming keeps the lists of users grounded. -/
theorem Change.grounded (h : Change t t') (hk : t.Keyed) (hg : t.Grounded) : t'.Grounded := by
  intro who name hlists
  cases h with
  | update m => exact hg who name (lists_update.1 hlists)
  | addChannel channel =>
    refine holds_addChannel.2 (hg who name ?_)
    unfold Tracker.addChannel at hlists
    split at hlists <;> exact hlists
  | removeChannel channel =>
    cases hc : t.channel? channel with
    | none =>
      simp only [Tracker.removeChannel, hc] at hlists ⊢
      exact hg who name hlists
    | some c =>
      obtain ⟨hlists, hnot⟩ := (lists_removeChannel hc).1 hlists
      have hold := hg who name hlists
      refine holds_removeChannel.2 ⟨fun hkey => hnot ?_, hold⟩
      rw [hkey] at hold
      obtain ⟨rfl, hin⟩ := (holds_iff hc).1 hold
      exact ⟨hin, rfl⟩
  | addMember channel nick modes =>
    cases hc : t.channel? channel with
    | none =>
      simp only [Tracker.addMember, hc] at hlists ⊢
      exact hg who name hlists
    | some c =>
      rw [holds_addMember hc]
      rcases (lists_addMember hc).1 hlists with hlists | ⟨hwho, hname⟩
      · exact .inl (hg who name hlists)
      · refine .inr ⟨?_, hname, hwho⟩
        rw [hname]
        exact (hk _ c hc).symm
  | removeMember channel nick =>
    cases hc : t.channel? channel with
    | none =>
      simp only [Tracker.removeMember, hc] at hlists ⊢
      exact hg who name hlists
    | some c =>
      by_cases hin : c.contains nick = true
      · obtain ⟨hlists, hnot⟩ := (lists_removeMember hc hin).1 hlists
        refine holds_removeMember.2 ⟨hg who name hlists, ?_⟩
        rintro ⟨hkey, hwho⟩
        exact hnot ⟨hwho, hkey.trans (hk _ c hc)⟩
      · simp only [Tracker.removeMember, hc, hin] at hlists ⊢
        exact hg who name hlists
  | setMemberMode channel nick mode set rank => exact holds_setMemberMode.2 (hg who name hlists)
  | removeUser nick =>
    cases hu : t.user? nick with
    | none =>
      simp only [Tracker.removeUser, hu] at hlists ⊢
      exact hg who name hlists
    | some u =>
      obtain ⟨hne, hlists⟩ := (lists_removeUser hu).1 hlists
      exact (holds_removeUser hu).2 ⟨hg who name hlists, fun h => hne h.2⟩

/-- A renaming moves what the renamed user lists along with its seats, and leaves
what others list. -/
theorem Grounded.rename (hg : t.Grounded) : (t.rename old new).Grounded := by
  intro who name hlists
  cases hu : t.user? old with
  | none =>
    simp only [Tracker.rename, hu] at hlists ⊢
    exact hg who name hlists
  | some u =>
    rw [lists_rename hu] at hlists
    rw [holds_rename hu]
    split at hlists
    · next hwho =>
      have hold := hg (fold old) name ⟨u, hu, hlists⟩
      exact .inl ⟨List.mem_map_of_mem (Table.mem_keys.2 hlists), hold, .inl hwho⟩
    · obtain ⟨hne, hlists⟩ := hlists
      have hold := hg who name hlists
      by_cases hmoved : fold name ∈ u.channels.keys.map fold ∧
          Holds t.channels (fold name) name (fold old)
      · exact .inl ⟨hmoved.1, hmoved.2, .inr ⟨hne, hold⟩⟩
      · exact .inr ⟨hmoved, hold⟩

/-- Two names in one list that differ only in case are one name. -/
theorem Grounded.eq_of_fold_eq {who name name' : Text} (hg : t.Grounded)
    (h : Lists t.users who name) (h' : Lists t.users who name') (hfold : fold name = fold name') :
    name = name' := by
  obtain ⟨c, hc, hname, -⟩ := hg who name h
  obtain ⟨c', hc', hname', -⟩ := hg who name' h'
  rw [hfold, hc'] at hc
  cases hc
  exact hname.symm.trans hname'

end IrcBot.Tracker
