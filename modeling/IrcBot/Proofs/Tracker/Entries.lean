/-
What becomes of one entry among the users, operation by operation. Recording a sender and adding a
member only ever give: an entry that is there stays, and keeps what is known of it. Leaving a
channel only ever takes, first from the list of the entry and, with the last channel, the entry.
-/
import IrcBot.Proofs.Tracker.Channels

namespace IrcBot

namespace User

/-- Who it is, apart from where: nick, user and host. -/
def identity (u : User) : Text × Option Text × Option Text := (u.nick, u.user, u.host)

/-- Whether all of the mask is known. -/
def isIdentified (u : User) : Bool := u.user.isSome && u.host.isSome

end User

namespace Tracker

variable {t : Tracker} {m : Mask} {u u' : User} {c : Channel}
variable {key channel nick modes : Text}

theorem users_addChannel : (t.addChannel channel).users = t.users := by
  unfold addChannel
  split <;> rfl

theorem hasChannel_addChannel : (t.addChannel channel).hasChannel channel = true := by
  unfold addChannel
  split
  · next htracked => exact htracked
  · simp [hasChannel, channel?]

theorem get?_users_update : (t.update m).users.get? key =
    if key = fold m.nick then some (t.known m) else t.users.get? key := by
  simp only [update, Table.get?_insert, eq_comm]

/-- An entry that is there learns from the mask of a sender of that nick, and from no other. -/
theorem get?_users_update_of_some (hu : t.users.get? key = some u) :
    (t.update m).users.get? key = some (if key = fold m.nick then u.absorb m else u) := by
  rw [get?_users_update]
  split
  · next hkey =>
    subst hkey
    rw [known, user?, hu, Option.getD_some]
  · exact hu

theorem addMember_untracked (hc : t.channel? channel = none) :
    t.addMember channel nick modes = t := by
  simp only [addMember, hc]

theorem get?_users_addMember (hc : t.channel? channel = some c) :
    (t.addMember channel nick modes).users.get? key =
      if key = fold nick then some (((t.user? nick).getD { nick }).joined c.name)
      else t.users.get? key := by
  simp only [addMember, hc, Table.get?_insert, eq_comm]

/-- An entry that is there stays who it is when somebody is added to a channel. -/
theorem identity_addMember (channel nick modes : Text) (hu : t.users.get? key = some u) :
    ∃ u', (t.addMember channel nick modes).users.get? key = some u' ∧
      u'.identity = u.identity := by
  cases hc : t.channel? channel with
  | none =>
    rw [addMember_untracked hc]
    exact ⟨u, hu, rfl⟩
  | some c =>
    rw [get?_users_addMember hc]
    split
    · next hkey =>
      subst hkey
      rw [user?, hu, Option.getD_some]
      exact ⟨_, rfl, rfl⟩
    · exact ⟨u, hu, rfl⟩

theorem get?_users_removeMember (hc : t.channel? channel = some c) :
    (t.removeMember channel nick).users.get? key =
      if c.contains nick = true ∧ key = fold nick then
        (t.users.get? key).bind (remainder c.name)
      else t.users.get? key := by
  simp only [removeMember, hc]
  by_cases hin : c.contains nick = true
  · rw [if_pos hin, get?_users_detach]
    simp only [hin, true_and, eq_comm]
  · rw [if_neg hin, if_neg fun h => hin h.1]

theorem get?_users_removeUser : (t.removeUser nick).users.get? key =
    if key = fold nick then none else t.users.get? key := by
  unfold removeUser
  split
  · next hnone =>
    split
    · next hkey => exact hkey ▸ hnone
    · rfl
  · rw [Table.get?_erase]
    simp only [eq_comm]

/-- What is left of an entry is the same person, and lists something. -/
theorem of_remainder (h : remainder channel u = some u') :
    u'.identity = u.identity ∧ ∃ name, u'.channels.contains name = true := by
  unfold remainder at h
  split at h
  · cases h
  · next hlists =>
    cases h
    refine ⟨rfl, Classical.byContradiction fun hnone => hlists (Table.isEmpty_iff_forall.2 ?_)⟩
    simpa using hnone

end Tracker

end IrcBot
