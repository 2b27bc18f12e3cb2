/-
By which spelling somebody is shown. The nick of somebody is kept twice: in the entry among the
users, and with every seat. An operation that meets somebody spells the nick; an entry that is there
keeps the spelling it has, and only a renaming gives it another one. Seats are not as steady: a seat
that is taken again has the spelling it is taken with.
-/
import IrcBot.Proofs.Tracker.Entries
import IrcBot.Proofs.Tracker.Renaming

namespace IrcBot.Tracker

/-- The spelling in the entry under a key. -/
def shown? (t : Tracker) (key : Text) : Option Text := (t.users.get? key).map User.nick

/-- The spelling with the seat under the key `who` of the channel under a key. -/
def seatedAs? (t : Tracker) (key who : Text) : Option Text := (t.seat? key who).map Member.nick

/-- The spellings of the nick with that key. -/
def spellings (nicks : List Text) (key : Text) : List Text :=
  nicks.filter fun nick => fold nick = key

/-- Whoever has a seat is shown there as its entry shows it. -/
def ShownAlike (t : Tracker) : Prop :=
  ∀ key who m, t.seat? key who = some m → t.shown? who = some m.nick

/-- Somebody who is shown is shown as before, or else as these nicks first spell it. -/
def Meets (nicks : List Text) (t t' : Tracker) : Prop :=
  ∀ key nick, t'.shown? key = some nick →
    (t.shown? key).or (spellings nicks key).head? = some nick

variable {t t' t'' : Tracker} {c : Channel} {u : User} {sender : Mask} {nicks : List Text}
variable {key who channel nick modes old new : Text}

theorem shown?_of_get? (hu : t.users.get? key = some u) : t.shown? key = some u.nick := by
  rw [shown?, hu, Option.map_some]

theorem shownAlike_iff : t.ShownAlike ↔
    ∀ key who nick, t.seatedAs? key who = some nick → t.shown? who = some nick := by
  simp only [ShownAlike, seatedAs?, Option.map_eq_some_iff, forall_exists_index, and_imp]
  exact ⟨fun h key who _ m hm he => he ▸ h key who m hm, fun h key who m hm => h key who _ m hm rfl⟩

theorem shownAlike_empty : ShownAlike .empty := by
  intro key who m hm
  cases hm

/-! ## Spellings -/

theorem spellings_cons : spellings (nick :: nicks) key =
    spellings [nick] key ++ spellings nicks key := List.filter_append [nick] nicks

theorem spellings_singleton :
    spellings [nick] key = if fold nick = key then [nick] else [] := by
  simp only [spellings, List.filter_cons, decide_eq_true_eq, List.filter_nil]

theorem mem_spellings : nick ∈ spellings nicks key ↔ nick ∈ nicks ∧ fold nick = key := by
  simp [spellings]

/-! ## Entries -/

theorem shown?_update : (t.update sender).shown? key =
    (t.shown? key).or (spellings [sender.nick] key).head? := by
  unfold shown?
  rw [get?_users_update, spellings_singleton]
  split
  · next hkey =>
    subst hkey
    simp only [known, user?, if_true, List.head?_cons]
    cases t.users.get? (fold sender.nick) <;> rfl
  · next hkey => rw [if_neg (Ne.symm hkey), List.head?_nil, Option.or_none]

theorem shown?_addMember (hc : t.channel? channel = some c) :
    (t.addMember channel nick modes).shown? key =
      (t.shown? key).or (spellings [nick] key).head? := by
  unfold shown?
  rw [get?_users_addMember hc, spellings_singleton]
  split
  · next hkey =>
    subst hkey
    simp only [user?, if_true, List.head?_cons]
    cases t.users.get? (fold nick) <;> rfl
  · next hkey => rw [if_neg (Ne.symm hkey), List.head?_nil, Option.or_none]

theorem shown?_addChannel : (t.addChannel channel).shown? key = t.shown? key := by
  rw [shown?, users_addChannel, shown?]

theorem shown?_rename (hu : t.user? old = some u) : (t.rename old new).shown? key =
    if key = fold new then some new
    else if key = fold old then none else t.shown? key := by
  unfold shown?
  rw [users_rename hu]
  split
  · rfl
  · split <;> rfl

namespace Meets

theorem update : Meets [sender.nick] t (t.update sender) := by
  intro key nick hshown
  rwa [shown?_update] at hshown

/-- Those who are left are shown as before. -/
theorem kept (h : ∀ key nick, t'.shown? key = some nick → t.shown? key = some nick) :
    Meets nicks t t' := by
  intro key nick hshown
  rw [h key nick hshown, Option.some_or]

theorem of_users_eq (h : t'.users = t.users) : Meets nicks t t' :=
  kept fun key nick hshown => by rwa [shown?, h] at hshown

theorem trim (h : Meets nicks t t')
    (hkept : ∀ key nick, t''.shown? key = some nick → t'.shown? key = some nick) :
    Meets nicks t t'' :=
  fun key nick hshown => h key nick (hkept key nick hshown)

theorem observe : Meets [sender.nick] t (t.observe sender) := by
  unfold Tracker.observe
  split
  · exact .update
  · exact kept fun _ _ => id

theorem removeUser : Meets [sender.nick] t ((t.update sender).removeUser nick) := by
  refine update.trim fun key n hshown => ?_
  rw [shown?, get?_users_removeUser] at hshown
  split at hshown
  · cases hshown
  · exact hshown

end Meets

/-! ## Seats -/

theorem seat?_addChannel : (t.addChannel channel).seat? key who = t.seat? key who := by
  unfold addChannel
  split
  · rfl
  · next huntracked =>
    have hnone : t.channels.get? (fold channel) = none := by
      simpa [hasChannel, channel?] using huntracked
    simp only [seat?, Table.get?_insert]
    split
    · next hkey => simp [← hkey, hnone]
    · rfl

/-- A renaming gives all seats of somebody the spelling that the entry gets. -/
theorem ShownAlike.rename (h : t.ShownAlike) (hc : t.Consistent) (hu : t.user? old = some u)
    (hnew : fold new = fold old ∨ t.Free new) : (t.rename old new).ShownAlike := by
  intro key who m hm
  rw [seat?_rename hc hu hnew] at hm
  rw [shown?_rename hu]
  split at hm
  · next hwho =>
    obtain ⟨m', -, rfl⟩ := Option.map_eq_some_iff.1 hm
    rw [if_pos hwho]
  · next hwho =>
    split at hm
    · cases hm
    · next hold =>
      rw [if_neg hwho, if_neg hold]
      exact h key who m hm

theorem ShownAlike.update (h : t.ShownAlike) (sender : Mask) : (t.update sender).ShownAlike := by
  intro key who m hm
  rw [shown?_update, h key who m hm, Option.some_or]

/-- Whoever has a seat is shown among the users as well. -/
theorem Consistent.exists_shown? (hc : t.Consistent) (h : t.seatedAs? key who = some nick) :
    ∃ shown, t.shown? who = some shown := by
  obtain ⟨m, hm, -⟩ := Option.map_eq_some_iff.1 h
  obtain ⟨name, hold⟩ := isSome_seat?.1 (Option.isSome_of_eq_some hm)
  obtain ⟨u, hu, -⟩ := backed_iff.1 hc.backed key name who hold
  exact ⟨u.nick, shown?_of_get? hu⟩

/-- A nick that nobody had is free for a sender also once he is recorded. -/
theorem Consistent.free_update (hc : t.Consistent)
    (hnew : fold new = fold sender.nick ∨ t.user? new = none) :
    fold new = fold sender.nick ∨ (t.update sender).Free new := by
  refine or_iff_not_imp_left.2 fun hother => ?_
  have hnone : t.user? new = none := hnew.resolve_left hother
  refine ⟨?_, fun key => Option.eq_none_iff_forall_ne_some.2 fun m hm => ?_⟩
  · rw [user?, get?_users_update, if_neg hother]
    exact hnone
  · have hseat : t.seat? key (fold new) = some m := hm
    obtain ⟨name, hold⟩ := isSome_seat?.1 (Option.isSome_of_eq_some hseat)
    obtain ⟨u, hu, -⟩ := backed_iff.1 hc.backed key name _ hold
    cases hnone.symm.trans hu

end IrcBot.Tracker
