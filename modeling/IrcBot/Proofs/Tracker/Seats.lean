/-
Who sits where, and with which letters. A seat is a member of a channel, found by the key of
the channel and its own; what is told here of an operation is told of every seat, its display
nick and its modes included. What holds of every seat (`EachSeat`) is kept by everything that
takes seats, by adding a member for whom it holds, and by letters where it does not mind them.
-/
import IrcBot.Proofs.Tracker.Grounded

namespace IrcBot.Tracker

/-- The member under the key `who` of the channel under a key. -/
def seat? (t : Tracker) (key who : Text) : Option Member :=
  (t.channels.get? key).bind fun c => c.members.get? who

variable {t : Tracker} {c : Channel} {m : Member} {key who channel nick modes name : Text}

theorem seat?_of_get? (hc : t.channels.get? key = some c) :
    t.seat? key who = c.members.get? who := by
  rw [seat?, hc, Option.bind_some]

theorem seat?_eq_some_iff :
    t.seat? key who = some m ↔ ∃ c, t.channels.get? key = some c ∧ c.members.get? who = some m :=
  Option.bind_eq_some_iff

/-- A seat is taken exactly if the channel holds somebody under that key. -/
theorem isSome_seat? : (t.seat? key who).isSome ↔ ∃ name, Holds t.channels key name who := by
  unfold seat? Holds
  cases t.channels.get? key with
  | none => simp
  | some c => simp [Table.contains]

/-- What holds of every member of every channel, told with the keys of both. -/
def EachSeat (P : Text → Text → Member → Prop) (t : Tracker) : Prop :=
  t.channels.All fun key c => c.members.All (P key)

variable {P : Text → Text → Member → Prop}

theorem eachSeat_iff : t.EachSeat P ↔ ∀ key who m, t.seat? key who = some m → P key who m := by
  constructor
  · intro h key who m hseat
    obtain ⟨c, hc, hm⟩ := seat?_eq_some_iff.1 hseat
    exact h key c hc who m hm
  · intro h key c hc who m hm
    exact h key who m (seat?_eq_some_iff.2 ⟨c, hc, hm⟩)

/-! ## Every seat -/

namespace EachSeat

variable (h : t.EachSeat P)

include h

theorem observe (m : Mask) : (t.observe m).EachSeat P := by
  unfold Tracker.observe
  split <;> exact h

theorem addChannel : (t.addChannel name).EachSeat P := by
  unfold Tracker.addChannel
  split
  · exact h
  · exact Table.All.insert h Table.all_empty

theorem removeChannel : (t.removeChannel name).EachSeat P := by
  unfold Tracker.removeChannel
  split
  · exact h
  · unfold EachSeat
    rw [channels_detachAll]
    exact Table.All.erase h

theorem addMember (hnew : P (fold channel) (fold nick) { nick, modes }) :
    (t.addMember channel nick modes).EachSeat P := by
  unfold Tracker.addMember
  split
  · exact h
  · next c hc => exact Table.All.insert h ((h _ c hc).insert hnew)

theorem removeMember : (t.removeMember channel nick).EachSeat P := by
  unfold Tracker.removeMember
  split
  · exact h
  · next c hc =>
    split
    · unfold EachSeat
      rw [channels_detach]
      exact Table.All.insert h (h _ c hc).erase
    · exact h

theorem setMemberMode {mode : Char} {set : Bool} {rank : Text}
    (hset : ∀ key who m, P key who m → P key who (m.setMode mode set rank)) :
    (t.setMemberMode channel nick mode set rank).EachSeat P :=
  Table.All.adjust h fun _ hc => hc.adjust fun m hm => hset _ _ m hm

theorem removeUser : (t.removeUser nick).EachSeat P := by
  unfold Tracker.removeUser
  split
  · exact h
  · exact Table.All.adjustAll h fun _ _ hc => hc.erase

end EachSeat

/-! ## One member -/

theorem seat?_addMember : (t.addMember channel nick modes).seat? key who =
    if t.hasChannel channel = true ∧ key = fold channel ∧ who = fold nick then
      some { nick, modes }
    else t.seat? key who := by
  cases hc : t.channel? channel with
  | none =>
    have huntracked : ¬ t.hasChannel channel = true := by simp [hasChannel, hc]
    simp only [addMember, hc]
    rw [if_neg fun h => huntracked h.1]
  | some c =>
    have htracked : t.hasChannel channel = true := by simp [hasChannel, hc]
    simp only [addMember, hc, seat?, Table.get?_insert, htracked, true_and]
    by_cases hkey : fold channel = key
    · subst hkey
      rw [if_pos rfl, Option.bind_some, show t.channels.get? (fold channel) = some c from hc,
        Option.bind_some]
      simp only [Channel.add, Table.get?_insert, true_and, eq_comm]
    · rw [if_neg hkey, if_neg fun h => hkey h.1.symm]

end IrcBot.Tracker
