/-
The letters of members. To set a letter puts it at its rank and keeps all others, to clear it
drops it alone. A member is in order when its letters are among those of the server, none of them
twice and the highest rank first; a letter set or cleared keeps that, and a renaming takes the
letters along.
-/
import IrcBot.Proofs.Tracker.Seats
import Mathlib.Data.List.Sort

namespace IrcBot

namespace Member

variable {modes rank : Text} {mode x : Char} {set : Bool} {m : Member}

theorem mem_insertRanked : x ∈ insertRanked modes mode rank ↔ x = mode ∨ x ∈ modes := by
  by_cases hx : x = mode <;> simp [insertRanked, hx]

theorem hasMode_setMode :
    (m.setMode mode set rank).hasMode x = if x = mode then set else m.hasMode x := by
  rw [Bool.eq_iff_iff]
  by_cases hx : x = mode <;> cases set <;> simp [hasMode, setMode, mem_insertRanked, hx]

/-- Letters of no rank stay as they are, also those that are there more than once. -/
theorem filter_insertRanked (hmode : mode ∈ rank) :
    (insertRanked modes mode rank).filter (!rank.contains ·) =
      modes.filter (!rank.contains ·) := by
  set letters := modes.filter (· != mode) ++ [mode] with hletters
  have hothers : letters.filter (!rank.contains ·) = modes.filter (!rank.contains ·) := by
    rw [hletters, List.filter_append, List.filter_filter]
    have hlast : [mode].filter (!rank.contains ·) = [] := by simp [hmode]
    rw [hlast, List.append_nil]
    refine List.filter_congr fun x _ => ?_
    by_cases hx : x = mode <;> simp [hx, hmode]
  have hperm := (List.mergeSort_perm letters fun a b => rank.idxOf a ≤ rank.idxOf b).filter
    (!rank.contains ·)
  rw [hothers] at hperm
  -- all of these letters have the rank behind the last, and the sorting is stable
  have hsub : (modes.filter (!rank.contains ·)).Sublist (insertRanked modes mode rank) := by
    refine List.sublist_mergeSort (by simpa using fun a b c => Nat.le_trans)
      (by simpa using fun a b => Nat.le_total _ _) ?_ (hothers ▸ List.filter_sublist)
    refine List.pairwise_of_forall_mem_list fun a ha b hb => ?_
    have hlast (x : Char) (hx : x ∈ modes.filter (!rank.contains ·)) :
        rank.idxOf x = rank.length := by
      rw [List.mem_filter, Bool.not_eq_true', List.contains_eq_mem, decide_eq_false_iff_not] at hx
      exact List.idxOf_eq_length hx.2
    rw [hlast a ha, hlast b hb, decide_eq_true_eq]
  have hkept := hsub.filter (!rank.contains ·)
  rw [List.filter_filter] at hkept
  simp only [Bool.and_self] at hkept
  exact (hkept.eq_of_length hperm.length_eq.symm).symm

/-- Earlier in the ranking, or the same letter. -/
def Outranks (rank : Text) (a b : Char) : Prop := rank.idxOf a < rank.idxOf b ∨ a = b

instance : Std.Antisymm (Outranks rank) where
  antisymm a b hab hba := by
    rcases hab with hab | rfl
    · rcases hba with hba | rfl
      · exact absurd hba (Nat.lt_asymm hab)
      · rfl
    · rfl

theorem pairwise_outranks (hrank : rank.Nodup) : rank.Pairwise (Outranks rank) := by
  refine List.pairwise_iff_getElem.2 fun i j hi hj hij => .inl ?_
  rwa [hrank.idxOf_getElem i hi, hrank.idxOf_getElem j hj]

theorem pairwise_insertRanked (hmodes : modes ⊆ rank) (hmode : mode ∈ rank) :
    (insertRanked modes mode rank).Pairwise (Outranks rank) := by
  have hsorted : (insertRanked modes mode rank).Pairwise fun a b =>
      decide (rank.idxOf a ≤ rank.idxOf b) = true :=
    List.pairwise_mergeSort (by simpa using fun a b c => Nat.le_trans)
      (by simpa using fun a b => Nat.le_total _ _) _
  refine hsorted.imp_of_mem fun {a b} ha _ hle => ?_
  have hmem : a ∈ rank := by
    rcases mem_insertRanked.1 ha with rfl | ha
    · exact hmode
    · exact hmodes ha
  rcases Nat.lt_or_eq_of_le (of_decide_eq_true hle) with hlt | he
  · exact .inl hlt
  · exact .inr ((List.idxOf_inj hmem).1 he)

/-- A letter goes to its place among letters that are in order. -/
theorem insertRanked_sublist (hrank : rank.Nodup) (hmodes : modes.Sublist rank)
    (hmode : mode ∈ rank) : (insertRanked modes mode rank).Sublist rank := by
  have hnodup : (insertRanked modes mode rank).Nodup := by
    refine (List.mergeSort_perm _ _).nodup_iff.2 ?_
    exact List.Nodup.append ((hrank.sublist hmodes).filter _) (by simp) (by simp)
  have hsubset : insertRanked modes mode rank ⊆ rank := by
    intro x hx
    rcases mem_insertRanked.1 hx with rfl | hx
    · exact hmode
    · exact hmodes.subset hx
  exact List.sublist_of_subperm_of_pairwise (List.subperm_of_subset hnodup hsubset)
    (pairwise_insertRanked hmodes.subset hmode) (pairwise_outranks hrank)

theorem setMode_sublist (hrank : rank.Nodup) (hm : m.modes.Sublist rank) (hmode : mode ∈ rank) :
    (m.setMode mode set rank).modes.Sublist rank := by
  cases set with
  | true => exact insertRanked_sublist hrank hm hmode
  | false => exact List.filter_sublist.trans hm

end Member

namespace Tracker

/-- The letters of every member are some of those listed, each once and in the order listed. -/
def Ranked (rank : Text) (t : Tracker) : Prop :=
  t.channels.All fun _ c => c.members.All fun _ m => m.modes.Sublist rank

variable {t : Tracker} {rank old new : Text}

theorem ranked_iff : t.Ranked rank ↔
    ∀ key who m, t.seat? key who = some m → m.modes.Sublist rank := eachSeat_iff

theorem ranked_empty : Ranked rank .empty := Table.all_empty

theorem Ranked.rename (hr : t.Ranked rank) : (t.rename old new).Ranked rank := by
  unfold Tracker.rename
  split
  · exact hr
  · refine hr.adjustAll fun _ c hc => ?_
    unfold Channel.rename
    split
    · next m hm => exact hc.erase.insert (hc _ m hm)
    · exact hc

end Tracker

end IrcBot
