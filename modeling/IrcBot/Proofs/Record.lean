/-
Records that are kept in order. What an entry must satisfy may depend on the entries
before it; a record stays in order when one more entry is right after all of them.
-/
import Mathlib.Data.List.Basic

namespace IrcBot

variable {α : Type} {P : List α → α → Prop} {l : List α} {a : α}

theorem forall_split_nil : ∀ before b after, [] = before ++ b :: after → P before b := by
  intro before b after hsplit
  exact absurd hsplit.symm (List.append_ne_nil_of_right_ne_nil before (List.cons_ne_nil b after))

theorem forall_split_concat (h : ∀ before b after, l = before ++ b :: after → P before b)
    (ha : P l a) : ∀ before b after, l ++ [a] = before ++ b :: after → P before b := by
  intro before b after hsplit
  obtain rfl | ⟨after', last, rfl⟩ := List.eq_nil_or_concat after
  · obtain ⟨rfl, hlast⟩ := List.append_inj' hsplit rfl
    cases hlast
    exact ha
  · have hfront : l ++ [a] = (before ++ b :: after') ++ [last] := by simpa using hsplit
    exact h before b after' (List.append_inj' hfront rfl).1

end IrcBot
