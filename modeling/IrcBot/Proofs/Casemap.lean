/-
Two names are the same up to case exactly when they fold to the same key. The
comparison also looks at the lengths in bytes; folding a character keeps its
length, so names with the same key pass that test.
-/
import IrcBot.Casemap

namespace IrcBot

theorem utf8Size_toLower (c : Char) : c.toLower.utf8Size = c.utf8Size := by
  unfold Char.toLower
  split
  · next h =>
    -- a capital and the letter 32 above it are both ASCII
    obtain ⟨-, hle⟩ := h
    have hc : c.utf8Size = 1 :=
      Char.utf8Size_eq_one_iff.2 (UInt32.le_trans hle (by decide))
    rw [hc, Char.utf8Size_eq_one_iff, UInt32.le_iff_toNat_le, UInt32.toNat_add]
    have : c.val.toNat ≤ 90 := UInt32.le_iff_toNat_le.1 hle
    have : ('a'.val - 'A'.val).toNat = 32 := rfl
    have : (127 : UInt32).toNat = 127 := rfl
    omega
  · rfl

theorem utf8Size_foldChar (c : Char) : (foldChar c).utf8Size = c.utf8Size := by
  unfold foldChar
  split
  · rfl
  · rfl
  · rfl
  · rfl
  · exact utf8Size_toLower c

theorem same_cons {c d : Char} {a b : Text} :
    same (c :: a) (d :: b) = true ↔ foldChar c = foldChar d ∧ same a b = true := by
  simp only [same, Text.byteSize_cons, List.zip_cons_cons, List.all_cons, Bool.and_eq_true,
    beq_iff_eq]
  refine ⟨fun ⟨hsize, hcd, hab⟩ => ⟨hcd, ?_, hab⟩, fun ⟨hcd, hsize, hab⟩ => ⟨?_, hcd, hab⟩⟩
  all_goals
    have hone : c.utf8Size = d.utf8Size := by
      rw [← utf8Size_foldChar c, ← utf8Size_foldChar d, hcd]
    omega

/-- The comparison of names is equality of their keys. -/
theorem same_iff {a b : Text} : same a b = true ↔ fold a = fold b := by
  induction a generalizing b with
  | nil =>
    cases b with
    | nil => decide
    | cons d b =>
      have := d.utf8Size_pos
      simp only [same, fold, Text.byteSize_nil, Text.byteSize_cons, Bool.and_eq_true, beq_iff_eq,
        List.map_nil, List.map_cons, reduceCtorEq, iff_false, not_and]
      omega
  | cons c a ih =>
    cases b with
    | nil =>
      have := c.utf8Size_pos
      simp only [same, fold, Text.byteSize_nil, Text.byteSize_cons, Bool.and_eq_true, beq_iff_eq,
        List.map_nil, List.map_cons, reduceCtorEq, iff_false, not_and]
      omega
    | cons d b =>
      rw [same_cons, ih]
      simp only [fold, List.map_cons, List.cons.injEq]

theorem same_comm {a b : Text} : same a b = same b a := by
  rw [Bool.eq_iff_iff, same_iff, same_iff, eq_comm]

theorem byteSize_of_same {a b : Text} (h : same a b = true) : a.byteSize = b.byteSize := by
  rw [same, Bool.and_eq_true, beq_iff_eq] at h
  exact h.1

end IrcBot
