/-
The letters of ASCII in their two cases. A capital and its small letter are 32 apart, and every
other character is its own upper and lower case (`toLower_or`, `toUpper_or`); the rest is arithmetic.
The library has such laws too, but no part of Mathlib short of all of it imports them.
-/
import IrcBot.Text.Basic

namespace IrcBot

/-- A capital is brought down by 32 places further, and nothing else is moved. -/
theorem toLower_or (c : Char) :
    (65 ≤ c.toNat ∧ c.toNat ≤ 90) ∧ c.toLower.toNat = c.toNat + 32 ∨
      ¬(65 ≤ c.toNat ∧ c.toNat ≤ 90) ∧ c.toLower.toNat = c.toNat := by
  have hcapital : c.val ≥ 'A'.val ∧ c.val ≤ 'Z'.val ↔ 65 ≤ c.toNat ∧ c.toNat ≤ 90 := by
    rw [ge_iff_le, UInt32.le_iff_toNat_le, UInt32.le_iff_toNat_le]
    rfl
  unfold Char.toLower
  split
  · next h =>
    obtain ⟨hge, hle⟩ := hcapital.1 h
    refine .inl ⟨⟨hge, hle⟩, ?_⟩
    show (c.val + ('a'.val - 'A'.val)).toNat = c.val.toNat + 32
    have hstep : ('a'.val - 'A'.val).toNat = 32 := rfl
    have hle : c.val.toNat ≤ 90 := hle
    rw [UInt32.toNat_add]
    omega
  · next h => exact .inr ⟨mt hcapital.2 h, rfl⟩

theorem toUpper_or (c : Char) :
    (97 ≤ c.toNat ∧ c.toNat ≤ 122) ∧ c.toUpper.toNat + 32 = c.toNat ∨
      ¬(97 ≤ c.toNat ∧ c.toNat ≤ 122) ∧ c.toUpper.toNat = c.toNat := by
  have hsmall : c.val ≥ 'a'.val ∧ c.val ≤ 'z'.val ↔ 97 ≤ c.toNat ∧ c.toNat ≤ 122 := by
    rw [ge_iff_le, UInt32.le_iff_toNat_le, UInt32.le_iff_toNat_le]
    rfl
  unfold Char.toUpper
  split
  · next h =>
    obtain ⟨hge, hle⟩ := hsmall.1 h
    refine .inl ⟨⟨hge, hle⟩, ?_⟩
    -- to go down by 32 the code goes up around the whole range
    show (c.val + ('A'.val - 'a'.val)).toNat + 32 = c.val.toNat
    have hstep : ('A'.val - 'a'.val).toNat = 2 ^ 32 - 32 := rfl
    have hge : 97 ≤ c.val.toNat := hge
    have hle : c.val.toNat ≤ 122 := hle
    rw [UInt32.toNat_add]
    omega
  · next h => exact .inr ⟨mt hsmall.2 h, rfl⟩

theorem toLower_toLower (c : Char) : c.toLower.toLower = c.toLower := by
  have hfirst := toLower_or c
  have hsecond := toLower_or c.toLower
  exact Char.toNat_inj.1 (by omega)

theorem toLower_toUpper (c : Char) : c.toUpper.toLower = c.toLower := by
  have hfirst := toUpper_or c
  have hsecond := toLower_or c.toUpper
  have hlower := toLower_or c
  exact Char.toNat_inj.1 (by omega)

theorem toUpper_toLower (c : Char) : c.toLower.toUpper = c.toUpper := by
  have hfirst := toLower_or c
  have hsecond := toUpper_or c.toLower
  have hupper := toUpper_or c
  exact Char.toNat_inj.1 (by omega)

theorem toUpper_toUpper (c : Char) : c.toUpper.toUpper = c.toUpper := by
  have hfirst := toUpper_or c
  have hsecond := toUpper_or c.toUpper
  exact Char.toNat_inj.1 (by omega)

/-- What is no small letter is the lower case of nothing else. -/
theorem eq_of_toLower_eq {c symbol : Char} (hsymbol : ¬(97 ≤ symbol.toNat ∧ symbol.toNat ≤ 122))
    (h : c.toLower = symbol) : c = symbol := by
  have hlower := toLower_or c
  rw [h] at hlower
  exact Char.toNat_inj.1 (by omega)

namespace Text

theorem toUpper_toUpper (t : Text) : toUpper (toUpper t) = toUpper t := by
  rw [toUpper, toUpper, List.map_map]
  exact List.map_congr_left fun c _ => IrcBot.toUpper_toUpper c

/-- Texts are the same up to case exactly if they have the same capitals. -/
theorem sameLetters_iff {s t : Text} : sameLetters s t = true ↔ toUpper s = toUpper t := by
  rw [sameLetters, beq_iff_eq]
  constructor
  · intro h
    simpa [toUpper, toLower, Function.comp_def, toUpper_toLower] using congrArg toUpper h
  · intro h
    simpa [toUpper, toLower, Function.comp_def, toLower_toUpper] using congrArg toLower h

end Text

end IrcBot
