/-
Line feeds in decoded text. A sequence of more than one byte stands for a character
above ASCII, and a malformed piece for U+FFFD, so only the byte 10 is read as a line
feed: bytes without it are read as text without line feeds.
-/
import IrcBot.Text.Utf8
import Mathlib.Data.List.Basic

namespace IrcBot.Text

theorem head_continuation {range : UInt8 × UInt8} {n : Nat} {rest : Bytes} {c : UInt8}
    (h : c ∈ (continuation range n rest).head?) : range.1 ≤ c ∧ c ≤ range.2 := by
  cases n with
  | zero => cases h
  | succ n =>
    cases rest with
    | nil => cases h
    | cons b rest =>
      rw [continuation] at h
      split at h
      · next hb =>
        cases h
        exact hb
      · cases h

/-- Where the first byte of a sequence has no bits to give, the second one has. -/
theorem second_bits {b c : UInt8} (hc : (secondByte b).1 ≤ c ∧ c ≤ (secondByte b).2)
    (hb : b = 0xE0 ∨ b = 0xF0) : 16 ≤ c.toNat % 0x40 := by
  rcases hb with rfl | rfl
  all_goals
    obtain ⟨hlow, hhigh⟩ := hc
    simp only [secondByte, UInt8.le_iff_toNat_le] at hlow hhigh
    simp at hlow hhigh
    omega

/-- No sequence but the byte 10 by itself has the code of a line feed. -/
theorem code_ne {b : UInt8} {tail : Bytes} (hb : b ≠ 10)
    (hlength : sequenceLength b = tail.length + 1)
    (hsecond : ∀ c ∈ tail.head?, (secondByte b).1 ≤ c ∧ c ≤ (secondByte b).2) :
    tail.foldl (fun n c => n * 0x40 + c.toNat % 0x40) (leadBits (sequenceLength b) b) ≠ 10 := by
  have hten : b.toNat ≠ 10 := fun h => hb (UInt8.toNat_inj.1 h)
  have hbits (c : UInt8) (hc : c ∈ tail.head?) (h : b.toNat = 0xE0 ∨ b.toNat = 0xF0) :
      16 ≤ c.toNat % 0x40 :=
    second_bits (hsecond c hc) (h.imp UInt8.toNat_inj.1 UInt8.toNat_inj.1)
  unfold sequenceLength at hlength ⊢
  simp only [UInt8.lt_iff_toNat_lt, UInt8.reduceToNat] at hlength ⊢
  -- one case for each length that a first byte may announce
  split at hlength
  · next h1 =>
    obtain rfl : tail = [] := by simpa using hlength
    simpa [h1, leadBits] using hten
  split at hlength
  · omega
  split at hlength
  · next h1 h2 h3 =>
    obtain ⟨c, rfl⟩ : ∃ c, tail = [c] := List.length_eq_one_iff.1 (by omega)
    simp only [h1, h2, h3, if_true, if_false, List.foldl_cons, List.foldl_nil, leadBits]
    omega
  split at hlength
  · next h1 h2 h3 h4 =>
    obtain ⟨c, d, rfl⟩ : ∃ c d, tail = [c, d] := List.length_eq_two.1 (by omega)
    have hc := hbits c rfl
    simp only [h1, h2, h3, h4, if_true, if_false, List.foldl_cons, List.foldl_nil, leadBits]
    omega
  split at hlength
  · next h1 h2 h3 h4 h5 =>
    obtain ⟨c, d, e, rfl⟩ : ∃ c d e, tail = [c, d, e] := List.length_eq_three.1 (by omega)
    have hc := hbits c rfl
    simp only [h1, h2, h3, h4, h5, if_true, if_false, List.foldl_cons, List.foldl_nil, leadBits]
    omega
  · omega

theorem ofNat_ne {n : Nat} (h : n ≠ 10) : Char.ofNat n ≠ '\n' := by
  intro he
  have hcode : (Char.ofNat n).toNat = 10 := congrArg Char.toNat he
  by_cases hvalid : n.isValidChar
  · have hchar : Char.ofNat n = Char.ofNatAux n hvalid := dif_pos hvalid
    rw [hchar] at hcode
    exact h hcode
  · have hzero : Char.ofNat n = '\x00' := dif_neg hvalid
    rw [hzero] at hcode
    cases hcode

theorem decodeSequence_ne {b : UInt8} (rest : Bytes) (hb : b ≠ 10) :
    (decodeSequence b rest).1 ≠ some '\n' := by
  unfold decodeSequence
  dsimp only
  split
  · next hlength =>
    have hcode := code_ne hb hlength fun c hc => head_continuation hc
    exact fun h => ofNat_ne hcode (Option.some.inj h)
  · exact nofun

/-- **Bytes without a line feed are read as text without one.** -/
theorem not_mem_decode {bytes : Bytes} (h : 10 ∉ bytes) : '\n' ∉ decode bytes := by
  unfold decode
  fun_induction decodeWith '\uFFFD' bytes with
  | case1 => exact List.not_mem_nil
  | case2 b rest c? n hread ih =>
    obtain ⟨hb, hrest⟩ := not_or.1 (mt List.mem_cons.2 h)
    have hchar : c?.getD '\uFFFD' ≠ '\n' := by
      have hne := decodeSequence_ne rest (Ne.symm hb)
      rw [hread] at hne
      cases c? with
      | none => decide
      | some c => exact fun he => hne (congrArg some he)
    refine fun hmem => (List.mem_cons.1 hmem).elim (fun he => hchar he.symm) ?_
    exact ih fun hdrop => hrest (List.mem_of_mem_drop hdrop)

end IrcBot.Text
