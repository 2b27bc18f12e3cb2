/-
Line ends, as characters and as bytes. A character outside ASCII is encoded in
bytes from 0x80 on, so a byte 13 or 10 in an encoded text stands for a carriage
return or a line feed of the text. `Text.splitBy` is the list operation
`List.splitOnP`.
-/
import IrcBot.Connection.Basic
import Mathlib.Data.List.TakeWhile

namespace IrcBot

namespace Text

/-- A byte below 0x80 encodes the one character with that code. -/
theorem code_of_mem_utf8EncodeChar {c : Char} {b : UInt8} (hb : b.toNat < 0x80)
    (h : b ∈ String.utf8EncodeChar c) : c.val.toNat = b.toNat := by
  unfold String.utf8EncodeChar at h
  dsimp only at h
  split at h
  · simp only [List.mem_singleton] at h
    subst h
    simp only [UInt8.toNat_ofNat'] at hb ⊢
    omega
  · exfalso
    split at h
    · simp only [List.mem_cons, List.not_mem_nil, or_false] at h
      rcases h with rfl | rfl <;> simp only [UInt8.toNat_ofNat'] at hb <;> omega
    · split at h
      · simp only [List.mem_cons, List.not_mem_nil, or_false] at h
        rcases h with rfl | rfl | rfl <;> simp only [UInt8.toNat_ofNat'] at hb <;> omega
      · simp only [List.mem_cons, List.not_mem_nil, or_false] at h
        rcases h with rfl | rfl | rfl | rfl <;> simp only [UInt8.toNat_ofNat'] at hb <;> omega

theorem mem_of_mem_encode {t : Text} {c : Char} (hc : c.val.toNat < 0x80)
    (h : UInt8.ofNat c.val.toNat ∈ encode t) : c ∈ t := by
  obtain ⟨d, hd, hb⟩ := List.mem_flatMap.1 h
  have hn : (UInt8.ofNat c.val.toNat).toNat = c.val.toNat := by
    simp only [UInt8.toNat_ofNat']
    omega
  have hcode := code_of_mem_utf8EncodeChar (by omega) hb
  have : d = c := Char.ext (UInt32.toNat_inj.1 (by omega))
  exact this ▸ hd

theorem splitBy_eq_splitOnP (p : Char → Bool) (t : Text) : splitBy p t = t.splitOnP p := by
  induction t with
  | nil => rfl
  | cons c t ih =>
    rw [List.splitOnP_cons_eq_if_modifyHead, splitBy, ih]
    split
    · rfl
    · obtain ⟨piece, pieces, h⟩ := List.exists_cons_of_ne_nil (List.splitOnP_ne_nil p t)
      rw [h]
      rfl

theorem mem_splitOnP {p : Char → Bool} {t piece : Text} (h : piece ∈ t.splitOnP p) :
    ∀ c ∈ piece, p c = false := by
  induction t generalizing piece with
  | nil => simp [List.mem_singleton.1 h]
  | cons d t ih =>
    rw [List.splitOnP_cons_eq_if_modifyHead] at h
    split at h
    · rcases List.mem_cons.1 h with rfl | h
      · simp
      · exact ih h
    · next hd =>
      obtain ⟨first, pieces, he⟩ := List.exists_cons_of_ne_nil (List.splitOnP_ne_nil p t)
      rw [he] at h ih
      rcases List.mem_cons.1 h with rfl | h
      · intro c hc
        rcases List.mem_cons.1 hc with rfl | hc
        · exact Bool.eq_false_iff.2 hd
        · exact ih (by simp) c hc
      · exact ih (List.mem_cons_of_mem _ h)

end Text

namespace Circuit

theorem isLineEnd_of_all {t : Text} (h : (t.all fun c => !isLineEnd c) = true) :
    ∀ c ∈ t, isLineEnd c = false := by
  intro c hc
  simpa using List.all_eq_true.1 h c hc

theorem isLineEnd_firstLine {t : Text} : ∀ c ∈ firstLine t, isLineEnd c = false :=
  isLineEnd_of_all List.all_takeWhile

/-- A text without line ends is its own first line. -/
theorem firstLine_of_forall {t : Text} (h : ∀ c ∈ t, isLineEnd c = false) : firstLine t = t := by
  refine List.takeWhile_eq_self_iff.2 fun c hc => ?_
  rw [h c hc]
  rfl

/-- **A framed line is one line.** The only carriage return and the only line
feed among its bytes are the last two. -/
theorem frame_eq {line : Text} (h : ∀ c ∈ line, isLineEnd c = false) :
    frame line = Text.encode line ++ [13, 10] ∧ 13 ∉ Text.encode line ∧ 10 ∉ Text.encode line := by
  have hr : '\r' ∉ line := fun hm => by simpa [isLineEnd] using h _ hm
  have hn : '\n' ∉ line := fun hm => by simpa [isLineEnd] using h _ hm
  refine ⟨Text.encode_append _ _, fun hm => hr ?_, fun hm => hn ?_⟩
  · exact Text.mem_of_mem_encode (c := '\r') (by decide) hm
  · exact Text.mem_of_mem_encode (c := '\n') (by decide) hm

theorem frame_ne_nil (line : Text) : frame line ≠ [] := by
  simp [frame, Text.encode]

end Circuit

end IrcBot
