/-
Which streams are delivered in full. A buffer that is drained at each cut gives every
complete line of a stream whose lines keep to the limit, but for one kind: a line of
just the limit that is cut between its carriage return and its line feed. Of such a line
the return is counted as well, so it is dropped at the cut, and an empty line is given in
its place.
-/
import IrcBot.Proofs.Stream.Draining

namespace IrcBot

namespace LineBuffer

open Reader (linesIn lineOf)

variable {limit : Nat} {segment : List (Option UInt8)}

theorem decode_ne_nil {bytes : Bytes} (h : bytes ≠ []) : Text.decode bytes ≠ [] := by
  obtain ⟨byte, rest, rfl⟩ := List.exists_cons_of_ne_nil h
  rw [Text.decode, Text.decodeWith]
  exact List.cons_ne_nil _ _

theorem reduceOption_withCuts (pieces : List Bytes) :
    (withCuts pieces).reduceOption = pieces.flatten := by
  induction pieces with
  | nil => rfl
  | cons piece pieces ih =>
    have hpiece : (piece.map some).reduceOption = piece := by
      rw [List.reduceOption, List.filterMap_map]
      exact List.filterMap_some
    rw [withCuts, List.flatMap_cons, List.reduceOption_append, ← withCuts, ih, List.flatten_cons,
      List.reduceOption_append, hpiece]
    simp

/-- The segments of a stream are those of the stream with its cuts. -/
theorem terminated_reduceOption (stream : List (Option UInt8)) :
    terminated lineFeed stream.reduceOption =
      (terminated (some lineFeed) stream).map List.reduceOption := by
  obtain ⟨segments, tail, rfl, hsegments, htail⟩ := exists_joined (some lineFeed) stream
  have hjoined : (joined (some lineFeed) segments).reduceOption =
      joined lineFeed (segments.map List.reduceOption) := by
    simp only [joined]
    induction segments with
    | nil => rfl
    | cons segment segments ih =>
      rw [List.flatMap_cons, List.reduceOption_append, List.reduceOption_append,
        ih (List.forall_mem_cons.1 hsegments).2]
      simp
  have hplain (segment : List (Option UInt8)) (h : some lineFeed ∉ segment) :
      lineFeed ∉ segment.reduceOption := fun hmem => h (List.reduceOption_mem_iff.1 hmem)
  rw [List.reduceOption_append, hjoined, terminated_joined ?_, terminated_joined hsegments,
    terminated_of_not_mem (hplain tail htail), terminated_of_not_mem htail, List.append_nil,
    List.append_nil]
  intro segment hsegment
  obtain ⟨marked, hmarked, rfl⟩ := List.mem_map.1 hsegment
  exact hplain marked (hsegments marked hmarked)

theorem reduceOption_return (body : List (Option UInt8)) (cuts : Nat) :
    (body ++ some carriageReturn :: List.replicate cuts none).reduceOption =
      body.reduceOption ++ [carriageReturn] := by
  have hcuts : (List.replicate cuts (none : Option UInt8)).reduceOption = [] := by
    induction cuts with
    | zero => rfl
    | succ cuts ih => rw [List.replicate_succ, List.reduceOption_cons_of_none, ih]
  rw [List.reduceOption_append, List.reduceOption_cons_of_some, hcuts]

theorem reduceOption_content (segment : List (Option UInt8)) :
    (content segment).reduceOption = dropReturn segment.reduceOption := by
  rcases content_cases segment with ⟨hsame, hlast⟩ | ⟨body, cuts, rfl, hcontent⟩
  · rw [hsame, dropReturn_of_getLast? hlast]
  · have hcuts := reduceOption_return [] cuts
    rw [List.nil_append, List.reduceOption_cons_of_some] at hcuts
    rw [hcontent, reduceOption_return, dropReturn_concat, List.reduceOption_append,
      (List.cons.inj hcuts).2, List.append_nil]

/-- What is given for a segment, if anything is. -/
def given? (limit : Nat) (segment : List (Option UInt8)) : Option Text :=
  (verdict limit (remainder limit segment)).toOption

/-- A segment with content within the limit is given as its line, unless it is cut at its return
with just as much content as a line may have. -/
theorem given?_of_fit (hfit : (dropReturn segment.reduceOption).length ≤ limit)
    (hcut : ¬ CutAtReturn limit segment) :
    given? limit segment = some (lineOf segment.reduceOption) := by
  have hwhole : remainder limit (content segment) = (content segment).reduceOption := by
    refine foldl_hold_of_short fun front back hsplit => ?_
    rw [← reduceOption_content, hsplit, List.reduceOption_append, List.length_append] at hfit
    simp only [List.length_nil]
    omega
  rw [given?, verdict_toOption, dropReturn_remainder hcut, hwhole, reduceOption_content,
    if_pos hfit]
  rfl

/-- A segment that is cut there is dropped at the cut, and for what is left an empty line is
given. -/
theorem given?_of_cut (hcut : CutAtReturn limit segment) : given? limit segment = some [] := by
  obtain ⟨body, cuts, rfl, hheld⟩ := hcut
  have hdropped : remainder limit (body ++ some carriageReturn :: List.replicate (cuts + 1) none) =
      [] := by
    have hheld : (body.foldl (hold limit) []).length = limit := hheld
    rw [remainder, List.foldl_append, List.foldl_cons, foldl_hold_replicate, hold, hold,
      if_pos (by rw [List.length_append, hheld, List.length_singleton]; omega)]
  simp [given?, hdropped, verdict_toOption, dropReturn, Text.decode, Text.decodeWith]

theorem lineOf_ne_nil_of_cut (hlimit : 0 < limit) (hcut : CutAtReturn limit segment) :
    lineOf segment.reduceOption ≠ [] := by
  obtain ⟨body, cuts, rfl, hheld⟩ := hcut
  have hkept := (foldl_hold_suffix limit body []).length_le
  rw [List.nil_append, show (body.foldl (hold limit) []).length = limit from hheld] at hkept
  rw [reduceOption_return, lineOf, dropReturn_concat]
  exact decode_ne_nil (List.length_pos_iff.1 (by omega))

theorem filterMap_eq_map_iff {α β : Type} {f : α → Option β} {g : α → β} {P : α → Prop}
    {l : List α} (h : ∀ a ∈ l, ∃ b, f a = some b ∧ (b = g a ↔ P a)) :
    l.filterMap f = l.map g ↔ ∀ a ∈ l, P a := by
  induction l with
  | nil => simp
  | cons a l ih =>
    obtain ⟨⟨b, hb, hiff⟩, hrest⟩ := List.forall_mem_cons.1 h
    rw [List.filterMap_cons_some hb, List.map_cons, List.cons_eq_cons, List.forall_mem_cons]
    exact and_congr hiff (ih hrest)

/-- **When exactly all complete lines are given.** Of a stream with no line above the limit a
buffer drained at each cut gives all complete lines if and only if no line of just the limit is
cut between its carriage return and its line feed. -/
theorem deliver_complete_iff (hlimit : 0 < limit) (pieces : List Bytes)
    (hfit : ∀ segment ∈ terminated lineFeed pieces.flatten, (dropReturn segment).length ≤ limit) :
    deliver { limit } pieces = linesIn pieces.flatten ↔
      ∀ segment ∈ terminated (some lineFeed) (withCuts pieces), ¬ CutAtReturn limit segment := by
  have hgiven : deliver { limit } pieces =
      (terminated (some lineFeed) (withCuts pieces)).filterMap (given? limit) :=
    deliver_eq (scanned_fresh [] limit) List.not_mem_nil pieces
  rw [← reduceOption_withCuts, terminated_reduceOption] at hfit
  rw [hgiven, linesIn, ← reduceOption_withCuts, terminated_reduceOption, List.map_map]
  refine filterMap_eq_map_iff fun segment hsegment => ?_
  by_cases hcut : CutAtReturn limit segment
  · refine ⟨[], given?_of_cut hcut, ?_⟩
    simp [hcut, (lineOf_ne_nil_of_cut hlimit hcut).symm]
  · exact ⟨_, given?_of_fit (hfit _ (List.mem_map_of_mem hsegment)) hcut, by simp [hcut]⟩

/-! ## A line that is lost -/

section Lost

open Source (cut chunk)

variable {size : Nat} {byte : UInt8}

/-- A line of the length of two reads, of which the last read has its line feed alone. -/
theorem cut_line (hsize : size + 1 = chunk) :
    cut (List.replicate (chunk + size) byte ++ [carriageReturn, lineFeed]) =
      [List.replicate chunk byte, List.replicate size byte ++ [carriageReturn], [lineFeed]] := by
  have hbody : List.replicate (chunk + size) byte ++ [carriageReturn, lineFeed] =
      List.replicate chunk byte ++
        ((List.replicate size byte ++ [carriageReturn]) ++ [lineFeed]) := by
    rw [List.replicate_add, List.append_assoc, List.append_assoc, List.singleton_append]
  have hsecond : (List.replicate size byte ++ [carriageReturn]).length = chunk := by simp [hsize]
  have hfirst : (List.replicate chunk byte).length = chunk := List.length_replicate
  have hlast : cut [lineFeed] = [[lineFeed]] := by decide +kernel
  rw [hbody, Source.cut_of_ne_nil (by simp), List.take_left' hfirst, List.drop_left' hfirst,
    Source.cut_of_ne_nil (by simp), List.take_left' hsecond, List.drop_left' hsecond, hlast]

/-- Read like that, with as much content as a line may have, it is cut at its return. -/
theorem cutAtReturn_line (byte : UInt8) (first second : Nat) :
    CutAtReturn (first + second) (none :: (List.replicate first byte).map some ++ none ::
      (List.replicate second byte).map some ++ [some carriageReturn, none]) := by
  refine ⟨none :: (List.replicate first byte).map some ++ none ::
    (List.replicate second byte).map some, 0, rfl, ?_⟩
  have hkept (held : Bytes) (hle : held.length ≤ first + second) :
      hold (first + second) held none = held := if_neg (Nat.not_lt.2 hle)
  rw [remainder, List.cons_append, List.foldl_cons, hkept [] (Nat.zero_le _),
    List.foldl_append, foldl_hold_map_some, List.nil_append, List.foldl_cons,
    hkept _ (by simp), foldl_hold_map_some, List.length_append, List.length_replicate,
    List.length_replicate]

/-- A line of just the limit, read with its line feed alone in the last read, is not given. -/
theorem deliver_line_ne (hsize : size + 1 = chunk) (hbyte : byte ≠ lineFeed) :
    let line := List.replicate (chunk + size) byte ++ [carriageReturn, lineFeed]
    (∀ segment ∈ terminated lineFeed line, (dropReturn segment).length ≤ chunk + size) ∧
      deliver { limit := chunk + size } ([] :: cut line) ≠ linesIn line := by
  intro line
  have hbody (count : Nat) : lineFeed ∉ List.replicate count byte :=
    fun hmem => hbyte (List.eq_of_mem_replicate hmem).symm
  have hplain : lineFeed ∉ List.replicate (chunk + size) byte ++ [carriageReturn] :=
    List.not_mem_append (hbody _) (by decide)
  have hline : line =
      (List.replicate (chunk + size) byte ++ [carriageReturn]) ++ lineFeed :: [] := by
    rw [List.append_assoc]
    rfl
  have hfit : ∀ segment ∈ terminated lineFeed line, (dropReturn segment).length ≤ chunk + size := by
    rw [hline, terminated_append_cons hplain, terminated_of_not_mem List.not_mem_nil]
    intro segment hsegment
    rw [List.mem_singleton.1 hsegment, dropReturn_concat]
    exact Nat.le_of_eq List.length_replicate
  have hflat : ([] :: cut line).flatten = line := Source.flatten_cut line
  refine ⟨hfit, fun hall => ?_⟩
  have hlimit : 0 < chunk + size := Nat.add_pos_left (by decide) size
  have hcuts : withCuts ([] :: cut line) =
      (none :: (List.replicate chunk byte).map some ++ none ::
        (List.replicate size byte).map some ++ [some carriageReturn, none]) ++
          some lineFeed :: [none] := by
    rw [cut_line hsize]
    simp [withCuts]
  have hmarked (count : Nat) : some lineFeed ∉ none :: (List.replicate count byte).map some :=
    List.not_mem_cons_of_ne_of_not_mem (by simp) (not_mem_map_some (hbody count))
  rw [← hflat] at hfit
  refine (deliver_complete_iff hlimit _ hfit).1 (hall.trans (by rw [hflat])) _ ?_
    (cutAtReturn_line byte chunk size)
  rw [hcuts, terminated_append_cons
    (List.not_mem_append (List.not_mem_append (hmarked chunk) (hmarked size)) (by decide))]
  exact List.mem_cons_self

end Lost

end LineBuffer

end IrcBot
