/-
Which lines come out of a buffer that is given a stream piece by piece and is
drained after each piece. A stream is taken with its cuts, the points where it is
drained; then every terminated segment is judged by itself. A segment of which too
much is held at a cut loses what is held, and what comes after that cut is judged
as if it were the whole segment.
-/
import IrcBot.Proofs.Stream.Segments
import Mathlib.Data.List.ReduceOption

namespace IrcBot.LineBuffer

/-- The lines that come out of a buffer that is given these pieces and is drained after each. -/
def deliver (b : LineBuffer) : List Bytes → List Text
  | [] => []
  | piece :: pieces =>
    let (results, b) := (b.extend piece).drain
    results.filterMap Except.toOption ++ b.deliver pieces

/-- A stream with its cuts: the bytes of the pieces, and `none` behind each piece. -/
def withCuts (pieces : List Bytes) : List (Option UInt8) :=
  pieces.flatMap fun piece => piece.map some ++ [none]

/-- What is held after one more byte, or after a cut: there it is dropped if it is too much. -/
def hold (limit : Nat) (held : Bytes) : Option UInt8 → Bytes
  | some byte => held ++ [byte]
  | none => if limit < held.length then [] else held

/-- What is left at the end of a segment: the bytes since the last cut that dropped any. -/
def remainder (limit : Nat) (segment : List (Option UInt8)) : Bytes :=
  segment.foldl (hold limit) []

/-- A segment without the carriage return that is its last byte. -/
def content : List (Option UInt8) → List (Option UInt8)
  | [] => []
  | none :: segment => none :: content segment
  | some byte :: segment =>
    if byte = carriageReturn ∧ segment.all Option.isNone then segment
    else some byte :: content segment

/-- The line that a segment is judged to be, if what is left of its content is not too long. -/
def judged? (limit : Nat) (segment : List (Option UInt8)) : Option Text :=
  let line := remainder limit (content segment)
  if line.length ≤ limit then some (Text.decode line) else none

/-- The line feed is cut off from the carriage return before it, and just as much content
as a line may have is held there: a case of its own, since the return is counted as well. -/
def CutAtReturn (limit : Nat) (segment : List (Option UInt8)) : Prop :=
  ∃ body cuts, segment = body ++ some carriageReturn :: List.replicate (cuts + 1) none ∧
    (remainder limit body).length = limit

variable {limit : Nat} {segment : List (Option UInt8)} {held : Bytes}

/-! ## What is held of a segment -/

theorem foldl_hold_map_some (limit : Nat) (held bytes : Bytes) :
    (bytes.map some).foldl (hold limit) held = held ++ bytes := by
  induction bytes generalizing held with
  | nil => simp
  | cons byte bytes ih => simp [hold, ih]

/-- Cuts with nothing between them are one cut. -/
theorem foldl_hold_replicate (limit : Nat) (held : Bytes) (cuts : Nat) :
    (List.replicate (cuts + 1) none).foldl (hold limit) held = hold limit held none := by
  induction cuts generalizing held with
  | zero => rfl
  | succ cuts ih =>
    rw [List.replicate_succ, List.foldl_cons, ih]
    simp only [hold]
    split
    · split <;> rfl
    · rfl

theorem foldl_hold_suffix (limit : Nat) (segment : List (Option UInt8)) (held : Bytes) :
    segment.foldl (hold limit) held <:+ held ++ segment.reduceOption := by
  induction segment generalizing held with
  | nil => simp
  | cons mark segment ih =>
    cases mark with
    | some byte => simpa [hold] using ih (held ++ [byte])
    | none =>
      rw [List.foldl_cons, List.reduceOption_cons_of_none, hold]
      split
      · exact (ih []).trans (List.suffix_append held _)
      · exact ih held

/-- Nothing is dropped of a segment of which no cut finds too much. -/
theorem foldl_hold_of_short (h : ∀ front back, segment = front ++ none :: back →
    held.length + front.reduceOption.length ≤ limit) :
    segment.foldl (hold limit) held = held ++ segment.reduceOption := by
  induction segment generalizing held with
  | nil => simp
  | cons mark segment ih =>
    cases mark with
    | some byte =>
      have hrest : segment.foldl (hold limit) (held ++ [byte]) =
          held ++ [byte] ++ segment.reduceOption := ih fun front back hsplit => by
        have := h (some byte :: front) back (by rw [hsplit, List.cons_append])
        simp only [List.reduceOption_cons_of_some, List.length_cons, List.length_append,
          List.length_nil] at this ⊢
        omega
      simpa [hold] using hrest
    | none =>
      have hnow := h [] segment rfl
      rw [List.foldl_cons, hold, if_neg (by simpa using hnow), List.reduceOption_cons_of_none]
      refine ih fun front back hsplit => ?_
      simpa using h (none :: front) back (by rw [hsplit, List.cons_append])

/-! ## Content -/

theorem reduceOption_eq_nil (h : segment.reduceOption = []) : segment.all Option.isNone := by
  rw [List.all_eq_true]
  intro mark hmark
  cases mark with
  | none => rfl
  | some byte =>
    have : byte ∈ segment.reduceOption := List.reduceOption_mem_iff.2 hmark
    rw [h] at this
    exact absurd this List.not_mem_nil

/-- Either a segment does not end in a carriage return, or its content is what stands
before that, with the cuts after it. -/
theorem content_cases (segment : List (Option UInt8)) :
    (content segment = segment ∧ segment.reduceOption.getLast? ≠ some carriageReturn) ∨
      ∃ body cuts, segment = body ++ some carriageReturn :: List.replicate cuts none ∧
        content segment = body ++ List.replicate cuts none := by
  induction segment with
  | nil => exact .inl ⟨rfl, by simp⟩
  | cons mark segment ih =>
    cases mark with
    | none =>
      rcases ih with ⟨hsame, hlast⟩ | ⟨body, cuts, hsplit, hcontent⟩
      · exact .inl ⟨by rw [content, hsame], by simpa using hlast⟩
      · exact .inr ⟨none :: body, cuts, by rw [hsplit, List.cons_append],
          by rw [content, hcontent, List.cons_append]⟩
    | some byte =>
      by_cases hend : byte = carriageReturn ∧ segment.all Option.isNone
      · have hcuts : segment = List.replicate segment.length none :=
          List.eq_replicate_iff.2
            ⟨rfl, fun mark hmark => Option.isNone_iff_eq_none.1 (List.all_eq_true.1 hend.2 mark hmark)⟩
        refine .inr ⟨[], segment.length, ?_, ?_⟩
        · rw [← hcuts, hend.1, List.nil_append]
        · rw [← hcuts, content, if_pos hend, List.nil_append]
      · rcases ih with ⟨hsame, hlast⟩ | ⟨body, cuts, hsplit, hcontent⟩
        · refine .inl ⟨by rw [content, if_neg hend, hsame], ?_⟩
          rw [List.reduceOption_cons_of_some]
          cases hbytes : segment.reduceOption with
          | nil =>
            intro he
            exact hend ⟨Option.some.inj he, reduceOption_eq_nil hbytes⟩
          | cons first rest =>
            rw [hbytes] at hlast
            rwa [List.getLast?_cons_cons]
        · exact .inr ⟨some byte :: body, cuts, by rw [hsplit, List.cons_append],
            by rw [content, if_neg hend, hcontent, List.cons_append]⟩

theorem dropReturn_concat (line : Bytes) : dropReturn (line ++ [carriageReturn]) = line := by
  simp [dropReturn]

theorem dropReturn_of_getLast? {line : Bytes} (h : line.getLast? ≠ some carriageReturn) :
    dropReturn line = line := if_neg h

/-- The content of what is left is what is left of the content. -/
theorem dropReturn_remainder (h : ¬ CutAtReturn limit segment) :
    dropReturn (remainder limit segment) = remainder limit (content segment) := by
  rcases content_cases segment with ⟨hsame, hlast⟩ | ⟨body, cuts, rfl, hcontent⟩
  · rw [hsame]
    refine dropReturn_of_getLast? fun hreturn => hlast ?_
    obtain ⟨front, hfront⟩ := foldl_hold_suffix limit segment []
    rw [List.nil_append] at hfront
    rw [← hfront, List.getLast?_append, show (segment.foldl (hold limit) []).getLast? = _ from hreturn,
      Option.some_or]
  · rw [hcontent]
    simp only [remainder, List.foldl_append, List.foldl_cons]
    generalize hheld : body.foldl (hold limit) [] = held
    rw [show hold limit held (some carriageReturn) = held ++ [carriageReturn] from rfl]
    cases cuts with
    | zero => exact dropReturn_concat held
    | succ cuts =>
      have hne : held.length ≠ limit := fun he => h ⟨body, cuts, rfl, (congrArg _ hheld).trans he⟩
      rw [foldl_hold_replicate, foldl_hold_replicate]
      simp only [hold, List.length_append, List.length_singleton]
      by_cases hlong : limit < held.length
      · rw [if_pos hlong, if_pos (by omega)]
        rfl
      · rw [if_neg hlong, if_neg (by omega), dropReturn_concat]

/-! ## Delivery -/

theorem filterMap_modifyHead {α β : Type} {f : α → Option β} {g g' : α → α}
    (h : ∀ a, f (g a) = f (g' a)) (l : List α) :
    (l.modifyHead g).filterMap f = (l.modifyHead g').filterMap f := by
  cases l with
  | nil => rfl
  | cons a l => simp only [List.modifyHead_cons, List.filterMap_cons, h a]

theorem not_mem_map_some {bytes : Bytes} (h : lineFeed ∉ bytes) :
    some lineFeed ∉ bytes.map some := by simpa using h

theorem deliver_cons (b : LineBuffer) (piece : Bytes) (pieces : List Bytes) :
    b.deliver (piece :: pieces) =
      (b.extend piece).drain.1.filterMap Except.toOption ++
        (b.extend piece).drain.2.deliver pieces := rfl

/-- Segment by segment, the lines are those of what is left of each segment. -/
theorem deliver_eq {b : LineBuffer} (hb : b.Scanned) (hfeed : lineFeed ∉ b.bytes)
    (pieces : List Bytes) :
    b.deliver pieces =
      (terminated (some lineFeed) (b.bytes.map some ++ withCuts pieces)).filterMap
        fun segment => (verdict b.limit (remainder b.limit segment)).toOption := by
  induction pieces generalizing b with
  | nil =>
    rw [terminated_of_not_mem (by simpa [withCuts] using hfeed)]
    rfl
  | cons piece pieces ih =>
    obtain ⟨segments, tail, hbytes, hsegments, htail⟩ := exists_joined lineFeed (b.bytes ++ piece)
    obtain ⟨hlines, hkept, hlimit, hscanned⟩ :=
      drain_joined (hb.extend piece) hbytes hsegments htail
    have hkept : (b.extend piece).drain.2.bytes = hold b.limit tail none := hkept
    have hlimit : (b.extend piece).drain.2.limit = b.limit := hlimit
    have hheld : lineFeed ∉ hold b.limit tail none := by
      simp only [hold]
      split
      · exact List.not_mem_nil
      · exact htail
    have hstream : b.bytes.map some ++ withCuts (piece :: pieces) =
        joined (some lineFeed) (segments.map (List.map some)) ++
          ((tail.map some ++ [none]) ++ withCuts pieces) := by
      have hmarked := congrArg (List.map some) hbytes
      simp only [withCuts, List.flatMap_cons, joined, List.map_append, List.map_flatMap,
        List.flatMap_map, List.map_cons, List.map_nil] at hmarked ⊢
      simp only [← List.append_assoc]
      rw [hmarked]
    have hmarks : ∀ segment ∈ segments.map (List.map some), some lineFeed ∉ segment := by
      intro segment hsegment
      obtain ⟨bytes, hmem, rfl⟩ := List.mem_map.1 hsegment
      exact not_mem_map_some (hsegments bytes hmem)
    rw [deliver_cons, hlines, ih hscanned (hkept ▸ hheld), hkept, hlimit, hstream,
      terminated_joined hmarks, List.filterMap_append, List.filterMap_map]
    congr 1
    · refine List.filterMap_congr fun bytes _ => ?_
      simp [remainder, foldl_hold_map_some, extend]
    · have hcut : some lineFeed ∉ tail.map some ++ [none] := by simpa using htail
      rw [terminated_append hcut, terminated_append (not_mem_map_some hheld)]
      refine filterMap_modifyHead (fun segment => ?_) _
      simp only [remainder, List.foldl_append, foldl_hold_map_some, List.foldl_cons,
        List.foldl_nil, List.nil_append]

theorem verdict_toOption (limit : Nat) (bytes : Bytes) :
    (verdict limit bytes).toOption =
      if (dropReturn bytes).length ≤ limit then some (Text.decode (dropReturn bytes)) else none := by
  unfold verdict
  split
  · next hlong => rw [if_neg (by omega)]; rfl
  · next hshort => rw [if_pos (by omega)]; rfl

/-- **Each segment is judged once, by what is left of it.** However a stream is cut
into pieces, a buffer drained after each piece gives, in the order of the stream, one
line for each terminated segment of which not too much content is left, and nothing for
the others; a segment cut at its carriage return with content of exactly the limit is
left open. All of the content is left if no cut finds more of it than the limit. -/
theorem deliver_judged (limit : Nat) :
    ∃ give : List (Option UInt8) → Option Text,
      (∀ pieces, deliver { limit } pieces =
        (terminated (some lineFeed) (withCuts pieces)).filterMap give) ∧
      (∀ segment, ¬ CutAtReturn limit segment → give segment = judged? limit segment) ∧
      ∀ segment, (∀ front back, content segment = front ++ none :: back →
          front.reduceOption.length ≤ limit) →
        remainder limit (content segment) = (content segment).reduceOption := by
  refine ⟨fun segment => (verdict limit (remainder limit segment)).toOption, ?_, ?_, ?_⟩
  · intro pieces
    exact deliver_eq (scanned_fresh [] limit) List.not_mem_nil pieces
  · intro segment hcut
    simp only [verdict_toOption, judged?, dropReturn_remainder hcut]
  · intro segment hshort
    refine foldl_hold_of_short fun front back hsplit => ?_
    simpa using hshort front back hsplit

/-- A segment of 12 bytes, with a limit of 8: the rest of it that comes after the drop
is a line, though no segment of the stream is short enough. -/
theorem deliver_rest_of_overlong :
    deliver { limit := 8 } [Text.encode "0123456789".toList, Text.encode "ok\n".toList] ≠
      (((terminated lineFeed (Text.encode "0123456789ok\n".toList)).map dropReturn).filter
        (·.length ≤ 8)).map Text.decode := by
  rw [deliver_eq (scanned_fresh [] 8) List.not_mem_nil]
  decide +kernel

end IrcBot.LineBuffer
