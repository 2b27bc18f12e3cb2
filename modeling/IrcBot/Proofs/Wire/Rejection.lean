/-
Which lines are refused, and for what. A line of white space alone is empty. Any other line has one
point where its command has to start (`StartsAt`), and is refused exactly if no command stands
there; the error then names that point in bytes (`refused_iff`). A colon that no word follows
directly introduces no source, so there the command would have to start at the colon itself.
-/
import IrcBot.Proofs.Wire.Grammar

namespace IrcBot.Message

/-- What stands before the point where the command of a line has to start, and what the line holds
from there on: a source, if the line has one, and then all the blanks there are. -/
inductive StartsAt : Text → Text → Prop where
  | plain (gap start : Text) (hgap : ∀ c ∈ gap, isGap c = true)
      (hstart : ∀ c ∈ start.head?, isGap c = false)
      (hsource : ∀ t, gap ++ start = ':' :: t → StartsApart t) : StartsAt gap start
  | source (s gap start : Text) (hgap : ∀ c ∈ gap, isGap c = true)
      (hstart : ∀ c ∈ start.head?, isGap c = false)
      (hs : IsSource s) (hend : StartsApart (gap ++ start)) : StartsAt (':' :: s ++ gap) start

variable {line before start string : Text} {position : Nat}

/-! ## The point where a command has to start -/

/-- A line has no source exactly if no word follows a colon in front of it. -/
theorem splitSource_eq_none_iff :
    splitSource line = (none, line) ↔ ∀ t, line = ':' :: t → StartsApart t := by
  cases line with
  | nil => simp [splitSource]
  | cons c t =>
    by_cases hc : c = ':'
    · subst hc
      cases t with
      | nil => simp [splitSource, StartsApart]
      | cons d t => by_cases hd : d = ' ' <;> simp [splitSource, StartsApart, hd]
    · simp [splitSource, hc]

theorem StartsAt.commandStart_eq (h : StartsAt before start) :
    commandStart (before ++ start) = start := by
  unfold commandStart
  cases h with
  | plain _ _ hgap hstart hsource =>
    rw [splitSource_eq_none_iff.2 hsource]
    exact dropWhile_run hgap hstart
  | source s gap _ hgap hstart hs hend =>
    rw [List.append_assoc, splitSource_source hs hend]
    exact dropWhile_run hgap hstart

theorem exists_startsAt (line : Text) :
    ∃ before, line = before ++ commandStart line ∧ StartsAt before (commandStart line) := by
  unfold commandStart
  -- in either case the point comes after the longest run of blanks
  have hgap (t : Text) : ∀ c ∈ t.takeWhile isGap, isGap c = true :=
    fun c hc => List.mem_takeWhile_imp hc
  have hsplit (t : Text) : t.takeWhile isGap ++ t.dropWhile isGap = t :=
    List.takeWhile_append_dropWhile
  rcases splitSource_cases line with hplain | ⟨s, rest, hs, hrest, rfl, hsource⟩
  · rw [hplain]
    refine ⟨line.takeWhile isGap, (hsplit line).symm, ?_⟩
    refine .plain _ _ (hgap line) head_dropWhile fun t ht => ?_
    rw [hsplit] at ht
    exact splitSource_eq_none_iff.1 hplain t ht
  · rw [hsource]
    refine ⟨':' :: s ++ rest.takeWhile isGap, ?_, ?_⟩
    · rw [List.append_assoc, hsplit]
    · refine .source s _ _ (hgap rest) head_dropWhile hs ?_
      rw [hsplit]
      exact hrest

/-! ## Refusals -/

theorem parseLine_eq_invalid_iff :
    parseLine line = .error (.invalidCommand string position) ↔
      string = line ∧ ∃ before start, line = before ++ start ∧ StartsAt before start ∧
        ¬ IsCommand (start.takeWhile Char.isAlphanum) ∧ position = before.byteSize := by
  rw [parseLine_eq]
  constructor
  · intro h
    split at h
    · cases h
    · next hword =>
      cases h
      obtain ⟨before, hline, hpoint⟩ := exists_startsAt line
      have hsize := congrArg Text.byteSize hline
      rw [Text.byteSize_append] at hsize
      exact ⟨rfl, before, _, hline, hpoint, fun h => hword (isCommandWord_iff.2 h), by omega⟩
  · rintro ⟨rfl, before, start, rfl, hpoint, hcommand, rfl⟩
    have hword : ¬ isCommandWord (start.takeWhile Char.isAlphanum) = true :=
      fun h => hcommand (isCommandWord_iff.1 h)
    rw [hpoint.commandStart_eq, if_neg hword, Text.byteSize_append, Nat.add_sub_cancel]

theorem parseLine_ne_empty (line : Text) : parseLine line ≠ .error .empty := by
  rw [parseLine_eq]
  split <;> simp

/-- **A line is refused for what is wrong with it, and the point is named.** Less its line end, a
line is called empty exactly if it holds nothing but white space. If it holds anything else, its
command is called invalid exactly if the letters and digits from the point where it has to start
are neither a word of letters nor three digits; the error then gives the line, less its line end,
and how many bytes of it stand before that point. -/
theorem refused_iff (line : Text) :
    (parse line = .error .empty ↔ ∀ c ∈ chomp line, Text.isBlank c = true) ∧
      ∀ string position, parse line = .error (.invalidCommand string position) ↔
        (∃ c ∈ chomp line, Text.isBlank c = false) ∧ string = chomp line ∧
          ∃ before start, chomp line = before ++ start ∧ StartsAt before start ∧
            ¬ IsCommand (start.takeWhile Char.isAlphanum) ∧ position = before.byteSize := by
  have hparse : parse line =
      if (chomp line).all Text.isBlank then .error .empty else parseLine (chomp line) := rfl
  rw [hparse]
  cases hblank : (chomp line).all Text.isBlank with
  | true =>
    have hall := List.all_eq_true.1 hblank
    refine ⟨by simpa using hall, fun string position => ?_⟩
    simp only [if_true, Except.error.injEq, reduceCtorEq, false_iff]
    rintro ⟨⟨c, hc, hsolid⟩, -⟩
    rw [hall c hc] at hsolid
    cases hsolid
  | false =>
    obtain ⟨c, hc, hsolid⟩ := List.all_eq_false.1 hblank
    rw [Bool.not_eq_true] at hsolid
    refine ⟨?_, fun string position => ?_⟩
    · simp only [Bool.false_eq_true, if_false, parseLine_ne_empty, false_iff]
      intro hall
      rw [hall c hc] at hsolid
      cases hsolid
    · simp only [Bool.false_eq_true, if_false]
      rw [parseLine_eq_invalid_iff]
      exact ⟨fun h => ⟨⟨c, hc, hsolid⟩, h⟩, fun h => h.2⟩

/-- A source with characters of several bytes, and a command of two digits. -/
example : parse ":sörvér \t 12 nick\r\n".toList =
    .error (.invalidCommand ":sörvér \t 12 nick".toList 12) := by decide +kernel

end IrcBot.Message
