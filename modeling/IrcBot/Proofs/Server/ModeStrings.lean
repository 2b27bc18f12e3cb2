/-
How a mode string and its arguments go together. Each letter is one change, under the last sign
before it; if it takes an argument it gets the one whose place in the list is the number of letters
before it that take one. So what a letter gets depends on the text before it alone, and the decoder
carries no more than that text tells (`foldl_advance`). Changes that are spelled out, each with its
sign, and their arguments in a row are decoded to the same changes exactly if they obey the rules
(`modes_take_arguments_in_step`).
-/
import IrcBot.Server.ModeChange
import Mathlib.Data.List.Induction

namespace IrcBot.ModeChange

/-! ## Letters and what stands before them -/

/-- The characters that set the sign and are no letters. -/
def IsSign (c : Char) : Prop := c = '+' ∨ c = '-'

instance (c : Char) : Decidable (IsSign c) := inferInstanceAs (Decidable (_ ∨ _))

/-- A letter takes an argument, under a sign. -/
def Rules.Takes (r : Rules) (mode : Char) (set : Bool) : Prop :=
  r.onChannel = true ∧
    (mode ∈ r.status.modes ∨ mode ∈ r.classes.a ∨ mode ∈ r.classes.b ∨
      (mode ∈ r.classes.c ∧ set = true))

instance (r : Rules) (mode : Char) (set : Bool) : Decidable (r.Takes mode set) :=
  inferInstanceAs (Decidable (_ ∧ _))

/-- Each character of a text, after all that stands before it. -/
def places (t : Text) : List (Text × Char) := t.zipIdx.map fun p => (t.take p.2, p.1)

/-- The sign in force after a text: the last one in it, or a plus. -/
def setAfter (t : Text) : Bool := (t.filter (IsSign ·)).getLast? ≠ some '-'

/-- How many letters of a text take an argument, each under its own sign. -/
def takers (r : Rules) (t : Text) : Nat :=
  (places t).countP fun p => ¬ IsSign p.2 ∧ r.Takes p.2 (setAfter p.1)

/-- What a character stands for after a text; a sign stands for no change. -/
def changeAt (r : Rules) (args : List Text) (p : Text × Char) : Option ModeChange :=
  if IsSign p.2 then none
  else
    some
      { set := setAfter p.1
        mode := p.2
        arg := if r.Takes p.2 (setAfter p.1) then args[takers r p.1]? else none }

variable {r : Rules} {set : Bool} {args : List Text} {s t : Text} {c : Char}

theorem places_concat : places (t ++ [c]) = places t ++ [(t, c)] := by
  unfold places
  rw [List.zipIdx_append, List.map_append]
  congr 1
  · refine List.map_congr_left fun p hp => ?_
    have hlt := (List.mem_zipIdx hp).2.1
    rw [List.take_append_of_le_length (by omega)]
  · simp

theorem setAfter_concat :
    setAfter (t ++ [c]) = if IsSign c then decide (c = '+') else setAfter t := by
  unfold setAfter
  rw [List.filter_append]
  by_cases hc : IsSign c
  · rcases hc with rfl | rfl <;> simp [IsSign]
  · simp [hc]

theorem takers_concat :
    takers r (t ++ [c]) =
      takers r t + if ¬ IsSign c ∧ r.Takes c (setAfter t) then 1 else 0 := by
  simp [takers, places_concat, List.countP_append, List.countP_cons]

/-! ## What the decoder carries -/

theorem takesArg_iff {mode : Char} : r.takesArg mode set = true ↔ r.Takes mode set := by
  simp [Rules.takesArg, Rules.Takes, Status.isMode, or_assoc]

/-- The sign in force and the arguments left, after one more character. -/
def advance (r : Rules) (state : Bool × List Text) (c : Char) : Bool × List Text :=
  if IsSign c then (c = '+', state.2)
  else if r.Takes c state.1 then (state.1, state.2.tail)
  else state

/-- The change of one character, if it is a letter. -/
def next? (r : Rules) (state : Bool × List Text) (c : Char) : Option ModeChange :=
  if IsSign c then none
  else
    some { set := state.1, mode := c, arg := if r.Takes c state.1 then state.2.head? else none }

theorem decodeFrom_sign (b : Bool) : decodeFrom r set (sign b :: t) args = decodeFrom r b t args := by
  cases b <;> rfl

/-- A letter that takes an argument takes the first one that is left. -/
theorem decodeFrom_taking (hc : ¬ IsSign c) (htakes : r.Takes c set) :
    decodeFrom r set (c :: t) args =
      { set, mode := c, arg := args.head? } :: decodeFrom r set t args.tail := by
  rw [decodeFrom, if_pos (takesArg_iff.2 htakes)]
  · exact fun h => hc (.inl h)
  · exact fun h => hc (.inr h)

theorem decodeFrom_plain (hc : ¬ IsSign c) (htakes : ¬ r.Takes c set) :
    decodeFrom r set (c :: t) args = { set, mode := c } :: decodeFrom r set t args := by
  rw [decodeFrom, if_neg fun h => htakes (takesArg_iff.1 h)]
  · exact fun h => hc (.inl h)
  · exact fun h => hc (.inr h)

theorem decodeFrom_cons :
    decodeFrom r set (c :: t) args =
      (next? r (set, args) c).toList ++
        decodeFrom r (advance r (set, args) c).1 t (advance r (set, args) c).2 := by
  by_cases hc : IsSign c
  · rcases hc with rfl | rfl
    · exact decodeFrom_sign true
    · exact decodeFrom_sign false
  · by_cases htakes : r.Takes c set
    · rw [decodeFrom_taking hc htakes]
      simp [next?, advance, hc, htakes]
    · rw [decodeFrom_plain hc htakes]
      simp [next?, advance, hc, htakes]

theorem decodeFrom_append :
    decodeFrom r set (s ++ t) args =
      decodeFrom r set s args ++
        decodeFrom r (s.foldl (advance r) (set, args)).1 t
          (s.foldl (advance r) (set, args)).2 := by
  induction s generalizing set args with
  | nil => rfl
  | cons c s ih =>
    rw [List.cons_append, decodeFrom_cons, decodeFrom_cons, ih, List.append_assoc]
    rfl

/-- The decoder carries the sign in force and the arguments that no letter has taken. -/
theorem foldl_advance :
    t.foldl (advance r) (true, args) = (setAfter t, args.drop (takers r t)) := by
  induction t using List.reverseRecOn with
  | nil => simp [setAfter, takers, places]
  | append_singleton t c ih =>
    rw [List.foldl_append, ih, List.foldl_cons, List.foldl_nil, setAfter_concat, takers_concat,
      advance]
    by_cases hc : IsSign c
    · simp [hc]
    · by_cases htakes : r.Takes c (setAfter t)
      · simp [hc, htakes]
      · simp [hc, htakes]

theorem decode_eq (r : Rules) (modes : Text) (args : List Text) :
    decode r modes args = (places modes).filterMap (changeAt r args) := by
  induction modes using List.reverseRecOn with
  | nil => rfl
  | append_singleton t c ih =>
    have hlast : next? r (setAfter t, args.drop (takers r t)) c = changeAt r args (t, c) := by
      simp [next?, changeAt, List.head?_drop]
    have hstep : decode r (t ++ [c]) args =
        decode r t args ++ (changeAt r args (t, c)).toList := by
      unfold decode
      rw [decodeFrom_append, foldl_advance, decodeFrom_cons, hlast]
      simp [decodeFrom]
    rw [hstep, ih, places_concat, List.filterMap_append]
    cases hchange : changeAt r args (t, c) <;> simp [hchange]

/-! ## Changes spelled out -/

/-- Each change as its letter under a sign of its own. -/
def spell (changes : List ModeChange) : Text := changes.flatMap fun c => [sign c.set, c.mode]

/-- The arguments that some changes have, in a row. -/
def arguments (changes : List ModeChange) : List Text := changes.filterMap (·.arg)

/-- Each change is of a letter, and has an argument only if the letter takes one. Where a letter
that takes an argument lacks it, none is left for the changes after it. -/
structure Obeys (r : Rules) (changes : List ModeChange) : Prop where
  letters : ∀ c ∈ changes, ¬ IsSign c.mode
  takes : ∀ c ∈ changes, c.arg ≠ none → r.Takes c.mode c.set
  lacking : changes.Pairwise fun c d => r.Takes c.mode c.set → c.arg = none → d.arg = none

variable {change : ModeChange} {changes : List ModeChange}

theorem obeys_nil : Obeys r [] := ⟨by simp, by simp, .nil⟩

theorem obeys_cons :
    Obeys r (change :: changes) ↔
      ¬ IsSign change.mode ∧ (change.arg ≠ none → r.Takes change.mode change.set) ∧
        (r.Takes change.mode change.set → change.arg = none → arguments changes = []) ∧
        Obeys r changes := by
  have harguments : arguments changes = [] ↔ ∀ d ∈ changes, d.arg = none :=
    List.filterMap_eq_nil_iff
  constructor
  · rintro ⟨hletters, htakes, hlacking⟩
    rw [List.forall_mem_cons] at hletters htakes
    rw [List.pairwise_cons] at hlacking
    refine ⟨hletters.1, htakes.1, fun htakes hnone => ?_, hletters.2, htakes.2, hlacking.2⟩
    exact harguments.2 fun d hd => hlacking.1 d hd htakes hnone
  · rintro ⟨hletter, htake, hlack, hletters, htakes, hlacking⟩
    refine ⟨List.forall_mem_cons.2 ⟨hletter, hletters⟩, List.forall_mem_cons.2 ⟨htake, htakes⟩,
      List.pairwise_cons.2 ⟨fun d hd htakes hnone => ?_, hlacking⟩⟩
    exact harguments.1 (hlack htakes hnone) d hd

/-- No change is of a sign. -/
theorem not_isSign_of_mem_decodeFrom (h : change ∈ decodeFrom r set t args) :
    ¬ IsSign change.mode := by
  induction t generalizing set args with
  | nil => simp [decodeFrom] at h
  | cons c t ih =>
    rw [decodeFrom_cons, List.mem_append, Option.mem_toList] at h
    rcases h with hnext | hrest
    · unfold next? at hnext
      split at hnext
      · cases hnext
      · next hc =>
        cases hnext
        exact hc
    · exact ih hrest

theorem decodeFrom_spell_iff :
    decodeFrom r set (spell changes) (arguments changes) = changes ↔ Obeys r changes := by
  induction changes generalizing set with
  | nil => simp [spell, decodeFrom, obeys_nil]
  | cons change changes ih =>
    by_cases hsign : IsSign change.mode
    · refine iff_of_false (fun h => ?_) fun h => h.letters change (by simp) hsign
      have hmem : change ∈ decodeFrom r set (spell (change :: changes))
          (arguments (change :: changes)) := by
        rw [h]
        simp
      exact not_isSign_of_mem_decodeFrom hmem hsign
    have hspell : spell (change :: changes) = sign change.set :: change.mode :: spell changes := rfl
    rw [hspell, decodeFrom_sign, obeys_cons]
    obtain ⟨set', mode, arg⟩ := change
    by_cases htakes : r.Takes mode set'
    · rw [decodeFrom_taking hsign htakes]
      cases arg with
      | none =>
        -- nothing may be left for the changes after it, or this one would get it
        have hskip : arguments ({ set := set', mode } :: changes) = arguments changes := rfl
        rw [hskip]
        cases hleft : arguments changes with
        | nil =>
          rw [hleft] at ih
          simp [hsign, htakes, ih]
        | cons a left => simp [htakes]
      | some arg =>
        have htake : arguments ({ set := set', mode, arg := some arg } :: changes) =
            arg :: arguments changes := rfl
        simp [htake, hsign, htakes, ih]
    · rw [decodeFrom_plain hsign htakes]
      cases arg with
      | none =>
        have hskip : arguments ({ set := set', mode } :: changes) = arguments changes := rfl
        simp [hskip, hsign, htakes, ih]
      | some arg => simp [htakes]

/-- **Mode strings and their arguments go in step.** A mode string is decoded to one change for each
character that is no sign, in order, under the last sign before it; a letter that takes an argument
under that sign has the one at the place that the letters before it have come to, if the list goes
so far, and any other letter has none. And changes that are spelled out with a sign each, with their
arguments in a row, are got back exactly if they obey the rules. -/
theorem modes_take_arguments_in_step (r : Rules) :
    (∀ modes args, decode r modes args = (places modes).filterMap (changeAt r args)) ∧
      ∀ changes, decode r (spell changes) (arguments changes) = changes ↔ Obeys r changes :=
  ⟨decode_eq r, fun _ => decodeFrom_spell_iff⟩

/-- A letter of class C takes its argument only when set, and the last status letter finds none. -/
example :
    decode {} "l-lo+bv".toList ["20".toList, "alice".toList, "*!*@h".toList] =
      [⟨true, 'l', some "20".toList⟩, ⟨false, 'l', none⟩, ⟨false, 'o', some "alice".toList⟩,
        ⟨true, 'b', some "*!*@h".toList⟩, ⟨true, 'v', none⟩] := by decide +kernel

end IrcBot.ModeChange
