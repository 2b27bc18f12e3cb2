/-
Reading undoes writing on the well-formed messages, and on no others
(`parse_display_iff`). A written line is carried by the grammar; the other way
round, what a message writes is never longer than a line it was read from, so a
message that survives has lost nothing at the end of its line.
-/
import IrcBot.Proofs.Wire.Grammar

namespace IrcBot.Message

/-- The text does not end in a carriage return or a line feed. -/
def EndsPlain (t : Text) : Prop := ∀ c ∈ t.getLast?, c ≠ '\r' ∧ c ≠ '\n'

/-- The messages that their own line carries unharmed. -/
structure WellFormed (m : Message) : Prop where
  source : ∀ s ∈ m.source, IsSource s
  command : IsCommand m.command
  middle : ∀ word ∈ m.middle, IsMiddle word
  lastArg : ∀ t ∈ m.lastArg?, EndsPlain t

variable {m : Message} {line t : Text}

/-! ## Line ends -/

theorem chomp_eq_self (h : EndsPlain t) : chomp t = t := by
  have hend : ∀ c ∈ t.reverse.head?, (c == '\r' || c == '\n') = false := fun c hc => by
    rw [List.head?_reverse] at hc
    simpa using h c hc
  have hdrop : t.reverse.dropWhile (fun c => c == '\r' || c == '\n') = t.reverse :=
    dropWhile_run (List.forall_mem_nil _) hend
  rw [chomp, Text.dropEndWhile, hdrop, List.reverse_reverse]

theorem endsPlain_chomp (t : Text) : EndsPlain (chomp t) := by
  intro c hc
  rw [chomp, Text.dropEndWhile, List.getLast?_reverse] at hc
  simpa using head_dropWhile c hc

theorem prefix_chomp (t : Text) : chomp t <+: t := by
  rw [chomp, Text.dropEndWhile, ← List.reverse_suffix, List.reverse_reverse]
  exact List.dropWhile_suffix _

/-- A text that keeps its length when its line end goes had none. -/
theorem endsPlain_of_length (h : t.length ≤ (chomp t).length) : EndsPlain t := by
  rw [← (prefix_chomp t).eq_of_length (Nat.le_antisymm (prefix_chomp t).length_le h)]
  exact endsPlain_chomp t

theorem endsPlain_append_cons {pre : Text} {c : Char} (hc : c ≠ '\r' ∧ c ≠ '\n') :
    EndsPlain (pre ++ c :: t) ↔ EndsPlain t := by
  cases t with
  | nil => simp [EndsPlain, hc]
  | cons d t => simp [EndsPlain, List.getLast?_append, List.getLast?_cons_cons]

/-! ## What is written -/

/-- The parameters as they are written. -/
def displayParams (words : List Text) (last : Option Text) : Text :=
  words.flatMap (' ' :: ·) ++ last.elim [] ([' ', ':'] ++ ·)

/-- The source as it is written. -/
def displaySource (source : Option Text) : Text := source.elim [] fun s => ':' :: s ++ [' ']

theorem display_eq (m : Message) :
    display m = displaySource m.source ++ m.command ++ displayParams m.middle m.trailing := by
  rw [display, displaySource, displayParams, List.append_assoc _ _ (m.trailing.elim _ _)]

theorem opening_displaySource {source : Option Text} (h : ∀ s ∈ source, IsSource s) :
    Opening source (displaySource source) := by
  cases source with
  | none => exact .none [] (by simp)
  | some s => exact .source s [] (h s rfl) (by simp)

theorem params_displayParams {words : List Text} (h : ∀ word ∈ words, IsMiddle word)
    (last : Option Text) : Params words last (displayParams words last) := by
  induction words with
  | nil =>
    cases last with
    | none => exact .done 0
    | some last => exact .trailing 0 last
  | cons word words ih =>
    have hrest := ih fun w hw => h w (List.mem_cons_of_mem _ hw)
    have hparams := Params.middle 0 (h word (by simp)) hrest
    simpa [displayParams, spaces] using hparams

/-- What is written follows the grammar. -/
theorem WellFormed.carries_display (h : m.WellFormed) : Carries m.display m :=
  ⟨_, _, opening_displaySource h.source, h.command, params_displayParams h.middle m.trailing,
    display_eq m⟩

/-- The last parameter ends the line, with a space or a colon before it. -/
theorem displayParams_lastArg {words : List Text} {last : Option Text}
    (h : (last <|> words.getLast?) = some t) :
    ∃ pre c, displayParams words last = pre ++ c :: t ∧ c ≠ '\r' ∧ c ≠ '\n' := by
  cases last with
  | some last =>
    cases h
    exact ⟨words.flatMap (' ' :: ·) ++ [' '], ':', by simp [displayParams], by decide⟩
  | none =>
    obtain ⟨front, rfl⟩ := List.getLast?_eq_some_iff.1 h
    exact ⟨front.flatMap (' ' :: ·), ' ', by simp [displayParams], by decide⟩

theorem displayParams_eq_nil {words : List Text} {last : Option Text}
    (h : (last <|> words.getLast?) = none) : displayParams words last = [] := by
  cases last with
  | some last => cases h
  | none =>
    obtain rfl := List.getLast?_eq_none_iff.1 h
    rfl

theorem IsCommand.endsPlain (h : IsCommand t) : EndsPlain t := by
  intro c hc
  have halnum := h.isAlphanum c (List.mem_of_getLast? hc)
  constructor
  · rintro rfl
    exact absurd halnum (by decide)
  · rintro rfl
    exact absurd halnum (by decide)

/-- The line that is written ends plain exactly when its last parameter does. -/
theorem endsPlain_display (hcommand : IsCommand m.command) :
    EndsPlain m.display ↔ ∀ t ∈ m.lastArg?, EndsPlain t := by
  rw [display_eq]
  cases hlast : m.lastArg? with
  | none =>
    obtain ⟨c, command, hne⟩ := List.exists_cons_of_ne_nil hcommand.ne_nil
    have hplain := hcommand.endsPlain
    rw [displayParams_eq_nil hlast, List.append_nil]
    simp only [reduceCtorEq, Option.mem_def, false_imp_iff, implies_true, iff_true]
    intro d hd
    refine hplain d ?_
    rw [hne] at hd ⊢
    simpa [List.getLast?_append] using hd
  | some t =>
    obtain ⟨pre, c, hparams, hc⟩ := displayParams_lastArg hlast
    rw [hparams, ← List.append_assoc, endsPlain_append_cons hc]
    simp

/-! ## What is read -/

theorem Params.isMiddle {words : List Text} {last : Option Text} (h : Params words last t) :
    ∀ word ∈ words, IsMiddle word := by
  induction h with
  | done n => simp
  | trailing n last => simp
  | middle n hword hrest ih =>
    intro w hw
    rcases List.mem_cons.1 hw with rfl | hw
    · exact hword
    · exact ih w hw

theorem Opening.isSource {source : Option Text} (h : Opening source t) :
    ∀ s ∈ source, IsSource s := by
  cases h with
  | none gap hgap => simp
  | source s gap hs hgap => simpa using hs

theorem Opening.length_le {source : Option Text} (h : Opening source t) :
    (displaySource source).length ≤ t.length := by
  cases h with
  | none gap hgap => simp [displaySource]
  | source s gap hs hgap => simp [displaySource]

theorem Params.length_le {words : List Text} {last : Option Text} (h : Params words last t) :
    (displayParams words last).length ≤ t.length := by
  induction h with
  | done n => simp [displayParams]
  | trailing n last =>
    have hdisplay : displayParams [] (some last) = ' ' :: ':' :: last := rfl
    simp only [hdisplay, spaces, List.length_append, List.length_replicate, List.length_cons]
    omega
  | middle n hword hrest ih => simp [displayParams, spaces] at ih ⊢; omega

/-- What is read has the form of a message, and writing it takes no more than the line it was
read from. -/
theorem parts_of_parse (h : parse line = .ok m) :
    (∀ s ∈ m.source, IsSource s) ∧ IsCommand m.command ∧ (∀ word ∈ m.middle, IsMiddle word) ∧
      m.display.length ≤ (chomp line).length := by
  obtain ⟨opening, hopening, hcommand, hparams, hline⟩ :=
    parseLine_eq_ok_iff.1 (parse_eq_ok_iff.1 h)
  have hlength : m.display.length = (displaySource m.source).length + m.command.length +
      (displayParams m.middle m.trailing).length := by
    rw [display_eq, List.length_append, List.length_append]
  have hwhole : (chomp line).length =
      opening.length + m.command.length + (afterCommand (chomp line)).length :=
    (congrArg List.length hline).trans (by rw [List.length_append, List.length_append])
  have hfront := hopening.length_le
  by_cases hapart : StartsApart (afterCommand (chomp line))
  · have hgrammar := params_of_splitParams hparams hapart
    have hrest := hgrammar.length_le
    exact ⟨hopening.isSource, hcommand, hgrammar.isMiddle, by omega⟩
  · -- nothing of what follows the command is read
    obtain ⟨hmiddle, htrailing⟩ := parse_drops_rest h hapart
    have hnil : displayParams m.middle m.trailing = [] := by rw [hmiddle, htrailing]; rfl
    rw [hnil] at hlength
    exact ⟨hopening.isSource, hcommand, by simp [hmiddle], by simp at hlength; omega⟩

/-- A well-formed message is read as it was written. -/
theorem WellFormed.parse_display (h : m.WellFormed) : parse m.display = .ok m := by
  have hplain := (endsPlain_display h.command).2 h.lastArg
  have hcarries := h.carries_display
  rw [← chomp_eq_self hplain] at hcarries
  exact (parse_followed_iff.2 hcarries).1

/-- **Reading undoes writing exactly on the well-formed messages.** -/
theorem parse_display_iff (m : Message) : parse m.display = .ok m ↔ m.WellFormed := by
  constructor
  · intro h
    obtain ⟨hsource, hcommand, hmiddle, hlength⟩ := parts_of_parse h
    have hplain : EndsPlain m.display := endsPlain_of_length hlength
    exact ⟨hsource, hcommand, hmiddle, (endsPlain_display hcommand).1 hplain⟩
  · exact WellFormed.parse_display

/-- A line end at the end of a parameter does not come back. -/
example : parse (display { command := "PING".toList, trailing := some "a\n".toList }) =
    .ok { command := "PING".toList, trailing := some "a".toList } := by decide +kernel

end IrcBot.Message
