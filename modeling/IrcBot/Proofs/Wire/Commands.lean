/-
What a server reads of a command. The line of a command is what a message writes
(`display_message`): the verb, the words and the free text, without a source. As long as
every word can stand between spaces and no field holds a line end, that message is read
back; and since a message tells which command it is, no two such commands share a line.
The free text may be anything else: empty, with spaces or a colon in front, with more
colons inside.
-/
import IrcBot.Proofs.Wire.RoundTrip
import IrcBot.Wire.Command

namespace IrcBot

/-- No line end stands in the text. -/
def Text.Unbroken (t : Text) : Prop := '\r' ∉ t ∧ '\n' ∉ t

instance (t : Text) : Decidable (Text.Unbroken t) := inferInstanceAs (Decidable (_ ∧ _))

namespace Message

variable {m : Message} {t : Text}

instance (t : Text) : Decidable (IsMiddle t) := inferInstanceAs (Decidable (_ ∧ _))

theorem endsPlain_of_unbroken (h : Text.Unbroken t) : EndsPlain t := by
  intro c hc
  have hmem := List.mem_of_getLast? hc
  exact ⟨fun he => h.1 (he ▸ hmem), fun he => h.2 (he ▸ hmem)⟩

theorem mem_args_of_lastArg? (h : m.lastArg? = some t) : t ∈ m.args := by
  unfold lastArg? at h
  unfold args
  cases htrailing : m.trailing with
  | some trailing =>
    rw [htrailing] at h
    cases h
    simp
  | none =>
    rw [htrailing] at h
    exact List.mem_append_left _ (List.mem_of_getLast? h)

/-- A message without source and without line ends is carried by its line. -/
theorem wellFormed_of_unbroken (hsource : m.source = none) (hcommand : IsCommand m.command)
    (hmiddle : ∀ word ∈ m.middle, IsMiddle word) (hargs : ∀ t ∈ m.args, Text.Unbroken t) :
    m.WellFormed where
  source _ hs := nomatch hsource.symm.trans hs
  command := hcommand
  middle := hmiddle
  lastArg t ht := endsPlain_of_unbroken (hargs t (mem_args_of_lastArg? ht))

end Message

namespace Command

/-- Every word can stand between spaces, and no field holds a line end. -/
structure Sendable (c : Command) : Prop where
  words : ∀ word ∈ c.words, Message.IsMiddle word ∧ Text.Unbroken word
  freeText : ∀ text ∈ c.freeText, Text.Unbroken text

/-- What the line of a command says. -/
def message (c : Command) : Message :=
  { command := c.verb, middle := c.words, trailing := c.freeText }

variable {c d : Command}

theorem display_message (c : Command) : c.message.display = c.line := rfl

theorem isCommand_verb (c : Command) : Message.IsCommand c.verb := by
  cases c <;> exact Message.isCommandWord_iff.1 rfl

/-- The message tells the command: verbs are told apart, and so is a text from none. -/
theorem message_injective (h : c.message = d.message) : c = d := by
  have hverb : c.verb = d.verb := congrArg Message.command h
  have hwords : c.words = d.words := congrArg Message.middle h
  have htext : c.freeText = d.freeText := congrArg Message.trailing h
  cases c <;> cases d <;> first
    | (cases hwords; cases htext; rfl)
    | exact absurd hverb (by dsimp only [verb]; decide)

theorem Sendable.unbroken (hc : c.Sendable) : ∀ t ∈ c.message.args, Text.Unbroken t := by
  intro t ht
  rcases List.mem_append.1 ht with hword | htext
  · exact (hc.words t hword).2
  · exact hc.freeText t (Option.mem_toList.1 htext)

theorem Sendable.wellFormed_message (hc : c.Sendable) : c.message.WellFormed :=
  Message.wellFormed_of_unbroken rfl (isCommand_verb c) (fun word hword => (hc.words word hword).1)
    hc.unbroken

theorem Sendable.parse_line (hc : c.Sendable) : Message.parse c.line = .ok c.message :=
  hc.wellFormed_message.parse_display

/-- **A command is read as it was meant.** Take a command whose words are not empty, hold no space
and do not start with a colon, and whose fields hold no line end. Its line is read as a message
without source that has its verb, its words in their order and its free text, if it has one; and
no other such command has this line. -/
theorem sendable_command_reads_back (hc : c.Sendable) :
    Message.parse c.line =
        .ok { source := none, command := c.verb, middle := c.words, trailing := c.freeText } ∧
      ∀ d : Command, d.Sendable → d.line = c.line → d = c := by
  refine ⟨hc.parse_line, fun d hd hline => message_injective ?_⟩
  have hread : Message.parse d.line = .ok d.message := hd.parse_line
  rw [hline, hc.parse_line] at hread
  exact (Except.ok.inj hread).symm

/-- A channel name with a colon inside, and a reason that starts with a space and holds more of
what separates; without a reason it is another line. -/
theorem parting_with_colons_reads_back :
    Message.parse "PART #a:b : :so :long ".toList =
        .ok { command := "PART".toList, middle := ["#a:b".toList],
              trailing := some " :so :long ".toList } ∧
      (Command.part "#a:b".toList none).line ≠ "PART #a:b : :so :long ".toList := by
  have hwith : Sendable (.part "#a:b".toList (some " :so :long ".toList)) :=
    ⟨by decide, by decide⟩
  have hwithout : Sendable (.part "#a:b".toList none) := ⟨by decide, by decide⟩
  obtain ⟨hread, hunique⟩ := sendable_command_reads_back hwith
  refine ⟨hread, fun hline => ?_⟩
  have hsame := hunique _ hwithout hline
  cases hsame

end Command

end IrcBot
