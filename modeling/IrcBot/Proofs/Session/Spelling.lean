/-
How a command is spelled does not matter. Two messages with the same sender, the same parameters
and the same command up to case do the same to every session (`react_congr`), whether the last
parameter is introduced by a colon or not; so do two lines of such messages, but for the line as it
is (`handleLine_alike`), and two rows of such lines (`hear_respelled`). Numeric replies are left
out: there the colon tells the list of names from the channel, and the tokens of a server from its
text.
-/
import IrcBot.Proofs.Session.Membership
import Mathlib.Data.List.Forall2

namespace IrcBot

namespace Message

/-- The same sender, command and parameters, whatever the case of the command, and whether or not
a colon introduces the last parameter. -/
structure Alike (m m' : Message) : Prop where
  source : m.source = m'.source
  command : Text.toUpper m.command = Text.toUpper m'.command
  args : m.args = m'.args

variable {m m' : Message}

/-- Of the two kinds of parameters the last is the last of all. -/
theorem lastArg?_eq (m : Message) : m.lastArg? = m.args.getLast? := by
  unfold lastArg? args
  cases m.trailing <;> simp

theorem isDigit_toUpper (c : Char) : c.toUpper.isDigit = c.isDigit := by
  unfold Char.toUpper
  split
  · next h =>
    -- neither a small letter nor the capital 32 below it is a digit
    obtain ⟨hle, hge⟩ := h
    rw [Bool.eq_iff_iff]
    simp [Char.isDigit, UInt32.le_iff_toNat_le, UInt32.toNat_add] at hle hge ⊢
    omega
  · rfl

theorem isThreeDigits_toUpper (t : Text) : isThreeDigits (Text.toUpper t) = isThreeDigits t := by
  simp [isThreeDigits, Text.toUpper, List.all_map, Function.comp_def, isDigit_toUpper]

theorem numeric?_eq_none_iff : m.numeric? = none ↔ isThreeDigits m.command = false := by
  unfold numeric?
  cases hdigits : isThreeDigits m.command with
  | false => simp
  | true =>
    obtain ⟨hlength, hall⟩ := Bool.and_eq_true_iff.1 hdigits
    have hne : m.command ≠ [] := by
      intro he
      rw [he] at hlength
      cases hlength
    simp [Text.toNat?, hne, hall]

namespace Alike

variable (h : m.Alike m')

include h

theorem sender? : m.sender? = m'.sender? := by
  rw [Message.sender?, h.source, Message.sender?]

theorem arg? (i : Nat) : m.arg? i = m'.arg? i := by
  rw [Message.arg?, h.args, Message.arg?]

theorem lastArg? : m.lastArg? = m'.lastArg? := by
  rw [lastArg?_eq, lastArg?_eq, h.args]

theorem verb : Session.Verb.ofText? m.command = Session.Verb.ofText? m'.command := by
  simp only [Session.Verb.ofText?, h.command]

/-- If one is no numeric reply, the other is none. -/
theorem numeric? (hm : m.numeric? = none) : m'.numeric? = none := by
  rw [numeric?_eq_none_iff, ← isThreeDigits_toUpper] at hm ⊢
  rwa [← h.command]

end Alike

end Message

namespace Session

variable {s : Session} {m m' : Message} {registered : Nat} {line line' : Text}

/-- **A message means the same however it is spelled.** -/
theorem react_congr (h : m.Alike m') (hm : m.numeric? = none) :
    s.react m registered = s.react m' registered := by
  have hsender : m.sender? = m'.sender? := h.sender?
  have harg (i : Nat) : m.arg? i = m'.arg? i := h.arg? i
  simp only [react, hm, h.numeric? hm, h.verb]
  cases Verb.ofText? m'.command with
  | none => rfl
  | some v =>
    cases v with
    | ping | error => simp only [h.lastArg?]
    | privmsg | notice => simp only [onText, hsender, harg]
    | join => simp only [onJoin, hsender, harg]
    | part => simp only [onPart, hsender, harg]
    | kick => simp only [onKick, hsender, harg]
    | quit => simp only [onQuit, hsender, harg]
    | nick => simp only [onNick, hsender, harg]
    | mode => simp only [onMode, hsender, harg, h.args]

/-- **A line does the same however it is spelled.** In any session, two lines that are the same
command up to case with the same sender and the same parameters lead to the same session, and the
same is told of them after each has been told as it is. -/
theorem handleLine_alike (s : Session) (registered : Nat) (hparse : Message.parse line = .ok m)
    (hparse' : Message.parse line' = .ok m') (h : m.Alike m') (hm : m.numeric? = none) :
    ∃ after told, s.handleLine registered line = (after, .rawLineReceived line :: told) ∧
      s.handleLine registered line' = (after, .rawLineReceived line' :: told) := by
  cases hreact : s.react m registered with
  | none =>
    refine ⟨s, [], ?_, ?_⟩
    · simp only [handleLine, hparse, hreact]
    · simp only [handleLine, hparse', ← react_congr h hm, hreact]
  | some reaction =>
    exact ⟨_, _, handleLine_of_react hparse hreact,
      handleLine_of_react hparse' ((react_congr h hm).symm.trans hreact)⟩

/-- Somebody joins a channel, in two spellings. -/
theorem join_with_and_without_colon :
    let s : Session := { nick := "prebot".toList }
    let line := ":prebot!u@h JOIN #a".toList
    let line' := ":prebot!u@h   Join :#a".toList
    let m : Message :=
      { source := "prebot!u@h".toList, command := "JOIN".toList, middle := ["#a".toList] }
    let m' : Message :=
      { source := "prebot!u@h".toList, command := "Join".toList, trailing := "#a".toList }
    Message.parse line = .ok m ∧ Message.parse line' = .ok m' ∧ m.Alike m' ∧
      m.numeric? = none ∧
      ∃ after told, s.handleLine 4 line = (after, .rawLineReceived line :: told) ∧
        s.handleLine 4 line' = (after, .rawLineReceived line' :: told) ∧
        after.tracker.hasChannel "#A".toList = true ∧ told.length = 1 := by
  intro s line line' m m'
  have hparse : Message.parse line = .ok m := by decide +kernel
  have hparse' : Message.parse line' = .ok m' := by decide +kernel
  have halike : m.Alike m' := ⟨rfl, by decide, rfl⟩
  have hm : m.numeric? = none := by decide
  have hjoined : (s.handleLine 4 line).1.tracker.hasChannel "#A".toList = true ∧
      (s.handleLine 4 line).2.length = 2 := by
    decide +kernel
  obtain ⟨after, told, htold, htold'⟩ := handleLine_alike s 4 hparse hparse' halike hm
  rw [htold] at hjoined
  exact ⟨hparse, hparse', halike, hm, after, told, htold, htold', hjoined.1,
    Nat.succ.inj hjoined.2⟩

/-- A line is another one, or a command in another spelling. -/
def Respells (line line' : Text) : Prop :=
  line = line' ∨ ∃ m m', Message.parse line = .ok m ∧ Message.parse line' = .ok m' ∧
    m.Alike m' ∧ m.numeric? = none

/-- **A server may spell its commands as it likes.** Two rows of lines of which each spells the
other's lead to the same session. -/
theorem hear_respelled {lines lines' : List Text} (h : List.Forall₂ Respells lines lines')
    (s : Session) (registered : Nat) : s.hear registered lines = s.hear registered lines' := by
  induction h generalizing s with
  | nil => rfl
  | @cons line line' lines lines' hline hrest ih =>
    have hsame : (s.handleLine registered line).1 = (s.handleLine registered line').1 := by
      rcases hline with rfl | ⟨m, m', hparse, hparse', halike, hm⟩
      · rfl
      · obtain ⟨after, told, htold, htold'⟩ :=
          handleLine_alike s registered hparse hparse' halike hm
        rw [htold, htold']
    have hfirst : s.hear registered (line :: lines) =
        (s.handleLine registered line).1.hear registered lines := rfl
    rw [hfirst, ih, hsame]
    rfl

end Session

end IrcBot
