/-
Where the bot is. The channels of a session are those the bot is in, so only three lines
change which there are: its own joining, its own leaving, and its being kicked by
somebody (`passage?`). Any other line leaves them (`channels_follow_bot`), whatever it
says of whichever channel; so after any lines the channels are those that the passages
of the bot have led to (`contains_hear`).
-/
import IrcBot.Proofs.Session.Membership

namespace IrcBot.Session

open Tracker

/-- How the bot gets into a channel or out of one. -/
inductive Passage where
  | into (channel : Text)
  /-- The one who sends the line is recorded before the channel goes. -/
  | outOf (sender : Mask) (channel : Text)

/-- The passage of the bot that a message tells of. -/
def passageOf (s : Session) (m : Message) : Option Passage := do
  let sender ← m.sender?
  let channel ← m.arg? 0
  match Verb.ofText? m.command with
  | some .join => if s.isMe sender.nick then some (.into channel) else none
  | some .part => if s.isMe sender.nick then some (.outOf sender channel) else none
  | some .kick => if (m.arg? 1).any s.isMe then some (.outOf sender channel) else none
  | _ => none

/-- The passage of the bot that a line tells of. -/
def passage? (s : Session) (line : Text) : Option Passage :=
  (Message.parse line).toOption.bind s.passageOf

/-- What a passage makes of the tracker. -/
inductive Passes (s : Session) : Option Passage → Tracker → Prop where
  | still {t : Tracker} (h : SameChannels s.tracker t) : Passes s none t
  | into {t : Tracker} {channel : Text} (h : SameChannels (s.tracker.addChannel channel) t) :
    Passes s (some (.into channel)) t
  | outOf (sender : Mask) (channel : Text) :
    Passes s (some (.outOf sender channel)) ((s.tracker.update sender).removeChannel channel)

variable {s s' : Session} {m : Message} {v : Verb} {registered : Nat} {what : Occurrence}

/-! ## One message -/

theorem passageOf_unknown (h : Verb.ofText? m.command = none) : s.passageOf m = none := by
  cases hsender : m.sender? <;> cases hchannel : m.arg? 0 <;>
    simp [passageOf, hsender, hchannel, h]

/-- No other command moves the bot. -/
theorem passageOf_other (hv : Verb.ofText? m.command = some v) (hjoin : v ≠ .join)
    (hpart : v ≠ .part) (hkick : v ≠ .kick) : s.passageOf m = none := by
  cases hsender : m.sender? <;> cases hchannel : m.arg? 0 <;> cases v <;>
    simp_all [passageOf]

theorem passes_onJoin (hv : Verb.ofText? m.command = some .join)
    (h : s.onJoin m = some (s', what)) : s.Passes (s.passageOf m) s'.tracker := by
  cases hsender : m.sender? with
  | none => simp [onJoin, hsender] at h
  | some sender =>
    cases hchannel : m.arg? 0 with
    | none => simp [onJoin, hsender, hchannel] at h
    | some channel =>
      have hsteady := (steadily_onJoin hsender hchannel h).2
      simp only [passageOf, hsender, hchannel, hv, Option.bind_eq_bind, Option.bind_some]
      split
      · next hme =>
        rw [if_pos hme] at hsteady
        exact .into hsteady
      · next hme =>
        rw [if_neg hme] at hsteady
        exact .still hsteady

/-- Whoever is taken out of a channel: it goes if that is the bot. -/
theorem passes_depart (sender : Mask) (channel nick : Text) :
    s.Passes (if s.isMe nick then some (.outOf sender channel) else none)
      (s.depart (s.tracker.update sender) channel nick) := by
  unfold depart
  split
  · exact .outOf sender channel
  · exact .still ((Steadily.update ..).trans (.removeMember ..)).2

theorem passes_onPart (hv : Verb.ofText? m.command = some .part)
    (h : s.onPart m = some (s', what)) : s.Passes (s.passageOf m) s'.tracker := by
  unfold onPart at h
  split at h
  · next sender channel hsender hchannel =>
    cases h
    simp only [passageOf, hsender, hchannel, hv, Option.bind_eq_bind, Option.bind_some]
    exact passes_depart sender channel sender.nick
  · cases h

theorem passes_onKick (hv : Verb.ofText? m.command = some .kick)
    (h : s.onKick m = some (s', what)) : s.Passes (s.passageOf m) s'.tracker := by
  unfold onKick at h
  split at h
  · next sender channel nick hsender hchannel hnick =>
    cases h
    simp only [passageOf, hsender, hchannel, hnick, hv, Option.bind_eq_bind, Option.bind_some,
      Option.any_some]
    exact passes_depart sender channel nick
  · cases h

theorem sameChannels_onNick (h : s.onNick m = some (s', what)) :
    SameChannels s.tracker s'.tracker := by
  unfold onNick at h
  split at h
  · cases h
    exact fun key => SameChannels.rename key
  · cases h

/-- A message that means something takes the tracker where the bot goes. -/
theorem passes_react (h : s.react m registered = some (s', what)) :
    s.Passes (s.passageOf m) s'.tracker := by
  cases hverb : Verb.ofText? m.command with
  | none =>
    rw [passageOf_unknown hverb]
    cases hcode : m.numeric? with
    | none => simp [react, hcode, hverb] at h
    | some code =>
      simp only [react, hcode] at h
      exact .still (steadily_onNumeric h).2
  | some v =>
    have hcode := numeric?_of_is (Verb.ofText?_eq_some_iff.1 hverb)
    have hother := passageOf_other (s := s) hverb
    simp only [react, hcode, hverb] at h
    cases v with
    | join => exact passes_onJoin hverb h
    | part => exact passes_onPart hverb h
    | kick => exact passes_onKick hverb h
    | ping | error =>
      rw [hother (by decide) (by decide) (by decide)]
      cases h
      exact .still fun _ => rfl
    | privmsg | notice =>
      rw [hother (by decide) (by decide) (by decide)]
      exact .still (steadily_onText h).2
    | quit =>
      rw [hother (by decide) (by decide) (by decide)]
      exact .still (steadily_onQuit h).2
    | nick =>
      rw [hother (by decide) (by decide) (by decide)]
      exact .still (sameChannels_onNick h)
    | mode =>
      rw [hother (by decide) (by decide) (by decide)]
      exact .still (steadily_onMode h).2

/-- A message that means nothing tells of no passage. -/
theorem passageOf_unheeded (h : s.react m registered = none) : s.passageOf m = none := by
  cases hverb : Verb.ofText? m.command with
  | none => exact passageOf_unknown hverb
  | some v =>
    have hcode := numeric?_of_is (Verb.ofText?_eq_some_iff.1 hverb)
    simp only [react, hcode, hverb] at h
    cases hsender : m.sender? with
    | none => simp [passageOf, hsender]
    | some sender =>
      cases hchannel : m.arg? 0 with
      | none => simp [passageOf, hsender, hchannel]
      | some channel =>
        cases hnick : m.arg? 1 <;> cases v <;> simp_all [passageOf, onJoin, onPart, onKick]

/-! ## Lines -/

theorem passes_handleLine (s : Session) (registered : Nat) (line : Text) :
    s.Passes (s.passage? line) (s.handleLine registered line).1.tracker := by
  unfold passage? handleLine
  cases Message.parse line with
  | error => exact .still fun _ => rfl
  | ok m =>
    simp only [Except.toOption, Option.bind_some]
    cases hreact : s.react m registered with
    | none =>
      rw [passageOf_unheeded hreact]
      exact .still fun _ => rfl
    | some reaction => exact passes_react hreact

/-- **Channels come and go with the bot alone.** Take any session and any line. If the line tells
of no passage of the bot, the same channels are tracked after it. If it is the bot's own joining,
its channel is tracked then, and besides it those that were before. If it is the bot's own leaving
or its being kicked, its channel is not tracked any more and all others are what they were; the
sender is recorded, and then the members of the channel that is gone no longer list it, those of
them who now list nothing are forgotten, and nobody else changes. -/
theorem channels_follow_bot (s : Session) (registered : Nat) (line : Text) :
    let after := (s.handleLine registered line).1.tracker
    match s.passage? line with
    | none => ∀ key, after.channels.contains key = s.tracker.channels.contains key
    | some (.into channel) => ∀ key, after.channels.contains key = true ↔
        key = fold channel ∨ s.tracker.channels.contains key = true
    | some (.outOf sender channel) =>
      (∀ key, after.channels.get? key =
        if key = fold channel then none else s.tracker.channels.get? key) ∧
      match s.tracker.channel? channel with
      | none => after.users = (s.tracker.update sender).users
      | some c => Deserted (s.tracker.update sender).users c after.users := by
  intro after
  have hpasses : s.Passes (s.passage? line) after := passes_handleLine s registered line
  clear_value after
  generalize s.passage? line = passage at hpasses ⊢
  cases hpasses with
  | still h => exact h
  | into h =>
    intro key
    rw [h key]
    exact contains_addChannel
  | outOf sender channel =>
    refine ⟨fun key => get?_channels_removeChannel, ?_⟩
    have hsame : (s.tracker.update sender).channel? channel = s.tracker.channel? channel := rfl
    split
    · next hnone => rw [removeChannel_untracked (hsame.trans hnone)]
    · next c hc => exact deserted_removeChannel (hsame.trans hc)

/-- A session that is in one channel, of which the bot and somebody else are members. -/
def inOneChannel : Session :=
  hear 1 { nick := "prebot".toList }
    ([":prebot!u@h JOIN #a", ":alice!u@h JOIN #a"].map String.toList)

/-- A kick that does not say who kicks names the bot, and the channel stays. -/
theorem bare_kick_moves_nobody :
    (Message.parse "KICK #a prebot".toList).toOption =
        some { command := "KICK".toList, middle := ["#a".toList, "prebot".toList] } ∧
      inOneChannel.isMe "prebot".toList = true ∧
      inOneChannel.tracker.hasChannel "#a".toList = true ∧
      (inOneChannel.handleLine 1 "KICK #a prebot".toList).1.tracker.hasChannel "#a".toList =
        true := by
  decide +kernel

/-! ## Any lines -/

/-- Whether the channel under a key is one the bot is in, after a passage. -/
def Passage.follow (key : Text) (inside : Bool) : Passage → Bool
  | .into channel => inside || key == fold channel
  | .outOf _ channel => inside && key != fold channel

/-- The passages that some lines tell of, each line of the session that meets it. -/
def passages (s : Session) (registered : Nat) : List Text → List Passage
  | [] => []
  | line :: lines =>
    (s.passage? line).toList ++ passages (s.handleLine registered line).1 registered lines

theorem Passes.contains {passage : Option Passage} {t : Tracker} (h : s.Passes passage t)
    (key : Text) : t.channels.contains key =
      passage.toList.foldl (Passage.follow key) (s.tracker.channels.contains key) := by
  cases h with
  | still h => exact h key
  | @into t channel h =>
    show _ = (s.tracker.channels.contains key || key == fold channel)
    rw [h key, Bool.eq_iff_iff, contains_addChannel, Bool.or_eq_true, beq_iff_eq, or_comm]
  | outOf sender channel =>
    show _ = (s.tracker.channels.contains key && key != fold channel)
    unfold Table.contains
    rw [get?_channels_removeChannel]
    by_cases he : key = fold channel
    · simp [he]
    · simp [he, Tracker.update]

/-- The channels tracked after some lines are those that the bot's passages have led to. -/
theorem contains_hear (registered : Nat) (lines : List Text) (key : Text) :
    (s.hear registered lines).tracker.channels.contains key =
      (s.passages registered lines).foldl (Passage.follow key)
        (s.tracker.channels.contains key) := by
  induction lines generalizing s with
  | nil => rfl
  | cons line lines ih =>
    rw [passages, List.foldl_append, ← (passes_handleLine s registered line).contains key]
    exact ih

end IrcBot.Session
