/-
Messages. A line is told as a message exactly if it is a PRIVMSG with a sender, a
recipient and a text, and is for the bot or for a channel; a notice never is
(`messages_handleLine`).
-/
import IrcBot.Proofs.Session.Reactions

namespace IrcBot

/-- A message to the bot or in a channel, but no notice. -/
def Occurrence.isMessage : Occurrence → Bool
  | .privateMessage .. | .channelMessage .. => true
  | _ => false

theorem Occurrence.isProtocol_of_isMessage {what : Occurrence} (h : what.isMessage = true) :
    what.isProtocol = true := by
  cases what <;> first | rfl | cases h

namespace Session

variable {s s' : Session} {m : Message} {registered : Nat} {line : Text} {what : Occurrence}

/-- A line says a message to the bot or in a channel. -/
inductive Says (s : Session) (line : Text) : Occurrence → Prop where
  | privately {m : Message} {sender : Mask} {target text : Text}
    (hparse : Message.parse line = .ok m) (hm : m.Is .privmsg) (hsender : m.sender? = some sender)
    (htarget : m.arg? 0 = some target) (htext : m.arg? 1 = some text)
    (hme : s.isMe target = true) :
    Says s line (.privateMessage (s.tracker.observed sender) text)
  | inChannel {m : Message} {sender : Mask} {target text : Text}
    (hparse : Message.parse line = .ok m) (hm : m.Is .privmsg) (hsender : m.sender? = some sender)
    (htarget : m.arg? 0 = some target) (htext : m.arg? 1 = some text)
    (hme : s.isMe target = false) (hchannel : s.isChannel target = true) :
    Says s line (.channelMessage (s.tracker.observed sender) target text)

/-- The message that a line says, if it does. -/
def message? (s : Session) (line : Text) : Option Occurrence :=
  match Message.parse line with
  | .ok m => if m.Is .privmsg then (s.onText m false).map (·.2) else none
  | .error _ => none

/-- A text that is for the bot or for a channel, as a message. -/
theorem onText_eq_some_iff :
    s.onText m false = some (s', what) ↔ ∃ sender target text, m.sender? = some sender ∧
      m.arg? 0 = some target ∧ m.arg? 1 = some text ∧ s.Addressed target ∧
      s' = { s with tracker := s.tracker.observe sender } ∧
      what = textOccurrence false (s.isMe target) (s.tracker.observed sender) target text := by
  unfold onText
  constructor
  · intro h
    split at h
    · next sender target text hsender htarget htext =>
      split at h
      · next haddressed =>
        cases h
        exact ⟨sender, target, text, hsender, htarget, htext, Bool.or_eq_true_iff.1 haddressed,
          rfl, rfl⟩
      · cases h
    · cases h
  · rintro ⟨sender, target, text, hsender, htarget, htext, haddressed, rfl, rfl⟩
    rw [hsender, htarget, htext]
    exact if_pos (Bool.or_eq_true_iff.2 haddressed)

theorem message?_eq_some_iff : s.message? line = some what ↔ s.Says line what := by
  constructor
  · intro h
    unfold message? at h
    split at h
    · next m hparse =>
      split at h
      · next hm =>
        obtain ⟨⟨s', what⟩, honText, rfl⟩ := Option.map_eq_some_iff.1 h
        obtain ⟨sender, target, text, hsender, htarget, htext, haddressed, -, rfl⟩ :=
          onText_eq_some_iff.1 honText
        cases hme : s.isMe target with
        | true => exact .privately hparse hm hsender htarget htext hme
        | false =>
          have hchannel : s.isChannel target = true :=
            haddressed.resolve_left (Bool.eq_false_iff.1 hme)
          exact .inChannel hparse hm hsender htarget htext hme hchannel
      · cases h
    · cases h
  · -- both kinds of message are texts of the same shape
    have htold {m sender target text} (hparse : Message.parse line = .ok m) (hm : m.Is .privmsg)
        (hsender : m.sender? = some sender) (htarget : m.arg? 0 = some target)
        (htext : m.arg? 1 = some text) (haddressed : s.Addressed target) :
        s.message? line = some
          (textOccurrence false (s.isMe target) (s.tracker.observed sender) target text) := by
      have honText := onText_eq_some_iff.2
        ⟨sender, target, text, hsender, htarget, htext, haddressed, rfl, rfl⟩
      simp only [message?, hparse, if_pos hm, honText, Option.map_some]
    intro h
    cases h with
    | privately hparse hm hsender htarget htext hme =>
      rw [htold hparse hm hsender htarget htext (.inl hme), hme]
      rfl
    | inChannel hparse hm hsender htarget htext hme hchannel =>
      rw [htold hparse hm hsender htarget htext (.inr hchannel), hme]
      rfl

theorem isMessage_iff : what.isMessage = true ↔ what.verb? = some .privmsg := by
  cases what <;> simp [Occurrence.isMessage, Occurrence.verb?]

/-- What a message of the server is announced as is a message to someone only if the server gave
the command for that. -/
theorem message?_react (s : Session) (m : Message) (registered : Nat) :
    ((s.react m registered).bind fun reaction =>
        Option.guard Occurrence.isMessage reaction.2) =
      if m.Is .privmsg then (s.onText m false).map (·.2) else none := by
  by_cases hm : m.Is .privmsg
  · have hcode := numeric?_of_is hm
    have hverb := Verb.ofText?_eq_some_iff.2 hm
    simp only [react, hcode, hverb, if_pos hm]
    cases honText : s.onText m false with
    | none => rfl
    | some reaction =>
      exact if_pos (isMessage_iff.2 (verb?_onText honText))
  · rw [if_neg hm, Option.bind_eq_none_iff]
    rintro ⟨s', what⟩ h
    refine if_neg fun hmessage => ?_
    have hverb : what.verb? = some .privmsg := isMessage_iff.1 hmessage
    rcases react_cases h with ⟨code, -, rfl⟩ | ⟨v, hv, hwhat⟩
    · cases hverb
    · exact hm (Option.some.inj (hwhat.symm.trans hverb) ▸ hv)

/-- **A line is told as the message it says, and as no other.** -/
theorem messages_handleLine (s : Session) (registered : Nat) (line : Text) :
    (s.handleLine registered line).2.filter Occurrence.isMessage = (s.message? line).toList := by
  rw [← List.filterMap_eq_filter, filterMap_handleLine (fun _ => rfl) rfl, message?]
  cases Message.parse line with
  | ok m => exact congrArg Option.toList (message?_react s m registered)
  | error => rfl

end Session

end IrcBot
