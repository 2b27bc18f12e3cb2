/-
Where a text goes, after any history of a session: to the bot if it is for the bot's own nick, else
to a channel if its target starts with a channel type in force, else nowhere (`text_routed`). The
types in force are told by the 005 lines heard since the socket last came or went, and by no other
part of the history (`channelTypes_live`).
-/
import IrcBot.Connection.Basic
import IrcBot.Proofs.Server.Isupport
import IrcBot.Proofs.Session.Reactions

namespace IrcBot

namespace Tracker

/-- What is shown of a sender is its entry once its full mask is recorded, or else its mask. -/
theorem observed_eq (t : Tracker) (m : Mask) : t.observed m =
    ((t.observe m).user? m.nick).getD { nick := m.nick, user := m.user, host := m.host } := by
  unfold observed observe
  split
  · simp [user?, update]
  · rfl

end Tracker

namespace Session

/-- What may happen to a session. -/
inductive Happening where
  | attached (h : Handle) (nick : Text)
  | lost
  | heard (line : Text)
  /-- A nick that the bot has asked for counts at once. -/
  | renamed (nick : Text)
  deriving DecidableEq

def undergo (registered : Nat) (s : Session) : Happening → Session
  | .attached h nick => s.attach h nick
  | .lost => { s.reset with phase := .disconnected }
  | .heard line => (s.handleLine registered line).1
  | .renamed nick => { s with nick }

/-- The session that a history has led to, from a fresh one on. -/
def live (registered : Nat) (nick : Text) (history : List Happening) : Session :=
  history.foldl (undergo registered) { nick }

/-- The lines heard on the present socket once this has happened as well. -/
def heardAfter (lines : List Text) : Happening → List Text
  | .attached .. | .lost => []
  | .heard line => lines ++ [line]
  | .renamed _ => lines

/-- The lines heard since the socket last came or went. -/
def heardSince (history : List Happening) : List Text := history.foldl heardAfter []

/-- The tokens that a message announces: the middle parameters of a 005 reply but the first. -/
def announcedBy (m : Message) : List Text :=
  if m.numeric? = some Reply.isupport.code then m.middle.drop 1 else []

/-- The tokens that a line announces. -/
def announcedIn (line : Text) : List Text :=
  match Message.parse line with
  | .ok m => announcedBy m
  | .error _ => []

variable {s s' : Session} {m : Message} {registered : Nat} {line : Text} {what : Occurrence}

/-! ## What the server has announced -/

theorem isupport_learn {code : Nat} (hcode : m.numeric? = some code) :
    (s.learn m code).isupport = s.isupport.merge (announcedBy m) := by
  unfold learn announcedBy
  by_cases he : code = Reply.isupport.code
  · subst he
    rw [Reply.ofCode?_code, if_pos hcode]
    rfl
  · rw [if_neg fun h => he (Option.some.inj (hcode.symm.trans h))]
    split
    · rfl
    · next hreply =>
      have hfound : (Reply.isupport.code == code) = true :=
        List.find?_some (p := fun r : Reply => r.code == code) hreply
      exact absurd (eq_of_beq hfound).symm he
    · unfold names
      split <;> rfl
    · rfl

/-- A command announces nothing. -/
theorem isupport_react (hm : m.numeric? = none) (h : s.react m registered = some (s', what)) :
    s'.isupport = s.isupport := by
  cases hverb : Verb.ofText? m.command with
  | none => simp [react, hm, hverb] at h
  | some v =>
    cases v <;> simp only [react, hm, hverb] at h
    case ping | error => cases h; rfl
    case privmsg | notice =>
      unfold onText at h
      split at h
      · split at h <;> cases h
        rfl
      · cases h
    case join =>
      unfold onJoin at h
      split at h <;> cases h
      rfl
    case part =>
      unfold onPart at h
      split at h <;> cases h
      rfl
    case kick =>
      unfold onKick at h
      split at h <;> cases h
      rfl
    case quit =>
      obtain ⟨sender, -, h⟩ := Option.map_eq_some_iff.1 h
      cases h
      rfl
    case nick =>
      unfold onNick at h
      split at h <;> cases h
      rfl
    case mode =>
      unfold onMode at h
      split at h <;> cases h
      rfl

theorem isupport_handleLine : (s.handleLine registered line).1.isupport =
    s.isupport.merge (announcedIn line) := by
  unfold announcedIn
  cases hparse : Message.parse line with
  | error e =>
    rw [handleLine_meaningless fun m hm => by cases hparse.symm.trans hm]
    rfl
  | ok m =>
    cases hcode : m.numeric? with
    | some code =>
      have hregister : ((s.learn m code).register registered code).isupport =
          (s.learn m code).isupport := by
        unfold register
        split <;> rfl
      rw [handleLine_of_react hparse (react_numeric hcode)]
      exact hregister.trans (isupport_learn hcode)
    | none =>
      have hnothing : announcedBy m = [] := by simp [announcedBy, hcode]
      simp only [hnothing]
      cases hreact : s.react m registered with
      | none =>
        rw [handleLine_meaningless fun m' hm => by cases hparse.symm.trans hm; exact hreact]
        rfl
      | some reaction =>
        rw [handleLine_of_react hparse hreact]
        exact isupport_react hcode hreact

theorem isupport_undergo {lines : List Text}
    (hs : s.isupport = .merge .empty (lines.flatMap announcedIn)) (what : Happening) :
    (undergo registered s what).isupport =
      .merge .empty ((heardAfter lines what).flatMap announcedIn) := by
  cases what with
  | attached | lost => rfl
  | renamed nick => exact hs
  | heard line =>
    rw [heardAfter, List.flatMap_append, Isupport.merge_append, ← hs, List.flatMap_singleton]
    exact isupport_handleLine

theorem isupport_live (registered : Nat) (nick : Text) (history : List Happening) :
    (live registered nick history).isupport =
      .merge .empty ((heardSince history).flatMap announcedIn) := by
  induction history using List.reverseRecOn with
  | nil => rfl
  | append_singleton history what ih =>
    rw [live, heardSince, List.foldl_append, List.foldl_append]
    exact isupport_undergo ih what

theorem channelTypes_live (registered : Nat) (nick : Text) (history : List Happening) :
    (live registered nick history).isupport.channelTypes =
      Isupport.typesInForce ((heardSince history).flatMap announcedIn) := by
  rw [isupport_live, Isupport.channelTypes_merge]

/-! ## Texts -/

theorem isChannel_iff {target : Text} : s.isChannel target = true ↔
    ∃ c ∈ s.isupport.channelTypes, target.head? = some c := by
  unfold isChannel ChannelName.isTarget
  cases target <;> simp

/-- What a text with a sender does. -/
theorem handleLine_text {isNotice : Bool} {sender : Mask} {target text : Text}
    (hparse : Message.parse line = .ok m) (hm : m.Is (if isNotice then .notice else .privmsg))
    (hsender : m.sender? = some sender) (htarget : m.arg? 0 = some target)
    (htext : m.arg? 1 = some text) :
    s.handleLine registered line =
      if s.isMe target || s.isChannel target then
        ({ s with tracker := s.tracker.observe sender }, [.rawLineReceived line,
          textOccurrence isNotice (s.isMe target) (s.tracker.observed sender) target text])
      else (s, [.rawLineReceived line]) := by
  have hreact : s.react m registered = s.onText m isNotice := by
    cases isNotice <;> simp [react, numeric?_of_is hm, Verb.ofText?_eq_some_iff.2 hm]
  simp only [onText, hsender, htarget, htext] at hreact
  split at hreact
  · next haddressed =>
    rw [handleLine_of_react hparse hreact, if_pos haddressed, if_pos rfl]
  · next hother =>
    rw [if_neg hother, handleLine_meaningless]
    intro m' hm'
    cases hparse.symm.trans hm'
    exact hreact

/-- **Where a text goes.** After any history of a session, let a line be a PRIVMSG or a NOTICE with
a sender, a target and a text. If the target is the bot's own nick, in any case, one private text
is told beside the line as it is; or else, if the target starts with one of the channel types in
force, one text in that channel; or else nothing, and nothing has changed. In the first two cases
the sender is recorded by a full mask and by no other, no other change is made, and the sender is
shown by its entry if it then has one, or else by what the line says of it. -/
theorem text_routed (registered : Nat) (nick : Text) (history : List Happening) (isNotice : Bool)
    {sender : Mask} {target text : Text} (hparse : Message.parse line = .ok m)
    (hm : m.Is (if isNotice then .notice else .privmsg)) (hsender : m.sender? = some sender)
    (htarget : m.arg? 0 = some target) (htext : m.arg? 1 = some text) :
    let s := live registered nick history
    let types := Isupport.typesInForce ((heardSince history).flatMap announcedIn)
    let recorded := if sender.isFull then s.tracker.update sender else s.tracker
    let shown := (recorded.user? sender.nick).getD
      { nick := sender.nick, user := sender.user, host := sender.host }
    (same target s.nick = true → s.handleLine registered line =
      ({ s with tracker := recorded }, [.rawLineReceived line,
        if isNotice then .privateNotice shown text else .privateMessage shown text])) ∧
    (same target s.nick = false → (∃ c ∈ types, target.head? = some c) →
      s.handleLine registered line =
        ({ s with tracker := recorded }, [.rawLineReceived line,
          if isNotice then .channelNotice shown target text
          else .channelMessage shown target text])) ∧
    (same target s.nick = false → (∀ c ∈ types, target.head? ≠ some c) →
      s.handleLine registered line = (s, [.rawLineReceived line])) := by
  intro s types recorded shown
  have hshown : shown = s.tracker.observed sender := (s.tracker.observed_eq sender).symm
  have htypes : types = s.isupport.channelTypes := (channelTypes_live registered nick history).symm
  rw [handleLine_text hparse hm hsender htarget htext, hshown, htypes]
  refine ⟨fun hme => ?_, fun hother hchannel => ?_, fun hother hnone => ?_⟩
  · have hisMe : s.isMe target = true := hme
    rw [hisMe, Bool.true_or, if_pos rfl]
    cases isNotice <;> rfl
  · have hisMe : s.isMe target = false := hother
    rw [hisMe, isChannel_iff.2 hchannel, Bool.false_or, if_pos rfl]
    cases isNotice <;> rfl
  · have hisMe : s.isMe target = false := hother
    have hisChannel : s.isChannel target = false := by
      rw [← Bool.not_eq_true, isChannel_iff]
      simpa using hnone
    rw [hisMe, hisChannel, Bool.or_false, if_neg Bool.false_ne_true]

/-- A server that announces its channel types twice, and lets the bot take another nick. -/
def announcedTwice : List Happening :=
  [.attached 0 "prebot".toList, .heard ":srv 001 prebot :Welcome".toList,
    .heard ":srv 005 prebot CHANTYPES=# NETWORK=Test :are supported".toList,
    .heard ":srv 005 prebot chantypes=!+ EXCEPTS :are supported".toList,
    .heard ":prebot!u@h NICK crab".toList]

theorem text_routed_to_last_types :
    let s := live 4 "prebot".toList announcedTwice
    let line := ":alice!a@h NOTICE +news :hello".toList
    let alice : User := { nick := "alice".toList, user := ['a'], host := ['h'] }
    Message.parse line = .ok
        { source := "alice!a@h".toList, command := "NOTICE".toList, middle := ["+news".toList],
          trailing := "hello".toList } ∧
      same "+news".toList s.nick = false ∧
      Isupport.typesInForce ((heardSince announcedTwice).flatMap announcedIn) = "!+".toList ∧
      s.handleLine 4 line = ({ s with tracker := s.tracker.update (.parse "alice!a@h".toList) },
        [.rawLineReceived line, .channelNotice alice "+news".toList "hello".toList]) := by
  intro s line alice
  have hparse : Message.parse line = .ok
      { source := "alice!a@h".toList, command := "NOTICE".toList, middle := ["+news".toList],
        trailing := "hello".toList } := by
    decide +kernel
  have hother : same "+news".toList s.nick = false := by decide +kernel
  have htypes : Isupport.typesInForce ((heardSince announcedTwice).flatMap announcedIn) =
      "!+".toList := by
    decide +kernel
  have hshown : ((s.tracker.update (.parse "alice!a@h".toList)).user? "alice".toList).getD alice =
      alice := by
    decide +kernel
  refine ⟨hparse, hother, htypes, ?_⟩
  have hrouted := (text_routed 4 "prebot".toList announcedTwice true hparse (by decide) rfl rfl
    rfl).2.1 hother ⟨'+', by rw [htypes]; decide, rfl⟩
  rw [← hshown]
  exact hrouted

end Session

end IrcBot
