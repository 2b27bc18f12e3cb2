/-
What a line from the server does to a session. A line is announced as it is
first. Then, if it can be read and means something to the bot, it changes the
session and is announced as exactly one occurrence; the line that completes
registration is followed by one more. Any other line changes nothing.
-/
import IrcBot.Event
import IrcBot.Session.Basic
import IrcBot.Wire.Message
import IrcBot.Wire.Reply

namespace IrcBot.Session

/-- The words the bot understands from a server. -/
inductive Verb where
  | ping
  | error
  | privmsg
  | notice
  | join
  | part
  | kick
  | quit
  | nick
  | mode
  deriving DecidableEq, Repr

namespace Verb

def all : List Verb := [ping, error, privmsg, notice, join, part, kick, quit, nick, mode]

def word : Verb → Text
  | ping => "PING".toList
  | error => "ERROR".toList
  | privmsg => "PRIVMSG".toList
  | notice => "NOTICE".toList
  | join => "JOIN".toList
  | part => "PART".toList
  | kick => "KICK".toList
  | quit => "QUIT".toList
  | nick => "NICK".toList
  | mode => "MODE".toList

/-- The verb of that name, in any case. -/
def ofText? (t : Text) : Option Verb := all.find? fun v => v.word == Text.toUpper t

end Verb

/-- The session after a message, and what the message is announced as. -/
abbrev Reaction := Option (Session × Occurrence)

variable (s : Session) (m : Message)

/-! ## Numeric replies -/

/-- One entry of a list of names: status symbols, then a nick or a mask. -/
def nameEntry (status : Status) (channel : Text) (t : Tracker) (entry : Text) : Tracker :=
  let (modes, text) := status.strip entry
  let who := Mask.parse text
  if t.hasChannel channel then
    let t := t.addMember channel who.nick modes
    if who.isFull then t.update who else t
  else t

/-- The list of names is the trailing parameter, the channel the last one before it. -/
def names : Session :=
  match m.middle.getLast?, m.trailing with
  | some channel, some list =>
    let entries := (Text.splitBy (· == ' ') list).filter (· != [])
    { s with tracker := entries.foldl (nameEntry s.isupport.status channel) s.tracker }
  | _, _ => s

/-- What a reply teaches. -/
def learn (code : Nat) : Session :=
  match Reply.ofCode? code with
  | some .welcome => { s with nick := m.middle.head?.getD s.nick }
  | some .isupport => { s with isupport := s.isupport.mergeReply m.middle }
  | some .namReply => s.names m
  | _ => s

/-- Completes registration if this is the reply that does. -/
def register (registered code : Nat) : Session :=
  if code = registered ∧ s.phase = .connected then { s with phase := .registered } else s

def onNumeric (registered code : Nat) : Reaction :=
  some ((s.learn m code).register registered code,
    .serverMessage (m.sender?.getD (.bare [])) code m.args)

/-! ## Texts -/

/-- The occurrence that a text to the bot or to a channel is. -/
def textOccurrence (isNotice toMe : Bool) (sender : User) (target text : Text) : Occurrence :=
  match toMe, isNotice with
  | true, false => .privateMessage sender text
  | true, true => .privateNotice sender text
  | false, false => .channelMessage sender target text
  | false, true => .channelNotice sender target text

/-- A text counts if it is for the bot or for a channel; only then is its sender recorded. -/
def onText (isNotice : Bool) : Reaction :=
  match m.sender?, m.arg? 0, m.arg? 1 with
  | some sender, some target, some text =>
    if s.isMe target || s.isChannel target then
      some ({ s with tracker := s.tracker.observe sender },
        textOccurrence isNotice (s.isMe target) (s.tracker.observed sender) target text)
    else none
  | _, _, _ => none

/-! ## Comings and goings -/

def onJoin : Reaction :=
  match m.sender?, m.arg? 0 with
  | some sender, some channel =>
    let t := if s.isMe sender.nick then s.tracker.addChannel channel else s.tracker
    let t := t.addMember channel sender.nick []
    some ({ s with tracker := t.update sender }, .join (t.known sender) channel)
  | _, _ => none

/-- Takes someone out of a channel. The bot itself takes the channel along. -/
def depart (t : Tracker) (channel nick : Text) : Tracker :=
  if s.isMe nick then t.removeChannel channel else t.removeMember channel nick

def onPart : Reaction :=
  match m.sender?, m.arg? 0 with
  | some sender, some channel =>
    some ({ s with tracker := s.depart (s.tracker.update sender) channel sender.nick },
      .part (s.tracker.known sender) channel (m.arg? 1))
  | _, _ => none

def onKick : Reaction :=
  match m.sender?, m.arg? 0, m.arg? 1 with
  | some sender, some channel, some nick =>
    some ({ s with tracker := s.depart (s.tracker.update sender) channel nick },
      .kick (s.tracker.known sender) channel nick (m.arg? 2))
  | _, _, _ => none

def onQuit : Reaction :=
  m.sender?.map fun sender =>
    ({ s with tracker := (s.tracker.update sender).removeUser sender.nick },
      .quit (s.tracker.known sender) (m.arg? 0))

def onNick : Reaction :=
  match m.sender?, m.arg? 0 with
  | some sender, some new =>
    some ({ s with
        tracker := (s.tracker.update sender).rename sender.nick new
        nick := if s.isMe sender.nick then new else s.nick },
      .nickChange (s.tracker.known sender) new)
  | _, _ => none

/-! ## Modes -/

/-- Applies one change of a membership mode. -/
def applyStatus (status : Status) (channel : Text) (t : Tracker) (c : ModeChange) : Tracker :=
  match c.arg with
  | some nick =>
    if status.isMode c.mode then t.setMemberMode channel nick c.mode c.set status.modes else t
  | none => t

def onMode : Reaction :=
  match m.arg? 0, m.arg? 1 with
  | some target, some modes =>
    let sender := m.sender?.getD (.bare [])
    let status := s.isupport.status
    let onChannel := s.isChannel target
    let changes := ModeChange.decode { status, classes := s.isupport.modeClasses, onChannel }
      modes (m.args.drop 2)
    let t := s.tracker.observe sender
    let t := if onChannel then changes.foldl (applyStatus status target) t else t
    some ({ s with tracker := t }, .modeChange sender target changes)
  | _, _ => none

/-! ## Lines -/

def react (registered : Nat) : Reaction :=
  match m.numeric? with
  | some code => s.onNumeric m registered code
  | none =>
    match Verb.ofText? m.command with
    | some .ping => some (s, .ping (m.lastArg?.getD []))
    | some .error => some (s, .error (m.lastArg?.getD []))
    | some .privmsg => s.onText m false
    | some .notice => s.onText m true
    | some .join => s.onJoin m
    | some .part => s.onPart m
    | some .kick => s.onKick m
    | some .quit => s.onQuit m
    | some .nick => s.onNick m
    | some .mode => s.onMode m
    | none => none

/-- Handles one line; `registered` is the code of the reply that completes registration. -/
def handleLine (registered : Nat) (line : Text) : Session × List Occurrence :=
  let reaction := match Message.parse line with
    | .ok m => s.react m registered
    | .error _ => none
  match reaction with
  | none => (s, [.rawLineReceived line])
  | some (s', what) =>
    let completed := if s'.phase = s.phase then [] else [.connected]
    (s', .rawLineReceived line :: what :: completed)

end IrcBot.Session
