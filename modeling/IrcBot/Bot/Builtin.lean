/-
The modules that come with the bot: answering pings, joining the configured
channels, publishing bot commands, and trying other nicks when one is taken.
-/
import IrcBot.Bot.Act
import IrcBot.Name
import IrcBot.Text.Blank
import IrcBot.Wire.Reply

namespace IrcBot.Builtin

open IrcBot.Bot (Act)

/-! ## Rules -/

/-- The nick to try after one was refused: the next of the configured ones,
or the refused one with an underscore once there is none left. -/
def nextNick (configured : List Text) (attempted : Text) : Text :=
  match configured.dropWhile fun n => !same n attempted with
  | _ :: next :: _ => next
  | _ => attempted ++ ['_']

/-- The text after a mark, if it starts with it. -/
def dropMark? : Text → Text → Option Text
  | [], t => some t
  | _ :: _, [] => none
  | m :: mark, c :: t => if m = c then dropMark? mark t else none

/-- A bot command: a word directly after the mark, and the rest without blanks around it. -/
def splitCommand? (mark text : Text) : Option (Text × Text) :=
  (dropMark? mark text).bind fun t =>
    let (name, args) := (Text.cut? ' ' t).getD (t, [])
    if name.isEmpty then none else some (name, Text.trimBlank args)

/-! ## Handlers -/

variable {κ γ ν : Type}

/-- Gives an order that has to be carried out. -/
def insist (i : Nat) (o : Circuit.Order) : Act κ γ ν Unit := do
  let result ← Act.order i o
  Act.require result

/-- Sends the token of a ping back. -/
def answerPing : Event → Act κ γ ν Unit
  | .occurred i (.ping token) => insist i (.send (.pong token))
  | _ => pure ()

def joinAll (i : Nat) : List Text → Act κ γ ν Unit
  | [] => pure ()
  | channel :: rest => do
    insist i (.join channel)
    joinAll i rest

/-- Joins the configured channels. -/
def joinConfigured : Event → Act κ γ ν Unit
  | .occurred i .connected => do
    match ← Act.look i with
    | some c => joinAll i c.settings.channels
    | none => pure ()
  | _ => pure ()

/-- Publishes the bot command that a message is, if it is one. -/
def publishCommand (mark : Text) : Event → Act κ γ ν Unit
  | .occurred i (.privateMessage sender text) => publish i sender none text
  | .occurred i (.channelMessage sender channel text) => publish i sender (some channel) text
  | _ => pure ()
where
  publish (i : Nat) (sender : User) (channel : Option Text) (text : Text) : Act κ γ ν Unit :=
    match splitCommand? mark text with
    | some (name, args) => Act.trigger (.occurred i (.command sender channel name args))
    | none => pure ()

/-- Offers another nick when the server refuses one before registration is
complete. The refused nick is the second parameter of the refusal. -/
def offerNick : Event → Act κ γ ν Unit
  | .occurred i (.serverMessage _ code params) =>
    if Reply.ofCode? code = some .nicknameInUse then do
      match ← Act.look i with
      | none => pure ()
      | some c =>
        if c.session.phase = .registered then pure ()
        else
          let next := nextNick c.settings.nicks (params[1]?.getD c.session.nick)
          if Nick.isValid next then insist i (.nick next) else pure ()
    else pure ()
  | _ => pure ()

/-! ## Modules -/

/-- A module of the bot; each one that is made has a number of its own. -/
structure Instance where
  kind : Kind
  number : Nat
  deriving DecidableEq, Repr

/-- The events a module of this kind handles. -/
def Kind.events : Kind → List Text
  | .ping => ["ping".toList]
  | .autojoin => ["connected".toList]
  | .commands => ["private-message".toList, "channel-message".toList]
  | .nickFallback => ["server-message".toList]

/-- A handler of a module, by the event it is for. -/
structure HandlerId where
  owner : Instance
  event : Text
  deriving DecidableEq, Repr

def Kind.handle (mark : Text) : Kind → Event → Act κ γ ν Unit
  | .ping => answerPing
  | .autojoin => joinConfigured
  | .commands => publishCommand mark
  | .nickFallback => offerNick

/-- How the modules start: each registers its handlers and cannot fail. -/
def conduct {ω : Type} (key : HandlerId → κ) : ModuleConduct Instance κ γ ω where
  name m := m.kind.name
  start m w :=
    (m.kind.events.map fun event => .register event (key ⟨m, event⟩) none, .ok (), w)

end IrcBot.Builtin
