/-
The users and channels of one connection. Both tables are keyed by folded
names; what is shown keeps the case first seen, or last renamed to. A user
and the channels it shares with the bot refer to each other, and every
operation here updates both sides.
-/
import IrcBot.Tracker.Channel
import IrcBot.Tracker.User

namespace IrcBot

structure Tracker where
  users : Table Text User := .empty
  channels : Table Text Channel := .empty
  deriving DecidableEq, Inhabited

namespace Tracker

def empty : Tracker := {}

def user? (t : Tracker) (nick : Text) : Option User := t.users.get? (fold nick)

def channel? (t : Tracker) (name : Text) : Option Channel := t.channels.get? (fold name)

def hasChannel (t : Tracker) (name : Text) : Bool := (t.channel? name).isSome

/-- All users by nick. -/
def userList (t : Tracker) : List User :=
  t.users.values.mergeSort fun a b => !decide (b.nick < a.nick)

/-- All channels by name. -/
def channelList (t : Tracker) : List Channel :=
  t.channels.values.mergeSort fun a b => !decide (b.name < a.name)

/-! ## Users -/

/-- What is known of a sender once its mask has been taken into account. -/
def known (t : Tracker) (m : Mask) : User := ((t.user? m.nick).getD { nick := m.nick }).absorb m

/-- Records a sender. -/
def update (t : Tracker) (m : Mask) : Tracker :=
  { t with users := t.users.insert (fold m.nick) (t.known m) }

/-- Records a sender only if its mask is full: servers and bare nicks stay out of the table. -/
def observe (t : Tracker) (m : Mask) : Tracker := if m.isFull then t.update m else t

/-- The sender of a text: the recorded entry, or what the mask alone says. -/
def observed (t : Tracker) (m : Mask) : User :=
  if m.isFull then t.known m else (t.user? m.nick).getD (User.absorb { nick := m.nick } m)

/-- Moves a user, with its memberships, to a new nick. -/
def rename (t : Tracker) (old new : Text) : Tracker :=
  match t.user? old with
  | none => t
  | some u =>
    { users := (t.users.erase (fold old)).insert (fold new) { u with nick := new }
      channels := u.channels.keys.foldl
        (fun cs name => cs.adjust (fold name) (·.rename (fold old) new)) t.channels }

/-- Forgets a user. -/
def removeUser (t : Tracker) (nick : Text) : Tracker :=
  match t.user? nick with
  | none => t
  | some u =>
    { users := t.users.erase (fold nick)
      channels := u.channels.keys.foldl
        (fun cs name => cs.adjust (fold name) (·.remove (fold nick))) t.channels }

/-! ## Channels and members -/

def addChannel (t : Tracker) (name : Text) : Tracker :=
  if t.hasChannel name then t
  else { t with channels := t.channels.insert (fold name) { name } }

/-- Takes a channel off a user; a user without channels is forgotten. -/
def detach (t : Tracker) (key channel : Text) : Tracker :=
  match t.users.get? key with
  | none => t
  | some u =>
    let u := u.left channel
    { t with users := t.users.put? key (if u.channels.entries.isEmpty then none else some u) }

def removeChannel (t : Tracker) (name : Text) : Tracker :=
  match t.channel? name with
  | none => t
  | some c =>
    c.members.keys.foldl (fun t key => t.detach key c.name)
      { t with channels := t.channels.erase (fold name) }

/-- Adds a member to a tracked channel, with these status letters and no others. -/
def addMember (t : Tracker) (channel nick modes : Text) : Tracker :=
  match t.channel? channel with
  | none => t
  | some c =>
    { users := t.users.insert (fold nick) (((t.user? nick).getD { nick }).joined c.name)
      channels := t.channels.insert (fold channel) (c.add nick modes) }

def removeMember (t : Tracker) (channel nick : Text) : Tracker :=
  match t.channel? channel with
  | none => t
  | some c =>
    if c.contains nick then
      { t with channels := t.channels.insert (fold channel) (c.remove (fold nick)) }.detach
        (fold nick) c.name
    else t

/-- Sets or clears a status letter of a member; `rank` lists the letters by rank. -/
def setMemberMode (t : Tracker) (channel nick : Text) (mode : Char) (set : Bool) (rank : Text) :
    Tracker :=
  { t with channels := t.channels.adjust (fold channel) fun c =>
      { c with members := c.members.adjust (fold nick) (·.setMode mode set rank) } }

end Tracker

end IrcBot
