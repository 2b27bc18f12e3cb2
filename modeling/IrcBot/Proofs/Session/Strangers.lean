/-
Who has no place among the users. An entry is vouched for by a full mask, or by a channel that
holds it (`Tracker.Vouched`). Texts, modes, lists of names and those who quit leave no other
entries behind: a stranger, such as a server, is recorded by its full mask or not at all. Those who
join, part, kick and take a nick are recorded whatever their mask, and a stranger among them stays
in the table unless the same line gives it a channel or takes it out again (`LeavesStranger`).
-/
import IrcBot.Proofs.Session.Identities
import IrcBot.Proofs.Session.Listing

namespace IrcBot

/-- Somebody is known by a full mask, or lists a channel. -/
def User.Vouched (u : User) : Prop :=
  u.isIdentified = true ∨ ∃ name, u.channels.contains name = true

namespace Tracker

/-- Every entry has user and host known, or lists a channel that is tracked and holds it. -/
def Vouched (t : Tracker) : Prop :=
  ∀ key u, t.users.get? key = some u → u.isIdentified = true ∨
    ∃ name, u.channels.contains name = true ∧
      ∃ c, t.channel? name = some c ∧ c.members.contains key = true

/-- Every entry is known by a full mask, or lists a channel. -/
def EachVouched (t : Tracker) : Prop := t.users.All fun _ u => u.Vouched

/-- Somebody without a full mask of whom there is no entry. -/
def Stranger (t : Tracker) (m : Mask) : Prop := m.isFull = false ∧ t.user? m.nick = none

variable {t : Tracker} {m : Mask} {u : User} {key channel modes new : Text}

/-- What is listed is tracked, so it is enough to list something. -/
theorem vouched_iff (hg : t.Grounded) : t.Vouched ↔ t.EachVouched := by
  constructor
  · intro h key u hu
    rcases h key u hu with hid | ⟨name, hname, -⟩
    · exact .inl hid
    · exact .inr ⟨name, hname⟩
  · intro h key u hu
    rcases h key u hu with hid | ⟨name, hname⟩
    · exact .inl hid
    · obtain ⟨c, hc, -, hmember⟩ := hg key name ⟨u, hu, hname⟩
      exact .inr ⟨name, hname, c, hc, hmember⟩

/-! ## Those who are recorded -/

theorem isIdentified_absorb (h : u.isIdentified = true ∨ m.isFull = true) :
    (u.absorb m).isIdentified = true := by
  simp only [User.isIdentified, Mask.isFull, Bool.and_eq_true] at h
  simp only [User.isIdentified, User.absorb, Bool.and_eq_true]
  rcases h with ⟨huser, hhost⟩ | ⟨huser, hhost⟩
  · simp [huser, hhost]
  · simp [huser, hhost]

theorem vouched_joined : (u.joined channel).Vouched :=
  .inr ⟨channel, User.contains_joined.2 (.inl rfl)⟩

/-- Nobody is a stranger whom a channel has been given. -/
theorem stranger_addMember : (t.addMember channel m.nick modes).Stranger m ↔
    t.Stranger m ∧ t.hasChannel channel = false := by
  unfold Stranger user? hasChannel
  cases hc : t.channel? channel with
  | none => simp [addMember_untracked hc]
  | some c => simp [get?_users_addMember hc]

section Recorded

variable (hv : t.EachVouched)

include hv

theorem vouched_known : (t.known m).Vouched ↔ ¬ t.Stranger m := by
  unfold known Stranger
  cases hu : t.user? m.nick with
  | some u =>
    simp only [reduceCtorEq, and_false, not_false_eq_true, iff_true]
    rcases hv _ u hu with hid | hlists
    · exact .inl (isIdentified_absorb (.inl hid))
    · exact .inr hlists
  | none =>
    have hidentified : (User.absorb { nick := m.nick } m).isIdentified = m.isFull := rfl
    have hnothing (name : Text) :
        (User.absorb { nick := m.nick } m).channels.contains name = false := rfl
    simp [User.Vouched, hidentified, hnothing]

/-- Once somebody is recorded, its entry alone may have nothing to vouch for it. -/
theorem vouched_recorded (hu : (t.update m).users.get? key = some u) :
    u.Vouched ↔ ¬ (key = fold m.nick ∧ t.Stranger m) := by
  rw [get?_users_update] at hu
  split at hu
  · next hkey =>
    cases hu
    simp [vouched_known hv, hkey]
  · next hkey => exact iff_of_true (hv key u hu) fun h => hkey h.1

theorem vouched_update : (t.update m).EachVouched ↔ ¬ t.Stranger m := by
  constructor
  · intro h
    exact (vouched_known hv).1 (h (fold m.nick) (t.known m) (by rw [get?_users_update, if_pos rfl]))
  · intro hknown key u hu
    exact (vouched_recorded hv hu).2 fun h => hknown h.2

theorem vouched_observe : (t.observe m).EachVouched := by
  unfold observe
  split
  · next hfull =>
    refine (vouched_update hv).2 fun hstranger => ?_
    cases hstranger.1.symm.trans hfull
  · exact hv

theorem vouched_addMember (channel nick modes : Text) :
    (t.addMember channel nick modes).EachVouched := by
  intro key u hu
  cases hc : t.channel? channel with
  | none =>
    rw [addMember_untracked hc] at hu
    exact hv key u hu
  | some c =>
    rw [get?_users_addMember hc] at hu
    split at hu
    · cases hu
      exact vouched_joined
    · exact hv key u hu

/-- Somebody who is recorded and forgotten leaves nothing behind. -/
theorem vouched_removeUser : ((t.update m).removeUser m.nick).EachVouched := by
  intro key u hu
  rw [get?_users_removeUser] at hu
  split at hu
  · cases hu
  · next hkey => exact (vouched_recorded hv hu).2 fun h => hkey h.1

/-- Whoever takes a nick takes along what vouches for him, or nothing. -/
theorem vouched_rename : ((t.update m).rename m.nick new).EachVouched ↔ ¬ t.Stranger m := by
  constructor
  · intro h
    have hnew : ({ t.known m with nick := new } : User).Vouched :=
      h (fold new) _ (by rw [users_rename user?_update, if_pos rfl])
    exact (vouched_known hv).1 hnew
  · intro hknown key u' hu'
    rw [users_rename user?_update] at hu'
    split at hu'
    · cases hu'
      exact (vouched_known hv).2 hknown
    · split at hu'
      · cases hu'
      · exact (vouched_recorded hv hu').2 fun h => hknown h.2

end Recorded

end Tracker

namespace Session

open Tracker

/-- Whether a stranger who sends this message stays in the table: it joins a channel that the bot
is not in, parts or kicks and does not go itself, or takes a nick. -/
def Retains (s : Session) (m : Message) (sender : Mask) : Prop :=
  match Verb.ofText? m.command with
  | some .join => ∃ channel, m.arg? 0 = some channel ∧ s.isMe sender.nick = false ∧
      s.tracker.hasChannel channel = false
  | some .part => ∃ channel, m.arg? 0 = some channel ∧
      s.departed? s.tracker channel sender.nick (fold sender.nick) = none
  | some .kick => ∃ channel nick, m.arg? 0 = some channel ∧ m.arg? 1 = some nick ∧
      s.departed? s.tracker channel nick (fold sender.nick) = none
  | some .nick => ∃ new, m.arg? 0 = some new
  | _ => False

/-- A message leaves a stranger in the table. -/
def Admits (s : Session) (m : Message) : Prop :=
  ∃ sender, m.sender? = some sender ∧ s.tracker.Stranger sender ∧ s.Retains m sender

/-- A line leaves a stranger in the table. -/
def LeavesStranger (s : Session) (line : Text) : Prop :=
  ∃ m, Message.parse line = .ok m ∧ s.Admits m

variable {s : Session} {m : Message} {registered : Nat} {line : Text}
variable {t : Tracker} {sender : Mask} {channel nick : Text}

/-! ## Messages -/

theorem vouched_nameEntry {status : Status} {entry : Text} (hv : t.EachVouched) :
    (nameEntry status channel t entry).EachVouched := by
  simp only [nameEntry]
  split
  · -- a mask in the list is recorded just as a sender is whose mask has to be full
    exact vouched_observe (vouched_addMember hv channel (entryNick status entry)
      (status.strip entry).1)
  · exact hv

theorem vouched_names (hv : s.tracker.EachVouched) :
    (s.names m).tracker.EachVouched := by
  rw [tracker_names]
  split
  · next channel entries _ =>
    clear * - hv
    generalize s.tracker = t at hv ⊢
    induction entries generalizing t with
    | nil => exact hv
    | cons entry entries ih => exact ih _ (vouched_nameEntry hv)
  · exact hv

/-- Somebody who is recorded while others go, or who goes itself. -/
theorem vouched_depart (hv : t.EachVouched) :
    (s.depart (t.update sender) channel nick).EachVouched ↔
      ¬ (t.Stranger sender ∧ s.departed? t channel nick (fold sender.nick) = none) := by
  have hsame (key : Text) : s.departed? (t.update sender) channel nick key =
      s.departed? t channel nick key := rfl
  constructor
  · intro h hleft
    have hu : (s.depart (t.update sender) channel nick).users.get? (fold sender.nick) =
        some (t.known sender) := by
      simp only [get?_users_depart, hsame, hleft.2, get?_users_update, if_true]
    exact (vouched_known hv).1 (h _ _ hu) hleft.1
  · intro hnot key u hu
    rw [get?_users_depart, hsame] at hu
    split at hu
    · obtain ⟨v, -, hleft⟩ := Option.bind_eq_some_iff.1 hu
      exact .inr (of_remainder hleft).2
    · next hstays =>
      refine (vouched_recorded hv hu).2 fun h => hnot ⟨h.2, ?_⟩
      rw [← h.1, hstays]

section Handlers

variable (hv : s.tracker.EachVouched)

include hv

theorem vouched_onNumeric {code : Nat} :
    ((s.onNumeric m registered code).elim s Prod.fst).tracker.EachVouched := by
  simp only [onNumeric, Option.elim_some, tracker_register]
  unfold learn
  split
  · exact hv
  · exact hv
  · exact vouched_names hv
  · exact hv

theorem vouched_onText {isNotice : Bool} :
    ((s.onText m isNotice).elim s Prod.fst).tracker.EachVouched := by
  unfold onText
  split
  · split
    · exact vouched_observe hv
    · exact hv
  · exact hv

theorem vouched_onMode :
    ((s.onMode m).elim s Prod.fst).tracker.EachVouched := by
  unfold onMode
  split
  · simp only [Option.elim_some]
    split
    · rw [EachVouched, users_applyAll]
      exact vouched_observe hv
    · exact vouched_observe hv
  · exact hv

theorem vouched_onQuit :
    ((s.onQuit m).elim s Prod.fst).tracker.EachVouched := by
  unfold onQuit
  cases m.sender? with
  | none => exact hv
  | some sender => exact vouched_removeUser hv

theorem vouched_onJoin (hjoin : Verb.ofText? m.command = some .join) :
    ((s.onJoin m).elim s Prod.fst).tracker.EachVouched ↔ ¬ s.Admits m := by
  simp only [Admits, Retains, hjoin]
  unfold onJoin
  split
  · next sender channel hsender hchannel =>
    have hjoined : (if s.isMe sender.nick then s.tracker.addChannel channel
        else s.tracker).EachVouched := by
      split
      · rwa [EachVouched, users_addChannel]
      · exact hv
    simp only [Option.elim_some]
    rw [vouched_update (vouched_addMember hjoined channel sender.nick []), stranger_addMember]
    cases hme : s.isMe sender.nick with
    | true => simp [hsender, hme, hasChannel_addChannel]
    | false => simp [hsender, hchannel, hme]
  · next hnot =>
    refine iff_of_true hv fun hadmits => ?_
    obtain ⟨sender, hsender, -, channel, hchannel, -⟩ := hadmits
    exact hnot sender channel hsender hchannel

theorem vouched_onPart (hpart : Verb.ofText? m.command = some .part) :
    ((s.onPart m).elim s Prod.fst).tracker.EachVouched ↔ ¬ s.Admits m := by
  simp only [Admits, Retains, hpart]
  unfold onPart
  split
  · next sender channel hsender hchannel =>
    simp only [Option.elim_some]
    rw [vouched_depart hv]
    simp [hsender, hchannel]
  · next hnot =>
    refine iff_of_true hv fun hadmits => ?_
    obtain ⟨sender, hsender, -, channel, hchannel, -⟩ := hadmits
    exact hnot sender channel hsender hchannel

theorem vouched_onKick (hkick : Verb.ofText? m.command = some .kick) :
    ((s.onKick m).elim s Prod.fst).tracker.EachVouched ↔ ¬ s.Admits m := by
  simp only [Admits, Retains, hkick]
  unfold onKick
  split
  · next sender channel nick hsender hchannel hnick =>
    simp only [Option.elim_some]
    rw [vouched_depart hv]
    simp [hsender, hchannel, hnick]
  · next hnot =>
    refine iff_of_true hv fun hadmits => ?_
    obtain ⟨sender, hsender, -, channel, nick, hchannel, hnick, -⟩ := hadmits
    exact hnot sender channel nick hsender hchannel hnick

theorem vouched_onNick (hrename : Verb.ofText? m.command = some .nick) :
    ((s.onNick m).elim s Prod.fst).tracker.EachVouched ↔ ¬ s.Admits m := by
  simp only [Admits, Retains, hrename]
  unfold onNick
  split
  · next sender new hsender hnew =>
    simp only [Option.elim_some]
    rw [vouched_rename hv]
    simp [hsender, hnew]
  · next hnot =>
    refine iff_of_true hv fun hadmits => ?_
    obtain ⟨sender, hsender, -, new, hnew⟩ := hadmits
    exact hnot sender new hsender hnew

/-- A message leaves everybody vouched for unless it leaves a stranger in the table. -/
theorem vouched_react :
    ((s.react m registered).elim s Prod.fst).tracker.EachVouched ↔
      ¬ s.Admits m := by
  cases hcode : m.numeric? with
  | some code =>
    have hverb : Verb.ofText? m.command = none := by
      refine Option.eq_none_iff_forall_ne_some.2 fun v hv => ?_
      cases (numeric?_of_is (Verb.ofText?_eq_some_iff.1 hv)).symm.trans hcode
    simp only [react, hcode]
    exact iff_of_true (vouched_onNumeric hv) (by simp [Admits, Retains, hverb])
  | none =>
    cases hverb : Verb.ofText? m.command with
    | none =>
      simp only [react, hcode, hverb, Option.elim_none]
      refine iff_of_true hv ?_
      simp [Admits, Retains, hverb]
    | some v =>
      simp only [react, hcode, hverb]
      cases v with
      | join => exact vouched_onJoin hv hverb
      | part => exact vouched_onPart hv hverb
      | kick => exact vouched_onKick hv hverb
      | nick => exact vouched_onNick hv hverb
      | ping | error => exact iff_of_true hv (by simp [Admits, Retains, hverb])
      | privmsg | notice =>
        exact iff_of_true (vouched_onText hv) (by simp [Admits, Retains, hverb])
      | quit => exact iff_of_true (vouched_onQuit hv) (by simp [Admits, Retains, hverb])
      | mode => exact iff_of_true (vouched_onMode hv) (by simp [Admits, Retains, hverb])

end Handlers

/-! ## Lines -/

theorem vouched_handleLine (hv : s.tracker.EachVouched) :
    (s.handleLine registered line).1.tracker.EachVouched ↔
      ¬ s.LeavesStranger line := by
  cases hparse : Message.parse line with
  | error e =>
    rw [handleLine_meaningless fun m hm => by cases hparse.symm.trans hm]
    simp [LeavesStranger, hparse, hv]
  | ok m =>
    have hafter : (s.handleLine registered line).1 = (s.react m registered).elim s Prod.fst := by
      simp only [handleLine, hparse]
      cases s.react m registered <;> rfl
    rw [hafter, vouched_react hv]
    simp [LeavesStranger, hparse]

/-- **Users are vouched for until a stranger is left behind.** Take a fresh session and any lines.
At every point every entry among the users has both user and host, or lists a tracked channel that
holds it, exactly when no line leaves a stranger in the table. -/
theorem users_vouched_iff (s : Session) (registered : Nat) (lines : List Text) :
    (∀ n, (hear registered { s with tracker := .empty } (lines.take n)).tracker.Vouched) ↔
      ∀ n line, lines[n]? = some line →
        ¬ (hear registered { s with tracker := .empty } (lines.take n)).LeavesStranger line := by
  simp only [vouched_iff (folded_grounded_hear s registered _).2]
  have hfresh : ({ s with tracker := .empty } : Session).tracker.EachVouched := Table.all_empty
  exact hear_take_iff (P := fun s => s.tracker.EachVouched) hfresh
    fun s line => vouched_handleLine

/-- The bot and somebody else are in a channel, and a server kicks the other one. -/
def kickedByServer : List Text :=
  [":prebot!u@h JOIN #a", ":alice!u@h JOIN #a",
    ":irc.example.net KICK #a alice :flood"].map String.toList

theorem server_left_among_users :
    ¬ ∀ n, (hear 4 { nick := "prebot".toList } (kickedByServer.take n)).tracker.Vouched := by
  intro h
  have hentry : (hear 4 { nick := "prebot".toList } kickedByServer).tracker.users.get?
      "irc.example.net".toList = some { nick := "irc.example.net".toList } := by
    decide +kernel
  rcases h 3 _ _ hentry with hid | ⟨name, hname, -⟩
  · cases hid
  · cases hname

end Session

end IrcBot
