/-
What a line that changes modes comes to. Its changes are applied one after the other, so for
every member and every letter of the announced status it is the last change of that letter for
that member which counts (`mode_line_net_effect`). All else stays: letters of no status and their
order, who is a member and by which nick, the other channels, and the users but for the one who
sent the line, if its mask is full.
-/
import IrcBot.Proofs.Session.Listing
import IrcBot.Proofs.Tracker.Ranks
import Mathlib.Data.List.Induction

namespace IrcBot.Session

open Tracker

/-- What the last change of a letter for a nick does: sets it, or clears it. -/
def lastSet (changes : List ModeChange) (letter : Char) (nick : Text) : Option Bool :=
  (changes.filter fun d => d.mode == letter && d.arg.any (same · nick)).getLast?.map (·.set)

/-- A member as it was, with the letters of the status as some changes leave them. -/
structure Remoded (status : Status) (changes : List ModeChange) (m m' : Member) : Prop where
  nick : m'.nick = m.nick
  letters : ∀ letter, status.isMode letter = true →
    (m'.hasMode letter = true ↔ lastSet changes letter m.nick = some true ∨
      lastSet changes letter m.nick = none ∧ m.hasMode letter = true)
  others : m'.modes.filter (!status.isMode ·) = m.modes.filter (!status.isMode ·)

/-- A channel as it was, with the letters of its members as some changes leave them. -/
structure ChannelRemoded (status : Status) (changes : List ModeChange) (c c' : Channel) :
    Prop where
  name : c'.name = c.name
  members : ∀ who, Option.Rel (Remoded status changes) (c.members.get? who) (c'.members.get? who)

/-- The changes that a message asks for, as they are decoded. -/
def changesOf (s : Session) (m : Message) : List ModeChange :=
  match m.arg? 0, m.arg? 1 with
  | some target, some modes =>
    ModeChange.decode
      { status := s.isupport.status, classes := s.isupport.modeClasses,
        onChannel := s.isChannel target }
      modes (m.args.drop 2)
  | _, _ => []

variable {s s' : Session} {m : Message} {registered : Nat} {line : Text} {what : Occurrence}
variable {t : Tracker} {status : Status} {target key who : Text} {c : Channel} {d : ModeChange}
variable {ds : List ModeChange}

/-! ## One member -/

/-- What a change does to the member under a key. -/
def applyTo (status : Status) (who : Text) (member : Member) (d : ModeChange) : Member :=
  if status.isMode d.mode && d.arg.any (fold · == who) then
    member.setMode d.mode d.set status.modes
  else member

theorem lastSet_snoc (ds : List ModeChange) (d : ModeChange) (letter : Char) (nick : Text) :
    lastSet (ds ++ [d]) letter nick =
      if d.mode == letter && d.arg.any (same · nick) then some d.set
      else lastSet ds letter nick := by
  unfold lastSet
  cases hlast : d.mode == letter && d.arg.any (same · nick) <;>
    simp [List.filter_append, hlast]

theorem any_same (arg : Option Text) (nick : Text) :
    arg.any (same · nick) = arg.any (fold · == fold nick) := by
  cases arg with
  | none => rfl
  | some a =>
    rw [Option.any_some, Option.any_some, Bool.eq_iff_iff, same_iff, beq_iff_eq]

theorem nick_applyTo (member : Member) : (applyTo status who member d).nick = member.nick := by
  unfold applyTo
  split <;> rfl

theorem hasMode_applyTo (member : Member) {letter : Char} (hletter : status.isMode letter = true) :
    (applyTo status (fold member.nick) member d).hasMode letter =
      if d.mode == letter && d.arg.any (same · member.nick) then d.set
      else member.hasMode letter := by
  rw [any_same]
  unfold applyTo
  by_cases hmode : d.mode = letter
  · subst hmode
    cases d.arg.any (fold · == fold member.nick) <;> simp [hletter, Member.hasMode_setMode]
  · split
    · rw [Member.hasMode_setMode, if_neg (Ne.symm hmode)]
      simp [hmode]
    · simp [hmode]

theorem others_applyTo (member : Member) :
    (applyTo status who member d).modes.filter (!status.isMode ·) =
      member.modes.filter (!status.isMode ·) := by
  unfold applyTo
  split
  · next happlies =>
    rw [Bool.and_eq_true] at happlies
    have hmode : d.mode ∈ status.modes := List.contains_iff_mem.1 happlies.1
    unfold Member.setMode
    split
    · exact Member.filter_insertRanked hmode
    · rw [List.filter_filter]
      refine List.filter_congr fun x _ => ?_
      by_cases hx : x = d.mode <;> simp [hx, happlies.1]
  · rfl

/-- Changes leave a member as the last of them for each letter says. -/
theorem remoded_applyTo (member : Member) (ds : List ModeChange) :
    Remoded status ds member (ds.foldl (applyTo status (fold member.nick)) member) := by
  induction ds using List.reverseRecOn with
  | nil => exact ⟨rfl, fun letter _ => by simp [lastSet], rfl⟩
  | append_singleton ds d ih =>
    rw [List.foldl_append, List.foldl_cons, List.foldl_nil]
    refine ⟨(nick_applyTo _).trans ih.nick, fun letter hletter => ?_,
      (others_applyTo _).trans ih.others⟩
    have hstep := hasMode_applyTo (d := d) (ds.foldl (applyTo status (fold member.nick)) member)
      hletter
    rw [ih.nick] at hstep
    rw [hstep, lastSet_snoc]
    split
    · simp
    · exact ih.letters letter hletter

/-! ## One channel -/

/-- What a change does to the channel it is for. -/
def applyIn (status : Status) (c : Channel) (d : ModeChange) : Channel :=
  match d.arg with
  | some nick =>
    if status.isMode d.mode then
      { c with members := c.members.adjust (fold nick) (·.setMode d.mode d.set status.modes) }
    else c
  | none => c

theorem name_applyIn : (applyIn status c d).name = c.name := by
  unfold applyIn
  split
  · split <;> rfl
  · rfl

theorem get?_applyIn :
    (applyIn status c d).members.get? who =
      (c.members.get? who).map (applyTo status who · d) := by
  unfold applyIn applyTo
  cases harg : d.arg with
  | none => simp
  | some nick =>
    cases hmode : status.isMode d.mode with
    | false => simp
    | true =>
      simp only [if_true, Table.get?_adjust, Option.any_some, Bool.true_and, beq_iff_eq]
      split
      · rfl
      · simp

theorem name_applyAll : (ds.foldl (applyIn status) c).name = c.name := by
  induction ds generalizing c with
  | nil => rfl
  | cons d ds ih => rw [List.foldl_cons, ih, name_applyIn]

theorem get?_applyAll :
    (ds.foldl (applyIn status) c).members.get? who =
      (c.members.get? who).map (ds.foldl (applyTo status who)) := by
  induction ds generalizing c with
  | nil => simp
  | cons d ds ih =>
    rw [List.foldl_cons, ih, get?_applyIn, Option.map_map]
    rfl

/-- Changes leave the members of a channel as the last of them for each letter says. -/
theorem remoded_applyAll (hc : c.members.All fun key m => key = fold m.nick)
    (ds : List ModeChange) : ChannelRemoded status ds c (ds.foldl (applyIn status) c) := by
  refine ⟨name_applyAll, fun who => ?_⟩
  rw [get?_applyAll]
  cases hmember : c.members.get? who with
  | none => exact .none
  | some member =>
    have hkey : who = fold member.nick := hc who member hmember
    subst hkey
    exact .some (remoded_applyTo member ds)

/-! ## All channels -/

theorem channels_applyStatus :
    (applyStatus status target t d).channels.get? key =
      if fold target = key then (t.channels.get? key).map (applyIn status · d)
      else t.channels.get? key := by
  unfold applyStatus applyIn
  cases d.arg with
  | none => simp
  | some nick =>
    cases status.isMode d.mode with
    | false => simp
    | true => exact Table.get?_adjust ..

theorem users_applyStatus : (applyStatus status target t d).users = t.users := by
  unfold applyStatus
  split
  · split <;> rfl
  · rfl

theorem channels_applyAll :
    (ds.foldl (applyStatus status target) t).channels.get? key =
      if fold target = key then (t.channels.get? key).map (ds.foldl (applyIn status))
      else t.channels.get? key := by
  induction ds generalizing t with
  | nil => simp
  | cons d ds ih =>
    rw [List.foldl_cons, ih, channels_applyStatus]
    split
    · rw [Option.map_map]
      rfl
    · rfl

theorem users_applyAll : (ds.foldl (applyStatus status target) t).users = t.users := by
  induction ds generalizing t with
  | nil => rfl
  | cons d ds ih => rw [List.foldl_cons, ih, users_applyStatus]

/-! ## Lines -/

/-- The tracker after a message that changes modes of somebody or something. -/
def remode (s : Session) (m : Message) (target : Text) : Tracker :=
  let t := s.tracker.observe (m.sender?.getD (.bare []))
  if s.isChannel target then
    (s.changesOf m).foldl (applyStatus s.isupport.status target) t
  else t

theorem react_mode (hv : m.Is .mode) : s.react m registered = s.onMode m := by
  simp only [react, numeric?_of_is hv, Verb.ofText?_eq_some_iff.2 hv]

/-- A line that changes modes says whose and which, or does nothing. -/
theorem handleLine_mode (s : Session) (registered : Nat) (hparse : Message.parse line = .ok m)
    (hv : m.Is .mode) :
    ((s.handleLine registered line).1 = s ∧ s.changesOf m = []) ∨
      ∃ target, m.arg? 0 = some target ∧
        (s.handleLine registered line).1 = { s with tracker := s.remode m target } := by
  by_cases hargs : m.args.length < 2
  · refine .inl ⟨?_, ?_⟩
    · have hnone : s.react m registered = none := (react_mode hv).trans (onMode_eq_none_iff.2 hargs)
      rw [handleLine_meaningless fun m' hm => by cases hparse.symm.trans hm; exact hnone]
    · rcases args_lt_two_iff.1 hargs with h | h
      · simp only [changesOf, h]
      · unfold changesOf
        split
        · next hmodes => cases h.symm.trans hmodes
        · rfl
  · rw [args_lt_two_iff, not_or] at hargs
    obtain ⟨target, htarget⟩ := Option.ne_none_iff_exists'.1 hargs.1
    obtain ⟨modes, hmodes⟩ := Option.ne_none_iff_exists'.1 hargs.2
    have hreact : s.react m registered = some ({ s with tracker := s.remode m target },
        .modeChange (m.sender?.getD (.bare [])) target (s.changesOf m)) := by
      simp only [react_mode hv, onMode, remode, changesOf, htarget, hmodes]
    exact .inr ⟨target, htarget, by rw [handleLine_of_react hparse hreact]⟩

theorem channels_observe {sender : Mask} : (t.observe sender).channels = t.channels := by
  unfold observe
  split <;> rfl

theorem users_observe {sender : Mask}
    (hkey : (t.observe sender).users.get? key ≠ t.users.get? key) :
    sender.isFull = true ∧ key = fold sender.nick := by
  unfold observe at hkey
  split at hkey
  · next hfull =>
    refine ⟨hfull, Classical.byContradiction fun hne => hkey ?_⟩
    exact Table.get?_insert_other _ _ (Ne.symm hne)
  · exact absurd rfl hkey

theorem channels_remode :
    (s.remode m target).channels.get? key =
      if s.isChannel target = true ∧ fold target = key then
        (s.tracker.channels.get? key).map ((s.changesOf m).foldl (applyIn s.isupport.status))
      else s.tracker.channels.get? key := by
  unfold remode
  by_cases honChannel : s.isChannel target = true
  · rw [if_pos honChannel, channels_applyAll, channels_observe]
    simp only [honChannel, true_and]
  · rw [if_neg honChannel, channels_observe, if_neg fun h => honChannel h.1]

theorem users_remode (hkey : (s.remode m target).users.get? key ≠ s.tracker.users.get? key) :
    ∃ sender, m.sender? = some sender ∧ sender.isFull = true ∧ key = fold sender.nick := by
  have hobserved : (s.remode m target).users =
      (s.tracker.observe (m.sender?.getD (.bare []))).users := by
    unfold remode
    split
    · exact users_applyAll
    · rfl
  rw [hobserved] at hkey
  obtain ⟨hfull, hnick⟩ := users_observe hkey
  cases hsender : m.sender? with
  | none =>
    -- a server without a name has no full mask
    rw [hsender] at hfull
    cases hfull
  | some sender =>
    rw [hsender] at hfull hnick
    exact ⟨sender, rfl, hfull, hnick⟩

theorem folded_remode (hf : s.tracker.Folded) : (s.remode m target).Folded := by
  have hsteps : Steadily s.tracker (s.remode m target) := by
    unfold remode
    split
    · exact steadily_observe.trans steadily_applyStatus
    · exact steadily_observe
  exact hsteps.1.keeps (fun _ _ => Change.folded) hf

/-- A channel that is tracked has its members' letters changed; one that is not stays so. -/
theorem rel_applyAll (hf : t.Folded) (ds : List ModeChange) :
    Option.Rel (ChannelRemoded status ds) (t.channel? target)
      ((t.channel? target).map (ds.foldl (applyIn status))) := by
  cases hc : t.channel? target with
  | none => exact .none
  | some c => exact .some (remoded_applyAll (hf.members _ c hc) ds)

/-- **The net effect of changing modes.** In a session whose tables are keyed by folded names, as
all that lines lead to are, a line that changes modes of a tracked channel leaves a member with a
letter of the announced status exactly if the last decoded change of that letter for the nick of
the member sets it, or there is none and the member had it before. Letters of no status, who is a
member and by which nick, other channels and all else in the session stay as they were, but for
the entry of the one who sent the line, under a full mask. -/
theorem mode_line_net_effect (s : Session) (registered : Nat) {line : Text} {m : Message}
    (hf : s.tracker.Folded) (hparse : Message.parse line = .ok m) (hmode : m.Is .mode) :
    let after := (s.handleLine registered line).1
    after = { s with tracker := after.tracker } ∧ after.tracker.Folded ∧
      (∀ target, m.arg? 0 = some target → s.isChannel target = true →
        Option.Rel (ChannelRemoded s.isupport.status (s.changesOf m))
          (s.tracker.channel? target) (after.tracker.channel? target)) ∧
      (∀ key, (∀ target, m.arg? 0 = some target → s.isChannel target = true →
          key ≠ fold target) →
        after.tracker.channels.get? key = s.tracker.channels.get? key) ∧
      ∀ key, after.tracker.users.get? key ≠ s.tracker.users.get? key →
        ∃ sender, m.sender? = some sender ∧ sender.isFull = true ∧ key = fold sender.nick := by
  intro after
  rcases handleLine_mode s registered hparse hmode with
      ⟨hafter, hnone⟩ | ⟨target, htarget, hafter⟩
  · have hsame : after = s := hafter
    rw [hsame]
    refine ⟨rfl, hf, fun target _ _ => ?_, fun _ _ => rfl, fun _ h => absurd rfl h⟩
    rw [hnone]
    simpa using rel_applyAll hf []
  · have hsame : after = { s with tracker := s.remode m target } := hafter
    rw [hsame]
    refine ⟨rfl, folded_remode hf, fun target' htarget' honChannel => ?_, fun key hother => ?_,
      fun _ => users_remode⟩
    · cases htarget.symm.trans htarget'
      have hchannel : (s.remode m target).channel? target =
          (s.tracker.channel? target).map ((s.changesOf m).foldl (applyIn s.isupport.status)) :=
        channels_remode.trans (if_pos ⟨honChannel, rfl⟩)
      show Option.Rel _ _ ((s.remode m target).channel? target)
      rw [hchannel]
      exact rel_applyAll hf _
    · rw [channels_remode, if_neg]
      rintro ⟨honChannel, rfl⟩
      exact hother target htarget honChannel rfl

/-- The bot and an operator in one channel. -/
def besideOperator : Session :=
  hear 4 { nick := "prebot".toList }
    ([":prebot!u@h JOIN #a", ":srv 353 prebot = #a :@alice prebot"].map String.toList)

/-- A change of modes that sets and clears letters of one member, by its nick in several cases. -/
def demotion : Message where
  source := some "srv".toList
  command := "MODE".toList
  middle := ["#a", "+bv-o+o-o", "*!*@h", "ALICE", "alice", "Alice", "alice"].map String.toList
  trailing := none

theorem exists_of_rel_some {α β : Type} {R : α → β → Prop} {a : α} {b? : Option β}
    (h : Option.Rel R (some a) b?) : ∃ b, b? = some b ∧ R a b := by
  cases h with
  | some h => exact ⟨_, rfl, h⟩

theorem mode_line_demotes_operator :
    let after := (besideOperator.handleLine 4 demotion.display).1
    besideOperator.tracker.Folded ∧ Message.parse demotion.display = .ok demotion ∧
      demotion.Is .mode ∧
      besideOperator.tracker.seat? "#a".toList "alice".toList = some ⟨"alice".toList, ['o']⟩ ∧
      ∃ c' member, after.tracker.channel? "#a".toList = some c' ∧
        c'.members.get? "alice".toList = some member ∧ member.nick = "alice".toList ∧
        member.hasMode 'o' = false ∧ member.hasMode 'v' = true := by
  intro after
  have hf : besideOperator.tracker.Folded :=
    (folded_grounded_hear { nick := "prebot".toList } 4 _).1
  have hparse : Message.parse demotion.display = .ok demotion := by decide +kernel
  have hseat : besideOperator.tracker.seat? "#a".toList "alice".toList =
      some ⟨"alice".toList, ['o']⟩ := by decide +kernel
  obtain ⟨-, -, htarget, -, -⟩ := mode_line_net_effect besideOperator 4 hf hparse (by decide)
  have hrel := htarget "#a".toList rfl (by decide +kernel)
  obtain ⟨c, hc, halice⟩ := seat?_eq_some_iff.1 hseat
  rw [show besideOperator.tracker.channel? "#a".toList = some c from hc] at hrel
  obtain ⟨c', hc', hremoded⟩ := exists_of_rel_some hrel
  obtain ⟨member, hmember, hlast⟩ :=
    exists_of_rel_some (halice ▸ hremoded.members "alice".toList)
  refine ⟨hf, hparse, by decide, hseat, c', member, hc', hmember, hlast.nick, ?_, ?_⟩
  · rw [← Bool.not_eq_true, hlast.letters 'o' (by decide +kernel)]
    decide +kernel
  · rw [hlast.letters 'v' (by decide +kernel)]
    decide +kernel

end IrcBot.Session
