/-
The tables of users and channels over any lines. A line that asks for no
renaming takes the tracker through a chain of changes; a line that does, records
its sender and renames it. So from a fresh session on every member stays backed
by an entry among the users, up to the first renaming that overwrites another
member's entry.
-/
import IrcBot.Proofs.Session.Reactions
import IrcBot.Proofs.Tracker.Channels

namespace IrcBot.Session

open Tracker

/-- The sender and the new nick of a line that asks for a renaming. -/
def renaming? (line : Text) : Option (Mask × Text) := do
  let m ← (Message.parse line).toOption
  if Verb.ofText? m.command = some .nick then
    let sender ← m.sender?
    let new ← m.arg? 0
    pure (sender, new)
  else none

/-- The sender and the first parameter of a line that gives a command. -/
def asking? (v : Verb) (line : Text) : Option (Mask × Text) := do
  let m ← (Message.parse line).toOption
  if Verb.ofText? m.command = some v then
    let sender ← m.sender?
    let arg ← m.arg? 0
    pure (sender, arg)
  else none

/-- The session after some lines. -/
def hear (registered : Nat) (s : Session) (lines : List Text) : Session :=
  lines.foldl (fun s line => (s.handleLine registered line).1) s

variable {s s' : Session} {m : Message} {registered : Nat} {line : Text} {what : Occurrence}

/-! ## One message -/

theorem steadily_nameEntry {status : Status} {channel : Text} {t : Tracker} {entry : Text} :
    Steadily t (nameEntry status channel t entry) := by
  simp only [nameEntry]
  split
  · split
    · exact (Steadily.addMember ..).trans (.update ..)
    · exact .addMember ..
  · exact .refl

theorem steadily_names : Steadily s.tracker (s.names m).tracker := by
  unfold names
  split
  · next channel list _ _ =>
    simp only
    generalize s.tracker = t
    induction (Text.splitBy (· == ' ') list).filter (· != []) generalizing t with
    | nil => exact .refl
    | cons entry entries ih => exact steadily_nameEntry.trans (ih _)
  · exact .refl

theorem steadily_learn {code : Nat} : Steadily s.tracker (s.learn m code).tracker := by
  unfold learn
  split
  · exact .refl
  · exact .refl
  · exact steadily_names
  · exact .refl

theorem tracker_register {code : Nat} : (s.register registered code).tracker = s.tracker := by
  unfold register
  split <;> rfl

theorem steadily_observe {t : Tracker} {sender : Mask} : Steadily t (t.observe sender) := by
  unfold observe
  split
  · exact .update t sender
  · exact .refl

theorem changes_depart {t : Tracker} {channel nick : Text} :
    Changes t (s.depart t channel nick) := by
  unfold depart
  split
  · exact .single (.removeChannel t channel)
  · exact .single (.removeMember t channel nick)

theorem steadily_applyStatus {status : Status} {channel : Text} {t : Tracker}
    {changes : List ModeChange} :
    Steadily t (changes.foldl (applyStatus status channel) t) := by
  induction changes generalizing t with
  | nil => exact .refl
  | cons c changes ih =>
    refine Steadily.trans ?_ ih
    unfold applyStatus
    split
    · split
      · exact .setMemberMode ..
      · exact .refl
    · exact .refl

theorem steadily_onNumeric {code : Nat} (h : s.onNumeric m registered code = some (s', what)) :
    Steadily s.tracker s'.tracker := by
  cases h
  rw [tracker_register]
  exact steadily_learn

theorem steadily_onText {isNotice : Bool} (h : s.onText m isNotice = some (s', what)) :
    Steadily s.tracker s'.tracker := by
  unfold onText at h
  split at h
  · split at h
    · cases h
      exact steadily_observe
    · cases h
  · cases h

/-- Once the bot's own channel is added, somebody who joins is added to it and recorded. -/
theorem steadily_onJoin {sender : Mask} {channel : Text} (hsender : m.sender? = some sender)
    (hchannel : m.arg? 0 = some channel) (h : s.onJoin m = some (s', what)) :
    Steadily (if s.isMe sender.nick then s.tracker.addChannel channel else s.tracker)
      s'.tracker := by
  simp only [onJoin, hsender, hchannel] at h
  cases h
  exact (Steadily.addMember ..).trans (.update ..)

theorem changes_onJoin (h : s.onJoin m = some (s', what)) : Changes s.tracker s'.tracker := by
  cases hsender : m.sender? with
  | none => simp [onJoin, hsender] at h
  | some sender =>
    cases hchannel : m.arg? 0 with
    | none => simp [onJoin, hsender, hchannel] at h
    | some channel =>
      refine Relation.ReflTransGen.trans ?_ (steadily_onJoin hsender hchannel h).1
      split
      · exact .single (.addChannel ..)
      · exact .refl

theorem changes_onPart (h : s.onPart m = some (s', what)) : Changes s.tracker s'.tracker := by
  unfold onPart at h
  split at h
  · cases h
    exact .head (.update ..) changes_depart
  · cases h

theorem changes_onKick (h : s.onKick m = some (s', what)) : Changes s.tracker s'.tracker := by
  unfold onKick at h
  split at h
  · cases h
    exact .head (.update ..) changes_depart
  · cases h

theorem steadily_onQuit (h : s.onQuit m = some (s', what)) : Steadily s.tracker s'.tracker := by
  unfold onQuit at h
  obtain ⟨sender, -, h⟩ := Option.map_eq_some_iff.1 h
  cases h
  exact (Steadily.update ..).trans (.removeUser ..)

theorem steadily_onMode (h : s.onMode m = some (s', what)) : Steadily s.tracker s'.tracker := by
  unfold onMode at h
  split at h
  · cases h
    simp only
    split
    · exact steadily_observe.trans steadily_applyStatus
    · exact steadily_observe
  · cases h

/-- A message other than a renaming changes the tracker one operation at a time. -/
theorem changes_react (hverb : Verb.ofText? m.command ≠ some .nick)
    (h : s.react m registered = some (s', what)) : Changes s.tracker s'.tracker := by
  unfold react at h
  split at h
  · exact (steadily_onNumeric h).1
  · split at h
    · cases h; exact .refl
    · cases h; exact .refl
    · exact (steadily_onText h).1
    · exact (steadily_onText h).1
    · exact changes_onJoin h
    · exact changes_onPart h
    · exact changes_onKick h
    · exact (steadily_onQuit h).1
    · next hnick => exact absurd hnick hverb
    · exact (steadily_onMode h).1
    · cases h

theorem react_nick (h : Verb.ofText? m.command = some .nick) :
    s.react m registered = s.onNick m := by
  simp only [react, numeric?_of_is (Verb.ofText?_eq_some_iff.1 h), h]

/-! ## Lines -/

theorem asking?_eq_some_iff {v : Verb} {sender : Mask} {arg : Text} :
    asking? v line = some (sender, arg) ↔
      ∃ m, Message.parse line = .ok m ∧ m.Is v ∧ m.sender? = some sender ∧ m.arg? 0 = some arg := by
  unfold asking?
  cases hparse : Message.parse line with
  | error e => simp [Except.toOption]
  | ok m =>
    simp only [Except.toOption, Option.bind_eq_bind, Option.bind_some, Verb.ofText?_eq_some_iff,
      Except.ok.injEq, exists_eq_left', Option.ite_none_right_eq_some, Option.bind_eq_some_iff,
      Option.pure_def, Option.some.injEq, Prod.mk.injEq]
    refine and_congr_right fun _ => ?_
    constructor
    · rintro ⟨_, hsender, _, harg, rfl, rfl⟩
      exact ⟨hsender, harg⟩
    · rintro ⟨hsender, harg⟩
      exact ⟨_, hsender, _, harg, rfl, rfl⟩

theorem renaming?_eq_some_iff {sender : Mask} {new : Text} :
    renaming? line = some (sender, new) ↔
      ∃ m, Message.parse line = .ok m ∧ m.Is .nick ∧ m.sender? = some sender ∧
        m.arg? 0 = some new :=
  asking?_eq_some_iff

theorem renaming?_eq_some {sender : Mask} {new : Text} (hparse : Message.parse line = .ok m)
    (hnick : m.Is .nick) (hsender : m.sender? = some sender) (hnew : m.arg? 0 = some new) :
    renaming? line = some (sender, new) :=
  renaming?_eq_some_iff.2 ⟨m, hparse, hnick, hsender, hnew⟩

/-- A renaming without sender or without new nick means nothing. -/
theorem onNick_of_not_renaming (hparse : Message.parse line = .ok m) (hnick : m.Is .nick)
    (hline : renaming? line = none) : s.onNick m = none := by
  unfold onNick
  split
  · next hsender hnew => cases (renaming?_eq_some hparse hnick hsender hnew).symm.trans hline
  · rfl

/-- A joining without sender or without channel means nothing either. -/
theorem onJoin_of_not_joining (hparse : Message.parse line = .ok m) (hjoin : m.Is .join)
    (hline : asking? .join line = none) : s.onJoin m = none := by
  unfold onJoin
  split
  · next hsender hchannel =>
    cases (asking?_eq_some_iff.2 ⟨m, hparse, hjoin, hsender, hchannel⟩).symm.trans hline
  · rfl

theorem changes_handleLine (h : renaming? line = none) :
    Changes s.tracker (s.handleLine registered line).1.tracker := by
  rcases handleLine_cases (s := s) with hafter | ⟨m, reaction, hparse, hreact, hafter⟩
  · rw [hafter]
  · rw [hafter]
    refine changes_react (fun hverb => ?_) hreact
    rw [react_nick hverb, onNick_of_not_renaming hparse (Verb.ofText?_eq_some_iff.1 hverb) h]
      at hreact
    cases hreact

theorem handleLine_renaming {sender : Mask} {new : Text} (h : renaming? line = some (sender, new)) :
    (s.handleLine registered line).1.tracker =
      (s.tracker.update sender).rename sender.nick new := by
  obtain ⟨m, hparse, hnick, hsender, hnew⟩ := renaming?_eq_some_iff.1 h
  simp only [handleLine, hparse, react_nick (Verb.ofText?_eq_some_iff.2 hnick), onNick, hsender,
    hnew]

/-- What a line that asks to join a channel does to the tracker. -/
theorem handleLine_joining {sender : Mask} {channel : Text}
    (h : asking? .join line = some (sender, channel)) :
    (s.handleLine registered line).1.tracker =
      ((if s.isMe sender.nick then s.tracker.addChannel channel else s.tracker).addMember channel
        sender.nick []).update sender := by
  obtain ⟨m, hparse, hjoin, hsender, hchannel⟩ := asking?_eq_some_iff.1 h
  simp only [handleLine, hparse, react, numeric?_of_is hjoin, Verb.ofText?_eq_some_iff.2 hjoin,
    onJoin, hsender, hchannel]

theorem overwrites_update {t : Tracker} {sender : Mask} {old new : Text} :
    (t.update sender).Overwrites old new ↔ t.Overwrites old new := by
  simp only [Overwrites, lists_update]
  rfl

/-- A line keeps the members backed unless it renames onto the entry of another member. -/
theorem backed_handleLine (hk : s.tracker.Keyed) (hb : s.tracker.Backed) :
    (s.handleLine registered line).1.tracker.Backed ↔
      ∀ sender new, renaming? line = some (sender, new) →
        ¬ s.tracker.Overwrites sender.nick new := by
  cases hline : renaming? line with
  | none =>
    have hchanges : Changes s.tracker (s.handleLine registered line).1.tracker :=
      changes_handleLine hline
    simp [(hchanges.sound ⟨hk, hb⟩).2]
  | some asked =>
    obtain ⟨sender, new⟩ := asked
    have hupdate := Change.update s.tracker sender
    rw [handleLine_renaming hline,
      backed_rename (hupdate.keyed hk) (hupdate.backed hk hb)
        (Option.isSome_of_eq_some user?_update), overwrites_update]
    simp

theorem keyed_handleLine (hk : s.tracker.Keyed) :
    (s.handleLine registered line).1.tracker.Keyed := by
  cases hline : renaming? line with
  | none => exact (changes_handleLine hline).keyed hk
  | some asked =>
    rw [handleLine_renaming hline]
    exact ((Change.update s.tracker _).keyed hk).rename

theorem hear_take_succ {lines : List Text} {n : Nat} (h : lines[n]? = some line) :
    s.hear registered (lines.take (n + 1)) =
      ((s.hear registered (lines.take n)).handleLine registered line).1 := by
  simp [hear, List.take_add_one, h]

theorem hear_take_succ_none {lines : List Text} {n : Nat} (h : lines[n]? = none) :
    s.hear registered (lines.take (n + 1)) = s.hear registered (lines.take n) := by
  simp [List.take_add_one, h]

/-- What every line keeps where it stands holds at every point. -/
theorem hear_take_keeps {P : Session → Prop} {lines : List Text} (hs : P s)
    (hstep : ∀ n line, lines[n]? = some line → P (s.hear registered (lines.take n)) →
      P (s.hear registered (lines.take (n + 1)))) (n : Nat) :
    P (s.hear registered (lines.take n)) := by
  induction n with
  | zero => exact hs
  | succ n ih =>
    cases hline : lines[n]? with
    | none => rwa [hear_take_succ_none hline]
    | some line => exact hstep n line hline ih

/-- What a line breaks exactly if it is bad where it stands holds at every point exactly if no line
is bad. -/
theorem hear_take_iff_of_step {P : Session → Prop} {Bad : Session → Text → Prop}
    {lines : List Text} (hs : P s)
    (hstep : ∀ n line, lines[n]? = some line → P (s.hear registered (lines.take n)) →
      (P (s.hear registered (lines.take (n + 1))) ↔
        ¬ Bad (s.hear registered (lines.take n)) line)) :
    (∀ n, P (s.hear registered (lines.take n))) ↔
      ∀ n line, lines[n]? = some line → ¬ Bad (s.hear registered (lines.take n)) line := by
  constructor
  · intro h n line hline
    exact (hstep n line hline (h n)).1 (h (n + 1))
  · intro h
    exact hear_take_keeps hs fun n line hline hn => (hstep n line hline hn).2 (h n line hline)

/-- What bad lines break and all others keep holds at every point exactly if no line is bad. -/
theorem hear_take_iff {P : Session → Prop} {Bad : Session → Text → Prop} {lines : List Text}
    (hs : P s) (hstep : ∀ s line, P s → (P (s.handleLine registered line).1 ↔ ¬ Bad s line)) :
    (∀ n, P (s.hear registered (lines.take n))) ↔
      ∀ n line, lines[n]? = some line → ¬ Bad (s.hear registered (lines.take n)) line := by
  refine hear_take_iff_of_step hs fun n line hline hn => ?_
  rw [hear_take_succ hline]
  exact hstep _ line hn

theorem keyed_hear {lines : List Text} (hk : s.tracker.Keyed) :
    (s.hear registered lines).tracker.Keyed := by
  induction lines generalizing s with
  | nil => exact hk
  | cons line lines ih => exact ih (keyed_handleLine hk)

/-- **Members are backed until a renaming overwrites one.** From a fresh session
on, whatever lines come, every member of every tracked channel has an entry among
the users that lists the channel, at every point, exactly when no line renames its
sender to a nick that is a member of a channel the sender is not listed in. -/
theorem members_backed_iff (s : Session) (registered : Nat) (lines : List Text) :
    (∀ n, (hear registered { s with tracker := .empty } (lines.take n)).tracker.Backed) ↔
      ∀ n line sender new, lines[n]? = some line → renaming? line = some (sender, new) →
        ¬ (hear registered { s with tracker := .empty } (lines.take n)).tracker.Overwrites
          sender.nick new := by
  have hkeyed (n : Nat) :
      (hear registered { s with tracker := .empty } (lines.take n)).tracker.Keyed :=
    keyed_hear keyed_empty
  constructor
  · intro h n line sender new hline
    have hnext := h (n + 1)
    rw [hear_take_succ hline] at hnext
    exact (backed_handleLine (hkeyed n) (h n)).1 hnext sender new
  · intro h n
    induction n with
    | zero => exact backed_empty
    | succ n ih =>
      cases hline : lines[n]? with
      | none =>
        rw [List.take_of_length_le (Nat.le_succ_of_le (List.getElem?_eq_none_iff.1 hline))]
        rwa [List.take_of_length_le (List.getElem?_eq_none_iff.1 hline)] at ih
      | some line =>
        rw [hear_take_succ hline]
        exact (backed_handleLine (hkeyed n) ih).2 fun sender new => h n line sender new hline

/-- The bot is in two channels, with another nick in each; then one takes the other's nick. -/
def takeover : List Text :=
  [":bot!u@h JOIN #a", ":bot!u@h JOIN #b", ":alice!u@h JOIN #a", ":bob!u@h JOIN #b",
    ":alice!u@h NICK bob"].map String.toList

theorem members_not_backed_after_takeover :
    ¬ ∀ n, (hear 4 { nick := "bot".toList } (takeover.take n)).tracker.Backed := by
  intro h
  have hheld : ((hear 4 { nick := "bot".toList } takeover).tracker.channels.get? "#b".toList).any
      (fun c => c.name == "#b".toList && c.members.contains "bob".toList) = true := by
    decide +kernel
  have hunlisted :
      ((hear 4 { nick := "bot".toList } takeover).tracker.users.get? "bob".toList).any
        (·.channels.contains "#b".toList) = false := by
    decide +kernel
  obtain ⟨c, hc, hin⟩ := (Option.any_eq_true _ _).1 hheld
  rw [Bool.and_eq_true, beq_iff_eq] at hin
  obtain ⟨u, hu, hlists⟩ := h 5 _ c _ hc hin.2
  rw [hin.1] at hlists
  have hnot := (Option.any_eq_false _ _).1 hunlisted u hu
  exact Bool.false_ne_true (hnot.symm.trans hlists)

end IrcBot.Session
