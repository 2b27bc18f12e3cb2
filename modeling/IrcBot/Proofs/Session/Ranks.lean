/-
The letters of members over any lines. What is set and cleared by name goes to its rank, but a
list of names is taken as it comes: the letters of a member are those of the symbols in front of
it, in the order the server has put them there and as often. So where the announced status does
not change, all members stay ranked exactly as long as no list of names leaves somebody with
symbols out of order (`modes_ranked_iff`).
-/
import IrcBot.Proofs.Server.Status
import IrcBot.Proofs.Session.Membership
import IrcBot.Proofs.Session.Registration
import IrcBot.Proofs.Tracker.Ranks
import Mathlib.Data.List.Infix

namespace IrcBot.Session

open Tracker

/-- The channel and the entries of a list of names, if a message is one. -/
def listing (m : Message) : Option (Text × List Text) := do
  let channel ← m.middle.getLast?
  let list ← m.trailing
  pure (channel, (Text.splitBy (· == ' ') list).filter (· != []))

/-- The channel and the entries of the list of names that a line is. -/
def listing? (line : Text) : Option (Text × List Text) := do
  let m ← (Message.parse line).toOption
  let code ← m.numeric?
  if Reply.ofCode? code = some .namReply then listing m else none

/-- Whom an entry in a list of names is about. -/
def entryNick (status : Status) (entry : Text) : Text := (Mask.parse (status.strip entry).2).nick

/-- The last entry about somebody. -/
def lastOf? (status : Status) (entries : List Text) (who : Text) : Option Text :=
  (entries.filter fun entry => fold (entryNick status entry) = who).getLast?

/-- The line is a list of names of a tracked channel, and the last that it says of somebody has
symbols out of order, or one of them twice. -/
def Disorders (s : Session) (line : Text) : Prop :=
  ∃ channel entries, listing? line = some (channel, entries) ∧
    s.tracker.hasChannel channel = true ∧
    ∃ entry ∈ entries,
      lastOf? s.isupport.status entries (fold (entryNick s.isupport.status entry)) =
        some entry ∧
      ¬ (entry.takeWhile s.isupport.status.isSymbol).Sublist s.isupport.status.symbols

instance (s : Session) (line : Text) : Decidable (s.Disorders line) :=
  match h : listing? line with
  | none => .isFalse fun ⟨_, _, hsome, _⟩ => by cases h.symm.trans hsome
  | some (channel, entries) =>
    decidable_of_iff (s.tracker.hasChannel channel = true ∧
      ∃ entry ∈ entries,
        lastOf? s.isupport.status entries (fold (entryNick s.isupport.status entry)) =
          some entry ∧
        ¬ (entry.takeWhile s.isupport.status.isSymbol).Sublist s.isupport.status.symbols)
      (by simp [Disorders, h])

variable {s s' : Session} {m : Message} {registered : Nat} {line : Text} {what : Occurrence}
variable {t : Tracker} {status : Status} {channel key who rank : Text}

/-! ## Lists of names -/

/-- The member that an entry makes. -/
def entryMember (status : Status) (entry : Text) : Member :=
  { nick := entryNick status entry, modes := (status.strip entry).1 }

theorem hasChannel_nameEntry (entry : Text) :
    (nameEntry status channel t entry).hasChannel channel = t.hasChannel channel := by
  have hsteady : Steadily t (nameEntry status channel t entry) := steadily_nameEntry
  exact hsteady.2 (fold channel)

theorem seat?_nameEntry (htracked : t.hasChannel channel = true) (entry : Text) :
    (nameEntry status channel t entry).seat? key who =
      if key = fold channel ∧ who = fold (entryNick status entry) then
        some (entryMember status entry)
      else t.seat? key who := by
  have hadded : (t.addMember channel (entryNick status entry) (status.strip entry).1).seat?
      key who =
        if key = fold channel ∧ who = fold (entryNick status entry) then
          some (entryMember status entry)
        else t.seat? key who := by
    rw [seat?_addMember]
    simp only [htracked, true_and, entryMember]
  simp only [nameEntry, htracked, if_true]
  split
  · exact hadded
  · exact hadded

theorem lastOf?_spec {entries : List Text} {entry : Text}
    (h : lastOf? status entries who = some entry) :
    entry ∈ entries ∧ fold (entryNick status entry) = who := by
  simpa using List.mem_filter.1 (List.mem_of_getLast? h)

theorem lastOf?_cons (entry : Text) (entries : List Text) :
    lastOf? status (entry :: entries) who = (lastOf? status entries who).or
      (if fold (entryNick status entry) = who then some entry else none) := by
  unfold lastOf?
  rw [List.filter_cons]
  by_cases hwho : fold (entryNick status entry) = who
  · simp only [hwho, decide_true, if_true, List.getLast?_cons]
    cases (entries.filter fun entry => fold (entryNick status entry) = who).getLast? <;> rfl
  · simp [hwho]

/-- After a list of names everybody in it sits as the last entry about him says, and everybody
else as before. -/
theorem seat?_names (htracked : t.hasChannel channel = true) (entries : List Text) :
    (entries.foldl (nameEntry status channel) t).seat? key who =
      if key = fold channel then
        ((lastOf? status entries who).map (entryMember status)).or (t.seat? key who)
      else t.seat? key who := by
  induction entries generalizing t with
  | nil => simp [lastOf?]
  | cons entry entries ih =>
    rw [List.foldl_cons, ih ((hasChannel_nameEntry entry).trans htracked), lastOf?_cons,
      seat?_nameEntry htracked]
    by_cases hkey : key = fold channel
    · subst hkey
      by_cases hwho : fold (entryNick status entry) = who
      · cases lastOf? status entries who <;> simp [hwho]
      · cases lastOf? status entries who <;> simp [hwho, Ne.symm hwho]
    · simp [hkey]

theorem names_untracked (huntracked : ¬ t.hasChannel channel = true) (entries : List Text) :
    entries.foldl (nameEntry status channel) t = t := by
  induction entries with
  | nil => rfl
  | cons entry entries ih =>
    have hsame : nameEntry status channel t entry = t := by
      simp only [nameEntry]
      rw [if_neg huntracked]
    rw [List.foldl_cons, hsame, ih]

theorem tracker_names : (s.names m).tracker = match listing m with
    | some (channel, entries) => entries.foldl (nameEntry s.isupport.status channel) s.tracker
    | none => s.tracker := by
  unfold names listing
  cases m.middle.getLast? <;> cases m.trailing <;> rfl

theorem of_listing? {listed : Text × List Text} (h : listing? line = some listed) :
    ∃ m code, Message.parse line = .ok m ∧ m.numeric? = some code ∧
      Reply.ofCode? code = some .namReply ∧ listing m = some listed := by
  unfold listing? at h
  obtain ⟨m, hm, h⟩ := Option.bind_eq_some_iff.1 h
  obtain ⟨code, hcode, h⟩ := Option.bind_eq_some_iff.1 h
  rw [Option.ite_none_right_eq_some] at h
  obtain ⟨hreply, hlisting⟩ := h
  have hparse : Message.parse line = .ok m := by
    cases hparse : Message.parse line with
    | error e => rw [hparse] at hm; cases hm
    | ok m' => rw [hparse] at hm; cases hm; rfl
  exact ⟨m, code, hparse, hcode, hreply, hlisting⟩

/-- What a line does to the tracker if it is a list of names. -/
theorem tracker_listing {entries : List Text} (h : listing? line = some (channel, entries)) :
    (s.handleLine registered line).1.tracker =
      entries.foldl (nameEntry s.isupport.status channel) s.tracker := by
  obtain ⟨m, code, hparse, hcode, hreply, hlisting⟩ := of_listing? h
  rw [handleLine_of_react hparse (react_numeric hcode), tracker_register]
  simp only [learn, hreply, tracker_names, hlisting]

/-! ## Everything else -/

section EachSeat

variable {P : Text → Text → Member → Prop} (h : s.tracker.EachSeat P)

theorem eachSeat_applyStatus (hset : ∀ key who m mode set, mode ∈ status.modes → P key who m →
      P key who (m.setMode mode set status.modes)) (h : t.EachSeat P)
    (changes : List ModeChange) : (changes.foldl (applyStatus status channel) t).EachSeat P := by
  induction changes generalizing t with
  | nil => exact h
  | cons c changes ih =>
    refine ih ?_
    unfold applyStatus
    split
    · split
      · next hmode =>
        exact h.setMemberMode fun key who m => hset key who m _ _ (List.contains_iff_mem.1 hmode)
      · exact h
    · exact h

theorem eachSeat_depart {nick : Text} (h : t.EachSeat P) :
    (s.depart t channel nick).EachSeat P := by
  unfold depart
  split
  · exact h.removeChannel
  · exact h.removeMember

include h

theorem eachSeat_onText {isNotice : Bool} (hreact : s.onText m isNotice = some (s', what)) :
    s'.tracker.EachSeat P := by
  unfold onText at hreact
  split at hreact
  · split at hreact
    · cases hreact
      exact h.observe _
    · cases hreact
  · cases hreact

theorem eachSeat_onPart (hreact : s.onPart m = some (s', what)) : s'.tracker.EachSeat P := by
  unfold onPart at hreact
  split at hreact
  · cases hreact
    exact eachSeat_depart h
  · cases hreact

theorem eachSeat_onKick (hreact : s.onKick m = some (s', what)) : s'.tracker.EachSeat P := by
  unfold onKick at hreact
  split at hreact
  · cases hreact
    exact eachSeat_depart h
  · cases hreact

theorem eachSeat_onQuit (hreact : s.onQuit m = some (s', what)) : s'.tracker.EachSeat P := by
  unfold onQuit at hreact
  obtain ⟨sender, -, hreact⟩ := Option.map_eq_some_iff.1 hreact
  cases hreact
  exact EachSeat.removeUser h

variable (hset : ∀ key who m mode set, mode ∈ s.isupport.status.modes → P key who m →
  P key who (m.setMode mode set s.isupport.status.modes))

include hset

theorem eachSeat_onMode (hreact : s.onMode m = some (s', what)) : s'.tracker.EachSeat P := by
  unfold onMode at hreact
  split at hreact
  · cases hreact
    simp only
    split
    · exact eachSeat_applyStatus hset (h.observe _) _
    · exact h.observe _
  · cases hreact

theorem eachSeat_react (hjoin : Verb.ofText? m.command = some .join → s.onJoin m = none)
    (hnick : Verb.ofText? m.command = some .nick → s.onNick m = none)
    (hnames : ∀ code, m.numeric? = some code → Reply.ofCode? code = some .namReply →
      listing m = none) (hreact : s.react m registered = some (s', what)) :
    s'.tracker.EachSeat P := by
  unfold react at hreact
  split at hreact
  · next code hcode =>
    cases hreact
    rw [tracker_register]
    unfold learn
    split
    · exact h
    · exact h
    · next hreply =>
      rw [tracker_names, hnames code hcode hreply]
      exact h
    · exact h
  · split at hreact
    · cases hreact; exact h
    · cases hreact; exact h
    · exact eachSeat_onText h hreact
    · exact eachSeat_onText h hreact
    · next hverb => cases (hjoin hverb).symm.trans hreact
    · exact eachSeat_onPart h hreact
    · exact eachSeat_onKick h hreact
    · exact eachSeat_onQuit h hreact
    · next hverb => cases (hnick hverb).symm.trans hreact
    · exact eachSeat_onMode h hset hreact
    · cases hreact

end EachSeat

/-! ## Lines -/

/-- A line that is no joining, no renaming and no list of names keeps what holds of every seat,
whatever letters are set and cleared. -/
theorem eachSeat_handleLine {P : Text → Text → Member → Prop} (h : s.tracker.EachSeat P)
    (hset : ∀ key who m mode set, mode ∈ s.isupport.status.modes → P key who m →
      P key who (m.setMode mode set s.isupport.status.modes))
    (hjoin : asking? .join line = none) (hnick : renaming? line = none)
    (hnames : listing? line = none) :
    (s.handleLine registered line).1.tracker.EachSeat P := by
  rcases handleLine_cases (s := s) with hafter | ⟨m, reaction, hparse, hreact, hafter⟩
  · rw [hafter]
    exact h
  · rw [hafter]
    refine eachSeat_react h hset (fun hverb => ?_) (fun hverb => ?_) (fun code hcode hreply => ?_)
      hreact
    · rw [Verb.ofText?_eq_some_iff] at hverb
      exact onJoin_of_not_joining hparse hverb hjoin
    · rw [Verb.ofText?_eq_some_iff] at hverb
      exact onNick_of_not_renaming hparse hverb hnick
    · simpa [listing?, hparse, Except.toOption, hcode, hreply] using hnames

theorem ranked_handleLine_other (hrank : s.isupport.status.modes.Nodup)
    (hr : s.tracker.Ranked s.isupport.status.modes) (hline : listing? line = none) :
    (s.handleLine registered line).1.tracker.Ranked s.isupport.status.modes := by
  cases hjoin : asking? .join line with
  | some asked =>
    rw [handleLine_joining hjoin]
    refine EachSeat.addMember ?_ (List.nil_sublist _)
    split
    · exact EachSeat.addChannel hr
    · exact hr
  | none =>
    cases hnick : renaming? line with
    | some asked =>
      rw [handleLine_renaming hnick]
      exact Ranked.rename hr
    | none =>
      exact eachSeat_handleLine (P := fun _ _ m => m.modes.Sublist s.isupport.status.modes) hr
        (fun _ _ _ _ _ hmode hm => Member.setMode_sublist hrank hm hmode) hjoin hnick hline

/-- A line keeps the members ranked unless it is a list of names with symbols out of order. -/
theorem ranked_handleLine (hpaired : s.isupport.status.Paired)
    (hr : s.tracker.Ranked s.isupport.status.modes) :
    (s.handleLine registered line).1.tracker.Ranked s.isupport.status.modes ↔
      ¬ s.Disorders line := by
  cases hline : listing? line with
  | none =>
    refine iff_of_true (ranked_handleLine_other hpaired.modes hr hline) ?_
    rintro ⟨_, _, hsome, -⟩
    cases hline.symm.trans hsome
  | some listed =>
    obtain ⟨channel, entries⟩ := listed
    rw [tracker_listing hline]
    by_cases htracked : s.tracker.hasChannel channel = true
    · rw [ranked_iff] at hr ⊢
      simp only [seat?_names htracked]
      constructor
      · rintro h ⟨_, _, hsome, -, entry, -, hlast, hsymbols⟩
        cases hline.symm.trans hsome
        refine hsymbols (hpaired.strip_sublist_iff.1 ?_)
        exact h (fold channel) (fold (entryNick s.isupport.status entry)) (entryMember _ entry)
          (by simp [hlast])
      · intro h key who m hseat
        split at hseat
        · cases hlast : lastOf? s.isupport.status entries who with
          | none =>
            rw [hlast, Option.map_none, Option.none_or] at hseat
            exact hr key who m hseat
          | some entry =>
            rw [hlast, Option.map_some, Option.some_or] at hseat
            cases hseat
            obtain ⟨hmem, rfl⟩ := lastOf?_spec hlast
            refine hpaired.strip_sublist_iff.2 (Classical.not_not.1 fun hsymbols => ?_)
            exact h ⟨channel, entries, hline, htracked, entry, hmem, hlast, hsymbols⟩
        · exact hr key who m hseat
    · rw [names_untracked htracked]
      refine iff_of_true hr ?_
      rintro ⟨_, _, hsome, htracked', -⟩
      cases hline.symm.trans hsome
      exact htracked htracked'

/-- **Members are ranked until a list of names disorders one.** Take a fresh session in which
letters and symbols of the announced status are distinct, and any lines that leave this status in
force. At every point every member has its letters in the announced order and none of them twice,
exactly when no line is a list of names of a tracked channel that has somebody last with symbols
out of order, or with one symbol twice. -/
theorem modes_ranked_iff (s : Session) (registered : Nat) (lines : List Text)
    (hmodes : s.isupport.status.modes.Nodup) (hsymbols : s.isupport.status.symbols.Nodup)
    (hkept : ∀ n, (hear registered { s with tracker := .empty }
      (lines.take n)).isupport.status = s.isupport.status) :
    (∀ n key c, (hear registered { s with tracker := .empty }
        (lines.take n)).tracker.channels.get? key = some c →
      ∀ who m, c.members.get? who = some m → m.modes.Sublist s.isupport.status.modes) ↔
    ∀ n line, lines[n]? = some line →
      ¬ (hear registered { s with tracker := .empty } (lines.take n)).Disorders line := by
  have hpaired : s.isupport.status.Paired := ⟨hmodes, hsymbols, s.isupport.length_status⟩
  show (∀ n, (hear registered { s with tracker := .empty } (lines.take n)).tracker.Ranked
    s.isupport.status.modes) ↔ _
  have hstep (n : Nat) (line : Text) (hline : lines[n]? = some line)
      (hr : (hear registered { s with tracker := .empty } (lines.take n)).tracker.Ranked
        s.isupport.status.modes) :
      (hear registered { s with tracker := .empty } (lines.take (n + 1))).tracker.Ranked
        s.isupport.status.modes ↔
      ¬ (hear registered { s with tracker := .empty } (lines.take n)).Disorders line := by
    have hstatus := hkept n
    rw [hear_take_succ hline, ← hstatus]
    rw [← hstatus] at hr hpaired
    exact ranked_handleLine hpaired hr
  constructor
  · intro h n line hline
    exact (hstep n line hline (h n)).1 (h (n + 1))
  · intro h n
    induction n with
    | zero => exact ranked_empty
    | succ n ih =>
      cases hline : lines[n]? with
      | none =>
        rw [List.take_of_length_le (Nat.le_succ_of_le (List.getElem?_eq_none_iff.1 hline))]
        rwa [List.take_of_length_le (List.getElem?_eq_none_iff.1 hline)] at ih
      | some line => exact (hstep n line hline ih).2 (h n line hline)

/-- The bot joins a channel, and is told that a voiced operator is there, voice first. -/
def voiceFirst : List Text :=
  [":prebot!u@h JOIN #a", ":srv 353 prebot = #a :+@alice"].map String.toList

theorem modes_out_of_order_after_names :
    let s := hear 4 { nick := "prebot".toList } voiceFirst
    s.isupport.status = .default ∧
      s.tracker.seat? "#a".toList "alice".toList = some ⟨"alice".toList, ['v', 'o']⟩ ∧
      ¬ ['v', 'o'].Sublist Status.default.modes := by
  decide +kernel

/-- Somebody is listed three times in a list of names, at last in order; then modes change. -/
def orderRestored : List Text :=
  [":prebot!u@h JOIN #a", ":srv 353 prebot = #a :+bob +@alice @@alice @+alice",
    ":alice!u@h MODE #a +o-v+v bob alice alice"].map String.toList

theorem modes_ranked_when_order_restored :
    let s : Session := { nick := "prebot".toList }
    (∀ n, (hear 4 s (orderRestored.take n)).isupport.status = s.isupport.status) ∧
      (∀ n line, orderRestored[n]? = some line →
        ¬ (hear 4 s (orderRestored.take n)).Disorders line) ∧
      ∀ key c, (hear 4 s orderRestored).tracker.channels.get? key = some c →
        ∀ who m, c.members.get? who = some m → m.modes.Sublist s.isupport.status.modes := by
  intro s
  have hkept (n : Nat) :
      (hear 4 s (orderRestored.take n)).isupport.status = s.isupport.status := by
    have hall : ∀ lines ∈ orderRestored.inits,
        (hear 4 s lines).isupport.status = s.isupport.status := by decide +kernel
    exact hall _ ((List.mem_inits _ _).2 (List.take_prefix n orderRestored))
  have hordered (n : Nat) (line : Text) (hline : orderRestored[n]? = some line) :
      ¬ (hear 4 s (orderRestored.take n)).Disorders line := by
    have hall : ∀ i : Fin orderRestored.length,
        ¬ (hear 4 s (orderRestored.take i)).Disorders orderRestored[i] := by decide +kernel
    obtain ⟨hlt, rfl⟩ := List.getElem?_eq_some_iff.1 hline
    exact hall ⟨n, hlt⟩
  refine ⟨hkept, hordered, ?_⟩
  exact (modes_ranked_iff s 4 orderRestored (by decide) (by decide) hkept).2 hordered 3

end IrcBot.Session
