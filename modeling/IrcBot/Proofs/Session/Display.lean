/-
One spelling for one nick, as far as it goes. The entry of somebody is shown by the spelling in
which it was first seen, or last renamed to, for as long as it stays. A seat is shown by the
spelling in which it was last taken: so lines leave entry and seats alike exactly if nobody is
seated in another spelling than that of the entry (`shown_alike_iff`).
-/
import IrcBot.Proofs.Session.Identities
import IrcBot.Proofs.Tracker.Shown

namespace IrcBot.Session

open Tracker

/-- Whether a line seats those it tells of: the bot joins, or somebody joins a channel that the bot
is in, or the names of such a channel are listed. -/
def seats (s : Session) (line : Text) : Bool :=
  (asking? .join line).any (fun (sender, channel) =>
    s.isMe sender.nick || s.tracker.hasChannel channel) ||
  (listing? line).any fun (channel, _) => s.tracker.hasChannel channel

/-- The nicks that a line tells a session of, as it spells them. -/
def spelled (s : Session) (line : Text) : List Text := (s.masksOn line).map Mask.nick

/-- The line seats somebody and last spells the nick otherwise than it is shown, or, of somebody
without an entry, otherwise than the line first does. -/
def Misspells (s : Session) (line : Text) : Prop :=
  s.seats line = true ∧ ∃ nick ∈ s.spelled line,
    (spellings (s.spelled line) (fold nick)).getLast? ≠
      (s.tracker.shown? (fold nick)).or (spellings (s.spelled line) (fold nick)).head?

instance (s : Session) (line : Text) : Decidable (s.Misspells line) :=
  inferInstanceAs (Decidable (_ ∧ _))

/-- The line renames somebody to a nick with that key. -/
def RenamesTo (line key : Text) : Prop :=
  ∃ sender new, renaming? line = some (sender, new) ∧ fold new = key

/-- The line gives whoever has that key the spelling: it renames him to it, or meets him under it
who had no entry. -/
def Gives (s : Session) (line key nick : Text) : Prop :=
  (∃ sender, renaming? line = some (sender, nick) ∧ fold nick = key) ∨
    ¬ RenamesTo line key ∧ s.tracker.shown? key = none ∧
      (spellings (s.spelled line) key).head? = some nick

/-- Of the first `n` lines one has given whoever has that key the spelling. Since then he has been
shown by it, and no line has renamed him. -/
def GivenSince (registered : Nat) (s : Session) (lines : List Text) (n : Nat)
    (key nick : Text) : Prop :=
  ∃ k < n, ∃ line, lines[k]? = some line ∧
    (hear registered s (lines.take k)).Gives line key nick ∧
    ∀ j later, k < j → j < n → lines[j]? = some later →
      (hear registered s (lines.take j)).tracker.shown? key = some nick ∧ ¬ RenamesTo later key

variable {s s' : Session} {m : Message} {registered : Nat} {line : Text} {what : Occurrence}
variable {t : Tracker} {sender : Mask} {status : Status} {channel entry nick key who : Text}

/-! ## Entries -/

theorem shown?_nameEntry (htracked : t.hasChannel channel = true) (entry : Text) :
    (nameEntry status channel t entry).shown? key =
      (t.shown? key).or (spellings [entryNick status entry] key).head? := by
  obtain ⟨c, hc⟩ := Option.isSome_iff_exists.1 htracked
  simp only [nameEntry, htracked, if_true]
  split
  · -- the mask is recorded after the member is added, under the same nick
    rw [shown?_update, shown?_addMember hc, Option.or_assoc, Option.or_self]
    rfl
  · exact shown?_addMember hc

theorem shown?_names (htracked : t.hasChannel channel = true) (entries : List Text) :
    (entries.foldl (nameEntry status channel) t).shown? key =
      (t.shown? key).or (spellings (entries.map (entryNick status)) key).head? := by
  induction entries generalizing t with
  | nil => simp [spellings]
  | cons entry entries ih =>
    rw [List.foldl_cons, ih ((hasChannel_nameEntry entry).trans htracked),
      shown?_nameEntry htracked, Option.or_assoc, ← List.head?_append, ← spellings_cons,
      List.map_cons]

theorem shown?_depart {shown : Text} (h : (s.depart t channel nick).shown? key = some shown) :
    t.shown? key = some shown := by
  obtain ⟨u', hu', rfl⟩ := Option.map_eq_some_iff.1 h
  obtain ⟨u, hu, hsame⟩ := identity_depart hu'
  rw [shown?_of_get? hu]
  exact congrArg some (congrArg Prod.fst hsame).symm

theorem meets_names :
    Meets (((listing m).elim [] fun l => l.2.map (entryMask s.isupport.status)).map Mask.nick)
      s.tracker (s.names m).tracker := by
  rw [tracker_names]
  cases listing m with
  | none => exact .kept fun _ _ => id
  | some listed =>
    obtain ⟨channel, entries⟩ := listed
    simp only [Option.elim_some, List.map_map]
    by_cases htracked : s.tracker.hasChannel channel = true
    · intro key nick hshown
      rwa [shown?_names htracked] at hshown
    · rw [names_untracked htracked]
      exact .kept fun _ _ => id

theorem meets_onNumeric {code : Nat} (hcode : m.numeric? = some code)
    (h : s.onNumeric m registered code = some (s', what)) :
    Meets ((s.masksOf m).map Mask.nick) s.tracker s'.tracker := by
  cases h
  rw [tracker_register]
  simp only [masksOf, hcode]
  by_cases hreply : Reply.ofCode? code = some .namReply
  · simp only [learn, hreply, if_true]
    exact meets_names
  · refine .of_users_eq ?_
    unfold learn
    split
    · rfl
    · rfl
    · next hnames => exact absurd hnames hreply
    · rfl

theorem meets_onText {isNotice : Bool} (h : s.onText m isNotice = some (s', what)) :
    Meets (m.sender?.toList.map Mask.nick) s.tracker s'.tracker := by
  unfold onText at h
  split at h
  · next hsender _ _ =>
    rw [hsender]
    split at h
    · cases h
      exact .observe
    · cases h
  · cases h

theorem meets_onJoin (h : s.onJoin m = some (s', what)) :
    Meets (m.sender?.toList.map Mask.nick) s.tracker s'.tracker := by
  unfold onJoin at h
  split at h
  · next sender channel hsender _ =>
    rw [hsender]
    cases h
    have hjoined (key : Text) : (if s.isMe sender.nick then s.tracker.addChannel channel
        else s.tracker).shown? key = s.tracker.shown? key := by
      split
      · exact shown?_addChannel
      · rfl
    intro key nick hshown
    simp only [shown?_update] at hshown
    generalize (if s.isMe sender.nick then s.tracker.addChannel channel else s.tracker) = t
      at hjoined hshown
    rw [← hjoined]
    cases hc : t.channel? channel with
    | none => rwa [addMember_untracked hc] at hshown
    | some c => rwa [shown?_addMember hc, Option.or_assoc, Option.or_self] at hshown
  · cases h

theorem meets_onPart (h : s.onPart m = some (s', what)) :
    Meets (m.sender?.toList.map Mask.nick) s.tracker s'.tracker := by
  unfold onPart at h
  split at h
  · next hsender _ =>
    rw [hsender]
    cases h
    exact Meets.update.trim fun _ _ => shown?_depart
  · cases h

theorem meets_onKick (h : s.onKick m = some (s', what)) :
    Meets (m.sender?.toList.map Mask.nick) s.tracker s'.tracker := by
  unfold onKick at h
  split at h
  · next hsender _ _ =>
    rw [hsender]
    cases h
    exact Meets.update.trim fun _ _ => shown?_depart
  · cases h

theorem meets_onQuit (h : s.onQuit m = some (s', what)) :
    Meets (m.sender?.toList.map Mask.nick) s.tracker s'.tracker := by
  unfold onQuit at h
  obtain ⟨sender, hsender, h⟩ := Option.map_eq_some_iff.1 h
  rw [hsender]
  cases h
  exact .removeUser

theorem meets_onMode (h : s.onMode m = some (s', what)) :
    Meets (m.sender?.toList.map Mask.nick) s.tracker s'.tracker := by
  unfold onMode at h
  split at h
  · cases h
    have hobserved : Meets (m.sender?.toList.map Mask.nick) s.tracker
        (s.tracker.observe (m.sender?.getD (.bare []))) := by
      cases m.sender? with
      | none => exact .kept fun _ _ => id
      | some sender => exact .observe
    refine hobserved.trim fun key nick hshown => ?_
    simp only at hshown
    split at hshown
    · rwa [shown?, users_applyAll] at hshown
    · exact hshown
  · cases h

/-- After a message that renames nobody, whoever is shown is shown as before, or as the message
first spells him. -/
theorem meets_react (hnick : m.Is .nick → s.onNick m = none)
    (h : s.react m registered = some (s', what)) :
    Meets ((s.masksOf m).map Mask.nick) s.tracker s'.tracker := by
  cases hcode : m.numeric? with
  | some code =>
    simp only [react, hcode] at h
    exact meets_onNumeric hcode h
  | none =>
    simp only [masksOf, hcode]
    cases hverb : Verb.ofText? m.command with
    | none => simp only [react, hcode, hverb, reduceCtorEq] at h
    | some v =>
      simp only [react, hcode, hverb] at h
      cases v with
      | ping | error =>
        cases h
        exact .kept fun _ _ => id
      | privmsg | notice => exact meets_onText h
      | join => exact meets_onJoin h
      | part => exact meets_onPart h
      | kick => exact meets_onKick h
      | quit => exact meets_onQuit h
      | nick => cases (hnick (Verb.ofText?_eq_some_iff.1 hverb)).symm.trans h
      | mode => exact meets_onMode h

/-! ## Lines that rename and lines that seat -/

/-- A command spells the nick of the one who sends it. -/
theorem spelled_command {v : Verb} (hparse : Message.parse line = .ok m) (hv : m.Is v)
    (hsender : m.sender? = some sender) : s.spelled line = [sender.nick] := by
  simp only [spelled, masksOn_of_parse hparse, masksOf, numeric?_of_is hv, hsender,
    Option.toList_some, List.map_cons, List.map_nil]

theorem spelled_listing {entries : List Text} (h : listing? line = some (channel, entries)) :
    s.spelled line = entries.map (entryNick s.isupport.status) := by
  obtain ⟨m, code, hparse, hcode, hreply, hlisting⟩ := of_listing? h
  simp only [spelled, masksOn_of_parse hparse, masksOf, hcode, hreply, if_true, hlisting,
    Option.elim_some, List.map_map]
  rfl

theorem seats_renaming {new : Text} (h : renaming? line = some (sender, new)) :
    s.seats line = false := by
  obtain ⟨m, hparse, hnick, -, -⟩ := renaming?_eq_some_iff.1 h
  have hjoin : asking? .join line = none := by
    simp [asking?, hparse, Except.toOption, Verb.ofText?_eq_some_iff.2 hnick]
  have hlist : listing? line = none := by
    simp [listing?, hparse, Except.toOption, numeric?_of_is hnick]
  simp [seats, hjoin, hlist]

/-- After any line, whoever has not been renamed to the nick is shown as before, or as the line
first spells him. -/
theorem shown?_handleLine (hline : ¬ RenamesTo line key)
    (h : (s.handleLine registered line).1.tracker.shown? key = some nick) :
    (s.tracker.shown? key).or (spellings (s.spelled line) key).head? = some nick := by
  cases hrename : renaming? line with
  | some asked =>
    obtain ⟨sender, new⟩ := asked
    obtain ⟨m, hparse, hnick, hsender, -⟩ := renaming?_eq_some_iff.1 hrename
    rw [handleLine_renaming hrename, shown?_rename user?_update,
      if_neg fun hkey => hline ⟨sender, new, hrename, hkey.symm⟩] at h
    split at h
    · cases h
    · rwa [spelled_command hparse hnick hsender, ← shown?_update]
  | none =>
    rcases handleLine_cases (s := s) with hafter | ⟨m, reaction, hparse, hreact, hafter⟩
    · rw [hafter] at h
      rw [h, Option.some_or]
    · rw [hafter] at h
      rw [spelled, masksOn_of_parse hparse]
      exact meets_react (fun hnick => onNick_of_not_renaming hparse hnick hrename) hreact key nick h

/-! ## Seats -/

theorem last_spelling (status : Status) (entries : List Text) (who : Text) :
    (lastOf? status entries who).map (entryNick status) =
      (spellings (entries.map (entryNick status)) who).getLast? := by
  rw [lastOf?, spellings, List.filter_map, List.getLast?_map]
  rfl

/-- Whoever is seated in the channel is shown there as the line last spells him, and every other
seat as before. -/
theorem seatedAs?_of_seats (registered : Nat) (h : s.seats line = true) :
    ∃ channel, ∀ key who, (s.handleLine registered line).1.tracker.seatedAs? key who =
      if key = fold channel then
        (spellings (s.spelled line) who).getLast?.or (s.tracker.seatedAs? key who)
      else s.tracker.seatedAs? key who := by
  rw [seats, Bool.or_eq_true, Option.any_eq_true, Option.any_eq_true] at h
  rcases h with ⟨⟨sender, channel⟩, hjoining, hseats⟩ | ⟨⟨channel, entries⟩, hlisting, htracked⟩
  · obtain ⟨m, hparse, hjoin, hsender, -⟩ := asking?_eq_some_iff.1 hjoining
    refine ⟨channel, fun key who => ?_⟩
    rw [handleLine_joining hjoining, spelled_command hparse hjoin hsender, spellings_singleton]
    have hjoined : (if s.isMe sender.nick then s.tracker.addChannel channel
        else s.tracker).hasChannel channel = true := by
      split
      · exact hasChannel_addChannel
      · next hme => simpa [hme] using hseats
    have hbefore : (if s.isMe sender.nick then s.tracker.addChannel channel
        else s.tracker).seat? key who = s.tracker.seat? key who := by
      split
      · exact seat?_addChannel
      · rfl
    show (Tracker.seat? (Tracker.addMember _ _ _ _) key who).map Member.nick = _
    rw [seat?_addMember, hjoined, hbefore, seatedAs?]
    simp only [true_and, @eq_comm _ (fold sender.nick) who]
    by_cases hkey : key = fold channel <;> by_cases hwho : who = fold sender.nick <;>
      simp [hkey, hwho]
  · refine ⟨channel, fun key who => ?_⟩
    rw [tracker_listing hlisting, spelled_listing hlisting, ← last_spelling, seatedAs?,
      seat?_names htracked, seatedAs?]
    split
    · cases lastOf? s.isupport.status entries who <;> rfl
    · rfl

/-- A line that seats nobody and renames nobody takes seats at most. -/
theorem seatedAs?_of_not_seats (hseats : s.seats line = false) (hrename : renaming? line = none)
    (h : (s.handleLine registered line).1.tracker.seatedAs? key who = some nick) :
    s.tracker.seatedAs? key who = some nick := by
  rw [seats, Bool.or_eq_false_iff, Option.any_eq_false, Option.any_eq_false] at hseats
  obtain ⟨hjoins, hlists⟩ := hseats
  cases hjoin : asking? .join line with
  | some asked =>
    obtain ⟨sender, channel⟩ := asked
    obtain ⟨hme, huntracked⟩ := Bool.or_eq_false_iff.1 (hjoins _ hjoin)
    have hnone : s.tracker.channel? channel = none := by simpa [hasChannel] using huntracked
    rw [handleLine_joining hjoin, hme] at h
    simp only [Bool.false_eq_true, if_false, addMember_untracked hnone] at h
    exact h
  | none =>
    cases hlisting : listing? line with
    | some listed =>
      rwa [tracker_listing hlisting, names_untracked (Bool.eq_false_iff.1 (hlists _ hlisting))]
        at h
    | none =>
      obtain ⟨m, hm, rfl⟩ := Option.map_eq_some_iff.1 h
      have hall : s.tracker.EachSeat fun key who m => s.tracker.seatedAs? key who = some m.nick :=
        eachSeat_iff.2 fun key who m hm => by rw [seatedAs?, hm, Option.map_some]
      -- to set or clear a letter leaves the nick alone
      exact eachSeat_iff.1 (eachSeat_handleLine hall (fun _ _ _ _ _ _ h => h) hjoin hrename
        hlisting) key who m hm

/-! ## Lines -/

/-- If a line misspells nobody, whoever has a seat after it sits there by the spelling that he was
shown by, or that the line first gives him. -/
theorem spelled_of_seated (h : s.tracker.ShownAlike) (hrename : renaming? line = none)
    (hno : ¬ s.Misspells line)
    (hseated : (s.handleLine registered line).1.tracker.seatedAs? key who = some nick) :
    (s.tracker.shown? who).or (spellings (s.spelled line) who).head? = some nick := by
  have hkept (hbefore : s.tracker.seatedAs? key who = some nick) :
      (s.tracker.shown? who).or (spellings (s.spelled line) who).head? = some nick := by
    rw [shownAlike_iff.1 h key who nick hbefore, Option.some_or]
  cases hseats : s.seats line with
  | false => exact hkept (seatedAs?_of_not_seats hseats hrename hseated)
  | true =>
    obtain ⟨channel, hafter⟩ := seatedAs?_of_seats registered hseats
    rw [hafter] at hseated
    split at hseated
    · cases hlast : (spellings (s.spelled line) who).getLast? with
      | none =>
        rw [hlast, Option.none_or] at hseated
        exact hkept hseated
      | some last =>
        rw [hlast, Option.some_or] at hseated
        cases hseated
        obtain ⟨hmem, rfl⟩ := mem_spellings.1 (List.mem_of_getLast? hlast)
        have hsame := Classical.not_not.1 fun hother => hno ⟨hseats, nick, hmem, hother⟩
        exact hsame.symm.trans hlast
    · exact hkept hseated

/-- A line that renames nobody leaves entries and seats alike unless it misspells somebody. -/
theorem shownAlike_handleLine (hc : (s.handleLine registered line).1.tracker.Consistent)
    (h : s.tracker.ShownAlike) (hrename : renaming? line = none) :
    (s.handleLine registered line).1.tracker.ShownAlike ↔ ¬ s.Misspells line := by
  have hentry (key nick : Text)
      (hshown : (s.handleLine registered line).1.tracker.shown? key = some nick) :
      (s.tracker.shown? key).or (spellings (s.spelled line) key).head? = some nick :=
    shown?_handleLine (fun ⟨_, _, hasked, _⟩ => by cases hrename.symm.trans hasked) hshown
  rw [shownAlike_iff]
  constructor
  · rintro halike ⟨hseats, nick, hmem, hother⟩
    obtain ⟨channel, hafter⟩ := seatedAs?_of_seats registered hseats
    obtain ⟨last, hlast⟩ := Option.isSome_iff_exists.1 (List.getLast?_isSome.2
      (List.ne_nil_of_mem (mem_spellings.2 ⟨hmem, rfl⟩)))
    have hseated : (s.handleLine registered line).1.tracker.seatedAs? (fold channel)
        (fold nick) = some last := by
      rw [hafter, if_pos rfl, hlast, Option.some_or]
    exact hother (hlast.trans (hentry _ _ (halike _ _ _ hseated)).symm)
  · intro hno key who nick hseated
    obtain ⟨shown, hshown⟩ := hc.exists_shown? hseated
    rw [hshown, ← hentry who shown hshown, spelled_of_seated h hrename hno hseated]

section Renaming

variable (hc : s.tracker.Consistent)
  (hfree : ∀ sender new, renaming? line = some (sender, new) →
    fold new = fold sender.nick ∨ s.tracker.user? new = none)

include hc hfree

/-- A line keeps users and members referring to each other unless it renames onto somebody else. -/
theorem consistent_handleLine : (s.handleLine registered line).1.tracker.Consistent := by
  cases hrename : renaming? line with
  | none => exact (changes_handleLine hrename).keeps (fun _ _ => Change.consistent) hc
  | some asked =>
    obtain ⟨sender, new⟩ := asked
    rw [handleLine_renaming hrename]
    exact ((Change.update s.tracker sender).consistent hc).rename
      (Option.isSome_of_eq_some user?_update) (hc.free_update (hfree sender new hrename))

/-- A line leaves entries and seats alike unless it misspells somebody. -/
theorem shownAlike_handleLine_iff (h : s.tracker.ShownAlike) :
    (s.handleLine registered line).1.tracker.ShownAlike ↔ ¬ s.Misspells line := by
  cases hrename : renaming? line with
  | none => exact shownAlike_handleLine (consistent_handleLine hc hfree) h hrename
  | some asked =>
    obtain ⟨sender, new⟩ := asked
    refine iff_of_true ?_ fun ⟨hseats, _⟩ => ?_
    · rw [handleLine_renaming hrename]
      exact (h.update sender).rename ((Change.update s.tracker sender).consistent hc)
        user?_update (hc.free_update (hfree sender new hrename))
    · cases (seats_renaming hrename).symm.trans hseats

end Renaming

theorem consistent_hear {lines : List Text} (hc : s.tracker.Consistent)
    (hfree : ∀ n line sender new, lines[n]? = some line → renaming? line = some (sender, new) →
      fold new = fold sender.nick ∨
        (hear registered s (lines.take n)).tracker.user? new = none) (n : Nat) :
    (hear registered s (lines.take n)).tracker.Consistent := by
  refine hear_take_keeps (P := fun s => s.tracker.Consistent) hc (fun n line hline hn => ?_) n
  rw [hear_take_succ hline]
  exact consistent_handleLine hn fun sender new => hfree n line sender new hline

/-- What has been given is kept by a line that does not rename. -/
theorem GivenSince.next {lines : List Text} {n : Nat}
    (h : GivenSince registered s lines n key nick)
    (hshown : (hear registered s (lines.take n)).tracker.shown? key = some nick)
    (hlast : ∀ line, lines[n]? = some line → ¬ RenamesTo line key) :
    GivenSince registered s lines (n + 1) key nick := by
  obtain ⟨k, hk, line, hline, hgives, hkept⟩ := h
  refine ⟨k, Nat.lt_succ_of_lt hk, line, hline, hgives, fun j later hkj hj hlater => ?_⟩
  rcases Nat.lt_succ_iff_lt_or_eq.1 hj with hj | rfl
  · exact hkept j later hkj hj hlater
  · exact ⟨hshown, hlast later hlater⟩

theorem givenSince_of_gives {lines : List Text} {n : Nat} (hline : lines[n]? = some line)
    (h : (hear registered s (lines.take n)).Gives line key nick) :
    GivenSince registered s lines (n + 1) key nick :=
  ⟨n, Nat.lt_succ_self n, line, hline, h,
    fun _ _ hnj hj => absurd (Nat.le_of_lt_succ hj) (Nat.not_le_of_lt hnj)⟩

/-- A line gives the spelling by which somebody is shown after it, or leaves it. -/
theorem gives_or_kept (h : (s.handleLine registered line).1.tracker.shown? key = some nick) :
    s.Gives line key nick ∨ s.tracker.shown? key = some nick ∧ ¬ RenamesTo line key := by
  by_cases hrenames : RenamesTo line key
  · obtain ⟨sender, new, hrename, hkey⟩ := hrenames
    rw [handleLine_renaming hrename, shown?_rename user?_update, if_pos hkey.symm] at h
    cases h
    exact .inl (.inl ⟨sender, hrename, hkey⟩)
  · have hspelled := shown?_handleLine hrenames h
    cases hbefore : s.tracker.shown? key with
    | none =>
      rw [hbefore, Option.none_or] at hspelled
      exact .inl (.inr ⟨hrenames, hbefore, hspelled⟩)
    | some shown =>
      rw [hbefore, Option.some_or] at hspelled
      exact .inr ⟨hspelled, hrenames⟩

theorem givenSince_of_shown? {lines : List Text} (hfresh : s.tracker.shown? key = none) (n : Nat)
    (h : (hear registered s (lines.take n)).tracker.shown? key = some nick) :
    GivenSince registered s lines n key nick := by
  induction n with
  | zero => cases hfresh.symm.trans h
  | succ n ih =>
    cases hline : lines[n]? with
    | none =>
      rw [hear_take_succ_none hline] at h
      exact (ih h).next h fun line hsome => by cases hline.symm.trans hsome
    | some line =>
      rw [hear_take_succ hline] at h
      rcases gives_or_kept h with hgives | ⟨hbefore, hrenames⟩
      · exact givenSince_of_gives hline hgives
      · refine (ih hbefore).next hbefore fun line' hsome => ?_
        cases hline.symm.trans hsome
        exact hrenames

/-- **One spelling for one nick, until somebody is seated in another.** Take a fresh session, and
any lines of which none renames somebody to a nick that another entry has. At every point every
member of every channel is shown as its entry among the users is, letter for letter, exactly if no
line seats somebody in a spelling other than that of the entry. And in any case the entry is shown
as it was first seen, or last renamed to, since it is there. -/
theorem shown_alike_iff (s : Session) (registered : Nat) (lines : List Text)
    (hfree : ∀ n line sender new, lines[n]? = some line → renaming? line = some (sender, new) →
      fold new = fold sender.nick ∨
        (hear registered { s with tracker := .empty } (lines.take n)).tracker.user? new = none) :
    ((∀ n, (hear registered { s with tracker := .empty } (lines.take n)).tracker.ShownAlike) ↔
      ∀ n line, lines[n]? = some line →
        ¬ (hear registered { s with tracker := .empty } (lines.take n)).Misspells line) ∧
    ∀ n key u,
      (hear registered { s with tracker := .empty } (lines.take n)).tracker.users.get? key =
        some u →
      GivenSince registered { s with tracker := .empty } lines n key u.nick := by
  refine ⟨?_, fun n key u hu => givenSince_of_shown? rfl n (shown?_of_get? hu)⟩
  refine hear_take_iff_of_step (P := fun s => s.tracker.ShownAlike) shownAlike_empty
    fun n line hline h => ?_
  have hc : (hear registered { s with tracker := .empty } (lines.take n)).tracker.Consistent :=
    consistent_hear consistent_empty hfree n
  rw [hear_take_succ hline]
  exact shownAlike_handleLine_iff hc (fun sender new => hfree n line sender new hline) h

/-- The bot and somebody else join two channels, the second of them in capitals. -/
def joinedInCapitals : List Text :=
  [":prebot!u@h JOIN #a", ":Alice!u@h JOIN #a", ":prebot!u@h JOIN #b",
    ":ALICE!u@h JOIN #b"].map String.toList

theorem joined_in_capitals_not_alike :
    (∀ line ∈ joinedInCapitals, renaming? line = none) ∧
      ¬ ∀ n, (hear 4 { nick := "prebot".toList } (joinedInCapitals.take n)).tracker.ShownAlike := by
  refine ⟨by decide +kernel, fun h => ?_⟩
  have hseat : (hear 4 { nick := "prebot".toList } joinedInCapitals).tracker.seat? "#b".toList
      "alice".toList = some ⟨"ALICE".toList, []⟩ := by decide +kernel
  have hentry : (hear 4 { nick := "prebot".toList } joinedInCapitals).tracker.shown?
      "alice".toList = some "Alice".toList := by decide +kernel
  have hshown := h 4 _ _ _ hseat
  cases hentry.symm.trans hshown

/-- Somebody changes the case of its nick, and then the nick. -/
def renamedTwice : List Text :=
  [":prebot!u@h JOIN #a", ":srv 353 prebot = #a :@Alice prebot", ":alice!u@h NICK ALICE",
    ":alice!u@h NICK Carol", ":CAROL!u@h PRIVMSG #a hello"].map String.toList

theorem shown_alike_when_renamed :
    let s : Session := { nick := "prebot".toList }
    (∀ n line sender new, renamedTwice[n]? = some line →
        renaming? line = some (sender, new) → fold new = fold sender.nick ∨
          (hear 4 s (renamedTwice.take n)).tracker.user? new = none) ∧
      (∀ n line, renamedTwice[n]? = some line →
        ¬ (hear 4 s (renamedTwice.take n)).Misspells line) ∧
      (hear 4 s renamedTwice).tracker.ShownAlike ∧
      (hear 4 s renamedTwice).tracker.seat? "#a".toList "carol".toList =
        some ⟨"Carol".toList, ['o']⟩ ∧
      GivenSince 4 s renamedTwice 5 "carol".toList "Carol".toList := by
  intro s
  have hfree (n : Nat) (line : Text) (sender : Mask) (new : Text)
      (hline : renamedTwice[n]? = some line) (hrename : renaming? line = some (sender, new)) :
      fold new = fold sender.nick ∨
        (hear 4 s (renamedTwice.take n)).tracker.user? new = none := by
    have hall : ∀ i : Fin renamedTwice.length, ∀ asked ∈ renaming? renamedTwice[i],
        fold asked.2 = fold asked.1.nick ∨
          (hear 4 s (renamedTwice.take i)).tracker.user? asked.2 = none := by decide +kernel
    obtain ⟨hlt, rfl⟩ := List.getElem?_eq_some_iff.1 hline
    exact hall ⟨n, hlt⟩ (sender, new) hrename
  have hsteady (n : Nat) (line : Text) (hline : renamedTwice[n]? = some line) :
      ¬ (hear 4 s (renamedTwice.take n)).Misspells line := by
    have hall : ∀ i : Fin renamedTwice.length,
        ¬ (hear 4 s (renamedTwice.take i)).Misspells renamedTwice[i] := by decide +kernel
    obtain ⟨hlt, rfl⟩ := List.getElem?_eq_some_iff.1 hline
    exact hall ⟨n, hlt⟩
  have hseat : (hear 4 s renamedTwice).tracker.seat? "#a".toList "carol".toList =
      some ⟨"Carol".toList, ['o']⟩ := by decide +kernel
  obtain ⟨halike, hgiven⟩ := shown_alike_iff s 4 renamedTwice hfree
  have hshown := halike.2 hsteady 5
  obtain ⟨u, hu, hnick⟩ := Option.map_eq_some_iff.1 (hshown _ _ _ hseat)
  have hsince := hgiven 5 _ u hu
  rw [hnick] at hsince
  exact ⟨hfree, hsteady, hshown, hseat, hsince⟩

end IrcBot.Session
