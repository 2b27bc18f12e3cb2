/-
What is known of somebody is learned once. An entry that is there before a line and after it is
shown by the same nick, has the user and host it had, and has learned what was unknown of them at
most from the first full mask of that nick among those that the line tells of: the sender of a
command, or the entries of a list of names (`identity_learned_once`). Renamings to that nick put
another entry in its place and are left out.
-/
import IrcBot.Proofs.Session.Modes
import IrcBot.Proofs.Session.Ranks
import IrcBot.Proofs.Tracker.Entries
import IrcBot.Proofs.Tracker.Renaming

namespace IrcBot

namespace User

variable {u v : User} {m m' : Mask} {text : Text}

/-- What is learned from a mask depends on what is known, and on nothing else. -/
theorem identity_absorb (h : u.identity = v.identity) :
    (u.absorb m).identity = (v.absorb m).identity := by
  simp only [identity, Prod.mk.injEq] at h
  simp only [identity, absorb, h]

/-- After a full mask nothing is left to learn. -/
theorem absorb_absorb (hfull : m.isFull = true) : (u.absorb m).absorb m' = u.absorb m := by
  simp only [Mask.isFull, Bool.and_eq_true] at hfull
  obtain ⟨user, huser⟩ := Option.isSome_iff_exists.1 hfull.1
  obtain ⟨host, hhost⟩ := Option.isSome_iff_exists.1 hfull.2
  cases hu : u.user <;> cases hh : u.host <;> simp [absorb, huser, hhost, hu, hh]

/-- What is no full mask is a bare nick, and there is nothing to learn from it. -/
theorem absorb_parse (hbare : (Mask.parse text).isFull = false) :
    u.absorb (Mask.parse text) = u := by
  unfold Mask.parse at hbare ⊢
  split at hbare
  · cases hbare
  · simp [absorb, Mask.bare]

end User

namespace Session

open Tracker

/-- The mask in an entry of a list of names. -/
def entryMask (status : Status) (entry : Text) : Mask := Mask.parse (status.strip entry).2

/-- The masks that a message tells a session of: that of the one who sends a command, or those in
a list of names. Who sends a numeric reply is of no interest. -/
def masksOf (s : Session) (m : Message) : List Mask :=
  match m.numeric? with
  | none => m.sender?.toList
  | some code =>
    if Reply.ofCode? code = some .namReply then
      (listing m).elim [] fun l => l.2.map (entryMask s.isupport.status)
    else []

/-- The masks that a line tells a session of, in the order of the line. -/
def masksOn (s : Session) (line : Text) : List Mask :=
  match Message.parse line with
  | .ok m => s.masksOf m
  | .error _ => []

/-- The first full mask of a nick with that fold. -/
def firstMask? (masks : List Mask) (key : Text) : Option Mask :=
  masks.find? fun m => m.isFull && fold m.nick == key

/-- What an entry is after learning from the first full mask of it among these. -/
def taught (masks : List Mask) (key : Text) (u : User) : User :=
  (firstMask? masks key).elim u u.absorb

/-- Somebody is as before, or has learned from the first full mask of it among these. -/
def Learned (masks : List Mask) (key : Text) (u u' : User) : Prop :=
  u'.identity = u.identity ∨ u'.identity = (taught masks key u).identity

variable {s s' : Session} {m : Message} {registered : Nat} {line : Text} {what : Occurrence}
variable {t : Tracker} {u u' v : User} {masks : List Mask} {key channel nick text : Text}
variable {sender mask : Mask} {status : Status} {entry : Text}

/-! ## Masks -/

theorem firstMask?_cons : firstMask? (mask :: masks) key =
    if mask.isFull = true ∧ fold mask.nick = key then some mask else firstMask? masks key := by
  simp only [firstMask?, List.find?_cons]
  by_cases h : mask.isFull = true ∧ fold mask.nick = key
  · simp [h]
  · rw [if_neg h]
    split
    · next he => exact absurd (by simpa using he) h
    · rfl

/-- Masks teach one after the other what the first of them teaches that is a full mask. -/
theorem taught_cons : taught (mask :: masks) key u = taught masks key (taught [mask] key u) := by
  unfold taught
  rw [firstMask?_cons, firstMask?_cons]
  split
  · next h =>
    cases hrest : firstMask? masks key with
    | none => rfl
    | some later => exact (User.absorb_absorb h.1).symm
  · rfl

theorem identity_taught (h : u.identity = v.identity) :
    (taught masks key u).identity = (taught masks key v).identity := by
  unfold taught
  cases firstMask? masks key with
  | none => exact h
  | some m => exact User.identity_absorb h

theorem Learned.of_taught (h : Learned masks key u u') : u'.identity = u.identity ∨
    ∃ m, firstMask? masks key = some m ∧ u'.identity = (u.absorb m).identity := by
  rcases h with h | h
  · exact .inl h
  · unfold taught at h
    cases hfirst : firstMask? masks key with
    | none => exact .inl (by rwa [hfirst] at h)
    | some m => exact .inr ⟨m, rfl, by rwa [hfirst] at h⟩

theorem exists_parse_of_sender? (hsender : m.sender? = some sender) :
    ∃ text, sender = Mask.parse text := by
  obtain ⟨text, -, rfl⟩ := Option.map_eq_some_iff.1 hsender
  exact ⟨text, rfl⟩

/-- Recording somebody teaches just what is in a full mask. -/
theorem identity_update (text : Text) (hu : t.users.get? key = some u) :
    ∃ u', (t.update (Mask.parse text)).users.get? key = some u' ∧
      u'.identity = (taught [Mask.parse text] key u).identity := by
  refine ⟨_, get?_users_update_of_some hu, ?_⟩
  unfold taught
  rw [firstMask?_cons]
  split
  · next hkey =>
    cases hfull : (Mask.parse text).isFull with
    | true => rw [if_pos ⟨rfl, hkey.symm⟩, Option.elim_some]
    | false =>
      rw [User.absorb_parse hfull]
      rfl
  · next hkey =>
    rw [if_neg fun h => hkey h.2.symm]
    rfl

theorem learned_observe (hu : t.users.get? key = some u)
    (hu' : (t.observe (Mask.parse text)).users.get? key = some u') :
    Learned [Mask.parse text] key u u' := by
  unfold observe at hu'
  split at hu'
  · obtain ⟨v, hv, htaught⟩ := identity_update text hu
    cases hu'.symm.trans hv
    exact .inr htaught
  · cases hu'.symm.trans hu
    exact .inl rfl

/-! ## Lists of names -/

theorem identity_nameEntry (status : Status) (entry : Text)
    (htracked : t.hasChannel channel = true) (hu : t.users.get? key = some u) :
    ∃ u', (nameEntry status channel t entry).users.get? key = some u' ∧
      u'.identity = (taught [entryMask status entry] key u).identity := by
  obtain ⟨v, hv, hsame⟩ := identity_addMember channel (entryNick status entry)
    (status.strip entry).1 hu
  simp only [nameEntry, htracked, if_true]
  split
  · obtain ⟨u', hu', htaught⟩ := identity_update (status.strip entry).2 hv
    exact ⟨u', hu', htaught.trans (identity_taught hsame)⟩
  · next hbare =>
    refine ⟨v, hv, hsame.trans ?_⟩
    rw [taught, firstMask?_cons, if_neg fun h => hbare h.1]
    rfl

/-- The entries of a list of names teach somebody what the first of them with its mask says. -/
theorem identity_names (status : Status) (htracked : t.hasChannel channel = true)
    (entries : List Text) (hu : t.users.get? key = some u) :
    ∃ u', (entries.foldl (nameEntry status channel) t).users.get? key = some u' ∧
      u'.identity = (taught (entries.map (entryMask status)) key u).identity := by
  induction entries generalizing t u with
  | nil => exact ⟨u, hu, rfl⟩
  | cons entry entries ih =>
    obtain ⟨v, hv, htaught⟩ := identity_nameEntry status entry htracked hu
    obtain ⟨u', hu', hrest⟩ := ih ((hasChannel_nameEntry entry).trans htracked) hv
    refine ⟨u', hu', ?_⟩
    rw [List.map_cons, taught_cons, hrest]
    exact identity_taught htaught

theorem learned_names (hu : s.tracker.users.get? key = some u)
    (hu' : (s.names m).tracker.users.get? key = some u') :
    Learned ((listing m).elim [] fun l => l.2.map (entryMask s.isupport.status)) key u u' := by
  rw [tracker_names] at hu'
  split at hu'
  · next channel entries hlisting =>
    rw [hlisting, Option.elim_some]
    by_cases htracked : s.tracker.hasChannel channel = true
    · obtain ⟨v, hv, htaught⟩ := identity_names s.isupport.status htracked entries hu
      cases hu'.symm.trans hv
      exact .inr htaught
    · rw [names_untracked htracked] at hu'
      cases hu'.symm.trans hu
      exact .inl rfl
  · cases hu'.symm.trans hu
    exact .inl rfl

/-! ## Those who go -/

/-- The channel that the member under a key is taken out of when `nick` is taken out of a channel:
the bot takes everybody along. -/
def departed? (s : Session) (t : Tracker) (channel nick key : Text) : Option Channel :=
  (t.channel? channel).filter fun c =>
    c.members.contains key && (s.isMe nick || key == fold nick)

/-- Whoever goes has one channel less, and is forgotten with the last one. -/
theorem get?_users_depart : (s.depart t channel nick).users.get? key =
    match s.departed? t channel nick key with
    | some c => (t.users.get? key).bind (remainder c.name)
    | none => t.users.get? key := by
  unfold depart departed?
  cases hc : t.channel? channel with
  | none =>
    split
    · rw [removeChannel_untracked hc]
      rfl
    · simp only [removeMember, hc]
      rfl
  | some c =>
    cases hme : s.isMe nick with
    | true =>
      rw [if_pos rfl, get?_users_removeChannel hc]
      cases hmember : c.members.contains key <;> simp [Option.filter, hmember]
    | false =>
      rw [if_neg Bool.false_ne_true, get?_users_removeMember hc]
      by_cases hkey : key = fold nick
      · subst hkey
        have hcontains : c.contains nick = c.members.contains (fold nick) := rfl
        rw [hcontains]
        cases hmember : c.members.contains (fold nick) <;> simp [Option.filter, hmember]
      · simp [Option.filter, hkey]

/-- An entry that is left when others go is who it was. -/
theorem identity_depart (hu' : (s.depart t channel nick).users.get? key = some u') :
    ∃ u, t.users.get? key = some u ∧ u'.identity = u.identity := by
  rw [get?_users_depart] at hu'
  split at hu'
  · obtain ⟨u, hu, hleft⟩ := Option.bind_eq_some_iff.1 hu'
    exact ⟨u, hu, (of_remainder hleft).1⟩
  · exact ⟨u', hu', rfl⟩

/-! ## Messages -/

section Handlers

variable (hu : s.tracker.users.get? key = some u) (hu' : s'.tracker.users.get? key = some u')

include hu hu'

theorem learned_onNumeric {code : Nat} (hcode : m.numeric? = some code)
    (h : s.onNumeric m registered code = some (s', what)) :
    Learned (s.masksOf m) key u u' := by
  cases h
  rw [tracker_register] at hu'
  simp only [masksOf, hcode]
  unfold learn at hu'
  split at hu'
  · next hreply =>
    cases hu'.symm.trans hu
    exact .inl rfl
  · cases hu'.symm.trans hu
    exact .inl rfl
  · next hreply =>
    rw [if_pos hreply]
    exact learned_names hu hu'
  · cases hu'.symm.trans hu
    exact .inl rfl

theorem learned_onText {isNotice : Bool} (h : s.onText m isNotice = some (s', what)) :
    Learned m.sender?.toList key u u' := by
  unfold onText at h
  split at h
  · next sender _ _ hsender _ _ =>
    obtain ⟨text, rfl⟩ := exists_parse_of_sender? hsender
    rw [hsender]
    split at h
    · cases h
      exact learned_observe hu hu'
    · cases h
  · cases h

theorem learned_onJoin (h : s.onJoin m = some (s', what)) :
    Learned m.sender?.toList key u u' := by
  unfold onJoin at h
  split at h
  · next sender channel hsender _ =>
    obtain ⟨text, rfl⟩ := exists_parse_of_sender? hsender
    rw [hsender]
    cases h
    have husers : (if s.isMe (Mask.parse text).nick then s.tracker.addChannel channel
        else s.tracker).users.get? key = some u := by
      split
      · rw [users_addChannel, hu]
      · exact hu
    obtain ⟨v, hv, hsame⟩ := identity_addMember channel (Mask.parse text).nick [] husers
    obtain ⟨w, hw, htaught⟩ := identity_update text hv
    cases hu'.symm.trans hw
    exact .inr (htaught.trans (identity_taught hsame))
  · cases h

/-- Somebody sends a line by which others go, or goes itself. -/
theorem learned_depart (hsender : m.sender? = some sender)
    (h : s'.tracker = s.depart (s.tracker.update sender) channel nick) :
    Learned m.sender?.toList key u u' := by
  obtain ⟨text, rfl⟩ := exists_parse_of_sender? hsender
  obtain ⟨v, hv, htaught⟩ := identity_update text hu
  rw [h] at hu'
  obtain ⟨w, hw, hsame⟩ := identity_depart hu'
  cases hw.symm.trans hv
  rw [hsender]
  exact .inr (hsame.trans htaught)

theorem learned_onPart (h : s.onPart m = some (s', what)) :
    Learned m.sender?.toList key u u' := by
  unfold onPart at h
  split at h
  · next hsender _ =>
    cases h
    exact learned_depart hu hu' hsender rfl
  · cases h

theorem learned_onKick (h : s.onKick m = some (s', what)) :
    Learned m.sender?.toList key u u' := by
  unfold onKick at h
  split at h
  · next hsender _ _ =>
    cases h
    exact learned_depart hu hu' hsender rfl
  · cases h

theorem learned_onQuit (h : s.onQuit m = some (s', what)) :
    Learned m.sender?.toList key u u' := by
  unfold onQuit at h
  obtain ⟨sender, hsender, h⟩ := Option.map_eq_some_iff.1 h
  obtain ⟨text, rfl⟩ := exists_parse_of_sender? hsender
  obtain ⟨v, hv, htaught⟩ := identity_update text hu
  cases h
  simp only [get?_users_removeUser] at hu'
  split at hu'
  · cases hu'
  · cases hu'.symm.trans hv
    rw [hsender]
    exact .inr htaught

theorem learned_onNick
    (hother : ∀ sender new, m.sender? = some sender → m.arg? 0 = some new → key ≠ fold new)
    (h : s.onNick m = some (s', what)) : Learned m.sender?.toList key u u' := by
  unfold onNick at h
  split at h
  · next sender new hsender hnew =>
    obtain ⟨text, rfl⟩ := exists_parse_of_sender? hsender
    obtain ⟨v, hv, htaught⟩ := identity_update text hu
    cases h
    simp only [users_rename user?_update, if_neg (hother _ new hsender hnew)] at hu'
    split at hu'
    · cases hu'
    · cases hu'.symm.trans hv
      rw [hsender]
      exact .inr htaught
  · cases h

theorem learned_onMode (h : s.onMode m = some (s', what)) :
    Learned m.sender?.toList key u u' := by
  unfold onMode at h
  split at h
  · cases h
    have hobserved : (s.tracker.observe (m.sender?.getD (.bare []))).users.get? key =
        some u' := by
      simp only at hu'
      split at hu'
      · rwa [users_applyAll] at hu'
      · exact hu'
    cases hsender : m.sender? with
    | none =>
      rw [hsender] at hobserved
      cases hobserved.symm.trans hu
      exact .inl rfl
    | some sender =>
      obtain ⟨text, rfl⟩ := exists_parse_of_sender? hsender
      rw [hsender] at hobserved
      exact learned_observe hu hobserved
  · cases h

/-- A message other than a renaming to its nick teaches an entry at most what is in the first full
mask of it. -/
theorem learned_react
    (hother : m.Is .nick → ∀ sender new, m.sender? = some sender → m.arg? 0 = some new →
      key ≠ fold new)
    (h : s.react m registered = some (s', what)) : Learned (s.masksOf m) key u u' := by
  cases hcode : m.numeric? with
  | some code =>
    simp only [react, hcode] at h
    exact learned_onNumeric hu hu' hcode h
  | none =>
    simp only [masksOf, hcode]
    cases hverb : Verb.ofText? m.command with
    | none => simp only [react, hcode, hverb, reduceCtorEq] at h
    | some v =>
      simp only [react, hcode, hverb] at h
      cases v with
      | ping | error =>
        cases h
        cases hu'.symm.trans hu
        exact .inl rfl
      | privmsg | notice => exact learned_onText hu hu' h
      | join => exact learned_onJoin hu hu' h
      | part => exact learned_onPart hu hu' h
      | kick => exact learned_onKick hu hu' h
      | quit => exact learned_onQuit hu hu' h
      | nick => exact learned_onNick hu hu' (hother (Verb.ofText?_eq_some_iff.1 hverb)) h
      | mode => exact learned_onMode hu hu' h

end Handlers

/-! ## Lines -/

theorem masksOn_of_parse (hparse : Message.parse line = .ok m) :
    s.masksOn line = s.masksOf m := by
  simp only [masksOn, hparse]

theorem learned_handleLine
    (hline : ∀ sender new, renaming? line = some (sender, new) → key ≠ fold new)
    (hu : s.tracker.users.get? key = some u)
    (hu' : (s.handleLine registered line).1.tracker.users.get? key = some u') :
    Learned (s.masksOn line) key u u' := by
  rcases handleLine_cases (s := s) with hafter | ⟨m, reaction, hparse, hreact, hafter⟩
  · rw [hafter] at hu'
    cases hu'.symm.trans hu
    exact .inl rfl
  · rw [hafter] at hu'
    rw [masksOn_of_parse hparse]
    refine learned_react hu hu' (fun hnick sender new hsender hnew => ?_) hreact
    exact hline sender new (renaming?_eq_some hparse hnick hsender hnew)

/-- **What is known of somebody is learned once.** Take any session, and any line that does not
rename to a nick with this key. If there is an entry under the key before the line and after it,
then it is shown by the same nick; a user or a host that was known is the same; and one that has
become known is what the first full mask of that nick says, among the masks that the line tells
of: the sender of a command, or the entries of a list of names. -/
theorem identity_learned_once (s : Session) (registered : Nat) (line key : Text) {u u' : User}
    (hline : ∀ sender new, renaming? line = some (sender, new) → key ≠ fold new)
    (hu : s.tracker.users.get? key = some u)
    (hu' : (s.handleLine registered line).1.tracker.users.get? key = some u') :
    u'.nick = u.nick ∧
      (∀ user, u.user = some user → u'.user = some user) ∧
      (∀ host, u.host = some host → u'.host = some host) ∧
      (∀ user, u.user = none → u'.user = some user →
        ∃ m, firstMask? (s.masksOn line) key = some m ∧ m.user = some user) ∧
      ∀ host, u.host = none → u'.host = some host →
        ∃ m, firstMask? (s.masksOn line) key = some m ∧ m.host = some host := by
  rcases (learned_handleLine hline hu hu').of_taught with hsame | ⟨m, hm, htaught⟩
  · simp only [User.identity, Prod.mk.injEq] at hsame
    obtain ⟨hnick, huser, hhost⟩ := hsame
    refine ⟨hnick, fun user h => huser.trans h, fun host h => hhost.trans h,
      fun user hnone h => ?_, fun host hnone h => ?_⟩
    · cases (huser.trans hnone).symm.trans h
    · cases (hhost.trans hnone).symm.trans h
  · simp only [User.identity, User.absorb, Prod.mk.injEq] at htaught
    obtain ⟨hnick, huser, hhost⟩ := htaught
    refine ⟨hnick, fun user h => ?_, fun host h => ?_, fun user hnone h => ⟨m, hm, ?_⟩,
      fun host hnone h => ⟨m, hm, ?_⟩⟩
    · rw [huser, h]
      rfl
    · rw [hhost, h]
      rfl
    · rw [← h, huser, hnone]
      rfl
    · rw [← h, hhost, hnone]
      rfl

/-- The bot is in a channel with somebody of whom it knows no more than the nick. -/
def besideUnknown : Session :=
  hear 4 { nick := "prebot".toList }
    ([":prebot!u@h JOIN #a", ":srv 353 prebot = #a :bob"].map String.toList)

/-- A list of names with two masks of one nick. -/
def listedTwice : Text := ":srv 353 prebot = #a :@BOB!x@y bob!v@w".toList

theorem first_listed_mask_learned :
    let after := (besideUnknown.handleLine 4 listedTwice).1
    renaming? listedTwice = none ∧
      (besideUnknown.tracker.users.get? "bob".toList).map User.identity =
        some ("bob".toList, none, none) ∧
      ∃ u', after.tracker.users.get? "bob".toList = some u' ∧ u'.nick = "bob".toList ∧
        u'.user = some "x".toList ∧ u'.host = some "y".toList := by
  intro after
  have hline : renaming? listedTwice = none := by decide +kernel
  have hbefore : (besideUnknown.tracker.users.get? "bob".toList).map User.identity =
      some ("bob".toList, none, none) := by decide +kernel
  have hafter : (after.tracker.users.get? "bob".toList).any
      (fun u => u.isIdentified) = true := by decide +kernel
  have hfirst : firstMask? (besideUnknown.masksOn listedTwice) "bob".toList =
      some ⟨"BOB".toList, some "x".toList, some "y".toList⟩ := by decide +kernel
  obtain ⟨u, hu, hunknown⟩ := Option.map_eq_some_iff.1 hbefore
  obtain ⟨u', hu', hidentified⟩ := (Option.any_eq_true _ _).1 hafter
  simp only [User.identity, Prod.mk.injEq] at hunknown
  obtain ⟨hnick, huser, hhost⟩ := hunknown
  rw [User.isIdentified, Bool.and_eq_true] at hidentified
  obtain ⟨user, huser'⟩ := Option.isSome_iff_exists.1 hidentified.1
  obtain ⟨host, hhost'⟩ := Option.isSome_iff_exists.1 hidentified.2
  obtain ⟨hsame, -, -, hlearned, hlearned'⟩ := identity_learned_once besideUnknown 4 listedTwice
    "bob".toList (fun sender new h => by cases hline.symm.trans h) hu hu'
  obtain ⟨m, hm, hmuser⟩ := hlearned user huser huser'
  obtain ⟨m', hm', hmhost⟩ := hlearned' host hhost hhost'
  cases hm.symm.trans hfirst
  cases hm'.symm.trans hfirst
  exact ⟨hline, hbefore, u', hu', hsame.trans hnick, huser'.trans hmuser.symm,
    hhost'.trans hmhost.symm⟩

/-- A list of names that somebody sends, with another mask of himself in it. -/
def listedBySelf : Text := ":bob!u@h 353 prebot = #a :bob!x@y".toList

/-- The first full mask on such a line is that of the sender, and it is not learned. -/
theorem sender_of_list_not_learned :
    let after := (besideUnknown.handleLine 4 listedBySelf).1
    let sender? := (Message.parse listedBySelf).toOption.bind Message.sender?
    renaming? listedBySelf = none ∧
      firstMask? (sender?.toList ++ besideUnknown.masksOn listedBySelf) "bob".toList =
        some ⟨"bob".toList, some "u".toList, some "h".toList⟩ ∧
      (besideUnknown.tracker.users.get? "bob".toList).map User.identity =
        some ("bob".toList, none, none) ∧
      (after.tracker.users.get? "bob".toList).map User.identity =
        some ("bob".toList, some "x".toList, some "y".toList) := by
  decide +kernel

end Session

end IrcBot
