/-
What a renaming carries along. As long as users and members refer to each other (`Consistent`),
the channels that a user lists are just those that hold it, so going through its list the renaming
reaches every seat of the user, each of them once. So it moves the entry and all its seats to the
new nick, whether this has the same key or another one, changes nothing else, and can be undone.
-/
import IrcBot.Proofs.Tracker.Seats
import Mathlib.Data.List.Nodup
import Mathlib.Tactic.ByContra

namespace IrcBot.Tracker

/-- Users and members refer to each other, all under the folds of the names they are shown by. -/
structure Consistent (t : Tracker) : Prop where
  folded : t.Folded
  backed : t.Backed
  grounded : t.Grounded

/-- Nobody goes by a nick, neither among the users nor in any channel. -/
def Free (t : Tracker) (nick : Text) : Prop :=
  t.user? nick = none ∧ ∀ key, t.seat? key (fold nick) = none

variable {t t' : Tracker} {u : User} {c : Channel} {key who old new : Text}

theorem consistent_empty : Consistent .empty := ⟨folded_empty, backed_empty, grounded_empty⟩

theorem Change.consistent (h : Change t t') (hc : t.Consistent) : t'.Consistent :=
  ⟨h.folded hc.folded, h.backed hc.folded.channels hc.backed,
    h.grounded hc.folded.channels hc.grounded⟩

theorem free_iff {nick : Text} : t.Free nick ↔
    t.user? nick = none ∧ ∀ e ∈ t.channels.entries, e.2.members.get? (fold nick) = none := by
  refine and_congr_right fun _ => ⟨?_, ?_⟩
  · rintro h ⟨key, c⟩ hmem
    exact (seat?_of_get? (Table.mem_entries.1 hmem)).symm.trans (h key)
  · intro h key
    cases hc : t.channels.get? key with
    | none => rw [seat?, hc, Option.bind_none]
    | some c => exact (seat?_of_get? hc).trans (h (key, c) (Table.mem_entries.2 hc))

instance (t : Tracker) (nick : Text) : Decidable (t.Free nick) := decidable_of_iff' _ free_iff

theorem Free.not_holds (hfree : t.Free new) {name : Text} :
    ¬ Holds t.channels key name (fold new) := by
  intro hold
  have hsome := isSome_seat?.2 ⟨name, hold⟩
  rw [hfree.2 key] at hsome
  cases hsome

/-- Nobody is overwritten by a renaming to a nick that is free, or the same up to case. -/
theorem not_overwrites (hnew : fold new = fold old ∨ t.Free new) : ¬ t.Overwrites old new := by
  rintro ⟨hne, key, name, hold, -⟩
  rcases hnew with he | hfree
  · exact hne he
  · exact hfree.not_holds hold

theorem Consistent.rename (hc : t.Consistent) (hold : (t.user? old).isSome)
    (hnew : fold new = fold old ∨ t.Free new) : (t.rename old new).Consistent :=
  ⟨hc.folded.rename, (backed_rename hc.folded.channels hc.backed hold).2 (not_overwrites hnew),
    hc.grounded.rename⟩

/-! ## The entry -/

theorem users_rename (hu : t.user? old = some u) : (t.rename old new).users.get? key =
    if key = fold new then some { u with nick := new }
    else if key = fold old then none else t.users.get? key := by
  simp only [rename, hu, Table.get?_insert, Table.get?_erase, eq_comm]

/-! ## The seats -/

theorem rename_of_absent (hmember : c.members.get? key = none) : c.rename key new = c := by
  simp only [Channel.rename, hmember]

theorem get?_members_rename {m : Member} (hm : c.members.get? key = some m) :
    (c.rename key new).members.get? who =
      if who = fold new then some { m with nick := new }
      else if who = key then none else c.members.get? who := by
  simp only [Channel.rename, hm, Table.get?_insert, Table.get?_erase, eq_comm]

/-- No two names that a user lists have the same key. -/
theorem nodup_listed (hg : t.Grounded) (hu : t.user? old = some u) :
    (u.channels.keys.map fold).Nodup := by
  refine List.Nodup.map_on (fun name hname name' hname' hfold => ?_)
    (Table.nodup_keys u.channels.ascending)
  exact hg.eq_of_fold_eq ⟨u, hu, Table.mem_keys.1 hname⟩ ⟨u, hu, Table.mem_keys.1 hname'⟩ hfold

/-- A channel that a user does not list does not hold it. -/
theorem absent_of_not_listed (hc : t.Consistent) (hu : t.user? old = some u)
    (hchannel : t.channels.get? key = some c) (hkey : key ∉ u.channels.keys.map fold) :
    c.members.get? (fold old) = none := by
  by_contra hmember
  have hcontains : c.members.contains (fold old) = true :=
    Option.isSome_iff_ne_none.2 hmember
  obtain ⟨u', hu', hlisted⟩ := hc.backed key c (fold old) hchannel hcontains
  obtain rfl : u' = u := Option.some.inj (hu'.symm.trans hu)
  refine hkey ?_
  rw [hc.folded.channels key c hchannel]
  exact List.mem_map_of_mem (Table.mem_keys.2 hlisted)

/-- A renaming goes through every channel, as far as that goes. -/
theorem channels_rename (hc : t.Consistent) (hu : t.user? old = some u) :
    (t.rename old new).channels.get? key =
      (t.channels.get? key).map (·.rename (fold old) new) := by
  have hchannels : (t.rename old new).channels = u.channels.keys.foldl
      (fun cs name => cs.adjust (fold name) (·.rename (fold old) new)) t.channels := by
    simp only [rename, hu]
  rw [hchannels, Table.get?_adjustAll (nodup_listed hc.grounded hu)]
  split
  · rfl
  · next hkey =>
    cases hchannel : t.channels.get? key with
    | none => rfl
    | some c =>
      rw [Option.map_some, rename_of_absent (absent_of_not_listed hc hu hchannel hkey)]

theorem seat?_rename (hc : t.Consistent) (hu : t.user? old = some u)
    (hnew : fold new = fold old ∨ t.Free new) : (t.rename old new).seat? key who =
      if who = fold new then (t.seat? key (fold old)).map ({ · with nick := new })
      else if who = fold old then none else t.seat? key who := by
  have hvacant : fold new = fold old ∨ t.seat? key (fold new) = none :=
    hnew.imp_right fun hfree => hfree.2 key
  unfold seat? at hvacant ⊢
  rw [channels_rename hc hu]
  cases hchannel : t.channels.get? key with
  | none => simp
  | some c =>
    simp only [hchannel, Option.map_some, Option.bind_some] at hvacant ⊢
    cases hmember : c.members.get? (fold old) with
    | some m => rw [get?_members_rename hmember, Option.map_some]
    | none =>
      rw [rename_of_absent hmember]
      split
      · next hwho =>
        subst hwho
        rcases hvacant with he | hnone
        · rw [he, hmember, Option.map_none]
        · rw [hnone, Option.map_none]
      · split
        · next hwho => rw [hwho, hmember]
        · rfl

theorem channel_rename_of_vacant (hc : t.Consistent) (hu : t.user? old = some u)
    (hvacant : t.seat? key (fold old) = none) :
    (t.rename old new).channels.get? key = t.channels.get? key := by
  rw [channels_rename hc hu]
  cases hchannel : t.channels.get? key with
  | none => rfl
  | some c =>
    rw [seat?_of_get? hchannel] at hvacant
    rw [Option.map_some, rename_of_absent hvacant]

theorem names_rename (hc : t.Consistent) (hu : t.user? old = some u) :
    ((t.rename old new).channels.get? key).map Channel.name =
      (t.channels.get? key).map Channel.name := by
  rw [channels_rename hc hu, Option.map_map]
  exact congrArg (Option.map · (t.channels.get? key)) (funext fun c => name_rename)

/-! ## Back again -/

/-- The nick that somebody has left is free. -/
theorem free_rename (hc : t.Consistent) (hu : t.user? old = some u)
    (hnew : fold new = fold old ∨ t.Free new) :
    fold old = fold new ∨ (t.rename old new).Free old := by
  by_cases he : fold old = fold new
  · exact .inl he
  · refine .inr ⟨?_, fun key => ?_⟩
    · rw [user?, users_rename hu, if_neg he, if_pos rfl]
    · rw [seat?_rename hc hu hnew, if_neg he, if_pos rfl]

theorem user?_rename (hu : t.user? old = some u) :
    (t.rename old new).user? new = some { u with nick := new } := by
  rw [user?, users_rename hu, if_pos rfl]

theorem users_rename_back (hu : t.user? old = some u)
    (hnew : fold new = fold old ∨ t.Free new) :
    ((t.rename old new).rename new old).users.get? key =
      if key = fold old then some { u with nick := old } else t.users.get? key := by
  rw [users_rename (user?_rename hu), users_rename hu]
  split
  · rfl
  · next hold =>
    split
    · next hkey =>
      -- the new key is another one, so nobody had it before
      rcases hnew with he | hfree
      · exact absurd (hkey.trans he) hold
      · exact hkey ▸ hfree.1.symm
    · rfl

theorem seat?_rename_back (hc : t.Consistent) (hu : t.user? old = some u)
    (hnew : fold new = fold old ∨ t.Free new) :
    ((t.rename old new).rename new old).seat? key who =
      if who = fold old then (t.seat? key who).map ({ · with nick := old })
      else t.seat? key who := by
  have hafter := hc.rename (Option.isSome_of_eq_some hu) hnew
  rw [seat?_rename hafter (user?_rename hu) (free_rename hc hu hnew), seat?_rename hc hu hnew,
    seat?_rename hc hu hnew, if_pos rfl, Option.map_map]
  split
  · next hwho =>
    rw [hwho]
    rfl
  · next hold =>
    split
    · next hwho =>
      rcases hnew with he | hfree
      · exact absurd (hwho.trans he) hold
      · rw [hwho, hfree.2 key]
    · rfl

/-- Two trackers with the same users, channel names and seats are the same. -/
theorem ext_seat? (husers : ∀ key, t'.users.get? key = t.users.get? key)
    (hnames : ∀ key, (t'.channels.get? key).map Channel.name =
      (t.channels.get? key).map Channel.name)
    (hseats : ∀ key who, t'.seat? key who = t.seat? key who) : t' = t := by
  have hchannels (key : Text) : t'.channels.get? key = t.channels.get? key := by
    have hname := hnames key
    have hseat := hseats key
    unfold seat? at hseat
    cases hc' : t'.channels.get? key with
    | none =>
      rw [hc', Option.map_none] at hname
      exact (Option.map_eq_none_iff.1 hname.symm).symm
    | some c' =>
      rw [hc', Option.map_some] at hname
      obtain ⟨c, hc, he⟩ := Option.map_eq_some_iff.1 hname.symm
      rw [hc', hc] at hseat
      simp only [Option.bind_some] at hseat
      have hmembers : c'.members = c.members := Table.ext_get? hseat
      rw [hc]
      cases c; cases c'; cases he; cases hmembers
      rfl
  cases t; cases t'
  exact congrArg₂ Tracker.mk (Table.ext_get? husers) (Table.ext_get? hchannels)

/-- **A renaming carries everything and nothing else.** In a tracker in which users and members
refer to each other, let a user take a nick that is its own up to case, or that nobody goes by.

- The user stands under the key of the new nick, as it was but for the nick, and no longer under
  another key; everybody else is as before.
- In every channel the seat it had is under the new key with the same modes, and every other seat
  is as before; a channel that does not hold it is the same, and all channels keep their names.
- Users and members still refer to each other.
- Taking back the old nick gives back the same identity, list, seats and modes under the old key;
  if the old nick is what the user was shown by, everything is as it was. -/
theorem rename_carries_all (hc : t.Consistent) (hu : t.user? old = some u)
    (hnew : fold new = fold old ∨ t.Free new) :
    let after := t.rename old new
    let back := after.rename new old
    (∀ key, after.users.get? key =
      if key = fold new then some { u with nick := new }
      else if key = fold old then none else t.users.get? key) ∧
    (∀ key who, after.seat? key who =
      if who = fold new then (t.seat? key (fold old)).map ({ · with nick := new })
      else if who = fold old then none else t.seat? key who) ∧
    (∀ key, (after.channels.get? key).map Channel.name =
      (t.channels.get? key).map Channel.name) ∧
    (∀ key, t.seat? key (fold old) = none → after.channels.get? key = t.channels.get? key) ∧
    after.Consistent ∧
    (∀ key, back.users.get? key =
      if key = fold old then some { u with nick := old } else t.users.get? key) ∧
    (∀ key who, back.seat? key who =
      if who = fold old then (t.seat? key who).map ({ · with nick := old })
      else t.seat? key who) ∧
    (∀ key, (back.channels.get? key).map Channel.name =
      (t.channels.get? key).map Channel.name) ∧
    (u.nick = old → (∀ key m, t.seat? key (fold old) = some m → m.nick = old) → back = t) := by
  intro after back
  have hafter : after.Consistent := hc.rename (Option.isSome_of_eq_some hu) hnew
  have hnames (key : Text) : (back.channels.get? key).map Channel.name =
      (t.channels.get? key).map Channel.name :=
    (names_rename hafter (user?_rename hu)).trans (names_rename hc hu)
  refine ⟨fun key => users_rename hu, fun key who => seat?_rename hc hu hnew,
    fun key => names_rename hc hu, fun key => channel_rename_of_vacant hc hu, hafter,
    fun key => users_rename_back hu hnew, fun key who => seat?_rename_back hc hu hnew, hnames, ?_⟩
  intro hnick hshown
  refine ext_seat? (fun key => ?_) hnames fun key who => ?_
  · rw [users_rename_back hu hnew]
    split
    · next hkey =>
      subst hnick hkey
      exact hu.symm
    · rfl
  · rw [seat?_rename_back hc hu hnew]
    split
    · next hwho =>
      subst hwho
      cases hseat : t.seat? key (fold old) with
      | none => rfl
      | some m =>
        obtain rfl := hshown key m hseat
        rfl
    · rfl

/-- Two channels, of which an operator of the one is in the other as well, in another spelling. -/
def operatorInTwo : Tracker :=
  ((((empty.addChannel "#Rust".toList).addChannel "#ops".toList).addMember "#rust".toList
    "alice".toList ['o']).addMember "#OPS".toList "Alice".toList []).addMember "#rust".toList
    "bob".toList ['v']

theorem operatorInTwo_consistent : operatorInTwo.Consistent :=
  Change.consistent (.addMember ..) <| Change.consistent (.addMember ..) <|
    Change.consistent (.addMember ..) <| Change.consistent (.addChannel ..) <|
      Change.consistent (.addChannel ..) consistent_empty

theorem rename_carries_operator :
    let after := operatorInTwo.rename "alice".toList "Carol".toList
    (operatorInTwo.user? "alice".toList).isSome ∧ operatorInTwo.Free "Carol".toList ∧
      after.Consistent ∧
      after.seat? "#rust".toList "carol".toList = some ⟨"Carol".toList, ['o']⟩ ∧
      after.seat? "#ops".toList "carol".toList = some ⟨"Carol".toList, []⟩ ∧
      (after.rename "Carol".toList "alice".toList).seat? "#rust".toList "alice".toList =
        some ⟨"alice".toList, ['o']⟩ := by
  have hsome : (operatorInTwo.user? "alice".toList).isSome := by decide +kernel
  have hfree : operatorInTwo.Free "Carol".toList := by decide +kernel
  obtain ⟨u, hu⟩ := Option.isSome_iff_exists.1 hsome
  obtain ⟨-, hseats, -, -, hafter, -, hback, -⟩ :=
    rename_carries_all operatorInTwo_consistent hu (.inr hfree)
  refine ⟨hsome, hfree, hafter, ?_, ?_, ?_⟩
  · rw [hseats]
    decide +kernel
  · rw [hseats]
    decide +kernel
  · rw [hback]
    decide +kernel

end IrcBot.Tracker
