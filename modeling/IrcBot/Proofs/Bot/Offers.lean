/-
The nicks offered to a server that refuses each of them in turn. While the
configured nicks are told apart, they come first and in their order; then the
last of them comes again and again with one more underscore, until it is too long
to be a nick and nothing more is offered. A nick that is looked up at the place of
another sends the offers back to where they were: `offers_progress_iff` says of
which lists that never happens.
-/
import IrcBot.Bot.Builtin
import IrcBot.Proofs.Casemap
import IrcBot.Proofs.Config.Acceptance

namespace IrcBot.Builtin

open IrcBot.Bot (Act World)
open IrcBot.Config (nicks_of_validate)

/-- The nick that is offered after so many refusals; connecting offers the first one. -/
def offered (n : Config.Network) : Nat → Text
  | 0 => n.primaryNick
  | k + 1 => nextNick n.nicks (offered n k)

/-- A nick with underscores after it. -/
def underscored (nick : Text) (k : Nat) : Text := nick ++ List.replicate k '_'

/-- No nick of the list is another one in other letters, and none is the last one in any letters
with underscores after it. -/
structure Apart (nicks : List Text) : Prop where
  distinct : nicks.Pairwise fun a b => same a b = false
  last : ∀ last ∈ nicks.getLast?, ∀ nick ∈ nicks, ∀ k, 0 < k →
    same nick (underscored last k) = false

variable {nicks : List Text} {nick attempted : Text}

/-! ## One step -/

theorem nextNick_of_before {before after : List Text} {next : Text}
    (hbefore : ∀ a ∈ before, same a attempted = false) (hnick : same nick attempted = true) :
    nextNick (before ++ nick :: next :: after) attempted = next := by
  have hdrop : (before ++ nick :: next :: after).dropWhile (fun n => !same n attempted) =
      nick :: next :: after := by
    rw [List.dropWhile_append_of_pos fun a ha => by simp [hbefore a ha]]
    exact List.dropWhile_cons_of_neg (by simp [hnick])
  rw [nextNick, hdrop]

/-- Once no entry but the last is meant, an underscore is added. -/
theorem nextNick_of_exhausted (h : ∀ a ∈ nicks.dropLast, same a attempted = false) :
    nextNick nicks attempted = attempted ++ ['_'] := by
  have hlength : (nicks.dropWhile fun n => !same n attempted).length ≤ 1 := by
    induction nicks with
    | nil => simp
    | cons a nicks ih =>
      cases nicks with
      | nil => exact (List.dropWhile_suffix _).length_le
      | cons b nicks =>
        rw [List.dropLast_cons_cons] at h
        rw [List.dropWhile_cons_of_pos (by simp [h a (by simp)])]
        exact ih fun c hc => h c (List.mem_cons_of_mem _ hc)
  unfold nextNick
  split
  · next hdrop =>
    rw [hdrop] at hlength
    simp at hlength
  · rfl

/-! ## The configured nicks -/

section Walk

variable {n : Config.Network}

/-- The configured nicks are offered in their order as long as they are told apart. -/
theorem offered_configured {k : Nat} (hk : k < n.nicks.length)
    (hapart : ∀ i j (hij : i < j) (hj : j < k), same n.nicks[i] n.nicks[j] = false) :
    offered n k = n.nicks[k] := by
  induction k with
  | zero =>
    obtain ⟨first, rest, hnicks⟩ := List.exists_cons_of_length_pos hk
    simp [offered, Config.Network.primaryNick, hnicks]
  | succ k ih =>
    have hprevious : offered n k = n.nicks[k] :=
      ih (by omega) fun i j hij hj => hapart i j hij (by omega)
    have hsplit :
        n.nicks = n.nicks.take k ++ n.nicks[k] :: n.nicks[k + 1] :: n.nicks.drop (k + 2) := by
      rw [← List.drop_eq_getElem_cons, ← List.drop_eq_getElem_cons, List.take_append_drop]
    have hbefore : ∀ a ∈ n.nicks.take k, same a n.nicks[k] = false := by
      intro a ha
      obtain ⟨i, hi, rfl⟩ := List.mem_take_iff_getElem.1 ha
      exact hapart i k (by omega) (by omega)
    calc offered n (k + 1) = nextNick n.nicks n.nicks[k] := by rw [offered, hprevious]
      _ = nextNick (n.nicks.take k ++ n.nicks[k] :: n.nicks[k + 1] :: n.nicks.drop (k + 2))
            n.nicks[k] := congrArg (nextNick · n.nicks[k]) hsplit
      _ = n.nicks[k + 1] := nextNick_of_before hbefore (same_iff.2 rfl)

theorem offered_of_distinct {k : Nat} (hk : k < n.nicks.length)
    (hdistinct : n.nicks.Pairwise fun a b => same a b = false) : offered n k = n.nicks[k] :=
  offered_configured hk fun i j hij hj =>
    List.pairwise_iff_getElem.1 hdistinct i j (by omega) (by omega) hij

/-- After them the last one is offered with more and more underscores, as long as none of these
is a configured nick. -/
theorem offered_underscored {last : Text} {k : Nat} (hlast : n.nicks.getLast? = some last)
    (hdistinct : n.nicks.Pairwise fun a b => same a b = false)
    (hnew : ∀ j, 0 < j → j < k → ∀ nick ∈ n.nicks, same nick (underscored last j) = false) :
    offered n (n.nicks.length - 1 + k) = underscored last k := by
  obtain ⟨front, hfront⟩ := List.getLast?_eq_some_iff.1 hlast
  have hlength : n.nicks.length = front.length + 1 := by simp [hfront]
  induction k with
  | zero =>
    have hk : n.nicks.length - 1 < n.nicks.length := by omega
    rw [Nat.add_zero, offered_of_distinct hk hdistinct]
    simp [underscored, hfront]
  | succ k ih =>
    have hprevious := ih fun j hj hjk => hnew j hj (by omega)
    have hexhausted : ∀ a ∈ n.nicks.dropLast, same a (underscored last k) = false := by
      intro a ha
      rcases Nat.eq_zero_or_pos k with rfl | hk
      · rw [hfront, List.dropLast_concat] at ha
        rw [hfront, List.pairwise_append] at hdistinct
        simpa [underscored] using hdistinct.2.2 a ha last (by simp)
      · exact hnew k hk (by omega) a ((List.dropLast_sublist _).subset ha)
    calc offered n (n.nicks.length - 1 + k + 1) = nextNick n.nicks (underscored last k) := by
          rw [offered, hprevious]
      _ = underscored last k ++ ['_'] := nextNick_of_exhausted hexhausted
      _ = underscored last (k + 1) := by
          rw [underscored, underscored, List.append_assoc, List.replicate_succ']

end Walk

/-! ## When a nick with underscores is a nick -/

theorem byteSize_underscored (nick : Text) (k : Nat) :
    Text.byteSize (underscored nick k) = Text.byteSize nick + k := by
  have hunderscores : Text.byteSize (List.replicate k '_') = k := by
    induction k with
    | zero => rfl
    | succ k ih =>
      rw [List.replicate_succ, Text.byteSize_cons, ih, Nat.add_comm k 1]
      rfl
  rw [underscored, Text.byteSize_append, hunderscores]

theorem isValid_underscored {k : Nat} (h : Nick.isValid nick = true) :
    Nick.isValid (underscored nick k) = true ↔ Text.byteSize nick + k ≤ Nick.maxBytes := by
  rw [← byteSize_underscored]
  cases nick with
  | nil => cases h
  | cons c rest =>
    simp only [Nick.isValid, Bool.and_eq_true, decide_eq_true_eq] at h
    obtain ⟨⟨-, hfirst⟩, hrest⟩ := h
    have hall : (rest ++ List.replicate k '_').all Nick.isFollowing = true := by
      rw [List.all_append, hrest, Bool.true_and, List.all_replicate]
      simp [Nick.isFollowing, Nick.isSpecial]
    simp [underscored, Nick.isValid, hfirst, hall]

/-- A nick with underscores that is a valid nick in other letters is valid. -/
theorem isValid_of_same {last : Text} {k : Nat} (hlast : Nick.isValid last = true)
    (hnick : Nick.isValid nick = true) (hsame : same nick (underscored last k) = true) :
    Nick.isValid (underscored last k) = true := by
  rw [isValid_underscored hlast, ← byteSize_underscored, ← byteSize_of_same hsame]
  cases nick with
  | nil => cases hnick
  | cons c rest =>
    simp only [Nick.isValid, Bool.and_eq_true, decide_eq_true_eq] at hnick
    exact hnick.1.1

/-! ## Progress -/

/-- No valid nick is offered twice, in whatever letters. -/
def NoneTwice (n : Config.Network) : Prop :=
  ∀ j k, j ≠ k → Nick.isValid (offered n j) = true → Nick.isValid (offered n k) = true →
    same (offered n j) (offered n k) = false

section Progress

variable {n : Config.Network} {last : Text}

theorem Apart.underscored (h : Apart n.nicks) (hlast : n.nicks.getLast? = some last) (k : Nat) :
    offered n (n.nicks.length - 1 + k) = underscored last k :=
  offered_underscored hlast h.distinct fun j hj _ nick hnick => h.last last hlast nick hnick j hj

theorem Apart.differ (h : Apart n.nicks) (hlast : n.nicks.getLast? = some last) {j k : Nat}
    (hjk : j < k) : same (offered n j) (offered n k) = false := by
  by_cases hk : k < n.nicks.length
  · rw [offered_of_distinct hk h.distinct,
      offered_of_distinct (by omega : j < n.nicks.length) h.distinct]
    exact List.pairwise_iff_getElem.1 h.distinct j k (by omega) hk hjk
  · obtain ⟨m, rfl⟩ : ∃ m, k = n.nicks.length - 1 + m := ⟨k - (n.nicks.length - 1), by omega⟩
    rw [h.underscored hlast m]
    by_cases hj : j < n.nicks.length
    · rw [offered_of_distinct hj h.distinct]
      exact h.last last hlast _ (List.getElem_mem hj) m (by omega)
    · obtain ⟨m', rfl⟩ : ∃ m', j = n.nicks.length - 1 + m' := ⟨j - (n.nicks.length - 1), by omega⟩
      rw [h.underscored hlast m', Bool.eq_false_iff]
      intro hsame
      have hsize := byteSize_of_same hsame
      rw [byteSize_underscored, byteSize_underscored] at hsize
      omega

theorem Apart.noneTwice (h : Apart n.nicks) (hlast : n.nicks.getLast? = some last) :
    NoneTwice n := by
  intro j k hjk _ _
  rcases Nat.lt_or_gt_of_ne hjk with hlt | hlt
  · exact h.differ hlast hlt
  · rw [same_comm]
    exact h.differ hlast hlt

/-- The offers end: with enough underscores the last nick is too long. -/
theorem Apart.ends (h : Apart n.nicks) (hlast : n.nicks.getLast? = some last)
    (hvalid : Nick.isValid last = true) : ∃ k, Nick.isValid (offered n k) = false := by
  refine ⟨n.nicks.length - 1 + (Nick.maxBytes + 1), ?_⟩
  rw [h.underscored hlast, Bool.eq_false_iff, ne_eq, isValid_underscored hvalid]
  omega

/-- If no nick is offered twice, the configured ones differ: the first that is another one again
would be offered after it. -/
theorem NoneTwice.distinct (h : NoneTwice n)
    (hvalid : ∀ nick ∈ n.nicks, Nick.isValid nick = true) :
    n.nicks.Pairwise fun a b => same a b = false := by
  have hfront (k : Nat) (hk : k ≤ n.nicks.length) :
      ∀ i j (hij : i < j) (hj : j < k), same n.nicks[i] n.nicks[j] = false := by
    induction k with
    | zero => omega
    | succ k ih =>
      intro i j hij hj
      have hwalk := ih (by omega)
      rcases Nat.lt_or_eq_of_le (Nat.le_of_lt_succ hj) with hlt | rfl
      · exact hwalk i j hij hlt
      · have hi : offered n i = n.nicks[i] :=
          offered_configured (by omega) fun a b hab hb => hwalk a b hab (by omega)
        have hj : offered n j = n.nicks[j] := offered_configured (by omega) hwalk
        have hdiffer := h i j (by omega)
        rw [hi, hj] at hdiffer
        exact hdiffer (hvalid _ (List.getElem_mem _)) (hvalid _ (List.getElem_mem _))
  exact List.pairwise_iff_getElem.2 fun i j _ hj hij => hfront _ (Nat.le_refl _) i j hij hj

theorem NoneTwice.apart (h : NoneTwice n)
    (hvalid : ∀ nick ∈ n.nicks, Nick.isValid nick = true) : Apart n.nicks := by
  have hdistinct := h.distinct hvalid
  refine ⟨hdistinct, fun last hlast nick hnick k => ?_⟩
  -- the first underscored nick that is a configured one would be that one's second offer
  induction k using Nat.strongRecOn generalizing nick with
  | ind k ih =>
    intro hk
    have hgenerated : offered n (n.nicks.length - 1 + k) = underscored last k :=
      offered_underscored hlast hdistinct fun j hj hjk nick hnick => ih j hjk nick hnick hj
    obtain ⟨i, hi, rfl⟩ := List.mem_iff_getElem.1 hnick
    have hconfigured : offered n i = n.nicks[i] := offered_of_distinct hi hdistinct
    rw [Bool.eq_false_iff]
    intro hsame
    have hdiffer := h i (n.nicks.length - 1 + k) (by omega)
    rw [hconfigured, hgenerated] at hdiffer
    have hnickValid := hvalid _ hnick
    have hlastValid := hvalid last (List.mem_of_getLast? hlast)
    exact Bool.eq_false_iff.1
      (hdiffer hnickValid (isValid_of_same hlastValid hnickValid hsame)) hsame

end Progress

/-! ## The module -/

section Module

variable {κ γ ν : Type} [DecidableEq κ]
variable {behave : κ → Option γ → Event → Bus.Handler κ γ Event (Bot.calls ν)}
variable {poll : Bus.Run κ γ Event (World ν) → Nat × Bus.Run κ γ Event (World ν)}

/-- The run once a connection has got an order. -/
def ordered (r : Bus.Run κ γ Event (World ν)) (i : Nat) (o : Circuit.Order) :
    Bus.Run κ γ Event (World ν) :=
  let (_, net, events) := r.world.net.order i o
  events.foldl Bus.Run.trigger { r with world := { r.world with net } }

/-- The run once the module has handled the refusal of a nick on a connection. -/
def refused (behave : κ → Option γ → Event → Bus.Handler κ γ Event (Bot.calls ν))
    (poll : Bus.Run κ γ Event (World ν) → Nat × Bus.Run κ γ Event (World ν))
    (r : Bus.Run κ γ Event (World ν)) (i : Nat) (server : Mask) (params : List Text) :
    Bus.Run κ γ Event (World ν) :=
  ((offerNick (.occurred i (.serverMessage server Reply.nicknameInUse.code params)) :
      Act κ γ ν Unit).run (Bus.serve ⟨Event.name, behave, Bot.perform⟩ poll) r).2

theorem run_insist (r : Bus.Run κ γ Event (World ν)) (i : Nat) (o : Circuit.Order) :
    ((insist i o : Act κ γ ν Unit).run (Bus.serve ⟨Event.name, behave, Bot.perform⟩ poll) r).2 =
      ordered r i o := by
  show (Program.run _ (Act.require (r.world.net.order i o).1) (ordered r i o)).2 = _
  cases (r.world.net.order i o).1 with
  | ok _ => rfl
  | error _ => rfl

/-- What is left of the handler once it has looked at the connection. -/
theorem refused_look (r : Bus.Run κ γ Event (World ν)) (i : Nat) (server : Mask)
    (params : List Text) :
    refused behave poll r i server params =
      (Program.run (Bus.serve ⟨Event.name, behave, Bot.perform⟩ poll)
        (match r.world.net.connections.get? i with
          | none => pure ()
          | some c =>
            if c.session.phase = .registered then pure ()
            else
              let next := nextNick c.settings.nicks (params[1]?.getD c.session.nick)
              if Nick.isValid next then insist i (.nick next) else pure () : Act κ γ ν Unit)
        r).2 := rfl

/-- Before registration a refused nick is answered by the next one, if that is a nick. -/
theorem refused_eq {r : Bus.Run κ γ Event (World ν)} {i : Nat} {c : Connection}
    (hc : r.world.net.connections.get? i = some c) (hphase : c.session.phase ≠ .registered)
    (server : Mask) (params : List Text) :
    refused behave poll r i server params =
      if Nick.isValid (nextNick c.settings.nicks (params[1]?.getD c.session.nick)) then
        ordered r i (.nick (nextNick c.settings.nicks (params[1]?.getD c.session.nick)))
      else r := by
  rw [refused_look, hc]
  simp only [hphase, if_false]
  split
  · exact run_insist r i _
  · rfl

/-- The module answers the refusal of each nick that is offered with the next one, as long as
that is a nick, and then with nothing any more. -/
def OffersInTurn (behave : κ → Option γ → Event → Bus.Handler κ γ Event (Bot.calls ν))
    (poll : Bus.Run κ γ Event (World ν) → Nat × Bus.Run κ γ Event (World ν))
    (n : Config.Network) : Prop :=
  ∀ (k : Nat) (r : Bus.Run κ γ Event (World ν)) (i : Nat) (c : Connection) (server : Mask)
    (params : List Text), r.world.net.connections.get? i = some c → c.settings = n →
    c.session.phase ≠ .registered → params[1]?.getD c.session.nick = offered n k →
    refused behave poll r i server params =
      if Nick.isValid (offered n (k + 1)) then ordered r i (.nick (offered n (k + 1))) else r

theorem offersInTurn (n : Config.Network) : OffersInTurn behave poll n := by
  rintro k r i c server params hc rfl hphase hnick
  rw [refused_eq hc hphase, hnick]
  rfl

end Module

/-! ## Networks of an accepted configuration -/

/-- **Offers make progress and end exactly when the configured nicks are kept apart.** Take any
network of a configuration that validation accepts, and a server that refuses each nick in turn.
No valid nick is offered twice, all configured nicks are offered before any other, and the offers
come to one that is no nick, exactly if no configured nick is another one, or the last one with
underscores after it, in whatever letters. In any case the module answers each refusal with the
next of these nicks if it is one, and else with nothing. -/
theorem offers_progress_iff {κ γ ν : Type} [DecidableEq κ]
    (behave : κ → Option γ → Event → Bus.Handler κ γ Event (Bot.calls ν))
    (poll : Bus.Run κ γ Event (World ν) → Nat × Bus.Run κ γ Event (World ν))
    {config : Config} (hconfig : config.validate = .ok ()) {n : Config.Network}
    (hn : n ∈ config.networks) :
    (NoneTwice n ∧ (∀ k (hk : k < n.nicks.length), offered n k = n.nicks[k]) ∧
        (∃ k, Nick.isValid (offered n k) = false) ↔ Apart n.nicks) ∧
      OffersInTurn behave poll n := by
  obtain ⟨hne, hvalid⟩ := nicks_of_validate hconfig hn
  have hlast := List.getLast?_eq_some_getLast hne
  refine ⟨⟨fun ⟨htwice, _⟩ => htwice.apart hvalid, fun hapart => ?_⟩, offersInTurn n⟩
  exact ⟨hapart.noneTwice hlast, fun k hk => offered_of_distinct hk hapart.distinct,
    hapart.ends hlast (hvalid _ (List.getLast_mem hne))⟩

/-- A network with these nicks, and a configuration with that network alone. -/
def network (nicks : List Text) : Config.Network :=
  { name := "net".toList, host := "irc.test".toList, nicks }

def configuration (nicks : List Text) : Config := { networks := [network nicks] }

/-- Nicks of which the second is longer are kept apart. -/
theorem apart_of_lengths {a b : Text} (h : Text.byteSize a < Text.byteSize b) : Apart [a, b] := by
  have hdiffer {x y : Text} (hsize : Text.byteSize x < Text.byteSize y) : same x y = false := by
    rw [Bool.eq_false_iff]
    intro hsame
    have heq := byteSize_of_same hsame
    omega
  refine ⟨by simpa using hdiffer h, fun last hlast nick hnick k hk => ?_⟩
  rw [List.getLast?_cons_cons, List.getLast?_singleton, Option.mem_some] at hlast
  subst hlast
  have hsize := byteSize_underscored b k
  simp only [List.mem_cons, List.not_mem_nil, or_false] at hnick
  rcases hnick with rfl | rfl
  · exact hdiffer (by omega)
  · exact hdiffer (by omega)

def twoNicks : List Text := ["bot".toList, "Bot2".toList]

theorem offers_progress_of_two_nicks :
    (configuration twoNicks).validate = .ok () ∧
      network twoNicks ∈ (configuration twoNicks).networks ∧ Apart twoNicks ∧
      NoneTwice (network twoNicks) ∧ offered (network twoNicks) 1 = "Bot2".toList ∧
      (∃ k, Nick.isValid (offered (network twoNicks) k) = false) ∧
      OffersInTurn (κ := Nat) (γ := Unit) (ν := Unit) (fun _ _ _ => .done ()) (fun r => (0, r))
        (network twoNicks) := by
  have hvalid : (configuration twoNicks).validate = .ok () := if_pos (by decide +kernel)
  have hmem : network twoNicks ∈ (configuration twoNicks).networks := List.mem_singleton.2 rfl
  have hapart : Apart twoNicks := apart_of_lengths (by decide)
  obtain ⟨hiff, hmodule⟩ := offers_progress_iff (κ := Nat) (γ := Unit) (ν := Unit)
    (fun _ _ _ => .done ()) (fun r => (0, r)) hvalid hmem
  obtain ⟨htwice, hconfigured, hends⟩ := hiff.2 hapart
  exact ⟨hvalid, hmem, hapart, htwice, hconfigured 1 (by decide), hends, hmodule⟩

/-- One nick, configured in two spellings. -/
def twoSpellings : List Text := ["a".toList, "A".toList]

/-- The second spelling is looked up at the first one, and offered for ever. -/
theorem offers_stuck_of_two_spellings :
    (configuration twoSpellings).validate = .ok () ∧
      nextNick twoSpellings "A".toList = "A".toList ∧
      ¬ ∃ k, Nick.isValid (offered (network twoSpellings) k) = false := by
  refine ⟨if_pos (by decide +kernel), by decide +kernel, ?_⟩
  rintro ⟨k, hk⟩
  have hstuck (k : Nat) : offered (network twoSpellings) (k + 1) = "A".toList := by
    induction k with
    | zero => decide +kernel
    | succ k ih =>
      rw [offered, ih]
      decide +kernel
  cases k with
  | zero => exact absurd hk (by decide +kernel)
  | succ k =>
    rw [hstuck] at hk
    exact absurd hk (by decide +kernel)

end IrcBot.Builtin
