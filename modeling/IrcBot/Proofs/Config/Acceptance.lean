/-
What validation makes sure of. Faults are collected network by network, so a
configuration without faults has none in any network; in particular every network lists
a nick, and all of its nicks are valid. A valid nick is a plain word: it can stand between
spaces in a line.
-/
import IrcBot.Config.Validation
import IrcBot.Proofs.Wire.Commands

namespace IrcBot

namespace Nick

variable {nick : Text}

theorem isFollowing_of_isFirst {c : Char} (h : isFirst c = true) : isFollowing c = true := by
  simp only [isFirst, isFollowing, Char.isAlphanum, Bool.or_eq_true] at h ⊢
  rcases h with h | h
  · exact .inl (.inl (.inl h))
  · exact .inl (.inr h)

theorem isFollowing_of_isValid (h : isValid nick = true) : ∀ c ∈ nick, isFollowing c = true := by
  cases nick with
  | nil => cases h
  | cons first rest =>
    simp only [isValid, Bool.and_eq_true, List.all_eq_true] at h
    intro c hc
    rcases List.mem_cons.1 hc with rfl | hc
    · exact isFollowing_of_isFirst h.1.2
    · exact h.2 c hc

/-- A valid nick can stand between spaces in a line. -/
theorem isMiddle_of_isValid (h : isValid nick = true) :
    Message.IsMiddle nick ∧ Text.Unbroken nick := by
  have hplain {c : Char} (hc : isFollowing c = false) : c ∉ nick := fun hmem => by
    rw [isFollowing_of_isValid h c hmem] at hc
    cases hc
  refine ⟨⟨?_, hplain (by decide), fun hcolon => ?_⟩, hplain (by decide), hplain (by decide)⟩
  · rintro rfl
    cases h
  · exact hplain (c := ':') (by decide) (List.mem_of_mem_head? hcolon)

end Nick

namespace Config

variable {config : Config} {n : Network}

theorem ownFaults_subset {seen : List Text} {networks : List Network} (hn : n ∈ networks) :
    n.ownFaults ⊆ networkFaults seen networks := by
  induction networks generalizing seen with
  | nil => cases hn
  | cons first rest ih =>
    intro fault hfault
    rw [networkFaults, List.mem_append, List.mem_append]
    rcases List.mem_cons.1 hn with rfl | hn
    · exact .inl (.inr hfault)
    · exact .inr (ih hn hfault)

/-- What validation makes sure of for the nicks of a network. -/
theorem nicks_of_validate (h : config.validate = .ok ()) (hn : n ∈ config.networks) :
    n.nicks ≠ [] ∧ ∀ nick ∈ n.nicks, Nick.isValid nick = true := by
  have hfaults : config.faults = [] := by
    unfold Config.validate at h
    split at h
    · next hempty => exact List.isEmpty_iff.1 hempty
    · cases h
  have hown (fault : Fault) : fault ∉ n.ownFaults := by
    intro hfault
    have hmem : fault ∈ config.faults := List.mem_append_right _ (ownFaults_subset hn hfault)
    rw [hfaults] at hmem
    cases hmem
  constructor
  · intro hnil
    refine hown (.noNicks n.name) ?_
    simp [Network.ownFaults, hnil, faultIf]
  · intro nick hnick
    cases hinvalid : Nick.isValid nick with
    | true => rfl
    | false =>
      refine absurd ?_ (hown (.invalidNick n.name nick))
      simp [Network.ownFaults, hnick, hinvalid]

/-- The nick that connecting starts with is one of the configured ones. -/
theorem isValid_primaryNick (h : config.validate = .ok ()) (hn : n ∈ config.networks) :
    Nick.isValid n.primaryNick = true := by
  obtain ⟨hne, hvalid⟩ := nicks_of_validate h hn
  obtain ⟨first, rest, hnicks⟩ := List.exists_cons_of_ne_nil hne
  refine hvalid _ ?_
  rw [Network.primaryNick, hnicks]
  exact List.mem_cons_self

end Config

end IrcBot
