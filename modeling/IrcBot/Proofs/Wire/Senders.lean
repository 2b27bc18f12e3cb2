/-
Who a message is from, read in two ways. `sender?` takes the source for a mask, or for a bare nick
where it is none; `sourceNick?` cuts it at its first `!`, whatever comes after. On a full mask, and
on a source without a `!`, both find the same nick. A source that only begins like a mask is a nick
as a whole to the one and up to the `!` to the other (`two_readings_agree_iff`).
-/
import IrcBot.Proofs.Wire.Masks
import IrcBot.Wire.Message

namespace IrcBot

namespace Mask

variable {t nick user host : Text}

theorem nick_parse_of_parts (h : Parts nick user host) :
    (parse (nick ++ '!' :: user ++ '@' :: host)).nick = nick := by
  have hparse : parse (nick ++ '!' :: user ++ '@' :: host) = ⟨nick, some user, some host⟩ :=
    parse_eq_iff.2 (.inr ⟨nick, user, host, h, rfl, rfl⟩)
  rw [hparse]

theorem nick_parse_of_not_full (h : ¬ IsFullText t) : (parse t).nick = t := by
  have hparse : parse t = bare t := parse_eq_iff.2 (.inl ⟨rfl, h⟩)
  rw [hparse]
  rfl

theorem cut?_of_parts (h : Parts nick user host) :
    Text.cut? '!' (nick ++ '!' :: user ++ '@' :: host) = some (nick, user ++ '@' :: host) :=
  Text.cut?_eq_some_iff.2 ⟨by simp, h.nick_plain.1⟩

/-- What stands before the first `!` of a text that has one is its nick only if it is a mask. -/
theorem cut?_eq_nick_iff :
    (t.cut? '!').elim t (·.1) = (parse t).nick ↔ ('!' ∈ t → IsFullText t) := by
  by_cases hfull : IsFullText t
  · obtain ⟨nick, user, host, hparts, rfl⟩ := hfull
    refine iff_of_true ?_ fun _ => ⟨nick, user, host, hparts, rfl⟩
    rw [cut?_of_parts hparts, nick_parse_of_parts hparts, Option.elim_some]
  · rw [nick_parse_of_not_full hfull]
    cases hcut : t.cut? '!' with
    | none =>
      have hbang : '!' ∉ t := Text.cut?_eq_none_iff.1 hcut
      exact iff_of_true rfl fun h => absurd h hbang
    | some parts =>
      obtain ⟨before, after⟩ := parts
      obtain ⟨rfl, -⟩ := Text.cut?_eq_some_iff.1 hcut
      -- a text is longer than what stands before one of its characters
      refine iff_of_false ?_ fun h => hfull (h (by simp))
      simp

end Mask

namespace Message

open Mask (Parts IsFullText)

variable {m : Message} {source : Text}

/-- **Two readings of the sender's nick.** For every message with a source: both readings find the
same nick exactly if the source has no `!` or is a full mask. A full mask has the nick before its
`!` in either reading; any other source is, as a sender, a nick as a whole. -/
theorem two_readings_agree_iff (hsource : m.source = some source) :
    (m.sourceNick? = m.sender?.map Mask.nick ↔ ('!' ∈ source → IsFullText source)) ∧
    (∀ nick user host, Parts nick user host → source = nick ++ '!' :: user ++ '@' :: host →
      m.sender?.map Mask.nick = some nick ∧ m.sourceNick? = some nick) ∧
    (¬ IsFullText source → m.sender?.map Mask.nick = some source) := by
  have hsender : m.sender?.map Mask.nick = some (Mask.parse source).nick := by
    rw [sender?, hsource, Option.map_some, Option.map_some]
  have hcut : m.sourceNick? = some ((source.cut? '!').elim source (·.1)) := by
    rw [sourceNick?, hsource, Option.map_some]
  rw [hsender, hcut, Option.some_inj]
  refine ⟨Mask.cut?_eq_nick_iff, ?_, fun hbare => ?_⟩
  · rintro nick user host hparts rfl
    rw [Mask.nick_parse_of_parts hparts, Mask.cut?_of_parts hparts, Option.elim_some]
    exact ⟨rfl, rfl⟩
  · rw [Mask.nick_parse_of_not_full hbare]

/-- Separators in the user and in the host make no difference. -/
theorem two_readings_of_crowded_mask :
    let m : Message := { source := some "bob!b!b@weird!@host".toList, command := "QUIT".toList }
    m.source = some "bob!b!b@weird!@host".toList ∧
      Parts "bob".toList "b!b".toList "weird!@host".toList ∧
      m.sourceNick? = m.sender?.map Mask.nick ∧ m.sourceNick? = some "bob".toList := by
  intro m
  have hparts : Parts "bob".toList "b!b".toList "weird!@host".toList :=
    ⟨by decide, by decide, by decide, by decide, by decide⟩
  obtain ⟨hagree, hfull, -⟩ := two_readings_agree_iff (m := m) rfl
  exact ⟨rfl, hparts, hagree.2 fun _ => ⟨_, _, _, hparts, rfl⟩, (hfull _ _ _ hparts rfl).2⟩

/-- A source without a host is a nick as a whole, and is cut at its `!` nevertheless. -/
theorem half_mask_read_two_ways :
    (parse ":alice!user PING x".toList).toOption.map
        (fun m => (m.sender?.map Mask.nick, m.sourceNick?)) =
      some (some "alice!user".toList, some "alice".toList) := by
  decide +kernel

end Message

end IrcBot
