/-
Masks and the texts they are written as. A text is cut into nick, user and host in at most one way
(`split?_eq_some_iff`), because the nick holds neither separator and the user no `@`; the host may
hold both. So displaying what was parsed gives the text back, whatever it was, and parsing what was
displayed gives the mask back exactly where its parts can stand between the separators, or where it
has a nick alone that does not look like all three (`parse_display_inverse`).
-/
import IrcBot.Wire.Mask

namespace IrcBot.Mask

/-- Three parts that can be told apart once they are written with `!` and `@` between them. -/
structure Parts (nick user host : Text) : Prop where
  nick_ne : nick ≠ []
  nick_plain : '!' ∉ nick ∧ '@' ∉ nick
  user_ne : user ≠ []
  user_plain : '@' ∉ user
  host_ne : host ≠ []

/-- The text is `nick!user@host`. -/
def IsFullText (t : Text) : Prop :=
  ∃ nick user host, Parts nick user host ∧ t = nick ++ '!' :: user ++ '@' :: host

variable {t nick user host : Text} {m : Mask}

theorem split?_eq_some_iff :
    split? t = some (nick, user, host) ↔
      Parts nick user host ∧ t = nick ++ '!' :: user ++ '@' :: host := by
  simp only [split?, Option.bind_eq_bind, Option.bind_eq_some_iff, Option.ite_none_left_eq_some,
    Option.some.injEq, not_or]
  constructor
  · rintro ⟨⟨nick', rest⟩, hbang, ⟨user', host'⟩, hat, hparts, he⟩
    cases he
    obtain ⟨rfl, hnick⟩ := Text.cut?_eq_some_iff.1 hbang
    obtain ⟨rfl, huser⟩ := Text.cut?_eq_some_iff.1 hat
    obtain ⟨hnick_ne, huser_ne, hhost_ne, hnick_at⟩ := hparts
    exact ⟨⟨hnick_ne, ⟨hnick, hnick_at⟩, huser_ne, huser, hhost_ne⟩, by simp⟩
  · rintro ⟨h, rfl⟩
    have hbang : Text.cut? '!' (nick ++ '!' :: user ++ '@' :: host) =
        some (nick, user ++ '@' :: host) :=
      Text.cut?_eq_some_iff.2 ⟨by simp, h.nick_plain.1⟩
    have hat : Text.cut? '@' (user ++ '@' :: host) = some (user, host) :=
      Text.cut?_eq_some_iff.2 ⟨rfl, h.user_plain⟩
    exact ⟨_, hbang, _, hat, ⟨h.nick_ne, h.user_ne, h.host_ne, h.nick_plain.2⟩, rfl⟩

theorem split?_eq_none_iff : split? t = none ↔ ¬ IsFullText t := by
  rw [Option.eq_none_iff_forall_ne_some]
  constructor
  · rintro h ⟨nick, user, host, hparts⟩
    exact h _ (split?_eq_some_iff.2 hparts)
  · rintro h ⟨nick, user, host⟩ hsplit
    exact h ⟨nick, user, host, split?_eq_some_iff.1 hsplit⟩

/-- A text is read as its three parts if it is made of them, and as a bare nick if not. -/
theorem parse_eq_iff :
    parse t = m ↔
      (m = bare t ∧ ¬ IsFullText t) ∨
        ∃ nick user host, Parts nick user host ∧ t = nick ++ '!' :: user ++ '@' :: host ∧
          m = ⟨nick, some user, some host⟩ := by
  unfold parse
  cases hsplit : split? t with
  | none =>
    have hbare : ¬ IsFullText t := split?_eq_none_iff.1 hsplit
    constructor
    · intro h
      exact .inl ⟨h.symm, hbare⟩
    · rintro (⟨h, -⟩ | ⟨nick, user, host, hparts, ht, -⟩)
      · exact h.symm
      · exact absurd ⟨nick, user, host, hparts, ht⟩ hbare
  | some parts =>
    obtain ⟨nick, user, host⟩ := parts
    obtain ⟨hparts, ht⟩ := split?_eq_some_iff.1 hsplit
    constructor
    · intro h
      exact .inr ⟨nick, user, host, hparts, ht, h.symm⟩
    · rintro (⟨-, hbare⟩ | ⟨nick', user', host', hparts', ht', rfl⟩)
      · exact absurd ⟨nick, user, host, hparts, ht⟩ hbare
      · have hsame := hsplit.symm.trans (split?_eq_some_iff.2 ⟨hparts', ht'⟩)
        cases hsame
        rfl

theorem display_parse (t : Text) : (parse t).display = t := by
  rcases parse_eq_iff.1 (rfl : parse t = parse t) with ⟨h, -⟩ | ⟨nick, user, host, -, ht, h⟩
  · rw [h]
    simp [bare, display]
  · rw [h, ht]
    simp [display]

/-- **Reading and writing a mask are inverse.** Every text is got back from the mask it is read as.
A mask is got back from its text exactly if it has neither user nor host and its nick is no full
mask itself, or if it has both and no part is empty or holds a separator that would end it. -/
theorem parse_display_inverse :
    (∀ t : Text, (parse t).display = t) ∧
      ∀ m : Mask, parse m.display = m ↔
        (m.user = none ∧ m.host = none ∧ ¬ IsFullText m.nick) ∨
          ∃ user host, m.user = some user ∧ m.host = some host ∧ Parts m.nick user host := by
  refine ⟨display_parse, fun m => ?_⟩
  obtain ⟨nick, user?, host?⟩ := m
  cases user? with
  | none =>
    cases host? with
    | none => simp [parse_eq_iff, display, bare]
    | some host => simp [parse_eq_iff, bare]
  | some user =>
    cases host? with
    | none => simp [parse_eq_iff, bare]
    | some host =>
      have hfull : parse (display ⟨nick, some user, some host⟩) = ⟨nick, some user, some host⟩ ↔
          Parts nick user host := by
        constructor
        · intro h
          rcases parse_eq_iff.1 h with ⟨hbare, -⟩ | ⟨_, _, _, hparts, -, hsame⟩
          · simp [bare] at hbare
          · cases hsame
            exact hparts
        · intro hparts
          exact parse_eq_iff.2 (.inr ⟨nick, user, host, hparts, by simp [display], rfl⟩)
      simpa using hfull

/-- A host may hold both separators; a user may not hold an `@`, which would end it. -/
example :
    parse "bob!b!b@weird!@host".toList =
        ⟨"bob".toList, some "b!b".toList, some "weird!@host".toList⟩ ∧
      parse (display ⟨"bob".toList, some "b@b".toList, some "host".toList⟩) =
        ⟨"bob".toList, some "b".toList, some "b@host".toList⟩ := by decide +kernel

end IrcBot.Mask
