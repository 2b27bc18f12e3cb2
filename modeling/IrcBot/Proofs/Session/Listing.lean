/-
What the users are said to share with the bot, over any lines: every channel that
a user lists is one the bot is in, listed by the name it is shown by, and holds the
user; and all tables are keyed by folded names.
-/
import IrcBot.Proofs.Session.Membership
import IrcBot.Proofs.Tracker.Grounded

namespace IrcBot.Session

open Tracker

variable {s : Session} {registered : Nat} {line : Text} {P : Tracker → Prop}

/-- What every change and every renaming keeps, a line keeps. -/
theorem handleLine_keeps (hchange : ∀ t t', Change t t' → P t → P t')
    (hrename : ∀ t old new, P t → P (t.rename old new)) (hs : P s.tracker) :
    P (s.handleLine registered line).1.tracker := by
  cases hline : renaming? line with
  | none => exact (changes_handleLine hline).keeps hchange hs
  | some asked =>
    rw [handleLine_renaming hline]
    exact hrename _ _ _ (hchange _ _ (.update s.tracker asked.1) hs)

/-- What every change and every renaming keeps, any lines keep. -/
theorem hear_keeps (hchange : ∀ t t', Change t t' → P t → P t')
    (hrename : ∀ t old new, P t → P (t.rename old new)) (hs : P s.tracker) (lines : List Text) :
    P (s.hear registered lines).tracker := by
  induction lines generalizing s with
  | nil => exact hs
  | cons line lines ih => exact ih (handleLine_keeps hchange hrename hs)

theorem folded_grounded_hear (s : Session) (registered : Nat) (lines : List Text) :
    (hear registered { s with tracker := .empty } lines).tracker.Folded ∧
      (hear registered { s with tracker := .empty } lines).tracker.Grounded := by
  refine hear_keeps (P := fun t => t.Folded ∧ t.Grounded) ?_ ?_ ⟨folded_empty, grounded_empty⟩ lines
  · rintro t t' hchange ⟨hf, hg⟩
    exact ⟨hchange.folded hf, hchange.grounded hf.channels hg⟩
  · rintro t old new ⟨hf, hg⟩
    exact ⟨hf.rename, hg.rename⟩

/-- **Users list only channels the bot is in.** From a fresh session on, after any
lines: every user, channel and member stands under the fold of the name it is shown
by; each name that a user lists is, letter for letter, the name of a tracked channel
that holds this user; so no user lists two names that differ only in case, and none
lists, in any case, a channel that is not tracked any more. -/
theorem users_list_tracked_channels (s : Session) (registered : Nat) (lines : List Text) :
    let t := (hear registered { s with tracker := .empty } lines).tracker
    (∀ key u, t.users.get? key = some u → key = fold u.nick) ∧
      (∀ key c, t.channels.get? key = some c →
        key = fold c.name ∧ ∀ who m, c.members.get? who = some m → who = fold m.nick) ∧
      (∀ key u name, t.users.get? key = some u → u.channels.contains name = true →
        ∃ c, t.channel? name = some c ∧ c.name = name ∧ c.members.contains key = true) ∧
      (∀ key u name name', t.users.get? key = some u → u.channels.contains name = true →
        u.channels.contains name' = true → same name name' = true → name = name') ∧
      (∀ channel, t.hasChannel channel = false → ∀ key u name, t.users.get? key = some u →
        u.channels.contains name = true → same name channel = false) := by
  intro t
  obtain ⟨hf, hg⟩ : t.Folded ∧ t.Grounded := folded_grounded_hear s registered lines
  refine ⟨hf.users, ?_, ?_, ?_, ?_⟩
  · intro key c hc
    exact ⟨hf.channels key c hc, hf.members key c hc⟩
  · intro key u name hu hin
    exact hg key name ⟨u, hu, hin⟩
  · intro key u name name' hu hin hin' hsame
    exact hg.eq_of_fold_eq ⟨u, hu, hin⟩ ⟨u, hu, hin'⟩ (same_iff.1 hsame)
  · intro channel hgone key u name hu hin
    obtain ⟨c, hc, -, -⟩ := hg key name ⟨u, hu, hin⟩
    rw [← Bool.not_eq_true, same_iff]
    intro hfold
    rw [hasChannel, channel?, ← hfold, hc] at hgone
    cases hgone

end IrcBot.Session
