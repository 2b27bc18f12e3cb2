/-
Names as keys. Folding a name twice does no more than folding it once, and keeps its length in
bytes; so a table that is keyed by folded names answers a name just with what compares the same
as the name, and comparing and looking up may be mixed.
-/
import IrcBot.Proofs.Session.Listing
import IrcBot.Proofs.Text.Letters
import IrcBot.Text.Utf8

namespace IrcBot

/-! ## Folding -/

theorem foldChar_foldChar (c : Char) : foldChar (foldChar c) = foldChar c := by
  rw [foldChar.eq_def c]
  split
  · rfl
  · rfl
  · rfl
  · rfl
  · next hopen hclose hback htilde =>
    -- The lower case of a character is none of the four, for it would have been one of them before.
    unfold foldChar
    split
    · next h => exact absurd (eq_of_toLower_eq (by decide) h) hopen
    · next h => exact absurd (eq_of_toLower_eq (by decide) h) hclose
    · next h => exact absurd (eq_of_toLower_eq (by decide) h) hback
    · next h => exact absurd (eq_of_toLower_eq (by decide) h) htilde
    · exact toLower_toLower c

theorem fold_fold (name : Text) : fold (fold name) = fold name := by
  simp only [fold, List.map_map]
  exact List.map_congr_left fun c _ => foldChar_foldChar c

theorem byteSize_fold (name : Text) : (fold name).byteSize = name.byteSize := by
  induction name with
  | nil => rfl
  | cons c name ih =>
    rw [fold, List.map_cons, Text.byteSize_cons, utf8Size_foldChar, Text.byteSize_cons, ← ih, fold]

theorem Text.length_encode (t : Text) : (encode t).length = t.byteSize := by
  induction t with
  | nil => rfl
  | cons c t ih =>
    rw [encode, List.flatMap_cons, List.length_append, String.length_utf8EncodeChar, ← encode, ih,
      byteSize_cons]

theorem same_equivalence : Equivalence fun a b : Text => same a b = true where
  refl _ := same_iff.2 rfl
  symm h := same_iff.2 (same_iff.1 h).symm
  trans h h' := same_iff.2 ((same_iff.1 h).trans (same_iff.1 h'))

/-! ## Looking names up -/

/-- A table keyed by the folds of names answers a name with what is named the same. -/
theorem Table.get?_fold_iff {α : Type} {t : Table Text α} {nameOf : α → Text}
    (ht : t.All fun key a => key = fold (nameOf a)) {name : Text} {a : α} :
    t.get? (fold name) = some a ↔ a ∈ t.values ∧ same (nameOf a) name = true := by
  rw [same_iff]
  constructor
  · intro h
    exact ⟨List.mem_map.2 ⟨(fold name, a), Table.mem_entries.2 h, rfl⟩, (ht _ a h).symm⟩
  · rintro ⟨hmem, hfold⟩
    obtain ⟨⟨key, a'⟩, hentry, rfl⟩ := List.mem_map.1 hmem
    have hkey := Table.mem_entries.1 hentry
    rw [← hfold, ← ht key a' hkey]
    exact hkey

namespace Session

/-- **Comparing names and looking them up agree.** Two names are the same just if they have one
key; keys are their own keys, are as long as the names in bytes, and of a name put together they
are put together likewise; and being the same is an equivalence. So whatever is keyed by folds of
names is found by just the names that are the same as its own. Such are, after any lines, the tables
of users, of channels and of the members of each channel; and of the channels of a user, which
are taken off by comparing names, those go that have the key of the one that is left. -/
theorem lookups_find_same (s : Session) (registered : Nat) (lines : List Text) :
    let t := (hear registered { s with tracker := .empty } lines).tracker
    (∀ a b : Text, same a b = true ↔ fold a = fold b) ∧
      (∀ a : Text, fold (fold a) = fold a ∧
        (Text.encode (fold a)).length = (Text.encode a).length) ∧
      (∀ a b : Text, fold (a ++ b) = fold a ++ fold b) ∧
      Equivalence (fun a b : Text => same a b = true) ∧
      (∀ (α : Type) (entries : Table Text α) (nameOf : α → Text),
        (entries.All fun key a => key = fold (nameOf a)) →
        ∀ name a, entries.get? (fold name) = some a ↔
          a ∈ entries.values ∧ same (nameOf a) name = true) ∧
      (∀ nick u, t.user? nick = some u ↔ u ∈ t.users.values ∧ same u.nick nick = true) ∧
      (∀ name c, t.channel? name = some c ↔ c ∈ t.channels.values ∧ same c.name name = true) ∧
      (∀ c ∈ t.channels.values, ∀ nick m,
        c.member? nick = some m ↔ m ∈ c.members.values ∧ same m.nick nick = true) ∧
      ∀ (u : User) (channel name : Text), (u.left channel).channels.contains name = true ↔
        u.channels.contains name = true ∧ fold name ≠ fold channel := by
  intro t
  have hfolded : t.Folded := (folded_grounded_hear s registered lines).1
  refine ⟨fun a b => same_iff, fun a => ⟨fold_fold a, ?_⟩, fold_append, same_equivalence,
    fun α entries nameOf h name a => Table.get?_fold_iff h, ?_, ?_, ?_,
    fun u channel name => User.contains_left⟩
  · rw [Text.length_encode, Text.length_encode, byteSize_fold]
  · exact fun nick u => Table.get?_fold_iff hfolded.users
  · exact fun name c => Table.get?_fold_iff hfolded.channels
  · intro c hc nick m
    obtain ⟨⟨key, c'⟩, hentry, rfl⟩ := List.mem_map.1 hc
    exact Table.get?_fold_iff (hfolded.members key c' (Table.mem_entries.1 hentry))

end Session

end IrcBot
