/-
What a server has announced, told by the tokens it has sent. The last token that mentions a key
decides what is known of the key, however the tokens are spread over replies (`get?_merge`). What
a token says of a name can be read without the parser (`mention?`), and so can the channel types
in force (`channelTypes_merge`).
-/
import IrcBot.Server.Isupport
import Mathlib.Data.List.Induction

namespace IrcBot.Isupport

variable {s : Isupport} {key token : Text} {tokens tokens' : List Text}

/-! ## The last mention -/

/-- What is known of a key after a token that mentions it. -/
def Token.leaves? (key : Text) : Token → Option (Option (Option Text))
  | .withdrawn key' => if key' = key then some none else none
  | .announced key' value => if key' = key then some (some value) else none

theorem merge_append : s.merge (tokens ++ tokens') = (s.merge tokens).merge tokens' := by
  simp [merge]

theorem get?_apply (s : Isupport) (t : Token) (key : Text) :
    (s.apply t).get? key = (t.leaves? (Text.toUpper key)).getD (s.get? key) := by
  cases t with
  | withdrawn key' =>
    simp only [apply, get?, Token.leaves?, Table.get?_erase]
    split <;> rfl
  | announced key' value =>
    simp only [apply, get?, Token.leaves?, Table.get?_insert]
    split <;> rfl

/-- What is known of a key is what the last token that mentions it says, and what was known before
if none does. -/
theorem get?_merge (s : Isupport) (tokens : List Text) (key : Text) :
    (s.merge tokens).get? key =
      (tokens.reverse.findSome? fun token =>
        (Token.parse? token).bind (Token.leaves? (Text.toUpper key))).getD (s.get? key) := by
  induction tokens using List.reverseRecOn with
  | nil => rfl
  | append_singleton tokens token ih =>
    rw [merge_append, List.reverse_concat, List.findSome?_cons]
    cases hparse : Token.parse? token with
    | none =>
      have hsame : (s.merge tokens).merge [token] = s.merge tokens := by simp [merge, hparse]
      rw [hsame, ih, Option.bind_none]
    | some t =>
      have hlast : (s.merge tokens).merge [token] = (s.merge tokens).apply t := by
        simp [merge, hparse]
      rw [hlast, get?_apply, ih, Option.bind_some]
      cases t.leaves? (Text.toUpper key) <;> rfl

/-! ## Tokens read without the parser -/

/-- A key that a token can announce. -/
def IsName (key : Text) : Prop :=
  '=' ∉ key ∧ key ≠ [] ∧ key.head? ≠ some ':' ∧ key.head? ≠ some '-'

instance (key : Text) : Decidable (IsName key) := inferInstanceAs (Decidable (_ ∧ _ ∧ _ ∧ _))

/-- What a token says of a name, if it mentions it in any case: that it is withdrawn, by a minus
sign in front, or that it is announced, and then the value if there is one. -/
def mention? (key token : Text) : Option (Option (Option Text)) :=
  match token.cut? '=' with
  | some (name, value) => if Text.toUpper name = key then some (some (some value)) else none
  | none =>
    if Text.toUpper token = key then some (some none)
    else if token.head? = some '-' ∧ Text.toUpper token.tail = key then some none
    else none

/-- No name in capitals is a text that starts with a sign. -/
theorem IsName.ne_sign (hkey : IsName key) {c : Char} (hc : c = ':' ∨ c = '-') (t : Text) :
    Text.toUpper (c :: t) ≠ key := by
  obtain ⟨-, -, hcolon, hminus⟩ := hkey
  intro he
  subst he
  rcases hc with rfl | rfl
  · exact hcolon rfl
  · exact hminus rfl

theorem IsName.ne_of_mem (hkey : IsName key) (h : '=' ∈ token) : Text.toUpper token ≠ key := by
  intro he
  exact hkey.1 (he ▸ List.mem_map.2 ⟨'=', h, rfl⟩)

theorem mention?_eq (hkey : IsName key) (token : Text) :
    mention? key token = (Token.parse? token).bind (Token.leaves? key) := by
  unfold Token.parse?
  split
  · simp [mention?, Text.cut?, Text.toUpper, hkey.2.1.symm]
  · next rest =>
    have hother (t : Text) : Text.toUpper (':' :: t) ≠ key := hkey.ne_sign (.inl rfl) t
    cases hcut : Text.cut? '=' rest with
    | none => simp [mention?, Text.cut?, hcut, hother rest]
    | some p => simp [mention?, Text.cut?, hcut, hother p.1]
  · next rest =>
    have hother (t : Text) : Text.toUpper ('-' :: t) ≠ key := hkey.ne_sign (.inr rfl) t
    cases hcut : Text.cut? '=' rest with
    | none => simp [mention?, Text.cut?, hcut, hother rest, Token.leaves?]
    | some p =>
      have hequals : '=' ∈ rest := by
        obtain ⟨he, -⟩ := Text.cut?_eq_some_iff.1 hcut
        simp [he]
      simp [mention?, Text.cut?, hcut, hother p.1, Token.leaves?, hkey.ne_of_mem hequals]
  · next hnil hcolon hminus =>
    cases hcut : Text.cut? '=' token with
    | none =>
      have hhead : token.head? ≠ some '-' := by
        cases token with
        | nil => simp
        | cons c rest =>
          intro he
          cases he
          exact hminus rest rfl
      simp [mention?, hcut, hhead, Token.leaves?]
    | some p => simp [mention?, hcut, Token.leaves?]

/-! ## Channel types -/

/-- The channel types that some tokens leave in force: the value in the last token that mentions
them, if it announces one. -/
def typesInForce (tokens : List Text) : Text :=
  (tokens.reverse.findSome? (mention? "CHANTYPES".toList)).join.join.getD ['#', '&']

theorem channelTypes_merge (tokens : List Text) :
    (empty.merge tokens).channelTypes = typesInForce tokens := by
  have hname : IsName "CHANTYPES".toList := by decide
  have hupper : Text.toUpper "CHANTYPES".toList = "CHANTYPES".toList := by decide
  have hmention : mention? "CHANTYPES".toList = fun token =>
      (Token.parse? token).bind (Token.leaves? (Text.toUpper "CHANTYPES".toList)) := by
    funext token
    rw [hupper, mention?_eq hname]
  have hfresh : empty.get? "CHANTYPES".toList = none := rfl
  rw [channelTypes, value?, get?_merge, hfresh, typesInForce, hmention]
  congr 2
  cases tokens.reverse.findSome? _ <;> rfl

end IrcBot.Isupport
