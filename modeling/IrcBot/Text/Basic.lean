/-
Text is a list of characters. Here are the few operations on it that the
line format and the settings file both use: cutting at a separator,
splitting, trimming, ASCII case, and the length of its UTF-8 form.
-/
namespace IrcBot

abbrev Text := List Char

namespace Text

/-- How many bytes the text takes as UTF-8. -/
def byteSize (t : Text) : Nat := t.foldr (fun c n => c.utf8Size + n) 0

@[simp] theorem byteSize_nil : byteSize [] = 0 := rfl

@[simp] theorem byteSize_cons (c : Char) (t : Text) :
    byteSize (c :: t) = c.utf8Size + byteSize t := rfl

@[simp] theorem byteSize_append (s t : Text) : byteSize (s ++ t) = byteSize s + byteSize t := by
  induction s with
  | nil => simp
  | cons c s ih => simp only [List.cons_append, byteSize_cons, ih]; omega

/-! ## Cutting and splitting -/

/-- The text before and after the first `sep`, if there is one. -/
def cut? (sep : Char) : Text → Option (Text × Text)
  | [] => none
  | c :: t => if c = sep then some ([], t) else (cut? sep t).map fun p => (c :: p.1, p.2)

theorem cut?_eq_some_iff {sep : Char} {t before after : Text} :
    cut? sep t = some (before, after) ↔ t = before ++ sep :: after ∧ sep ∉ before := by
  induction t generalizing before with
  | nil => simp [cut?]
  | cons c t ih =>
    by_cases h : c = sep
    · subst h
      cases before with
      | nil => simp [cut?, eq_comm]
      | cons d before => simp [cut?]; rintro rfl; simp
    · cases before with
      | nil => simp [cut?, h]
      | cons d before =>
        simp only [cut?, h, if_false, Option.map_eq_some_iff, Prod.mk.injEq, List.cons_append,
          List.cons.injEq, List.mem_cons, not_or]
        constructor
        · rintro ⟨⟨b, a⟩, hb, ⟨rfl, rfl⟩, rfl⟩
          obtain ⟨rfl, hn⟩ := ih.1 hb
          exact ⟨⟨rfl, rfl⟩, Ne.symm h, hn⟩
        · rintro ⟨⟨rfl, rfl⟩, -, hn⟩
          exact ⟨(before, after), ih.2 ⟨rfl, hn⟩, ⟨rfl, rfl⟩, rfl⟩

theorem cut?_eq_none_iff {sep : Char} {t : Text} : cut? sep t = none ↔ sep ∉ t := by
  induction t with
  | nil => simp [cut?]
  | cons c t ih =>
    by_cases h : c = sep
    · simp [cut?, h]
    · simp [cut?, h, ih, Ne.symm h]

/-- The pieces between the characters that satisfy `p`: one more than there are such characters. -/
def splitBy (p : Char → Bool) : Text → List Text
  | [] => [[]]
  | c :: t =>
    if p c then [] :: splitBy p t
    else
      match splitBy p t with
      | [] => [[c]]
      | piece :: pieces => (c :: piece) :: pieces

/-! ## Trimming -/

def dropEndWhile (p : Char → Bool) (t : Text) : Text := (t.reverse.dropWhile p).reverse

def trim (p : Char → Bool) (t : Text) : Text := dropEndWhile p (t.dropWhile p)

/-! ## ASCII case -/

def toUpper (t : Text) : Text := t.map Char.toUpper

def toLower (t : Text) : Text := t.map Char.toLower

/-- Equality up to the case of ASCII letters. -/
def sameLetters (s t : Text) : Bool := toLower s == toLower t

end Text

end IrcBot
