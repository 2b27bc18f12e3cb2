/-
Case mapping of nicknames and channel names. The characters `[]\~` count as
the capitals of `{}|^`, besides the ASCII letters. `fold` gives the form that
tables are keyed by; `same` compares two names without building it.
-/
import IrcBot.Text.Basic

namespace IrcBot

def foldChar (c : Char) : Char :=
  match c with
  | '[' => '{'
  | ']' => '}'
  | '\\' => '|'
  | '~' => '^'
  | c => c.toLower

/-- The lower-case form of a name. -/
def fold (name : Text) : Text := name.map foldChar

/-- Whether two names are the same up to case. -/
def same (a b : Text) : Bool :=
  a.byteSize == b.byteSize && (a.zip b).all fun p => foldChar p.1 == foldChar p.2

@[simp] theorem fold_nil : fold [] = [] := rfl

@[simp] theorem fold_append (a b : Text) : fold (a ++ b) = fold a ++ fold b := by simp [fold]

end IrcBot
