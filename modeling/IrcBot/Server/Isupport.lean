/-
What a server announces about itself in its 005 replies (ISUPPORT). The
replies bring tokens `KEY`, `KEY=VALUE` and `-KEY`; the last token that
mentions a key decides. Keys are kept in capitals.
-/
import IrcBot.Name
import IrcBot.Server.ModeClasses
import IrcBot.Server.Status
import IrcBot.Table

namespace IrcBot

structure Isupport where
  announced : Table Text (Option Text)
  deriving DecidableEq, Inhabited

namespace Isupport

def empty : Isupport := ⟨.empty⟩

/-- What one token says about its key: withdrawn, or announced with or without a value. -/
inductive Token where
  | withdrawn (key : Text)
  | announced (key : Text) (value : Option Text)
  deriving DecidableEq, Repr

/-- An empty token and one that starts with a colon say nothing. -/
def Token.parse? : Text → Option Token
  | [] => none
  | ':' :: _ => none
  | '-' :: key => some (.withdrawn (Text.toUpper key))
  | t =>
    match Text.cut? '=' t with
    | some (key, value) => some (.announced (Text.toUpper key) (some value))
    | none => some (.announced (Text.toUpper t) none)

def apply (s : Isupport) : Token → Isupport
  | .withdrawn key => ⟨s.announced.erase key⟩
  | .announced key value => ⟨s.announced.insert key value⟩

def merge (s : Isupport) (tokens : List Text) : Isupport :=
  (tokens.filterMap Token.parse?).foldl apply s

/-- Takes the middle parameters of a reply, of which the first is the nick it is addressed to. -/
def mergeReply (s : Isupport) (middle : List Text) : Isupport := s.merge (middle.drop 1)

/-- What is announced under a key, in any case: nothing, the key alone, or a value. -/
def get? (s : Isupport) (key : Text) : Option (Option Text) := s.announced.get? (Text.toUpper key)

/-- The value announced under a key. -/
def value? (s : Isupport) (key : Text) : Option Text := (s.get? key).join

def contains (s : Isupport) (key : Text) : Bool := (s.get? key).isSome

def size (s : Isupport) : Nat := s.announced.size

def isEmpty (s : Isupport) : Bool := s.announced.entries.isEmpty

/-! ## The values the bot reads -/

def channelTypes (s : Isupport) : Text :=
  (s.value? "CHANTYPES".toList).getD ChannelName.defaultTypes

def network? (s : Isupport) : Option Text := s.value? "NETWORK".toList

def status (s : Isupport) : Status :=
  ((s.value? "PREFIX".toList).bind Status.parse?).getD .default

def modeClasses? (s : Isupport) : Option ModeClasses :=
  (s.value? "CHANMODES".toList).bind ModeClasses.parse?

def modeClasses (s : Isupport) : ModeClasses := s.modeClasses?.getD .default

end Isupport

end IrcBot
