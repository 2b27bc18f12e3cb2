/-
What is known of a server after any calls: tokens merged one by one or as a reply, and everything
forgotten when the connection drops. The tokens since the last clearing tell it all, however they
came (`after_eq_merge`), and of each key the last token that mentions it decides
(`last_mention_decides`). What a token tells of a key is said here by its form (`Mentions`): that the
key is withdrawn, or that it is announced, alone or with all that follows the first equals sign.
-/
import IrcBot.Proofs.Server.Isupport
import IrcBot.Proofs.Table
import IrcBot.Proofs.Text.Letters
import Mathlib.Data.List.DropRight

namespace IrcBot

namespace Isupport

/-! ## Calls -/

/-- What can be done to what is known of a server. -/
inductive Call where
  | merge (tokens : List Text)
  | mergeReply (middle : List Text)
  | clear
  deriving DecidableEq

/-- The tokens that come with a call; the first parameter of a reply is none of them. -/
def Call.tokens : Call → List Text
  | .merge tokens => tokens
  | .mergeReply middle => middle.drop 1
  | .clear => []

def call (s : Isupport) : Call → Isupport
  | .merge tokens => s.merge tokens
  | .mergeReply middle => s.mergeReply middle
  | .clear => .empty

/-- What is known after some calls, from knowing nothing. -/
def after (calls : List Call) : Isupport := calls.foldl call .empty

/-- The tokens since everything was last forgotten, in the order they came in. -/
def said (calls : List Call) : List Text := (calls.rtakeWhile (· ≠ .clear)).flatMap Call.tokens

variable {s : Isupport} {key token : Text} {told : Option (Option Text)} {tokens : List Text}

theorem said_concat (calls : List Call) (c : Call) :
    said (calls ++ [c]) = if c = .clear then [] else said calls ++ c.tokens := by
  unfold said
  split
  · next h => simp [List.rtakeWhile_concat_neg, h]
  · next h => simp [List.rtakeWhile_concat_pos, h]

/-- Only the tokens since the last clearing count, as if one call had brought them all. -/
theorem after_eq_merge (calls : List Call) : after calls = empty.merge (said calls) := by
  induction calls using List.reverseRecOn with
  | nil => rfl
  | append_singleton calls c ih =>
    have hstep : after (calls ++ [c]) = (after calls).call c := by simp [after]
    rw [hstep, said_concat, ih]
    cases c with
    | merge tokens => exact merge_append.symm
    | mergeReply middle => exact merge_append.symm
    | clear => rfl

/-! ## The form of a token -/

/-- Neither of the signs that give a token another meaning stands in front. -/
def Unmarked (token : Text) : Prop := ∀ c ∈ token.head?, c ≠ ':' ∧ c ≠ '-'

/-- What a token tells of a key that it mentions in any case: that nothing is known of it, or that
it is announced, and with which value. -/
inductive Mentions (key : Text) : Text → Option (Option Text) → Prop where
  | withdrawn {name : Text} (hname : Text.sameLetters name key = true) :
    Mentions key ('-' :: name) none
  | alone {name : Text} (hname : Text.sameLetters name key = true) (hne : name ≠ [])
      (hequals : '=' ∉ name) (hmark : Unmarked name) : Mentions key name (some none)
  | valued {name value : Text} (hname : Text.sameLetters name key = true)
      (hequals : '=' ∉ name) (hmark : Unmarked (name ++ '=' :: value)) :
    Mentions key (name ++ '=' :: value) (some (some value))

/-- What the last of some tokens that mentions a key tells of it; nothing if none mentions it. -/
def LastTells (key : Text) (tokens : List Text) (told : Option (Option Text)) : Prop :=
  (told = none ∧ ∀ token ∈ tokens, ∀ other, ¬ Mentions key token other) ∨
    ∃ earlier token later, tokens = earlier ++ token :: later ∧ Mentions key token told ∧
      ∀ token' ∈ later, ∀ other, ¬ Mentions key token' other

/-- A token is empty, has a sign in front, or announces a name, alone or with a value. -/
theorem token_forms (token : Text) :
    token = [] ∨ (∃ rest, token = ':' :: rest) ∨ (∃ name, token = '-' :: name) ∨
      (token ≠ [] ∧ '=' ∉ token ∧ Unmarked token) ∨
        ∃ name value, token = name ++ '=' :: value ∧ '=' ∉ name ∧
          Unmarked (name ++ '=' :: value) := by
  cases token with
  | nil => exact .inl rfl
  | cons c rest =>
    by_cases hcolon : c = ':'
    · exact .inr (.inl ⟨rest, by rw [hcolon]⟩)
    by_cases hminus : c = '-'
    · exact .inr (.inr (.inl ⟨rest, by rw [hminus]⟩))
    have hmark : Unmarked (c :: rest) := by
      intro d hd
      cases hd
      exact ⟨hcolon, hminus⟩
    cases hcut : Text.cut? '=' (c :: rest) with
    | none =>
      exact .inr (.inr (.inr (.inl ⟨by simp, Text.cut?_eq_none_iff.1 hcut, hmark⟩)))
    | some parts =>
      obtain ⟨he, hequals⟩ := Text.cut?_eq_some_iff.1 hcut
      rw [he] at hmark ⊢
      exact .inr (.inr (.inr (.inr ⟨_, _, rfl, hequals, hmark⟩)))

theorem Token.parse?_of_unmarked (hne : token ≠ []) (hmark : Unmarked token) :
    Token.parse? token = some (match Text.cut? '=' token with
      | some (name, value) => .announced (Text.toUpper name) (some value)
      | none => .announced (Text.toUpper token) none) := by
  unfold Token.parse?
  split
  · exact absurd rfl hne
  · exact absurd rfl (hmark ':' rfl).1
  · exact absurd rfl (hmark '-' rfl).2
  · cases Text.cut? '=' token <;> rfl

theorem Token.parse?_alone (hne : token ≠ []) (hequals : '=' ∉ token) (hmark : Unmarked token) :
    Token.parse? token = some (.announced (Text.toUpper token) none) := by
  rw [Token.parse?_of_unmarked hne hmark, Text.cut?_eq_none_iff.2 hequals]

theorem Token.parse?_valued {name value : Text} (hequals : '=' ∉ name)
    (hmark : Unmarked (name ++ '=' :: value)) :
    Token.parse? (name ++ '=' :: value) = some (.announced (Text.toUpper name) (some value)) := by
  have hcut : Text.cut? '=' (name ++ '=' :: value) = some (name, value) :=
    Text.cut?_eq_some_iff.2 ⟨rfl, hequals⟩
  rw [Token.parse?_of_unmarked (by simp) hmark, hcut]

theorem Token.leaves?_withdrawn {name : Text} :
    (Token.withdrawn name).leaves? key = some told ↔ name = key ∧ none = told := by
  simp [Token.leaves?]

theorem Token.leaves?_announced {name : Text} {value : Option Text} :
    (Token.announced name value).leaves? key = some told ↔ name = key ∧ some value = told := by
  simp [Token.leaves?]

/-- The reader takes a token as its form has it. -/
theorem mentions_iff :
    Mentions key token told ↔
      (Token.parse? token).bind (Token.leaves? (Text.toUpper key)) = some told := by
  constructor
  · intro h
    cases h with
    | withdrawn hname =>
      exact Token.leaves?_withdrawn.2 ⟨Text.sameLetters_iff.1 hname, rfl⟩
    | alone hname hne hequals hmark =>
      rw [Token.parse?_alone hne hequals hmark]
      exact Token.leaves?_announced.2 ⟨Text.sameLetters_iff.1 hname, rfl⟩
    | valued hname hequals hmark =>
      rw [Token.parse?_valued hequals hmark]
      exact Token.leaves?_announced.2 ⟨Text.sameLetters_iff.1 hname, rfl⟩
  · intro h
    rcases token_forms token with rfl | ⟨rest, rfl⟩ | ⟨name, rfl⟩ | ⟨hne, hequals, hmark⟩ |
      ⟨name, value, rfl, hequals, hmark⟩
    · simp [Token.parse?] at h
    · simp [Token.parse?] at h
    · obtain ⟨hname, rfl⟩ := Token.leaves?_withdrawn.1 h
      exact .withdrawn (Text.sameLetters_iff.2 hname)
    · rw [Token.parse?_alone hne hequals hmark] at h
      obtain ⟨hname, rfl⟩ := Token.leaves?_announced.1 h
      exact .alone (Text.sameLetters_iff.2 hname) hne hequals hmark
    · rw [Token.parse?_valued hequals hmark] at h
      obtain ⟨hname, rfl⟩ := Token.leaves?_announced.1 h
      exact .valued (Text.sameLetters_iff.2 hname) hequals hmark

/-! ## The last mention -/

theorem findSome?_reverse_eq_some_iff {α β : Type} {f : α → Option β} {l : List α} {b : β} :
    l.reverse.findSome? f = some b ↔
      ∃ earlier a later, l = earlier ++ a :: later ∧ f a = some b ∧ ∀ x ∈ later, f x = none := by
  rw [List.findSome?_eq_some_iff]
  constructor
  · rintro ⟨later, a, earlier, hl, ha, hlater⟩
    refine ⟨earlier.reverse, a, later.reverse, ?_, ha, by simpa using hlater⟩
    rw [← List.reverse_reverse l, hl]
    simp
  · rintro ⟨earlier, a, later, rfl, ha, hlater⟩
    exact ⟨later.reverse, a, earlier.reverse, by simp, ha, by simpa using hlater⟩

theorem not_mentions_iff :
    (∀ other, ¬ Mentions key token other) ↔
      (Token.parse? token).bind (Token.leaves? (Text.toUpper key)) = none := by
  simp only [mentions_iff, Option.eq_none_iff_forall_ne_some, ne_eq]

/-- What is known of a key is what the last token that mentions it tells. -/
theorem get?_merge_eq_iff :
    (empty.merge tokens).get? key = told ↔ LastTells key tokens told := by
  have hfresh : empty.get? key = none := rfl
  have hnone : (∀ token ∈ tokens, ∀ other, ¬ Mentions key token other) ↔
      (tokens.reverse.findSome? fun token =>
        (Token.parse? token).bind (Token.leaves? (Text.toUpper key))) = none := by
    simp only [not_mentions_iff, List.findSome?_eq_none_iff, List.mem_reverse]
  have hsome : (∃ earlier token later, tokens = earlier ++ token :: later ∧
      Mentions key token told ∧ ∀ token' ∈ later, ∀ other, ¬ Mentions key token' other) ↔
        (tokens.reverse.findSome? fun token =>
          (Token.parse? token).bind (Token.leaves? (Text.toUpper key))) = some told := by
    simp only [findSome?_reverse_eq_some_iff, not_mentions_iff]
    simp only [mentions_iff]
  rw [LastTells, hnone, hsome, get?_merge, hfresh]
  cases tokens.reverse.findSome? _ with
  | none => simp [eq_comm]
  | some last => simp

/-! ## The keys -/

theorem Token.capital_of_parse? {name : Text} {value : Option Text}
    (h : Token.parse? token = some (.announced name value)) : Text.toUpper name = name := by
  rcases token_forms token with rfl | ⟨rest, rfl⟩ | ⟨name, rfl⟩ | ⟨hne, hequals, hmark⟩ |
    ⟨name, value, rfl, hequals, hmark⟩
  · simp [Token.parse?] at h
  · simp [Token.parse?] at h
  · simp [Token.parse?] at h
  · rw [Token.parse?_alone hne hequals hmark] at h
    cases h
    exact Text.toUpper_toUpper token
  · rw [Token.parse?_valued hequals hmark] at h
    cases h
    exact Text.toUpper_toUpper name

/-- All that is known is kept under capitals. -/
def Capital (s : Isupport) : Prop := s.announced.All fun name _ => Text.toUpper name = name

theorem Capital.apply {t : Token} (hs : Capital s) (ht : Token.parse? token = some t) :
    Capital (s.apply t) := by
  cases t with
  | withdrawn name => exact Table.All.erase hs
  | announced name value => exact Table.All.insert hs (Token.capital_of_parse? ht)

theorem capital_merge (tokens : List Text) : Capital (empty.merge tokens) := by
  refine List.foldlRecOn _ apply (show Capital empty from Table.all_empty) fun s hs t ht => ?_
  obtain ⟨token, -, hparse⟩ := List.mem_filterMap.1 ht
  exact hs.apply hparse

theorem Capital.mem_keys (hs : Capital s) :
    key ∈ s.announced.keys ↔ Text.toUpper key = key ∧ s.contains key = true := by
  rw [Table.mem_keys]
  constructor
  · intro h
    obtain ⟨value, hvalue⟩ := Table.contains_iff.1 h
    have hcapital := hs key value hvalue
    exact ⟨hcapital, by rw [contains, get?, hcapital]; exact h⟩
  · rintro ⟨hcapital, h⟩
    rw [contains, get?, hcapital] at h
    exact h

/-- **The last mention of a key decides.** After any calls, whatever is asked of a key, in any case,
is answered by the last token since the last clearing that mentions it: nothing if this withdraws
the key or there is none, and else the value it announces, if it has one. It does not matter how
those tokens came, every key is kept once and in capitals, and the other questions are answered
accordingly. -/
theorem last_mention_decides (calls : List Call) :
    after calls = empty.merge (said calls) ∧
      (∀ key told, (after calls).get? key = told ↔ LastTells key (said calls) told) ∧
      (∀ key, (after calls).contains key = true ↔ (after calls).get? key ≠ none) ∧
      (∀ key value, (after calls).value? key = some value ↔
        (after calls).get? key = some (some value)) ∧
      (after calls).announced.keys.Nodup ∧
      (∀ key, key ∈ (after calls).announced.keys ↔
        Text.toUpper key = key ∧ (after calls).get? key ≠ none) ∧
      (after calls).size = (after calls).announced.keys.length := by
  have hcapital : Capital (after calls) := by
    rw [after_eq_merge]
    exact capital_merge (said calls)
  have hcontains (key : Text) :
      (after calls).contains key = true ↔ (after calls).get? key ≠ none := by
    rw [contains, Option.isSome_iff_ne_none]
  refine ⟨after_eq_merge calls, fun key told => ?_, hcontains, fun key value => ?_,
    Table.nodup_keys (after calls).announced.ascending, fun key => ?_, ?_⟩
  · rw [after_eq_merge, get?_merge_eq_iff]
  · rw [value?, Option.join_eq_some_iff]
  · rw [hcapital.mem_keys, hcontains]
  · simp [size, Table.size, Table.keys]

/-- A reply overrides what was announced before, up to case, and its first parameter says nothing;
what came before the clearing is forgotten. -/
example :
    let calls : List Call :=
      [.merge ["EXCEPTS".toList], .clear, .merge ["Network=a".toList, "whox".toList],
        .mergeReply ["ELIST".toList, "NETWORK=b=c".toList, "-WHOX".toList, "INVEX=".toList]]
    (after calls).announced.entries =
      [("INVEX".toList, some []), ("NETWORK".toList, some "b=c".toList)] := by decide +kernel

end Isupport

end IrcBot
