/-
Pings. A line that is a ping is told as one, with the token that is to be sent back, and
no other line is (`tokens_handleLine`). The answer, on a line of its own, is read as the
same token again (`parse_pong`).
-/
import IrcBot.Proofs.Connection.Sending
import IrcBot.Proofs.Session.Reactions

namespace IrcBot

namespace Message

variable {m : Message} {line t : Text}

/-! ## Parameters are parts of the line -/

theorem infix_of_splitParams (t : Text) :
    ∀ a ∈ (splitParams t).1 ++ (splitParams t).2.toList, a <:+: t := by
  fun_induction splitParams t with
  | case1 => simp
  | case2 t last hrest =>
    have hsuffix : ':' :: last <:+ t := hrest ▸ List.dropWhile_suffix _
    simpa using ((List.suffix_cons ':' last).trans hsuffix).isInfix.trans
      (List.suffix_cons ' ' t).isInfix
  | case3 t c word _ hrest words last hsplit ih =>
    have hword : c :: word <:+: ' ' :: t := by
      have hsuffix : c :: word <:+ t := hrest ▸ List.dropWhile_suffix _
      exact (hsuffix.trans (List.suffix_cons ' ' t)).isInfix
    rw [hsplit] at ih
    intro a ha
    rcases List.mem_cons.1 ha with rfl | ha
    · exact (List.takeWhile_prefix _).isInfix.trans hword
    · exact ((ih a ha).trans (List.dropWhile_suffix _).isInfix).trans hword
  | case4 => simp

/-- What is read as a parameter stands in the line. -/
theorem infix_of_parse (h : parse line = .ok m) : ∀ a ∈ m.args, a <:+: line := by
  obtain ⟨opening, -, -, hparams, hline⟩ := parseLine_eq_ok_iff.1 (parse_eq_ok_iff.1 h)
  have hafter : afterCommand (chomp line) <:+ chomp line := ⟨_, hline.symm⟩
  intro a ha
  have hread := infix_of_splitParams (afterCommand (chomp line)) a (by rw [hparams]; exact ha)
  exact (hread.trans hafter.isInfix).trans (prefix_chomp line).isInfix

end Message

/-- The token of a ping. -/
def Occurrence.token? : Occurrence → Option Text
  | .ping token => some token
  | _ => none

namespace Session

/-- The token that a line wants back. That of a ping is its last parameter, or else empty. -/
def pingToken? (line : Text) : Option Text :=
  match Message.parse line with
  | .ok m => if m.Is .ping then some (m.lastArg?.getD []) else none
  | .error _ => none

variable {s s' : Session} {m : Message} {registered : Nat} {line token : Text}
variable {what : Occurrence}

/-! ## Pings told -/

/-- A message is told as a ping if it is one, with its last parameter. -/
theorem token?_react (s : Session) (m : Message) (registered : Nat) :
    ((s.react m registered).bind fun reaction => reaction.2.token?) =
      if m.Is .ping then some (m.lastArg?.getD []) else none := by
  by_cases hping : m.Is .ping
  · have hcode := numeric?_of_is hping
    have hverb := Verb.ofText?_eq_some_iff.2 hping
    simp only [react, hcode, hverb, if_pos hping]
    rfl
  · rw [if_neg hping, Option.bind_eq_none_iff]
    rintro ⟨s', what⟩ h
    rcases react_cases h with ⟨code, -, rfl⟩ | ⟨v, hv, hwhat⟩
    · rfl
    · cases what with
      | ping token =>
        cases hwhat
        exact absurd hv hping
      | _ => rfl

/-- **A line is told as a ping exactly if it is one.** -/
theorem tokens_handleLine (s : Session) (registered : Nat) (line : Text) :
    (s.handleLine registered line).2.filterMap Occurrence.token? = (pingToken? line).toList := by
  rw [filterMap_handleLine (fun _ => rfl) rfl, pingToken?]
  cases Message.parse line with
  | ok m => exact congrArg Option.toList (token?_react s m registered)
  | error => rfl

/-- What a line wants back stands in it. -/
theorem infix_of_pingToken? (h : pingToken? line = some token) : token <:+: line := by
  unfold pingToken? at h
  split at h
  · next m hparse =>
    split at h
    · cases h
      cases hlast : m.lastArg? with
      | none => exact List.nil_infix
      | some t => exact Message.infix_of_parse hparse t (Message.mem_args_of_lastArg? hlast)
    · cases h
  · cases h

/-! ## Answers -/

/-- The line that sends a token back. -/
def pongLine (token : Text) : Text := "PONG :".toList ++ token

/-- **A token without line ends is sent back as it is, and read so.** -/
theorem parse_pong (hr : '\r' ∉ token) (hn : '\n' ∉ token) :
    Circuit.sentAs (.pong token) = pongLine token ∧
      Message.parse (pongLine token) = .ok { command := "PONG".toList, trailing := some token } := by
  have hpong : (Command.pong token).Sendable := ⟨by simp [Command.words], by
    rintro text ⟨⟩
    exact ⟨hr, hn⟩⟩
  exact ⟨Circuit.sentAs_of_sendable hpong, hpong.parse_line⟩

end Session

end IrcBot
