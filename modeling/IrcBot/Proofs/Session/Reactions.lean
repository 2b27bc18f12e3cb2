/-
All or nothing. A line is announced as it is, and then either means nothing to the
session, which stays exactly as it was, or is announced as one occurrence of the
protocol, followed by that of the connection being made exactly when the line is what
completes registration (`handleLine_all_or_nothing`).

Which lines mean nothing is told without the handlers (`Unheeded`): they cannot be
read, are no command the bot knows, lack a sender or a parameter the command needs, or
are a text for somebody else.
-/
import IrcBot.Proofs.Session.Registration

namespace IrcBot

/-- What the server tells, one way or the other: neither how far the connection has come, nor a
line as it is, nor a bot command. -/
def Occurrence.isProtocol : Occurrence → Bool
  | .connected | .disconnected | .rawLineSent _ | .rawLineReceived _ | .command .. => false
  | _ => true

/-- The command that the server has given to make this known. -/
def Occurrence.verb? : Occurrence → Option Session.Verb
  | .ping _ => some .ping
  | .error _ => some .error
  | .privateMessage .. | .channelMessage .. => some .privmsg
  | .privateNotice .. | .channelNotice .. => some .notice
  | .join .. => some .join
  | .part .. => some .part
  | .kick .. => some .kick
  | .quit .. => some .quit
  | .nickChange .. => some .nick
  | .modeChange .. => some .mode
  | .connected | .disconnected | .serverMessage .. | .rawLineSent _ | .rawLineReceived _
  | .command .. => none

/-- Whether this is the command of that name, in any case. -/
def Message.Is (m : Message) (v : Session.Verb) : Prop := Text.toUpper m.command = v.word

instance (m : Message) (v : Session.Verb) : Decidable (m.Is v) :=
  inferInstanceAs (Decidable (_ = _))

namespace Session

namespace Verb

/-- The commands that say nothing without the one who sends them. -/
def needsSender : Verb → Bool
  | privmsg | notice | join | part | kick | quit | nick => true
  | ping | error | mode => false

/-- How many parameters a command has at least. -/
def neededArgs : Verb → Nat
  | ping | error | quit => 0
  | join | part | nick => 1
  | privmsg | notice | kick | mode => 2

def isText : Verb → Bool
  | privmsg | notice => true
  | _ => false

theorem word_injective : ∀ v w : Verb, v.word = w.word → v = w := by
  intro v w h
  cases v <;> cases w <;> first | rfl | exact absurd h (by decide)

theorem mem_all (v : Verb) : v ∈ all := by cases v <;> decide

theorem word_of_ofText? {t : Text} {v : Verb} (h : ofText? t = some v) :
    Text.toUpper t = v.word := by
  unfold ofText? at h
  have hword := List.find?_some h
  exact (eq_of_beq hword).symm

/-- Text is read as the command whose name it is, in any case. -/
theorem ofText?_eq_some_iff {t : Text} {v : Verb} :
    ofText? t = some v ↔ Text.toUpper t = v.word := by
  refine ⟨word_of_ofText?, fun h => ?_⟩
  have hfound : (ofText? t).isSome :=
    List.find?_isSome.2 ⟨v, mem_all v, beq_iff_eq.2 h.symm⟩
  obtain ⟨w, hw⟩ := Option.isSome_iff_exists.1 hfound
  rw [hw, word_injective w v ((word_of_ofText? hw).symm.trans h)]

theorem length_word_ne (v : Verb) : v.word.length ≠ 3 := by cases v <;> decide

end Verb

variable {s s' : Session} {m : Message} {v w : Verb} {registered : Nat} {line : Text}
variable {what : Occurrence}

/-! ## Commands in any case -/

/-- A command is no numeric reply. -/
theorem numeric?_of_is (hv : m.Is v) : m.numeric? = none := by
  have hlength : m.command.length = v.word.length := by
    rw [← hv, Text.toUpper, List.length_map]
  have : (m.command.length == 3) = false := by
    simpa [hlength] using v.length_word_ne
  simp [Message.numeric?, Message.isThreeDigits, this]

theorem eq_of_is (hv : m.Is v) (hw : m.Is w) : v = w :=
  Verb.word_injective v w (hv.symm.trans hw)

/-! ## Messages that mean nothing -/

/-- Whether a text for this recipient is for the bot or for a channel. -/
def Addressed (s : Session) (target : Text) : Prop :=
  s.isMe target = true ∨ s.isChannel target = true

/-- What a message may lack to mean something to a session. -/
inductive Unheeded (s : Session) (m : Message) : Prop where
  /-- It is neither a numeric reply nor a command the bot knows. -/
  | unknown (hcode : m.numeric? = none) (hverb : ∀ v, ¬ m.Is v)
  | anonymous {v : Verb} (hv : m.Is v) (hneeds : v.needsSender = true) (hsource : m.source = none)
  | incomplete {v : Verb} (hv : m.Is v) (hargs : m.args.length < v.neededArgs)
  /-- It is a text that is neither for the bot nor for a channel. -/
  | misdirected {v : Verb} {target : Text} (hv : m.Is v) (htext : v.isText = true)
    (htarget : m.arg? 0 = some target) (hother : ¬ s.Addressed target)

/-- A line that cannot be read, or whose message means nothing. -/
def Meaningless (s : Session) (line : Text) : Prop :=
  ∀ m, Message.parse line = .ok m → s.Unheeded m

/-- What a message of a known command may lack. -/
theorem unheeded_iff (hv : m.Is v) :
    s.Unheeded m ↔ (v.needsSender = true ∧ m.source = none) ∨ m.args.length < v.neededArgs ∨
      (v.isText = true ∧ ∃ target, m.arg? 0 = some target ∧ ¬ s.Addressed target) := by
  refine ⟨fun h => ?_, ?_⟩
  · cases h with
    | unknown _ hverb => exact absurd hv (hverb v)
    | anonymous hw hneeds hsource => exact .inl ⟨eq_of_is hv hw ▸ hneeds, hsource⟩
    | incomplete hw hargs => exact .inr (.inl (eq_of_is hv hw ▸ hargs))
    | misdirected hw htext htarget hother =>
      exact .inr (.inr ⟨eq_of_is hv hw ▸ htext, _, htarget, hother⟩)
  · rintro (⟨hneeds, hsource⟩ | hargs | ⟨htext, target, htarget, hother⟩)
    · exact .anonymous hv hneeds hsource
    · exact .incomplete hv hargs
    · exact .misdirected hv htext htarget hother

/-! ## What each handler asks for -/

theorem args_lt_one_iff : m.args.length < 1 ↔ m.arg? 0 = none := by
  rw [Message.arg?, List.getElem?_eq_none_iff, Nat.lt_one_iff, Nat.le_zero]

theorem args_lt_two_iff : m.args.length < 2 ↔ m.arg? 0 = none ∨ m.arg? 1 = none := by
  rw [Message.arg?, Message.arg?, List.getElem?_eq_none_iff, List.getElem?_eq_none_iff]
  omega

theorem source_eq_none_iff : m.source = none ↔ m.sender? = none := Option.map_eq_none_iff.symm

theorem onText_eq_none_iff {isNotice : Bool} : s.onText m isNotice = none ↔
    m.source = none ∨ m.args.length < 2 ∨
      ∃ target, m.arg? 0 = some target ∧ ¬ s.Addressed target := by
  rw [source_eq_none_iff, args_lt_two_iff]
  cases hsender : m.sender? <;> cases htarget : m.arg? 0 <;> cases htext : m.arg? 1 <;>
    simp [onText, Addressed, hsender, htarget, htext]

theorem onJoin_eq_none_iff : s.onJoin m = none ↔ m.source = none ∨ m.args.length < 1 := by
  rw [source_eq_none_iff, args_lt_one_iff]
  cases hsender : m.sender? <;> cases hchannel : m.arg? 0 <;> simp [onJoin, hsender, hchannel]

theorem onPart_eq_none_iff : s.onPart m = none ↔ m.source = none ∨ m.args.length < 1 := by
  rw [source_eq_none_iff, args_lt_one_iff]
  cases hsender : m.sender? <;> cases hchannel : m.arg? 0 <;> simp [onPart, hsender, hchannel]

theorem onKick_eq_none_iff : s.onKick m = none ↔ m.source = none ∨ m.args.length < 2 := by
  rw [source_eq_none_iff, args_lt_two_iff]
  cases hsender : m.sender? <;> cases hchannel : m.arg? 0 <;> cases hnick : m.arg? 1 <;>
    simp [onKick, hsender, hchannel, hnick]

theorem onQuit_eq_none_iff : s.onQuit m = none ↔ m.source = none := by
  rw [source_eq_none_iff, onQuit, Option.map_eq_none_iff]

theorem onNick_eq_none_iff : s.onNick m = none ↔ m.source = none ∨ m.args.length < 1 := by
  rw [source_eq_none_iff, args_lt_one_iff]
  cases hsender : m.sender? <;> cases hnew : m.arg? 0 <;> simp [onNick, hsender, hnew]

theorem onMode_eq_none_iff : s.onMode m = none ↔ m.args.length < 2 := by
  rw [args_lt_two_iff]
  cases htarget : m.arg? 0 <;> cases hmodes : m.arg? 1 <;> simp [onMode, htarget, hmodes]

/-- A message is passed over exactly if it lacks something. -/
theorem react_eq_none_iff : s.react m registered = none ↔ s.Unheeded m := by
  cases hcode : m.numeric? with
  | some code =>
    rw [react_numeric hcode]
    have hnot {v : Verb} (hv : m.Is v) : False := by
      rw [numeric?_of_is hv] at hcode
      cases hcode
    simp only [reduceCtorEq, false_iff]
    intro h
    cases h with
    | unknown h => cases hcode.symm.trans h
    | anonymous hv | incomplete hv | misdirected hv => exact (hnot hv).elim
  | none =>
    cases hverb : Verb.ofText? m.command with
    | none =>
      have hunknown (v : Verb) : ¬ m.Is v := fun hv => by
        rw [Verb.ofText?_eq_some_iff.2 hv] at hverb
        cases hverb
      simp only [react, hcode, hverb, true_iff]
      exact .unknown hcode hunknown
    | some v =>
      rw [unheeded_iff (Verb.ofText?_eq_some_iff.1 hverb)]
      cases v <;>
        simp [react, hcode, hverb, Verb.needsSender, Verb.neededArgs, Verb.isText,
          onText_eq_none_iff, onJoin_eq_none_iff, onPart_eq_none_iff, onKick_eq_none_iff,
          onQuit_eq_none_iff, onNick_eq_none_iff, onMode_eq_none_iff]

/-! ## What a message is announced as -/

theorem verb?_onText {isNotice : Bool} (h : s.onText m isNotice = some (s', what)) :
    what.verb? = some (if isNotice then .notice else .privmsg) := by
  unfold onText at h
  split at h
  · split at h
    · cases h
      unfold textOccurrence
      cases isNotice <;> split <;> first | rfl | simp_all
    · cases h
  · cases h

/-- A message that is no numeric reply is announced as what its command tells. -/
theorem verb?_react (hv : m.Is v) (h : s.react m registered = some (s', what)) :
    what.verb? = some v := by
  have hcode := numeric?_of_is hv
  have hverb := Verb.ofText?_eq_some_iff.2 hv
  cases v <;> simp only [react, hcode, hverb] at h
  case ping | error => cases h; rfl
  case privmsg | notice => exact verb?_onText h
  case join =>
    unfold onJoin at h
    split at h <;> cases h
    rfl
  case part =>
    unfold onPart at h
    split at h <;> cases h
    rfl
  case kick =>
    unfold onKick at h
    split at h <;> cases h
    rfl
  case quit =>
    obtain ⟨sender, -, h⟩ := Option.map_eq_some_iff.1 h
    cases h
    rfl
  case nick =>
    unfold onNick at h
    split at h <;> cases h
    rfl
  case mode =>
    unfold onMode at h
    split at h <;> cases h
    rfl

/-- What a message that means something is: a numeric reply, or a known command. -/
theorem react_cases (h : s.react m registered = some (s', what)) :
    (∃ code, m.numeric? = some code ∧
      what = .serverMessage (m.sender?.getD (.bare [])) code m.args) ∨
    ∃ v, m.Is v ∧ what.verb? = some v := by
  cases hcode : m.numeric? with
  | some code =>
    rw [react_numeric hcode] at h
    cases h
    exact .inl ⟨code, rfl, rfl⟩
  | none =>
    cases hverb : Verb.ofText? m.command with
    | none => simp only [react, hcode, hverb, reduceCtorEq] at h
    | some v =>
      have hv : m.Is v := Verb.ofText?_eq_some_iff.1 hverb
      exact .inr ⟨v, hv, verb?_react hv h⟩

/-- A message is announced as something of the protocol. -/
theorem isProtocol_react (h : s.react m registered = some (s', what)) :
    what.isProtocol = true := by
  rcases react_cases h with ⟨code, -, rfl⟩ | ⟨v, -, hv⟩
  · rfl
  · cases what <;> first | rfl | cases hv

/-- The only way that a message takes a session further is to complete its registration. -/
theorem phase_react (h : s.react m registered = some (s', what)) :
    s'.socket = s.socket ∧
      (s'.phase = s.phase ∨ s.phase = .connected ∧ s'.phase = .registered) := by
  cases hcode : m.numeric? with
  | none =>
    obtain ⟨hstanding, -⟩ := standing_react hcode h
    exact ⟨congrArg Prod.snd hstanding, .inl (congrArg Prod.fst hstanding)⟩
  | some code =>
    rw [react_numeric hcode] at h
    cases h
    have hlearn : (s.learn m code).standing = s.standing := standing_learn
    have hphase : (s.learn m code).phase = s.phase := congrArg Prod.fst hlearn
    have hsocket : (s.learn m code).socket = s.socket := congrArg Prod.snd hlearn
    by_cases hdue : code = registered ∧ (s.learn m code).phase = .connected
    · obtain ⟨rfl, hconnected⟩ := hdue
      rw [register_completing hconnected]
      exact ⟨hsocket, .inr ⟨hphase.symm.trans hconnected, rfl⟩⟩
    · rw [register_ordinary hdue]
      exact ⟨hsocket, .inl hphase⟩

/-! ## Lines -/

/-- What is told of a line, seen through something that neither the line as it is nor a made
connection shows in, is what its message is announced as. -/
theorem filterMap_handleLine {α : Type} {f : Occurrence → Option α}
    (hline : ∀ line, f (.rawLineReceived line) = none) (hconnected : f .connected = none)
    (s : Session) (registered : Nat) (line : Text) :
    (s.handleLine registered line).2.filterMap f =
      match Message.parse line with
      | .ok m => ((s.react m registered).bind fun reaction => f reaction.2).toList
      | .error _ => [] := by
  cases hparse : Message.parse line with
  | error e =>
    rw [handleLine_meaningless fun m hm => by cases hparse.symm.trans hm]
    exact List.filterMap_cons_none (hline line)
  | ok m =>
    cases hreact : s.react m registered with
    | none =>
      rw [handleLine_meaningless fun m' hm => by cases hparse.symm.trans hm; exact hreact]
      simp only [hreact]
      exact List.filterMap_cons_none (hline line)
    | some reaction =>
      obtain ⟨s', what⟩ := reaction
      have hrest : (if s'.phase = s.phase then [] else [Occurrence.connected]).filterMap f =
          [] := by
        split
        · rfl
        · exact List.filterMap_cons_none hconnected
      rw [handleLine_of_react hparse hreact, List.filterMap_cons_none (hline line),
        List.filterMap_cons, hrest]
      simp only [hreact, Option.bind_some]
      cases f what <;> rfl

/-- **All or nothing.** A line is told first of all. It is all that is told exactly if the line
means nothing, and then nothing has changed; otherwise one occurrence of the protocol follows,
and after it that the connection is made, exactly if this line has completed registration. No
line touches the socket or takes the session anywhere else. -/
theorem handleLine_all_or_nothing (s : Session) (registered : Nat) (line : Text) :
    let (after, told) := s.handleLine registered line
    ((told = [.rawLineReceived line] ∧ after = s) ∨
      ∃ what, what.isProtocol = true ∧
        told = .rawLineReceived line :: what ::
          if s.phase = .connected ∧ after.phase = .registered then [.connected] else []) ∧
    (told = [.rawLineReceived line] ↔ s.Meaningless line) ∧
    after.socket = s.socket ∧
    (after.phase = s.phase ∨ s.phase = .connected ∧ after.phase = .registered) := by
  by_cases hline : s.Meaningless line
  · have hnone : s.handleLine registered line = (s, [.rawLineReceived line]) :=
      handleLine_meaningless fun m hparse => react_eq_none_iff.2 (hline m hparse)
    rw [hnone]
    exact ⟨.inl ⟨rfl, rfl⟩, ⟨fun _ => hline, fun _ => rfl⟩, rfl, .inl rfl⟩
  · obtain ⟨m, hparse, hheeded⟩ : ∃ m, Message.parse line = .ok m ∧ ¬ s.Unheeded m := by
      simpa only [Meaningless, Classical.not_forall, exists_prop] using hline
    have hsome : s.react m registered ≠ none := fun h => hheeded (react_eq_none_iff.1 h)
    obtain ⟨⟨s', what⟩, hreact⟩ := Option.ne_none_iff_exists'.1 hsome
    obtain ⟨hsocket, hphase⟩ := phase_react hreact
    rw [handleLine_of_react hparse hreact]
    refine ⟨.inr ⟨what, isProtocol_react hreact, ?_⟩, ?_, hsocket, hphase⟩
    · rcases hphase with hsame | ⟨hconnected, hregistered⟩
      · -- a phase that stays is not both the one waited in and the one that follows it
        rw [if_pos hsame, if_neg]
        rintro ⟨hconnected, hregistered⟩
        cases hconnected.symm.trans (hsame.symm.trans hregistered)
      · simp [hconnected, hregistered]
    · simp [hline]

end Session

end IrcBot
