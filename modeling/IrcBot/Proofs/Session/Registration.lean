/-
What a line does to how far a session has come. A line leaves the socket alone.
The one that completes registration, met while the session waits for it, moves
the session on and is announced by three occurrences; any other line leaves the
phase as it is, and none of its occurrences tells of a connection made or lost.
-/
import IrcBot.Session.Inbound

namespace IrcBot

/-- Neither a line that was received nor a change in how far the connection has come. -/
def Occurrence.isPlain : Occurrence → Bool
  | .connected | .disconnected | .rawLineReceived _ => false
  | _ => true

namespace Session

/-- Whether a line is a reply with the code that completes registration. -/
def Completes (registered : Nat) (line : Text) : Prop :=
  ∃ m, Message.parse line = .ok m ∧ m.numeric? = some registered

variable {s s' : Session} {m : Message} {registered code : Nat} {line : Text} {what : Occurrence}

/-- The parts of a session that tell how far it has come. -/
def standing (s : Session) : Phase × Option Handle := (s.phase, s.socket)

theorem standing_learn : (s.learn m code).standing = s.standing := by
  unfold learn
  split
  · rfl
  · rfl
  · unfold names
    split <;> rfl
  · rfl

theorem standing_onText {isNotice : Bool} (h : s.onText m isNotice = some (s', what)) :
    s'.standing = s.standing ∧ what.isPlain = true := by
  unfold onText at h
  split at h
  · split at h
    · cases h
      refine ⟨rfl, ?_⟩
      unfold textOccurrence
      split <;> rfl
    · cases h
  · cases h

theorem standing_onMode (h : s.onMode m = some (s', what)) :
    s'.standing = s.standing ∧ what.isPlain = true := by
  unfold onMode at h
  split at h
  · cases h
    exact ⟨rfl, rfl⟩
  · cases h

theorem standing_onJoin (h : s.onJoin m = some (s', what)) :
    s'.standing = s.standing ∧ what.isPlain = true := by
  unfold onJoin at h
  split at h
  · cases h
    exact ⟨rfl, rfl⟩
  · cases h

theorem standing_onPart (h : s.onPart m = some (s', what)) :
    s'.standing = s.standing ∧ what.isPlain = true := by
  unfold onPart at h
  split at h
  · cases h
    exact ⟨rfl, rfl⟩
  · cases h

theorem standing_onKick (h : s.onKick m = some (s', what)) :
    s'.standing = s.standing ∧ what.isPlain = true := by
  unfold onKick at h
  split at h
  · cases h
    exact ⟨rfl, rfl⟩
  · cases h

theorem standing_onQuit (h : s.onQuit m = some (s', what)) :
    s'.standing = s.standing ∧ what.isPlain = true := by
  unfold onQuit at h
  obtain ⟨sender, -, h⟩ := Option.map_eq_some_iff.1 h
  cases h
  exact ⟨rfl, rfl⟩

theorem standing_onNick (h : s.onNick m = some (s', what)) :
    s'.standing = s.standing ∧ what.isPlain = true := by
  unfold onNick at h
  split at h
  · cases h
    exact ⟨rfl, rfl⟩
  · cases h

/-- A message that is no numeric reply changes nothing in how far the session has come. -/
theorem standing_react (hm : m.numeric? = none) (h : s.react m registered = some (s', what)) :
    s'.standing = s.standing ∧ what.isPlain = true := by
  simp only [react, hm] at h
  split at h
  · cases h; exact ⟨rfl, rfl⟩
  · cases h; exact ⟨rfl, rfl⟩
  · exact standing_onText h
  · exact standing_onText h
  · exact standing_onJoin h
  · exact standing_onPart h
  · exact standing_onKick h
  · exact standing_onQuit h
  · exact standing_onNick h
  · exact standing_onMode h
  · cases h

theorem react_numeric (hm : m.numeric? = some code) :
    s.react m registered =
      some ((s.learn m code).register registered code,
        .serverMessage (m.sender?.getD (.bare [])) code m.args) := by
  simp only [react, hm, onNumeric]

theorem register_completing (hphase : s.phase = .connected) :
    s.register registered registered = { s with phase := .registered } := by
  simp [register, hphase]

theorem register_ordinary (h : ¬ (code = registered ∧ s.phase = .connected)) :
    s.register registered code = s := by
  simp [register, h]

/-! ## Lines -/

theorem handleLine_of_react (hparse : Message.parse line = .ok m)
    (h : s.react m registered = some (s', what)) :
    s.handleLine registered line =
      (s', .rawLineReceived line :: what :: if s'.phase = s.phase then [] else [.connected]) := by
  simp only [handleLine, hparse, h]

theorem handleLine_meaningless
    (h : ∀ m, Message.parse line = .ok m → s.react m registered = none) :
    s.handleLine registered line = (s, [.rawLineReceived line]) := by
  unfold handleLine
  cases hparse : Message.parse line with
  | error e => rfl
  | ok m => simp only [h m hparse]

/-- A line leaves the session as it is, or does to it what its message does. -/
theorem handleLine_cases : (s.handleLine registered line).1 = s ∨
    ∃ m reaction, Message.parse line = .ok m ∧ s.react m registered = some reaction ∧
      (s.handleLine registered line).1 = reaction.1 := by
  unfold handleLine
  cases hparse : Message.parse line with
  | error e => exact .inl rfl
  | ok m =>
    cases hreact : s.react m registered with
    | none => exact .inl (by simp only [hreact])
    | some reaction => exact .inr ⟨m, reaction, rfl, hreact, by simp only [hreact]⟩

/-- The line that completes registration is told first, then as a reply; then it is told that
the connection is made. -/
theorem handleLine_completing (hline : Completes registered line) (hphase : s.phase = .connected) :
    ∃ sender params,
      (s.handleLine registered line).2 =
        [.rawLineReceived line, .serverMessage sender registered params, .connected] ∧
      (s.handleLine registered line).1.phase = .registered ∧
      (s.handleLine registered line).1.socket = s.socket := by
  obtain ⟨m, hparse, hm⟩ := hline
  have hlearn : (s.learn m registered).standing = s.standing := standing_learn
  have hphase' : (s.learn m registered).phase = .connected :=
    (congrArg Prod.fst hlearn).trans hphase
  have hreact : s.react m registered =
      some ((s.learn m registered).register registered registered, _) := react_numeric hm
  rw [register_completing hphase'] at hreact
  rw [handleLine_of_react hparse hreact]
  refine ⟨m.sender?.getD (.bare []), m.args, ?_, rfl, congrArg Prod.snd hlearn⟩
  simp [hphase]

/-- Any other line leaves the session as far as it has come, and none of what it is announced as
tells otherwise. -/
theorem handleLine_ordinary (h : ¬ (Completes registered line ∧ s.phase = .connected)) :
    ∃ whats,
      (s.handleLine registered line).2 = .rawLineReceived line :: whats ∧
      (∀ what ∈ whats, what.isPlain = true) ∧
      (s.handleLine registered line).1.standing = s.standing := by
  by_cases hnone : ∀ m, Message.parse line = .ok m → s.react m registered = none
  · rw [handleLine_meaningless hnone]
    exact ⟨[], rfl, by simp, rfl⟩
  simp only [Classical.not_forall] at hnone
  obtain ⟨m, hparse, hreact⟩ := hnone
  obtain ⟨⟨s', what⟩, hreact⟩ := Option.ne_none_iff_exists'.1 hreact
  have hkept : s'.standing = s.standing ∧ what.isPlain = true := by
    cases hm : m.numeric? with
    | none => exact standing_react hm hreact
    | some code =>
      rw [react_numeric hm, register_ordinary ?_] at hreact
      · cases hreact
        exact ⟨standing_learn, rfl⟩
      · rintro ⟨rfl, hphase⟩
        have hlearn : (s.learn m code).standing = s.standing := standing_learn
        exact h ⟨⟨m, hparse, hm⟩, (congrArg Prod.fst hlearn).symm.trans hphase⟩
  have hphase : s'.phase = s.phase := congrArg Prod.fst hkept.1
  rw [handleLine_of_react hparse hreact, if_pos hphase]
  exact ⟨[what], rfl, by simp [hkept.2], hkept.1⟩

theorem socket_handleLine : (s.handleLine registered line).1.socket = s.socket := by
  by_cases h : Completes registered line ∧ s.phase = .connected
  · obtain ⟨_, _, -, -, hsocket⟩ := handleLine_completing h.1 h.2
    exact hsocket
  · obtain ⟨_, -, -, hkept⟩ := handleLine_ordinary h
    exact congrArg Prod.snd hkept

end Session

end IrcBot
