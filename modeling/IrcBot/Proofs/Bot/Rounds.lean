/-
What a path of stages looks like from outside. The sockets a connection gets and
its being connected and disconnected come in rounds; within a round it is
connected by the first line that completes registration, directly after that line
has been told as a reply, and by nothing else.
-/
import IrcBot.Proofs.Bot.Stages
import Mathlib.Data.List.Induction

namespace IrcBot.Bot

open Session (Completes)

/-- Whether a moment opens a round, closes it, or tells that registration is complete. -/
def Moment.isMilestone : Moment → Bool
  | .attached _ | .occurred .connected | .occurred .disconnected => true
  | .occurred _ => false

/-- The beginning of a round: a socket, and whether registration has been completed on it. -/
def opening (h : Handle) (welcomed : Bool) : List Moment :=
  .attached h :: if welcomed then [.occurred .connected] else []

/-- A round from its socket to the loss of it. -/
def wholeRound (r : Handle × Bool) : List Moment := opening r.1 r.2 ++ [.occurred .disconnected]

/-- The round a session is in. -/
def openRound (s : Session) : List Moment :=
  match s.socket with
  | none => []
  | some h => opening h (s.phase = .registered)

/-- No loss, and no line that completes registration. -/
def Quiet (registered : Nat) (ms : List Moment) : Prop :=
  ∀ m ∈ ms, m ≠ .occurred .disconnected ∧
    ∀ line, m = .occurred (.rawLineReceived line) → ¬ Completes registered line

variable {registered : Nat} {s t : Stage} {m : Moment} {ms ms' : List Moment} {h : Handle}

/-- What an open round begins with. -/
def Stage.opened : Stage → List Moment
  | .offline => []
  | .waiting h | .completing h | .answered h => opening h false
  | .registered h => opening h true

/-! ## Rounds -/

theorem isMilestone_of_isPlain {what : Occurrence} (h : what.isPlain = true) :
    (Moment.occurred what).isMilestone = false := by
  cases what <;> first | rfl | exact absurd h (by decide)

/-- An advance goes on with the open round, or closes it. -/
theorem opened_advance (ha : Advance registered s m t) :
    s.opened ++ [m].filter Moment.isMilestone = t.opened ∨
      ∃ r, s.opened ++ [m].filter Moment.isMilestone = wholeRound r ∧ t.opened = [] := by
  cases ha with
  | attach h => exact .inl rfl
  | hear hline => exact .inl rfl
  | complete hline => exact .inl rfl
  | answer h sender params => exact .inl rfl
  | welcome h => exact .inl rfl
  | hearOn h line => exact .inl rfl
  | wait hwhat | stay hwhat =>
    rw [List.filter_cons_of_neg (by rw [isMilestone_of_isPlain hwhat]; decide)]
    exact .inl (List.append_nil _)
  | giveUp h => exact .inr ⟨(h, false), rfl, rfl⟩
  | lose h => exact .inr ⟨(h, true), rfl, rfl⟩

/-- Milestones come in whole rounds, but for the round that is open. -/
theorem milestones_path (hp : Path registered .offline ms t) :
    ∃ rounds : List (Handle × Bool),
      ms.filter Moment.isMilestone = rounds.flatMap wholeRound ++ t.opened := by
  induction ms using List.reverseRecOn generalizing t with
  | nil =>
    cases hp
    exact ⟨[], rfl⟩
  | append_singleton ms m ih =>
    obtain ⟨s, hs, hm⟩ := path_append.1 hp
    obtain ⟨rounds, hrounds⟩ := ih hs
    rw [List.filter_append, hrounds, List.append_assoc]
    rcases opened_advance (path_singleton.1 hm) with hon | ⟨r, hclosed, hnone⟩
    · exact ⟨rounds, by rw [hon]⟩
    · exact ⟨rounds ++ [r], by rw [hclosed, hnone]; simp⟩

theorem opened_stageOf (s : Session) : (stageOf s).opened = openRound s := by
  unfold stageOf openRound
  cases s.socket with
  | none => rfl
  | some h => by_cases hphase : s.phase = .registered <;> simp [hphase, Stage.opened]

/-! ## Losing the socket -/

def Stage.isOnline : Stage → Bool
  | .offline => false
  | _ => true

theorem isOnline_stageOf (s : Session) : (stageOf s).isOnline = s.socket.isSome := by
  unfold stageOf
  cases s.socket with
  | none => rfl
  | some h => by_cases hphase : s.phase = .registered <;> simp [hphase, Stage.isOnline]

theorem isOnline_stage (n : Net) (i : Nat) : (n.stage i).isOnline = (n.socketOf i).isSome := by
  unfold Net.stage Net.socketOf
  cases n.connections.get? i with
  | none => rfl
  | some c => exact isOnline_stageOf c.session

/-- Without a socket nothing happens to a connection, but for getting one. -/
theorem path_offline (hp : Path registered .offline ms t) (hkept : ∀ h, .attached h ∉ ms) :
    ms = [] ∧ t = .offline := by
  cases hp with
  | nil => exact ⟨rfl, rfl⟩
  | cons first _ =>
    cases first with
    | attach h => exact absurd (List.mem_cons_self ..) (hkept h)

/-- As long as a connection gets no new socket, it is disconnected once if it loses the one it
has, and else not at all. -/
theorem count_disconnected (hp : Path registered s ms t) (hkept : ∀ h, .attached h ∉ ms) :
    ms.count (.occurred .disconnected) = if s.isOnline && !t.isOnline then 1 else 0 := by
  induction hp with
  | nil s => cases s <;> rfl
  | @cons s s' t m ms first rest ih =>
    have hrest : ∀ h, .attached h ∉ ms := fun h hmem => hkept h (List.mem_cons_of_mem _ hmem)
    cases first with
    | attach h => exact absurd (List.mem_cons_self ..) (hkept h)
    | giveUp | lose =>
      obtain ⟨rfl, rfl⟩ := path_offline rest hrest
      rfl
    | hear | hearOn => rw [List.count_cons_of_ne (by simp), ih hrest]
    | complete | answer | welcome =>
      rw [List.count_cons_of_ne (by simp), ih hrest]
      rfl
    | wait hwhat | stay hwhat =>
      rw [List.count_cons_of_ne (by rintro ⟨⟩; cases hwhat), ih hrest]

/-! ## Inside a round -/

theorem Quiet.concat (hq : Quiet registered ms) (hm : m ≠ .occurred .disconnected)
    (hline : ∀ line, m = .occurred (.rawLineReceived line) → ¬ Completes registered line) :
    Quiet registered (ms ++ [m]) := by
  intro m' hm'
  rcases List.mem_append.1 hm' with hm' | hm'
  · exact hq m' hm'
  · cases List.mem_singleton.1 hm'
    exact ⟨hm, hline⟩

theorem path_quiet (hq : Quiet registered ms) (hp : Path registered (.waiting h) ms t) :
    t = .waiting h := by
  induction ms with
  | nil =>
    cases hp
    rfl
  | cons m ms ih =>
    have hfirst := hq m (by simp)
    have hrest : Quiet registered ms := fun m' hm' => hq m' (by simp [hm'])
    cases hp with
    | cons first rest =>
      cases first with
      | hear hline => exact ih hrest rest
      | wait hwhat => exact ih hrest rest
      | complete hline => exact absurd hline (hfirst.2 _ rfl)
      | giveUp => exact absurd rfl hfirst.1

/-- The stages between two steps. -/
def Stage.Settled : Stage → Prop
  | .completing _ | .answered _ => False
  | _ => True

theorem settled_stageOf (s : Session) : (stageOf s).Settled := by
  unfold stageOf
  cases s.socket with
  | none => trivial
  | some h => by_cases hphase : s.phase = .registered <;> simp [hphase, Stage.Settled]

theorem path_of_completing (hp : Path registered (.completing h) ms t) (ht : t.Settled) :
    ∃ sender params rest,
      ms = .occurred (.serverMessage sender registered params) :: .occurred .connected :: rest := by
  cases hp with
  | nil => exact ht.elim
  | cons first hp =>
    cases first with
    | answer _ sender params =>
      cases hp with
      | nil => exact ht.elim
      | cons first hp =>
        cases first with
        | welcome => exact ⟨sender, params, _, rfl⟩

/-- The first line in a round that completes registration is told as a reply, and then the
connection is connected, at once. -/
theorem path_completing {before : List Moment} {line : Text} (hq : Quiet registered ms)
    (hline : Completes registered line)
    (hp : Path registered .offline
      (before ++ .attached h :: ms ++ .occurred (.rawLineReceived line) :: ms') t)
    (ht : t.Settled) :
    ∃ sender params rest,
      ms' = .occurred (.serverMessage sender registered params) :: .occurred .connected :: rest := by
  rw [List.append_assoc] at hp
  obtain ⟨s, -, hp⟩ := path_append.1 hp
  cases hp with
  | cons first hp =>
    cases first with
    | attach =>
      obtain ⟨u, hu, hp⟩ := path_append.1 hp
      cases path_quiet hq hu
      cases hp with
      | cons first hp =>
        cases first with
        | hear hnot => exact absurd hline hnot
        | wait hwhat => cases hwhat
        | complete _ => exact path_of_completing hp ht

/-- The moments since the socket of a round, while registration is not complete. -/
theorem path_waiting (hp : Path registered .offline ms (.waiting h)) :
    ∃ before quiet, ms = before ++ .attached h :: quiet ∧ Quiet registered quiet := by
  induction ms using List.reverseRecOn with
  | nil => cases hp
  | append_singleton ms m ih =>
    obtain ⟨s, hs, hm⟩ := path_append.1 hp
    cases path_singleton.1 hm with
    | attach h => exact ⟨ms, [], rfl, by simp [Quiet]⟩
    | @hear _ line hline =>
      obtain ⟨before, quiet, rfl, hquiet⟩ := ih hs
      refine ⟨before, quiet ++ [.occurred (.rawLineReceived line)], by simp, hquiet.concat ?_ ?_⟩
      · simp
      · rintro _ ⟨⟩
        exact hline
    | @wait _ what hwhat =>
      obtain ⟨before, quiet, rfl, hquiet⟩ := ih hs
      refine ⟨before, quiet ++ [.occurred what], by simp, hquiet.concat ?_ ?_⟩
      · rintro ⟨⟩
        cases hwhat
      · rintro _ ⟨⟩
        cases hwhat

/-- A connection is connected by the first line in its round that completes registration, once
that line has been told as a reply. -/
theorem path_connected
    (hp : Path registered .offline (ms ++ .occurred .connected :: ms') t) :
    ∃ before h quiet line sender params,
      ms = before ++ .attached h :: quiet ++
        [.occurred (.rawLineReceived line),
          .occurred (.serverMessage sender registered params)] ∧
      Quiet registered quiet ∧ Completes registered line := by
  obtain ⟨s, hs, hp⟩ := path_append.1 hp
  cases hp with
  | cons first _ =>
    cases first with
    | wait hwhat | stay hwhat => cases hwhat
    | welcome h =>
      -- the two moments before can only be the answer and the line it answers
      obtain ⟨ms, m, rfl⟩ : ∃ init last, ms = init ++ [last] := by
        rcases List.eq_nil_or_concat ms with rfl | ⟨init, last, rfl⟩
        · cases hs
        · exact ⟨init, last, by simp⟩
      obtain ⟨s, hs, hm⟩ := path_append.1 hs
      cases path_singleton.1 hm with
      | answer h sender params =>
        obtain ⟨ms, m, rfl⟩ : ∃ init last, ms = init ++ [last] := by
          rcases List.eq_nil_or_concat ms with rfl | ⟨init, last, rfl⟩
          · cases hs
          · exact ⟨init, last, by simp⟩
        obtain ⟨s, hs, hm⟩ := path_append.1 hs
        cases path_singleton.1 hm with
        | @complete _ line hline =>
          obtain ⟨before, quiet, rfl, hquiet⟩ := path_waiting hs
          exact ⟨before, h, quiet, line, sender, params, by simp, hquiet, hline⟩

end IrcBot.Bot
