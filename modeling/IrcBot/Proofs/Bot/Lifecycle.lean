/-
The life of a connection over whole runs. Told by the account of the run, it is a
sequence of rounds: a socket, being connected at most once, being disconnected;
the last round may be open. The first line of a round that completes registration
connects, and nothing else does.

A round begins when connecting succeeds, and at no other time. However its socket
is lost, the connection is disconnected once.
-/
import IrcBot.Proofs.Bot.Fatal

namespace IrcBot.Bot

open Session (Completes)

/-- What the account of a connection is like when it has come to a session. -/
structure Rounds (registered : Nat) (ms : List Moment) (s : Session) : Prop where
  whole : ∃ rounds : List (Handle × Bool),
    ms.filter Moment.isMilestone = rounds.flatMap wholeRound ++ openRound s
  /-- The first line in a round that completes registration is told as a reply, and the
  connection is connected at once. -/
  welcomed : ∀ before h quiet line after,
    ms = before ++ .attached h :: quiet ++ .occurred (.rawLineReceived line) :: after →
    Quiet registered quiet → Completes registered line →
      ∃ sender params rest,
        after = .occurred (.serverMessage sender registered params) :: .occurred .connected :: rest
  /-- Nothing else connects. -/
  uninvited : ∀ before after, ms = before ++ .occurred .connected :: after →
    ∃ earlier h quiet line sender params,
      before = earlier ++ .attached h :: quiet ++
        [.occurred (.rawLineReceived line),
          .occurred (.serverMessage sender registered params)] ∧
      Quiet registered quiet ∧ Completes registered line

theorem rounds_path {registered : Nat} {ms : List Moment} {s : Session}
    (hp : Path registered .offline ms (stageOf s)) : Rounds registered ms s := by
  refine ⟨?_, ?_, ?_⟩
  · obtain ⟨rounds, hrounds⟩ := milestones_path hp
    exact ⟨rounds, by rw [hrounds, opened_stageOf]⟩
  · rintro before h quiet line after rfl hquiet hline
    exact path_completing hquiet hline hp (settled_stageOf s)
  · rintro before after rfl
    exact path_connected hp

variable {μ κ γ ν : Type} [DecidableEq κ] {b : Bot μ κ γ} {i : Nat} {c : Connection} {h : Handle}

/-! ## Getting a socket, and losing it -/

/-- A connection without a socket gets one when it connects, and says the handshake. -/
theorem account_connect (hn : b.net.Sound) (hc : b.net.connections.get? i = some c)
    (hsocket : c.session.socket = none) (stream : Stream) :
    ∃ (h : Handle) (lines : List Text),
      account i (b.entries (.order i (.connect (.ok stream)) : Step κ γ ν)) =
        .attached h :: lines.map (fun line => .occurred (.rawLineSent line)) ∧
      (b.step (.order i (.connect (.ok stream)) : Step κ γ ν)).net.socketOf i = some h := by
  have hphase := ((hn.proper i c hc).forgotten hsocket).1
  refine ⟨b.net.pool.nextHandle, (Connection.handshake c.settings).map Circuit.sentAs, ?_, ?_⟩
  · rw [entries, Net.entries_connect hn hc hphase]
    have hattached (es : List Entry) : account i (.attached i b.net.pool.nextHandle :: es) =
        .attached b.net.pool.nextHandle :: account i es := by
      simp [account, moment?]
    rw [hattached, account_said]
  · show (b.net.order i (.connect (.ok stream))).2.1.socketOf i = _
    rw [Net.order_connect_ok hc hphase]
    exact Net.socketOf_attached

theorem account_refused (hn : b.net.Sound) (hc : b.net.connections.get? i = some c)
    {dialled : Except Refusal Stream}
    (hidle : (∃ e, dialled = .error e) ∨ c.session.socket ≠ none) :
    account i (b.entries (.order i (.connect dialled) : Step κ γ ν)) = [] := by
  have hnothing : (b.net.order i (.connect dialled)).2 = (b.net, []) := by
    refine Net.order_connect_idle (hidle.imp_right fun hsocket c' hc' hphase => ?_)
    cases hc.symm.trans hc'
    exact hsocket ((Net.socketOf_eq hc).symm.trans (hn.socketOf_disconnected hc hphase))
  rw [entries, hnothing, Net.entries, Net.gained_same rfl]
  rfl

theorem account_close (hc : b.net.connections.get? i = some c)
    (hsocket : c.session.socket = some h) :
    account i (b.entries (.close i : Step κ γ ν)) = [.occurred .disconnected] ∧
      (b.step (.close i : Step κ γ ν)).net.socketOf i = none := by
  refine ⟨?_, Net.socketOf_close hc hsocket⟩
  rw [entries, Net.entries_close hc hsocket]
  simp [account, moment?]

theorem not_attached_pollSockets {report : Pool.Report} (h : Handle) :
    .attached h ∉ account i (b.entries (.pollSockets report : Step κ γ ν)) := by
  intro hmem
  obtain ⟨e, he, hmoment⟩ := List.mem_filterMap.1 hmem
  obtain ⟨event, -, rfl⟩ := List.mem_map.1 he
  cases event with
  | module => cases hmoment
  | occurred j what =>
    simp only [moment?] at hmoment
    split at hmoment <;> cases hmoment

/-- A pass disconnects a connection once if it costs it its socket, and else not at all. -/
theorem count_pollSockets (hn : b.net.Sound) (report : Pool.Report) :
    (account i (b.entries (.pollSockets report : Step κ γ ν))).count (.occurred .disconnected) =
      if (b.net.socketOf i).isSome &&
          ((b.step (.pollSockets report : Step κ γ ν)).net.socketOf i).isNone then 1
      else 0 := by
  have hp := path_moves (i := i) hn (moves_step hn (.pollSockets report : Step κ γ ν))
  rw [count_disconnected hp not_attached_pollSockets, isOnline_stage, isOnline_stage,
    Option.not_isSome]

theorem socketOf_fatal {report : Pool.Report} (hn : b.net.Sound)
    (hall : ∀ l, l ⊆ report.arrange l) (hi : b.net.socketOf i = some h)
    (hfatal : Fatal report b.net.pool h) :
    (b.step (.pollSockets report : Step κ γ ν)).net.socketOf i = none := by
  obtain ⟨s, hs, hhung⟩ := hn.pooled i h hi
  have ho : Open i h s { pool := b.net.pool, world := { connections := b.net.connections } } :=
    ⟨hi, hs, hhung⟩
  exact ho.lost_poll hall hfatal

/-- How a round of a connection that has come to a session begins and ends. -/
structure Edges (ν : Type) (b : Bot μ κ γ) (i : Nat) (s : Session) : Prop where
  opened : s.socket = none → ∀ stream, ∃ (h : Handle) (lines : List Text),
    account i (b.entries (.order i (.connect (.ok stream)) : Step κ γ ν)) =
      .attached h :: lines.map (fun line => .occurred (.rawLineSent line)) ∧
    (b.step (.order i (.connect (.ok stream)) : Step κ γ ν)).net.socketOf i = some h
  /-- Connecting does nothing if it fails, or if there is a socket already. -/
  refused : ∀ dialled, (∃ e, dialled = .error e) ∨ s.socket ≠ none →
    account i (b.entries (.order i (.connect dialled) : Step κ γ ν)) = []
  closed : ∀ h, s.socket = some h →
    account i (b.entries (.close i : Step κ γ ν)) = [.occurred .disconnected] ∧
      (b.step (.close i : Step κ γ ν)).net.socketOf i = none
  /-- In a pass it is disconnected once if it loses its socket, and else not at all. -/
  polled : ∀ report,
    (account i (b.entries (.pollSockets report : Step κ γ ν))).count (.occurred .disconnected) =
      if s.socket.isSome && ((b.step (.pollSockets report : Step κ γ ν)).net.socketOf i).isNone
      then 1 else 0
  /-- It does lose it when the pass goes through all sockets and something ends this one. -/
  fatal : ∀ report h, (∀ l, l ⊆ report.arrange l) → s.socket = some h →
    Fatal report b.net.pool h →
    (b.step (.pollSockets report : Step κ γ ν)).net.socketOf i = none

/-- **The life of a connection is a sequence of rounds**, after any steps from when
all connections were new; and whatever takes its socket disconnects it once. -/
theorem run_lifecycle (b : Bot μ κ γ) (networks : List Config.Network)
    (steps : List (Step κ γ ν)) (i : Nat) (c : Connection)
    (hc : ({ b with net := .ofNetworks networks }.run steps).connection? i = some c) :
    Rounds b.settings.registeredNumeric
        (account i ({ b with net := .ofNetworks networks }.history steps)) c.session ∧
      Edges ν ({ b with net := .ofNetworks networks }.run steps) i c.session := by
  have hn := sound_run b networks steps
  have hsocket : ({ b with net := .ofNetworks networks }.run steps).net.socketOf i =
      c.session.socket := Net.socketOf_eq hc
  refine ⟨rounds_path ?_, ⟨fun hh => account_connect hn hc hh,
    fun dialled hidle => account_refused hn hc hidle, fun h hh => account_close hc hh,
    fun report => ?_, fun report h hall hh => socketOf_fatal hn hall (hsocket.trans hh)⟩⟩
  · have hp := path_run b networks steps i
    rwa [stage_eq hc] at hp
  · rw [count_pollSockets hn, hsocket]

/-- The settings of one network. -/
def oneNetwork : List Config.Network :=
  [{ name := "net".toList, host := "irc".toList, nicks := ["bot".toList] }]

def onOneNetwork : Bot Unit Unit Unit where
  net := .ofNetworks oneNetwork

/-- A server that welcomes the bot twice. -/
def twoWelcomes : Bytes := Text.encode ":srv 001 bot :hi\r\n:srv 001 bot :again\r\n".toList

/-- A connection that is welcomed, then reset, and comes back. -/
def reconnecting : List (Step Unit Unit Unit) :=
  [.order 0 (.connect (.ok {})), .disturb 0 (arriving twoWelcomes false),
    .pollSockets (reading 0), .pollSockets { ready := [{ handle := 0, error := true }] },
    .order 0 (.connect (.ok {}))]

/-- Both welcomes are told as replies that complete registration; the first alone connects. -/
theorem run_lifecycle_reconnecting :
    let ms := account 0 (onOneNetwork.history reconnecting)
    ∃ c, (onOneNetwork.run reconnecting).connection? 0 = some c ∧ c.session.socket = some 1 ∧
      Rounds 1 ms c.session ∧
      (ms.filter fun m => m matches .occurred (.serverMessage _ 1 _)).length = 2 ∧
      ms.filter Moment.isMilestone = wholeRound (0, true) ++ opening 1 false ∧
      account 0 ((onOneNetwork.run reconnecting).entries (.close 0 : Step Unit Unit Unit)) =
        [.occurred .disconnected] := by
  intro ms
  have hopen : (onOneNetwork.run reconnecting).net.socketOf 0 = some 1 := by decide +kernel
  obtain ⟨c, hc, hsocket⟩ := Option.bind_eq_some_iff.1 hopen
  obtain ⟨hrounds, hedges⟩ := run_lifecycle onOneNetwork oneNetwork reconnecting 0 c hc
  exact ⟨c, hc, hsocket, hrounds, by decide +kernel, by decide +kernel,
    (hedges.closed 1 hsocket).1⟩

end IrcBot.Bot
