/-
Orders to connections, and closing them, as moves. An order to say something
moves the bytes of its lines into the queue and tells of each line; connecting
attaches a socket first and then says the handshake; closing gives up the socket.
-/
import IrcBot.Proofs.Bot.Moves
import IrcBot.Proofs.Bot.Orders

namespace IrcBot.Bot.Net

open Circuit

variable {registered i : Nat} {n n' : Net} {c : Connection} {h : Handle}

/-- The entry for a socket that a connection has got. -/
def gained (i : Nat) (n n' : Net) : List Entry :=
  match n'.socketOf i with
  | some h => if n.socketOf i = some h then [] else [.attached i h]
  | none => []

/-- What an operation on one connection leaves in the history: the socket it got, if it got
one, and the events it triggered. -/
def entries (i : Nat) (n : Net) (outcome : Net × List Event) : List Entry :=
  gained i n outcome.1 ++ outcome.2.map .triggered

theorem gained_same (h : n'.socketOf i = n.socketOf i) : gained i n n' = [] := by
  unfold gained
  rw [h]
  split
  · next hsocket => rw [if_pos hsocket]
  · rfl

/-! ## Saying something -/

theorem moves_queuedAll (registered : Nat) {circuit : Circuit Role}
    (hpool : circuit.pool = n.pool) (hsocket : n.socketOf i = some h)
    (hs : ∃ s, n.pool.socket? h = some s) (lines : List Text) :
    n.Moves registered (lines.map fun line => .triggered (.occurred i (.rawLineSent line)))
      { n with pool := (circuit.queuedAll h lines).pool } := by
  induction lines generalizing n circuit with
  | nil =>
    rw [queuedAll_nil, hpool]
    exact .refl n
  | cons line lines ih =>
    obtain ⟨s, hs⟩ := hs
    have henqueued : (circuit.queued h line).pool =
        n.pool.set h { s with queue := s.queue.push (frame line) } := by
      simp only [queued, hpool, Pool.enqueue_eq hs]
    have htouch : Move registered n []
        { n with pool := n.pool.set h { s with queue := s.queue.push (frame line) } } :=
      .touch hs rfl
    have hspeak : Move registered
        { n with pool := n.pool.set h { s with queue := s.queue.push (frame line) } }
        [.triggered (.occurred i (.rawLineSent line))] _ := .speak line hsocket
    have hrest := ih (n := { n with pool := _ }) henqueued hsocket ⟨_, Pool.socket?_set_self⟩
    exact .head htouch (.head hspeak hrest)

theorem settle_eq (s : Session) (o : Order) :
    o.settle s = { s with nick := (o.settle s).nick } := by
  cases o <;> rfl

/-- An order to say something moves the net by the lines it sends. -/
theorem moves_order_speaks (hn : n.Sound) {o : Order} (ho : o.speaks) :
    n.Moves registered (entries i n (n.order i o).2) (n.order i o).2.1 := by
  cases hc : n.connections.get? i with
  | none =>
    have hmissing : n.order i o = (.error .notConnected, n, []) := by
      simp only [order, withConnection, hc]
    rw [hmissing, entries, gained_same rfl]
    exact .refl n
  | some c =>
    cases hsocket : c.session.socket with
    | none =>
      rw [order_offline hc hsocket ho, entries, gained_same rfl]
      exact .refl n
    | some h =>
      have hi : n.socketOf i = some h := (socketOf_eq hc).trans hsocket
      obtain ⟨s, hs, -⟩ := hn.pooled i h hi
      rw [order_online hc ⟨hsocket, s, hs⟩ ho, entries, gained_same]
      · have hpool : (n.circuit c).pool = n.pool := rfl
        have hsaid := moves_queuedAll registered hpool hi ⟨s, hs⟩ (o.lines c.session.tracker)
        have hrename : Move registered
            { n with pool := ((n.circuit c).queuedAll h (o.lines c.session.tracker)).pool } [] _ :=
          .rename (o.settle c.session).nick hc
        rw [← settle_eq] at hrename
        have hboth := hsaid.trans hrename.moves
        rw [List.append_nil] at hboth
        rw [List.nil_append, List.map_map, Function.comp_def]
        exact hboth
      · rw [socketOf_insert, if_pos rfl, hi]
        exact (settle_socket _ _).trans hsocket

/-! ## Connecting and closing -/

/-- A connection attempt that fails, or that is not due, leaves everything as it is. -/
theorem order_connect_idle {dialled : Except Refusal Stream}
    (hidle : (∃ e, dialled = .error e) ∨
      ∀ c, n.connections.get? i = some c → c.session.phase ≠ .disconnected) :
    (n.order i (.connect dialled)).2 = (n, []) := by
  simp only [order, withConnection, carryOut, connect]
  cases hc : n.connections.get? i with
  | none => rfl
  | some c =>
    by_cases hphase : c.session.phase = .disconnected
    · rcases hidle with ⟨e, rfl⟩ | hidle
      · simp only [hphase, if_true, List.map_nil]
        rw [Table.insert_of_get? hc]
      · exact absurd hphase (hidle c hc)
    · simp only [hphase, if_false, List.map_nil]
      rw [Table.insert_of_get? hc]

/-- Connecting does nothing, unless a connection that may connect gets a stream. -/
theorem order_connect_cases (n : Net) (i : Nat) (dialled : Except Refusal Stream) :
    (n.order i (.connect dialled)).2 = (n, []) ∨
      ∃ c stream, n.connections.get? i = some c ∧ c.session.phase = .disconnected ∧
        dialled = .ok stream := by
  cases dialled with
  | error e => exact .inl (order_connect_idle (.inl ⟨e, rfl⟩))
  | ok stream =>
    by_cases hdue : ∃ c, n.connections.get? i = some c ∧ c.session.phase = .disconnected
    · obtain ⟨c, hc, hphase⟩ := hdue
      exact .inr ⟨c, stream, hc, hphase, rfl⟩
    · exact .inl (order_connect_idle (.inr fun c hc hphase => hdue ⟨c, hc, hphase⟩))

/-- A connection that has just got a socket, with the pool that has it. -/
def opened (n : Net) (i : Nat) (c : Connection) (stream : Stream) : Circuit Role where
  settings := c.settings
  session := c.session.attach n.pool.nextHandle c.settings.primaryNick
  pool := (n.pool.add stream (callbacks i)).2

theorem online_opened (stream : Stream) : (n.opened i c stream).Online n.pool.nextHandle :=
  Circuit.online_opened (c := n.circuit c) (callbacks i) stream

theorem connect_circuit (stream : Stream) (hphase : c.session.phase = .disconnected) :
    (n.circuit c).connect (callbacks i) (.ok stream) =
      (.ok (), (n.opened i c stream).queuedAll n.pool.nextHandle
        ((Connection.handshake c.settings).map sentAs)) :=
  Circuit.connect_ok (callbacks i) stream hphase

/-- The net once a connection has got a socket. -/
def attached (n : Net) (i : Nat) (c : Connection) (stream : Stream) : Net where
  connections := n.connections.insert i { c with session := (n.opened i c stream).session }
  pool := (n.opened i c stream).pool

theorem order_connect_ok {stream : Stream} (hc : n.connections.get? i = some c)
    (hphase : c.session.phase = .disconnected) :
    (n.order i (.connect (.ok stream))).2 =
      ({ n.attached i c stream with
          pool := ((n.opened i c stream).queuedAll n.pool.nextHandle
            ((Connection.handshake c.settings).map sentAs)).pool },
        ((Connection.handshake c.settings).map sentAs).map fun line =>
          .occurred i (.rawLineSent line)) := by
  have hconnect := connect_circuit (n := n) (i := i) stream hphase
  simp only [circuit] at hconnect
  simp only [order, withConnection, hc, carryOut, hconnect, session_queuedAll, occurred_queuedAll,
    attached]
  simp only [opened, List.nil_append, List.map_map, Function.comp_def]

theorem socketOf_attached {stream : Stream} :
    (n.attached i c stream).socketOf i = some n.pool.nextHandle := by
  unfold attached
  rw [socketOf_insert, if_pos rfl]
  rfl

/-- A connection that gets a socket says the handshake on it. -/
theorem entries_connect {stream : Stream} (hn : n.Sound) (hc : n.connections.get? i = some c)
    (hphase : c.session.phase = .disconnected) :
    entries i n (n.order i (.connect (.ok stream))).2 =
      .attached i n.pool.nextHandle :: ((Connection.handshake c.settings).map sentAs).map
        fun line => .triggered (.occurred i (.rawLineSent line)) := by
  have hbefore : n.socketOf i = none := hn.socketOf_disconnected hc hphase
  have hgained (pool : Pool Role) : gained i n { n.attached i c stream with pool := pool } =
      [.attached i n.pool.nextHandle] := by
    unfold gained
    rw [show socketOf { n.attached i c stream with pool := pool } i = some _ from
      socketOf_attached, hbefore]
    rfl
  rw [order_connect_ok hc hphase, entries, hgained, List.map_map, Function.comp_def]
  rfl

theorem moves_order_connect (hn : n.Sound) (dialled : Except Refusal Stream) :
    n.Moves registered (entries i n (n.order i (.connect dialled)).2)
      (n.order i (.connect dialled)).2.1 := by
  rcases n.order_connect_cases i dialled with hidle | ⟨c, stream, hc, hphase, rfl⟩
  · rw [hidle, entries, gained_same rfl]
    exact .refl n
  have hattach : Move registered n [.attached i n.pool.nextHandle] (n.attached i c stream) :=
    .attach stream c.settings.primaryNick hc hphase
  have hpool : (n.opened i c stream).pool = (n.attached i c stream).pool := rfl
  have hsay := moves_queuedAll registered hpool socketOf_attached
    (online_opened (c := c) stream).pooled ((Connection.handshake c.settings).map sentAs)
  rw [entries_connect hn hc hphase, order_connect_ok hc hphase]
  exact .head hattach hsay

/-- **Every order is a chain of moves.** -/
theorem moves_order (hn : n.Sound) (o : Order) :
    n.Moves registered (entries i n (n.order i o).2) (n.order i o).2.1 := by
  by_cases ho : o.speaks = true
  · exact moves_order_speaks hn ho
  · cases o with
    | connect dialled => exact moves_order_connect hn dialled
    | _ => exact absurd rfl ho

/-- Closing takes the socket away and says so, if there is one. -/
theorem close_online (hc : n.connections.get? i = some c) (hsocket : c.session.socket = some h) :
    n.close i = (true,
      { connections := n.connections.insert i
          { c with session := { c.session.reset with phase := .disconnected } }
        pool := (n.pool.close h).2 },
      [.occurred i .disconnected]) := by
  simp only [close, withConnection, hc, Circuit.close, hsocket, Circuit.lose, Session.lose?,
    if_true, announce, List.nil_append, List.map_cons, List.map_nil]

theorem close_offline (hsocket : n.socketOf i = none) : n.close i = (false, n, []) := by
  simp only [close, withConnection]
  cases hc : n.connections.get? i with
  | none => rfl
  | some c =>
    rw [socketOf_eq hc] at hsocket
    simp only [Circuit.close, hsocket, List.map_nil]
    rw [Table.insert_of_get? hc]

theorem socketOf_close (hc : n.connections.get? i = some c) (hsocket : c.session.socket = some h) :
    (n.close i).2.1.socketOf i = none := by
  rw [close_online hc hsocket]
  refine socketOf_insert.trans ?_
  rw [if_pos rfl]
  rfl

theorem entries_close (hc : n.connections.get? i = some c) (hsocket : c.session.socket = some h) :
    entries i n (n.close i).2 = [.triggered (.occurred i .disconnected)] := by
  have hgained : gained i n (n.close i).2.1 = [] := by
    unfold gained
    rw [socketOf_close hc hsocket]
  rw [entries, hgained, close_online hc hsocket]
  rfl

theorem moves_close : n.Moves registered (entries i n (n.close i).2) (n.close i).2.1 := by
  cases hi : n.socketOf i with
  | none =>
    rw [close_offline hi, entries, gained_same rfl]
    exact .refl n
  | some h =>
    obtain ⟨c, hc, hsocket⟩ := Option.bind_eq_some_iff.1 hi
    rw [entries_close hc hsocket, close_online hc hsocket]
    exact (Move.lose hc hsocket).moves

end IrcBot.Bot.Net
