/-
What can happen to the connections of a bot and the pool they share, one move
at a time, with the entry each move leaves in the history. Callbacks, orders and
handlers of events all come down to such moves, so what every move keeps, every
run keeps: a connection is online exactly while it holds a socket of the pool,
and the pool has no sockets but those.
-/
import IrcBot.Bot.Basic
import IrcBot.Proofs.Pool.Sockets
import IrcBot.Proofs.Session.Registration
import IrcBot.Proofs.Table

namespace IrcBot

/-- What the history of a bot is made of. -/
inductive Entry where
  /-- A connection got a socket. -/
  | attached (connection : Nat) (h : Handle)
  /-- A connection triggered an event. -/
  | triggered (event : Event)
  deriving DecidableEq

def Entry.event? : Entry → Option Event
  | .attached .. => none
  | .triggered event => some event

/-- What a session owes to its own parts: it is online exactly while it has a
socket, and offline it may connect and knows nothing of the server. -/
structure Session.Proper (s : Session) : Prop where
  online : s.phase.isOnline = true ↔ s.socket.isSome = true
  forgotten : s.socket = none →
    s.phase = .disconnected ∧ s.isupport = .empty ∧ s.tracker = .empty

/-- A session with a socket may hear any line. -/
theorem Session.Proper.handleLine {s : Session} {h : Handle} {registered : Nat} {line : Text}
    (hs : s.Proper) (hsocket : s.socket = some h) : (s.handleLine registered line).1.Proper := by
  have hsocket' : (s.handleLine registered line).1.socket = some h := by
    rw [socket_handleLine, hsocket]
  have honline := hs.online
  rw [hsocket] at honline
  refine ⟨?_, by simp [hsocket']⟩
  rw [hsocket']
  by_cases hline : Completes registered line ∧ s.phase = .connected
  · obtain ⟨_, _, -, hphase, -⟩ := handleLine_completing hline.1 hline.2
    simp [hphase, Phase.isOnline]
  · obtain ⟨_, -, -, hkept⟩ := handleLine_ordinary hline
    have hphase : (s.handleLine registered line).1.phase = s.phase := congrArg Prod.fst hkept
    rw [hphase, honline]

namespace Bot

namespace Net

/-- The socket of a connection. -/
def socketOf (n : Net) (i : Nat) : Option Handle := (n.connections.get? i).bind (·.session.socket)

/-- A move, with the entries it leaves. -/
inductive Move (registered : Nat) : Net → List Entry → Net → Prop where
  /-- Bytes are read, written or queued. -/
  | touch {n : Net} {h : Handle} {s s' : Socket Role} (hs : n.pool.socket? h = some s)
    (hcallbacks : s'.callbacks = s.callbacks) :
    Move registered n [] { n with pool := n.pool.set h s' }
  /-- A connection tells of a line it sends. -/
  | speak {n : Net} {i : Nat} {h : Handle} (line : Text) (hsocket : n.socketOf i = some h) :
    Move registered n [.triggered (.occurred i (.rawLineSent line))] n
  | rename {n : Net} {i : Nat} {c : Connection} (nick : Text)
    (hc : n.connections.get? i = some c) :
    Move registered n []
      { n with
        connections := n.connections.insert i { c with session := { c.session with nick } } }
  | attach {n : Net} {i : Nat} {c : Connection} (stream : Stream) (nick : Text)
    (hc : n.connections.get? i = some c) (hphase : c.session.phase = .disconnected) :
    Move registered n [.attached i n.pool.nextHandle]
      { connections := n.connections.insert i
          { c with session := c.session.attach n.pool.nextHandle nick }
        pool := (n.pool.add stream (callbacks i)).2 }
  | lose {n : Net} {i : Nat} {c : Connection} {h : Handle} (hc : n.connections.get? i = some c)
    (hsocket : c.session.socket = some h) :
    Move registered n [.triggered (.occurred i .disconnected)]
      { connections := n.connections.insert i
          { c with session := { c.session.reset with phase := .disconnected } }
        pool := (n.pool.close h).2 }
  | hear {n : Net} {i : Nat} {c : Connection} {h : Handle} (line : Text)
    (hc : n.connections.get? i = some c) (hsocket : c.session.socket = some h) :
    Move registered n
      ((c.session.handleLine registered line).2.map fun what => .triggered (.occurred i what))
      { n with
        connections := n.connections.insert i
          { c with session := (c.session.handleLine registered line).1 } }
  /-- A socket in trouble that has nobody to be told is closed. -/
  | drop {n : Net} {h : Handle} {s : Socket Role} (hs : n.pool.socket? h = some s)
    (hother : s.callbacks.other = none) :
    Move registered n [] { n with pool := (n.pool.close h).2 }

/-- Moves one after the other, with all entries they leave. -/
inductive Moves (registered : Nat) : Net → List Entry → Net → Prop where
  | refl (n : Net) : Moves registered n [] n
  | head {n n' n'' : Net} {es es' : List Entry} (first : Move registered n es n')
    (rest : Moves registered n' es' n'') : Moves registered n (es ++ es') n''

variable {registered : Nat} {n n' n'' : Net} {es es' : List Entry}

theorem Move.moves (h : Move registered n es n') : Moves registered n es n' := by
  have := Moves.head h (.refl n')
  rwa [List.append_nil] at this

theorem Moves.trans (h : Moves registered n es n') (h' : Moves registered n' es' n'') :
    Moves registered n (es ++ es') n'' := by
  induction h with
  | refl => exact h'
  | head first _ ih =>
    rw [List.append_assoc]
    exact .head first (ih h')

/-! ## What every move keeps -/

theorem socketOf_insert {p : Pool Role} {i j : Nat} {c : Connection} :
    socketOf { connections := n.connections.insert i c, pool := p } j =
      if i = j then c.session.socket else n.socketOf j := by
  unfold socketOf
  rw [Table.get?_insert]
  split <;> rfl

theorem socketOf_eq {i : Nat} {c : Connection} (hc : n.connections.get? i = some c) :
    n.socketOf i = c.session.socket := by
  simp [socketOf, hc]

/-- Sessions and the pool agree, and every socket calls back the connection it belongs to. -/
structure Sound (n : Net) : Prop where
  proper : ∀ i c, n.connections.get? i = some c → c.session.Proper
  pooled : ∀ i h, n.socketOf i = some h →
    ∃ s, n.pool.socket? h = some s ∧ s.callbacks = callbacks i
  owned : ∀ h s, n.pool.socket? h = some s → ∃ i, n.socketOf i = some h
  /-- Handles yet to be given are not in use. -/
  fresh : ∀ h s, n.pool.socket? h = some s → h < n.pool.nextHandle

theorem callbacks_injective {i j : Nat} (h : callbacks i = callbacks j) : i = j := by
  simpa [callbacks] using h

/-- No two connections share a socket. -/
theorem Sound.distinct {i j : Nat} {h : Handle} (hn : n.Sound) (hi : n.socketOf i = some h)
    (hj : n.socketOf j = some h) : i = j := by
  obtain ⟨s, hs, hci⟩ := hn.pooled i h hi
  obtain ⟨s', hs', hcj⟩ := hn.pooled j h hj
  cases hs.symm.trans hs'
  exact callbacks_injective (hci.symm.trans hcj)

theorem Sound.socketOf_disconnected {i : Nat} {c : Connection} (hn : n.Sound)
    (hc : n.connections.get? i = some c) (hphase : c.session.phase = .disconnected) :
    n.socketOf i = none := by
  have honline := (hn.proper i c hc).online
  rw [hphase] at honline
  rw [socketOf_eq hc]
  simpa [Phase.isOnline] using honline

/-- A connection may learn anything while it keeps its socket. -/
theorem Sound.replace {i : Nat} {c c' : Connection} (hn : n.Sound)
    (hc : n.connections.get? i = some c) (hsocket : c'.session.socket = c.session.socket)
    (hproper : c'.session.Proper) :
    Sound { n with connections := n.connections.insert i c' } := by
  have hsame (j : Nat) :
      socketOf { n with connections := n.connections.insert i c' } j = n.socketOf j := by
    rw [socketOf_insert]
    split
    · next he =>
      subst he
      rw [hsocket, socketOf_eq hc]
    · rfl
  refine ⟨fun j d hd => ?_, fun j h hj => ?_, fun h s hs => ?_, hn.fresh⟩
  · rw [Table.get?_insert] at hd
    split at hd
    · cases hd
      exact hproper
    · exact hn.proper j d hd
  · rw [hsame] at hj
    exact hn.pooled j h hj
  · obtain ⟨j, hj⟩ := hn.owned h s hs
    exact ⟨j, (hsame j).trans hj⟩

theorem Sound.touch {h : Handle} {s s' : Socket Role} (hn : n.Sound)
    (hs : n.pool.socket? h = some s) (hcallbacks : s'.callbacks = s.callbacks) :
    Sound { n with pool := n.pool.set h s' } := by
  have hlook (h' : Handle) : (n.pool.set h s').socket? h' =
      if h = h' then some s' else n.pool.socket? h' := by
    split
    · next he => rw [← he, Pool.socket?_set_self]
    · next hne => rw [Pool.socket?_set_other hne]
  refine ⟨hn.proper, fun i h' hi => ?_, fun h' t ht => ?_, fun h' t ht => ?_⟩
  · obtain ⟨t, ht, hcb⟩ := hn.pooled i h' hi
    rw [hlook]
    split
    · next he =>
      subst he
      cases hs.symm.trans ht
      exact ⟨s', rfl, hcallbacks.trans hcb⟩
    · exact ⟨t, ht, hcb⟩
  · rw [hlook] at ht
    split at ht
    · next he => exact he ▸ hn.owned h s hs
    · exact hn.owned h' t ht
  · rw [hlook] at ht
    split at ht
    · next he => exact he ▸ hn.fresh h s hs
    · exact hn.fresh h' t ht

theorem Sound.attach {i : Nat} {c : Connection} (stream : Stream) (nick : Text) (hn : n.Sound)
    (hc : n.connections.get? i = some c) (hphase : c.session.phase = .disconnected) :
    Sound {
      connections := n.connections.insert i
        { c with session := c.session.attach n.pool.nextHandle nick }
      pool := (n.pool.add stream (callbacks i)).2 } := by
  have hnone : n.socketOf i = none := hn.socketOf_disconnected hc hphase
  have hlook (h : Handle) : (n.pool.add stream (callbacks i)).2.socket? h =
      if n.pool.nextHandle = h then some (.ofStream stream (callbacks i)) else n.pool.socket? h :=
    Table.get?_insert ..
  refine ⟨fun j d hd => ?_, fun j h hj => ?_, fun h s hs => ?_, fun h s hs => ?_⟩
  · rw [Table.get?_insert] at hd
    split at hd
    · cases hd
      exact ⟨by simp [Session.attach, Phase.isOnline], by simp [Session.attach]⟩
    · exact hn.proper j d hd
  · rw [socketOf_insert] at hj
    rw [hlook]
    split at hj
    · next he =>
      cases hj
      rw [if_pos rfl, ← he]
      exact ⟨_, rfl, rfl⟩
    · obtain ⟨s, hs, hcb⟩ := hn.pooled j h hj
      rw [if_neg (Nat.ne_of_gt (hn.fresh h s hs))]
      exact ⟨s, hs, hcb⟩
  · rw [hlook] at hs
    split at hs
    · next he => exact ⟨i, by rw [socketOf_insert, if_pos rfl, ← he]; rfl⟩
    · obtain ⟨j, hj⟩ := hn.owned h s hs
      refine ⟨j, ?_⟩
      rw [socketOf_insert, if_neg, hj]
      rintro rfl
      rw [hnone] at hj
      cases hj
  · rw [hlook] at hs
    show h < n.pool.nextHandle + 1
    split at hs
    · next he => exact he ▸ Nat.lt_succ_self _
    · exact Nat.lt_succ_of_lt (hn.fresh h s hs)

theorem Sound.lose {i : Nat} {c : Connection} {h : Handle} (hn : n.Sound)
    (hc : n.connections.get? i = some c) (hsocket : c.session.socket = some h) :
    Sound {
      connections := n.connections.insert i
        { c with session := { c.session.reset with phase := .disconnected } }
      pool := (n.pool.close h).2 } := by
  have hi : n.socketOf i = some h := (socketOf_eq hc).trans hsocket
  refine ⟨fun j d hd => ?_, fun j h' hj => ?_, fun h' s hs => ?_, fun h' s hs => ?_⟩
  · rw [Table.get?_insert] at hd
    split at hd
    · cases hd
      exact ⟨by simp [Session.reset, Phase.isOnline], fun _ => ⟨rfl, rfl, rfl⟩⟩
    · exact hn.proper j d hd
  · rw [socketOf_insert] at hj
    split at hj
    · cases hj
    · next hne =>
      have hne' : h ≠ h' := by
        rintro rfl
        exact hne (hn.distinct hi hj)
      rw [Pool.socket?_close_other hne']
      exact hn.pooled j h' hj
  · by_cases hne : h = h'
    · subst hne
      rw [Pool.socket?_close_self] at hs
      cases hs
    · rw [Pool.socket?_close_other hne] at hs
      obtain ⟨j, hj⟩ := hn.owned h' s hs
      refine ⟨j, ?_⟩
      rw [socketOf_insert, if_neg, hj]
      rintro rfl
      exact hne (Option.some.inj (hi.symm.trans hj))
  · by_cases hne : h = h'
    · subst hne
      rw [Pool.socket?_close_self] at hs
      cases hs
    · rw [Pool.socket?_close_other hne] at hs
      exact hn.fresh h' s hs

theorem Move.sound (h : Move registered n es n') (hn : n.Sound) : n'.Sound := by
  cases h with
  | touch hs hcallbacks => exact hn.touch hs hcallbacks
  | speak line hsocket => exact hn
  | rename nick hc =>
    have hproper := hn.proper _ _ hc
    exact hn.replace hc rfl ⟨hproper.online, hproper.forgotten⟩
  | attach stream nick hc hphase => exact hn.attach stream nick hc hphase
  | lose hc hsocket => exact hn.lose hc hsocket
  | hear line hc hsocket =>
    exact hn.replace hc Session.socket_handleLine ((hn.proper _ _ hc).handleLine hsocket)
  | drop hs hother =>
    -- every socket belongs to a connection, which has hung a callback for trouble on it
    obtain ⟨i, hi⟩ := hn.owned _ _ hs
    obtain ⟨s', hs', hcb⟩ := hn.pooled i _ hi
    cases hs.symm.trans hs'
    rw [hcb] at hother
    cases hother

theorem Moves.sound (h : Moves registered n es n') (hn : n.Sound) : n'.Sound := by
  induction h with
  | refl => exact hn
  | head first _ ih => exact ih (first.sound hn)

end Net

end Bot

end IrcBot
