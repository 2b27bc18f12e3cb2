/-
How sockets begin. Whatever is queued for a socket in any run of a bot, it begins with
the handshake of the network the socket belongs to: the password, if there is one, the
configured nick and the user. Handles are never given twice, so nothing is queued for a
socket before a connection gets it (`Net.Opens`); what then becomes of the nick, of
events that still wait and of handlers that act on them comes later in the queue.
-/
import IrcBot.Bot.Act
import IrcBot.Proofs.Bot.Agreement
import IrcBot.Proofs.Bot.Queued

namespace IrcBot.Bot

open Circuit

/-! ## Settings -/

namespace Net

/-- Every connection has the settings of the network with its number. -/
def Configured (networks : List Config.Network) (n : Net) : Prop :=
  ∀ i c, n.connections.get? i = some c → networks[i]? = some c.settings

variable {registered i : Nat} {n n' n'' : Net} {c : Connection} {es es' : List Entry}
variable {networks : List Config.Network}

theorem Configured.insert {p : Pool Role} (hn : n.Configured networks)
    (hc : n.connections.get? i = some c) (session : Session) :
    Configured networks
      { connections := n.connections.insert i { c with session }, pool := p } := by
  intro j d hd
  rw [Table.get?_insert] at hd
  split at hd
  · next he =>
    cases hd
    exact he ▸ hn i c hc
  · exact hn j d hd

theorem Move.configured (hm : n.Move registered es n') (hn : n.Configured networks) :
    n'.Configured networks := by
  cases hm with
  | touch | speak | drop => exact hn
  | rename nick hc => exact hn.insert hc _
  | attach stream nick hc => exact hn.insert hc _
  | lose hc => exact hn.insert hc _
  | hear line hc => exact hn.insert hc _

theorem Moves.configured (hm : n.Moves registered es n') (hn : n.Configured networks) :
    n'.Configured networks := by
  induction hm with
  | refl => exact hn
  | head first _ ih => exact ih (first.configured hn)

theorem configured_ofNetworks (networks : List Config.Network) :
    (ofNetworks networks).Configured networks := by
  have hall (l : List (Config.Network × Nat)) (t : Table Nat Connection)
      (hl : ∀ p ∈ l, networks[p.2]? = some p.1)
      (ht : ∀ i c, t.get? i = some c → networks[i]? = some c.settings) :
      ∀ i c, (l.foldl (fun t p => t.insert p.2 (.ofSettings p.1)) t).get? i = some c →
        networks[i]? = some c.settings := by
    induction l generalizing t with
    | nil => exact ht
    | cons p l ih =>
      refine ih _ (fun q hq => hl q (List.mem_cons_of_mem _ hq)) fun i c hc => ?_
      rw [Table.get?_insert] at hc
      split at hc
      · next he =>
        cases hc
        exact he ▸ hl p List.mem_cons_self
      · exact ht i c hc
  exact hall _ .empty (fun p hp => List.mem_zipIdx_iff_getElem?.1 hp) (by simp)

/-! ## Handles -/

theorem Move.nextHandle_le (hm : n.Move registered es n') :
    n.pool.nextHandle ≤ n'.pool.nextHandle := by
  cases hm with
  | attach => exact Nat.le_succ _
  | _ => exact Nat.le_refl _

theorem Moves.nextHandle_le (hm : n.Moves registered es n') :
    n.pool.nextHandle ≤ n'.pool.nextHandle := by
  induction hm with
  | refl => exact Nat.le_refl _
  | head first _ ih => exact first.nextHandle_le.trans ih

end Net

/-! ## The handshake -/

/-- The lines that open a session with a network. -/
def openingLines (network : Config.Network) : List Text :=
  (network.password.map ("PASS ".toList ++ ·)).toList ++
    ["NICK ".toList ++ network.primaryNick,
      "USER ".toList ++ network.user ++ " * * :".toList ++ network.realname]

/-- These lines as they are queued, each cut at its first line end. -/
def openingPieces (network : Config.Network) : List Bytes :=
  (openingLines network).map fun line => frame (firstLine line)

theorem openingPieces_eq (network : Config.Network) :
    openingPieces network = ((Connection.handshake network).map sentAs).map frame := by
  have hlines : openingLines network = (Connection.handshake network).map Command.line := by
    unfold openingLines Connection.handshake
    rw [List.map_append, Option.toList_map, Option.toList_map, List.map_map]
    simp only [Function.comp_def, List.map_cons, List.map_nil, Command.line_pass,
      Command.line_nick, Command.line_user]
  simp only [openingPieces, hlines, List.map_map, Function.comp_def, sentAs]

namespace Net

variable {registered i j : Nat} {n n' n'' : Net} {c : Connection} {es es' : List Entry} {h : Handle}
variable {networks : List Config.Network} {log log' : Handle → List Bytes}

/-- On the way from one net to another, leaving these entries and queuing these pieces, every
socket that a connection gets is new and begins with the handshake. -/
structure Opens (networks : List Config.Network) (n : Net) (es : List Entry)
    (log : Handle → List Bytes) (n' : Net) : Prop where
  next : n.pool.nextHandle ≤ n'.pool.nextHandle
  unused : ∀ h, n'.pool.nextHandle ≤ h → log h = []
  opened : ∀ i h network, .attached i h ∈ es → networks[i]? = some network →
    n.pool.nextHandle ≤ h ∧ openingPieces network <+: log h

theorem Opens.refl : Opens networks n [] (fun _ => []) n :=
  ⟨Nat.le_refl _, fun _ _ => rfl, fun _ _ _ hmem => absurd hmem List.not_mem_nil⟩

theorem Opens.trans (ho : Opens networks n es log n') (ho' : Opens networks n' es' log' n'') :
    Opens networks n (es ++ es') (fun h => log h ++ log' h) n'' := by
  refine ⟨ho.next.trans ho'.next, fun h hle => ?_, fun i h network hmem hi => ?_⟩
  · rw [ho.unused h (ho'.next.trans hle), ho'.unused h hle]
    rfl
  · rcases List.mem_append.1 hmem with hmem | hmem
    · obtain ⟨hle, hfirst⟩ := ho.opened i h network hmem hi
      exact ⟨hle, hfirst.trans (List.prefix_append _ _)⟩
    · -- nothing has been queued for a socket that comes later
      obtain ⟨hle, hfirst⟩ := ho'.opened i h network hmem hi
      rw [ho.unused h hle]
      exact ⟨ho.next.trans hle, hfirst⟩

/-- What brings no socket opens none. -/
theorem Opens.of_quiet (hnext : n.pool.nextHandle ≤ n'.pool.nextHandle)
    (hunused : ∀ h, n'.pool.nextHandle ≤ h → log h = []) (hes : ∀ i h, .attached i h ∉ es) :
    Opens networks n es log n' :=
  ⟨hnext, hunused, fun i h _ hmem => absurd hmem (hes i h)⟩

/-! ## Orders -/

theorem socketOf_order_speaks (hn : n.Sound) {o : Order} (ho : o.speaks = true) :
    (n.order i o).2.1.socketOf i = n.socketOf i := by
  cases hc : n.connections.get? i with
  | none => simp only [order, withConnection, hc]
  | some c =>
    cases hsocket : c.session.socket with
    | none => rw [order_offline hc hsocket ho]
    | some h =>
      obtain ⟨s, hs, -⟩ := hn.pooled i h ((socketOf_eq hc).trans hsocket)
      rw [order_online hc ⟨hsocket, s, hs⟩ ho, socketOf_eq hc]
      exact (socketOf_insert.trans (if_pos rfl)).trans (settle_socket _ _)

theorem mem_gained {outcome : Net × List Event} (hmem : .attached j h ∈ entries i n outcome) :
    j = i ∧ outcome.1.socketOf i = some h ∧ n.socketOf i ≠ some h := by
  rcases List.mem_append.1 hmem with hmem | hmem
  · unfold gained at hmem
    split at hmem
    · next h' hsocket =>
      split at hmem
      · exact absurd hmem List.not_mem_nil
      · next hne =>
        cases List.mem_singleton.1 hmem
        exact ⟨rfl, hsocket, hne⟩
    · exact absurd hmem List.not_mem_nil
  · obtain ⟨event, -, h⟩ := List.mem_map.1 hmem
    cases h

/-- The socket that connecting brings begins with the handshake. -/
theorem queued_connect {stream : Stream} (hn : n.Sound) (hc : n.connections.get? i = some c)
    (hphase : c.session.phase = .disconnected) :
    queued n.pool.nextHandle n (n.order i (.connect (.ok stream))).2.1 =
      openingPieces c.settings := by
  have hnone : n.pool.socket? n.pool.nextHandle = none := hn.socket?_of_le (Nat.le_refl _)
  have hadded : (n.opened i c stream).pool.socket? n.pool.nextHandle =
      some (.ofStream stream (callbacks i)) := Table.get?_insert_self ..
  rw [order_connect_ok hc hphase, openingPieces_eq, queued, Pool.pieces, Pool.pieces, hnone]
  show List.drop 0 (Option.elim (Pool.socket? _ _) _ _) = _
  rw [socket?_queuedAll hadded]
  rfl

theorem opens_order (hn : n.Sound) (hconfigured : n.Configured networks) (o : Order) :
    Opens networks n (entries i n (n.order i o).2) (queued · n (n.order i o).2.1)
      (n.order i o).2.1 := by
  have hmoves : n.Moves 0 (entries i n (n.order i o).2) (n.order i o).2.1 := moves_order hn o
  refine ⟨hmoves.nextHandle_le,
    fun h hle => queued_of_none ((hmoves.sound hn).socket?_of_le hle),
    fun j h network hmem hj => ?_⟩
  obtain ⟨rfl, hafter, hbefore⟩ := mem_gained hmem
  by_cases ho : o.speaks = true
  · exact absurd (socketOf_order_speaks hn ho ▸ hafter) hbefore
  obtain ⟨dialled, rfl⟩ : ∃ dialled, o = .connect dialled := by
    cases o with
    | connect dialled => exact ⟨dialled, rfl⟩
    | _ => exact absurd rfl ho
  rcases n.order_connect_cases j dialled with hidle | ⟨c, stream, hc, hphase, rfl⟩
  · rw [hidle] at hafter
    exact absurd hafter hbefore
  have hnew : h = n.pool.nextHandle := by
    rw [order_connect_ok hc hphase] at hafter
    exact (Option.some.inj (socketOf_attached.symm.trans hafter)).symm
  cases hj.symm.trans (hconfigured j c hc)
  subst hnew
  rw [queued_connect hn hc hphase]
  exact ⟨Nat.le_refl _, List.prefix_refl _⟩

theorem opens_close : Opens networks n (entries i n (n.close i).2) (queued · n (n.close i).2.1)
    (n.close i).2.1 := by
  have hmoves : n.Moves 0 (entries i n (n.close i).2) (n.close i).2.1 := moves_close
  refine .of_quiet hmoves.nextHandle_le (fun _ _ => queued_close) fun j h hmem => ?_
  obtain ⟨-, hafter, hbefore⟩ := mem_gained hmem
  cases hi : n.socketOf i with
  | none =>
    rw [close_offline hi] at hafter
    exact hbefore hafter
  | some h' =>
    obtain ⟨c, hc, hsocket⟩ := Option.bind_eq_some_iff.1 hi
    rw [socketOf_close hc hsocket] at hafter
    cases hafter

end Net

/-! ## Steps -/

variable {μ κ γ ν : Type} [DecidableEq κ] {b : Bot μ κ γ} {networks : List Config.Network}

/-- What one act of a handler does. -/
theorem opens_perform {n : Net} (hn : n.Sound) (hconfigured : n.Configured networks)
    {w : World ν} {es : List Entry} {log : Handle → List Bytes}
    (hm : n.Moves 0 es w.net) (ho : n.Opens networks es log w.net) (q : Call ν) :
    n.Opens networks (es ++ callEntries q w (perform q w).2)
      (fun h => log h ++ Net.queued h w.net (perform q w).2.1.net) (perform q w).2.1.net := by
  cases q with
  | order i o => exact ho.trans (Net.opens_order (hm.sound hn) (hm.configured hconfigured) o)
  | close i => exact ho.trans Net.opens_close
  | look i | tell news =>
    simp only [callEntries, perform, List.append_nil, Net.queued_same]
    exact ho

theorem opens_pollBus (hn : b.net.Sound) (hconfigured : b.net.Configured networks)
    (handle : κ → Option γ → Event → Bus.Handler κ γ Event (calls ν)) (depth : Nat) :
    b.net.Opens networks (b.entries (.pollBus handle depth))
      (b.queuedBy · (.pollBus handle depth)) (b.step (.pollBus handle depth)).net := by
  let start : Bus.Run κ γ Event (World ν) := { bus := b.bus, world := { net := b.net } }
  -- both the entries and the pieces are read off the record, act by act
  have hkept := Bus.poll_keeps (c := (handling (ν := ν) handle).recorded)
    (P := fun w => b.net.Moves 0 (w.2.flatMap (Bus.Doing.seen callEntries)) w.1.net ∧
      b.net.Opens networks (w.2.flatMap (Bus.Doing.seen callEntries))
        (fun h => w.2.flatMap (queuedIn h)) w.1.net)
    (fun q w hw => ?_) depth start.blank ⟨.refl b.net, .refl⟩
  · have hsame := congrArg (fun r => r.world.net)
      (Bus.forget_recorded (handling (ν := ν) handle) depth start)
    rw [entries_pollBus]
    simp only [step, pollBus]
    rw [← hsame]
    exact hkept.2
  · obtain ⟨hmoves, hopens⟩ := hw
    obtain ⟨k, q | event⟩ := q
    · simp only [Bus.Conduct.recorded, List.flatMap_append, List.flatMap_singleton]
      exact ⟨moves_perform hn q w.1 _ hmoves, opens_perform hn hconfigured hmoves hopens q⟩
    · simpa only [Bus.Conduct.recorded, List.flatMap_append, List.flatMap_singleton,
        Bus.Doing.seen, queuedIn, List.append_nil] using And.intro hmoves hopens

theorem opens_pollSockets (hn : b.net.Sound) (report : Pool.Report) :
    b.net.Opens networks (b.entries (.pollSockets report : Step κ γ ν))
      (b.queuedBy · (.pollSockets report : Step κ γ ν))
      (b.step (.pollSockets report : Step κ γ ν)).net := by
  have hnext := (moves_step hn (.pollSockets report : Step κ γ ν)).nextHandle_le
  refine .of_quiet hnext (fun h hle => ?_) fun j h hmem => ?_
  · -- a socket that is not there has nothing done to it
    have hsince := (Pool.Audit.Since.refl b.auditOf).poll
      (c := conduct b.settings.registeredNumeric) report
    obtain ⟨deeds, hdeeds, hlife⟩ := hsince.life h
    rw [show b.auditOf.socket? h = none from hn.socket?_of_le (hnext.trans hle)] at hlife
    rw [queuedBy, hdeeds, hlife.of_none.1]
    rfl
  · obtain ⟨event, -, h⟩ := List.mem_map.1 hmem
    cases h

theorem opens_step (hn : b.net.Sound) (hconfigured : b.net.Configured networks)
    (s : Step κ γ ν) :
    b.net.Opens networks (b.entries s) (b.queuedBy · s) (b.step s).net := by
  cases s with
  | order i o => exact Net.opens_order hn hconfigured o
  | close i => exact Net.opens_close
  | pollSockets report => exact opens_pollSockets hn report
  | pollBus handle depth => exact opens_pollBus hn hconfigured handle depth
  | disturb h f =>
    exact .of_quiet (moves_step hn (.disturb h f : Step κ γ ν)).nextHandle_le (fun _ _ => rfl)
      fun _ _ => List.not_mem_nil
  | useBus f => exact .refl

/-- **Every socket that a run brings begins with the handshake.** -/
theorem opens_run (hn : b.net.Sound) (hconfigured : b.net.Configured networks)
    (steps : List (Step κ γ ν)) :
    b.net.Opens networks (b.history steps) (b.enqueued · steps) (b.run steps).net := by
  induction steps generalizing b with
  | nil => exact .refl
  | cons s steps ih =>
    have hm := moves_step hn s
    exact (opens_step hn hconfigured s).trans (ih (hm.sound hn) (hm.configured hconfigured))

omit [DecidableEq κ] in
/-- A connection that is on its way or online has nothing to connect for. -/
theorem order_connect_again {i : Nat} {c : Connection} (hc : b.connection? i = some c)
    (hphase : c.session.phase ≠ .disconnected) (dialled : Except Refusal Stream) :
    b.order i (.connect dialled) = (.ok (), b) := by
  have hgot : b.net.connections.get? i = some c := hc
  simp only [order, Net.order, Net.withConnection, hgot, carryOut, connect, hphase, if_false,
    List.map_nil, Table.insert_of_get? hgot]
  rfl

/-- **Every socket starts with the handshake.** Whatever happens in a run of a bot whose
connections were new, whatever is queued for a socket that a connection got begins with the lines
of its network: the password, if one is configured, the first configured nick and the user, each
cut at its first line end. A connection that is not disconnected is left as it is by connecting,
and so is all of the bot. -/
theorem run_opens_with_handshake (b : Bot μ κ γ) (networks : List Config.Network)
    (steps : List (Step κ γ ν)) (i : Nat) (network : Config.Network)
    (hi : networks[i]? = some network) :
    let start : Bot μ κ γ := { b with net := .ofNetworks networks }
    (∀ h, .attached i h ∈ start.history steps →
      (openingLines network).map (fun line => frame (firstLine line)) <+:
        start.enqueued h steps) ∧
    ∀ c dialled, (start.run steps).connection? i = some c → c.session.phase ≠ .disconnected →
      (start.run steps).order i (.connect dialled) = (.ok (), start.run steps) := by
  intro start
  have hopens : start.net.Opens networks (start.history steps) (start.enqueued · steps) _ :=
    opens_run (Net.sound_ofNetworks networks) (Net.configured_ofNetworks networks) steps
  exact ⟨fun h hmem => (hopens.opened i h network hmem hi).2,
    fun c dialled hc hphase => order_connect_again hc hphase dialled⟩

/-- The settings of one network, whose password has a line end in it. -/
def withPassword : List Config.Network :=
  [{ name := "net".toList, host := "irc".toList, password := some "key\r\nQUIT".toList,
     nicks := ["bot".toList, "other".toList] }]

/-- A connection that has taken another nick is reset and comes back, while the bus still has the
events of before; a handler then sends something for one of them. -/
def returning : List (Step Unit Unit Unit) :=
  [.order 0 (.connect (.ok {})), .order 0 (.nick "other".toList),
    .pollSockets { ready := [{ handle := 0, error := true }] },
    .useBus fun bus => { bus with
      registry := bus.registry.register "disconnected".toList
        { handler := (), context := none, owner := [] } },
    .order 0 (.connect (.ok {})),
    .pollBus (fun _ _ _ => do
      let _ ← Act.order 0 (.raw "AWAY".toList)
      pure ()) 1]

theorem run_opens_with_handshake_returning :
    let b : Bot Unit Unit Unit := { net := .ofNetworks withPassword }
    ((["PASS key", "NICK bot", "USER prebot * * :Prebot IRC Bot"].map fun line =>
        frame line.toList) <+: b.enqueued 1 returning) ∧
      (b.run returning).order 0 (.connect (.ok {})) = (.ok (), b.run returning) := by
  obtain ⟨hopened, hagain⟩ := run_opens_with_handshake (μ := Unit) (γ := Unit) {} withPassword
    returning 0 _ rfl
  refine ⟨hopened 1 (by decide +kernel), ?_⟩
  have honline : ((({ net := .ofNetworks withPassword } : Bot Unit Unit Unit).run
      returning).connection? 0).any (·.session.phase ≠ .disconnected) = true := by decide +kernel
  obtain ⟨c, hc, hphase⟩ := (Option.any_eq_true _ _).1 honline
  exact hagain c (.ok {}) hc (of_decide_eq_true hphase)

example : ({ net := .ofNetworks withPassword } : Bot Unit Unit Unit).enqueued 1 returning =
    ["PASS key", "NICK bot", "USER prebot * * :Prebot IRC Bot", "AWAY"].map fun line =>
      frame line.toList := by
  decide +kernel

end IrcBot.Bot
