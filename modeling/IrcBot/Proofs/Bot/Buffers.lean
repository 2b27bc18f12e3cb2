/-
What becomes of the bytes that sockets have received. Only a pass takes any out of a
socket: orders, closing and handlers on the bus leave every reader as it is, and let
nobody hear a line. So all line buffers of a bot are sound after any run, and have the
limit that new ones have.
-/
import IrcBot.Proofs.Bot.Runs
import IrcBot.Proofs.Bot.Talk
import IrcBot.Proofs.Pool.Lives
import IrcBot.Proofs.Stream.Draining

namespace IrcBot

open LineBuffer (Scanned)

/-! ## What is queued -/

namespace Circuit

variable {κ : Type} {c : Circuit κ} {h h' : Handle}

theorem nextHandle_queuedAll (lines : List Text) :
    (c.queuedAll h lines).pool.nextHandle = c.pool.nextHandle := by
  induction lines generalizing c with
  | nil => rfl
  | cons line lines ih =>
    rw [queuedAll_cons, ih]
    simp only [queued, Pool.enqueue, Pool.withSocket]
    split <;> rfl

/-- What is queued for a socket changes no reader. -/
theorem reader_queuedAll {s s' : Socket κ} (hs : c.pool.socket? h = some s) {lines : List Text}
    (hs' : (c.queuedAll h lines).pool.socket? h' = some s') :
    ∃ s, c.pool.socket? h' = some s ∧ s'.reader = s.reader := by
  by_cases he : h = h'
  · subst he
    rw [socket?_queuedAll hs] at hs'
    cases hs'
    exact ⟨s, hs, rfl⟩
  · rw [socket?_queuedAll_other he hs] at hs'
    exact ⟨s', hs', rfl⟩

end Circuit

namespace Bot

variable {registered i : Nat} {h : Handle} {n n' n'' : Net} {es es' : List Entry} {c : Connection}

namespace Net

/-- Nobody has heard a line, and nothing has been taken out of any socket; new sockets have
received nothing. -/
structure Still (n : Net) (es : List Entry) (n' : Net) : Prop where
  unheard : ∀ i line, .triggered (.occurred i (.rawLineReceived line)) ∉ es
  next : n.pool.nextHandle ≤ n'.pool.nextHandle
  reader : ∀ h s', n'.pool.socket? h = some s' →
    (∃ s, n.pool.socket? h = some s ∧ s'.reader = s.reader) ∨
      n.pool.nextHandle ≤ h ∧ s'.reader.buffer = {}

theorem Still.refl : Still n [] n := ⟨by simp, Nat.le_refl _, fun _ s' hs' => .inl ⟨s', hs', rfl⟩⟩

theorem Still.trans (hs : Still n es n') (hs' : Still n' es' n'') : Still n (es ++ es') n'' := by
  refine ⟨fun i line => List.not_mem_append (hs.unheard i line) (hs'.unheard i line),
    hs.next.trans hs'.next, fun h s' hsocket => ?_⟩
  rcases hs'.reader h s' hsocket with ⟨s, hsocket, hreader⟩ | ⟨hle, hbuffer⟩
  · rw [hreader]
    exact hs.reader h s hsocket
  · exact .inr ⟨hs.next.trans hle, hbuffer⟩

/-- What tells of no line received has no line for a connection. -/
theorem Still.received_account (hs : Still n es n') (i : Nat) : received (account i es) = [] := by
  refine List.filterMap_eq_nil_iff.2 fun m hm => ?_
  obtain ⟨e, he, hmoment⟩ := List.mem_filterMap.1 hm
  cases e with
  | attached j h => simp only [moment?] at hmoment; split at hmoment <;> cases hmoment; rfl
  | triggered event =>
    cases event with
    | module => cases hmoment
    | occurred j what =>
      simp only [moment?] at hmoment
      split at hmoment <;> cases hmoment
      cases what with
      | rawLineReceived line => exact absurd he (hs.unheard j line)
      | _ => rfl

/-- A socket that was in use before has the reader it had. -/
theorem Still.kept (hs : Still n es n') (hn : n.Sound) (hi : n.socketOf i = some h)
    {s' : Socket Role} (hs' : n'.pool.socket? h = some s') :
    ∃ s, n.pool.socket? h = some s ∧ s'.reader = s.reader := by
  refine (hs.reader h s' hs').resolve_right fun hnew => ?_
  obtain ⟨s, hsocket, -⟩ := hn.pooled i h hi
  exact absurd (hn.fresh h s hsocket) (Nat.not_lt.2 hnew.1)

/-! ## Orders -/

theorem unheard_said (j : Nat) (lines : List Text) (i : Nat) (line : Text) :
    .triggered (.occurred i (.rawLineReceived line)) ∉
      lines.map fun line => Entry.triggered (.occurred j (.rawLineSent line)) := by
  simp

theorem still_order_speaks (hn : n.Sound) {o : Circuit.Order} (ho : o.speaks = true) :
    Still n (entries i n (n.order i o).2) (n.order i o).2.1 := by
  cases hc : n.connections.get? i with
  | none =>
    have hmissing : n.order i o = (.error .notConnected, n, []) := by
      simp only [order, withConnection, hc]
    rw [hmissing, entries, gained_same rfl]
    exact .refl
  | some c =>
    cases hsocket : c.session.socket with
    | none =>
      rw [order_offline hc hsocket ho, entries, gained_same rfl]
      exact .refl
    | some h =>
      have hi : n.socketOf i = some h := (socketOf_eq hc).trans hsocket
      obtain ⟨s, hs, -⟩ := hn.pooled i h hi
      have hcircuit : (n.circuit c).pool.socket? h = some s := hs
      rw [order_online hc ⟨hsocket, s, hs⟩ ho, entries, gained_same, List.nil_append,
        List.map_map, Function.comp_def]
      · have hnext := Circuit.nextHandle_queuedAll (c := n.circuit c) (h := h)
          (o.lines c.session.tracker)
        exact ⟨unheard_said i _, Nat.le_of_eq hnext.symm,
          fun h' s' hs' => .inl (Circuit.reader_queuedAll hcircuit hs')⟩
      · rw [socketOf_insert, if_pos rfl, hi]
        exact (settle_socket _ _).trans hsocket

theorem still_order_connect (hn : n.Sound) (dialled : Except Refusal Stream) :
    Still n (entries i n (n.order i (.connect dialled)).2) (n.order i (.connect dialled)).2.1 := by
  rcases n.order_connect_cases i dialled with hidle | ⟨c, stream, hc, hphase, rfl⟩
  · rw [hidle, entries, gained_same rfl]
    exact .refl
  obtain ⟨s, hs⟩ := (online_opened (n := n) (i := i) (c := c) stream).pooled
  rw [entries_connect hn hc hphase, order_connect_ok hc hphase]
  refine ⟨fun j line hmem => ?_, ?_, fun h s' hs' => ?_⟩
  · rcases List.mem_cons.1 hmem with he | hmem
    · cases he
    · exact unheard_said i _ j line hmem
  · have hnext := Circuit.nextHandle_queuedAll (c := n.opened i c stream) (h := n.pool.nextHandle)
      ((Connection.handshake c.settings).map Circuit.sentAs)
    exact (Nat.le_succ _).trans (Nat.le_of_eq hnext.symm)
  · obtain ⟨t, ht, hreader⟩ := Circuit.reader_queuedAll hs hs'
    have hadded : (if n.pool.nextHandle = h then some (.ofStream stream (callbacks i))
        else n.pool.socket? h) = some t := (Table.get?_insert ..).symm.trans ht
    split at hadded
    · next he =>
      cases hadded
      exact .inr ⟨Nat.le_of_eq he, by rw [hreader]; rfl⟩
    · exact .inl ⟨t, hadded, hreader⟩

theorem still_order (hn : n.Sound) (o : Circuit.Order) :
    Still n (entries i n (n.order i o).2) (n.order i o).2.1 := by
  by_cases ho : o.speaks = true
  · exact still_order_speaks hn ho
  · cases o with
    | connect dialled => exact still_order_connect hn dialled
    | _ => exact absurd rfl ho

theorem still_close : Still n (entries i n (n.close i).2) (n.close i).2.1 := by
  cases hi : n.socketOf i with
  | none =>
    rw [close_offline hi, entries, gained_same rfl]
    exact .refl
  | some h =>
    obtain ⟨c, hc, hsocket⟩ := Option.bind_eq_some_iff.1 hi
    rw [entries_close hc hsocket, close_online hc hsocket]
    refine ⟨by simp, Nat.le_refl _, fun h' s' hs' => .inl ⟨s', ?_, rfl⟩⟩
    by_cases he : h = h'
    · subst he
      rw [Pool.socket?_close_self] at hs'
      cases hs'
    · rwa [Pool.socket?_close_other he] at hs'

end Net

/-! ## Steps -/

variable {μ κ γ ν : Type} [DecidableEq κ] {b : Bot μ κ γ}

/-- Handlers on the bus take nothing out of any socket. -/
theorem still_pollBus (hn : b.net.Sound)
    (handle : κ → Option γ → Event → Bus.Handler κ γ Event (calls ν)) (depth : Nat) :
    b.net.Still (b.entries (.pollBus handle depth)) (b.step (.pollBus handle depth)).net := by
  let conduct : Bus.Conduct κ γ Event (World ν) (calls ν) := ⟨Event.name, handle, perform⟩
  have hkept := Bus.poll_keeps (c := conduct.observed callEntries)
    (P := fun w => b.net.Moves b.settings.registeredNumeric w.2 w.1.net ∧
      b.net.Still w.2 w.1.net) (fun q w hw => ?_) depth
    { bus := b.bus, world := ({ net := b.net }, []) } ⟨.refl b.net, .refl⟩
  · have hsame := (Bus.poll_observed conduct callEntries depth
      { bus := b.bus, world := ({ net := b.net }, []) }).2
    have hnet := congrArg (fun r => r.world.net) hsame
    simp only [Bus.Run.forget] at hnet
    simp only [step, pollBus, entries]
    rw [← hnet]
    exact hkept.2
  · refine ⟨moves_perform hn q w.1 w.2 hw.1, ?_⟩
    cases q with
    | order i o => exact hw.2.trans (Net.still_order (hw.1.sound hn) o)
    | close i => exact hw.2.trans Net.still_close
    | look i | tell news =>
      show b.net.Still (w.2 ++ []) w.1.net
      rw [List.append_nil]
      exact hw.2

/-- **Only passes take anything out of sockets**, and only the network puts anything in. -/
theorem still_step (hn : b.net.Sound) (s : Step κ γ ν)
    (hpass : ∀ report, s ≠ .pollSockets report) (hdisturb : ∀ h f, s ≠ .disturb h f) :
    b.net.Still (b.entries s) (b.step s).net := by
  cases s with
  | order i o => exact Net.still_order hn o
  | close i => exact Net.still_close
  | pollBus handle depth => exact still_pollBus hn handle depth
  | useBus f => exact .refl
  | pollSockets report => exact absurd rfl (hpass report)
  | disturb h f => exact absurd rfl (hdisturb h f)

/-! ## Sound buffers -/

/-- The buffer knows where it has searched, and has the limit that new ones have. -/
def Sane (buffer : LineBuffer) : Prop := buffer.Scanned ∧ buffer.limit = 8191

theorem sane_empty : Sane {} := ⟨LineBuffer.scanned_fresh [] 8191, rfl⟩

/-- All buffers of the pool are sane. -/
def Net.Sane (n : Net) : Prop := ∀ h s, n.pool.socket? h = some s → Bot.Sane s.reader.buffer

theorem sane_turn {κ : Type} {s s' : Socket κ} {deeds : List Pool.Deed}
    (ht : Pool.Turn s deeds s') (hs : Sane s.reader.buffer) : Sane s'.reader.buffer := by
  cases ht with
  | update | unblock | arrive | prepare | queue | count => exact hs
  | flush blocked => exact (Socket.reader_flush { s with blocked }).symm ▸ hs
  | read =>
    obtain ⟨-, -, hscanned, hlimit, -⟩ := Reader.next_answers hs.1
    exact ⟨hscanned, hlimit.trans hs.2⟩
  | drain =>
    obtain ⟨hscanned, hlimit⟩ := Reader.drain_scanned hs.1
    exact ⟨hscanned, hlimit.trans hs.2⟩

theorem sane_life {κ : Type} {start last : Option (Socket κ)} {deeds : List Pool.Deed}
    (hl : Pool.Life start deeds last) (hstart : ∀ s, start = some s → Sane s.reader.buffer) :
    ∀ s, last = some s → Sane s.reader.buffer := by
  induction hl with
  | same => exact hstart
  | turn _ hturn ih =>
    rintro _ ⟨⟩
    exact sane_turn hturn (ih _ rfl)
  | @clear _ s _ _ ih =>
    rintro _ ⟨⟩
    exact ih s rfl
  | leave => simp

theorem Net.Still.sane (hs : Still n es n') (hn : n.Sane) : n'.Sane := by
  intro h s' hs'
  rcases hs.reader h s' hs' with ⟨s, hsocket, hreader⟩ | ⟨-, hbuffer⟩
  · rw [hreader]
    exact hn h s hsocket
  · rw [hbuffer]
    exact sane_empty

theorem sane_pollSockets (hb : b.net.Sane) (report : Pool.Report) :
    (b.step (.pollSockets report : Step κ γ ν)).net.Sane := by
  let a : Pool.Audit Role Desk :=
    { run := { pool := b.net.pool, world := { connections := b.net.connections } } }
  have hsince := (Pool.Audit.Since.refl a).poll (c := conduct b.settings.registeredNumeric) report
  have hrun := Pool.Audit.poll_run (conduct b.settings.registeredNumeric) report a
  intro h s hs
  obtain ⟨deeds, -, hlife⟩ := hsince.life h
  simp only [Pool.Audit.socket?, hrun] at hlife
  exact sane_life hlife (hb h) s hs

theorem sane_disturb (hb : b.net.Sane) (h : Handle) (f : Stream → Stream) :
    (b.step (.disturb h f : Step κ γ ν)).net.Sane := by
  intro h' s' hs'
  simp only [step, Pool.adjustStream] at hs'
  split at hs'
  · exact hb h' s' hs'
  · next s hs =>
    by_cases he : h = h'
    · subst he
      rw [Pool.socket?_set_self] at hs'
      cases hs'
      exact hb h s hs
    · rw [Pool.socket?_set_other he] at hs'
      exact hb h' s' hs'

theorem sane_step (hn : b.net.Sound) (hb : b.net.Sane) (s : Step κ γ ν) : (b.step s).net.Sane := by
  by_cases hpass : ∃ report, s = .pollSockets report
  · obtain ⟨report, rfl⟩ := hpass
    exact sane_pollSockets hb report
  by_cases hdisturb : ∃ h f, s = .disturb h f
  · obtain ⟨h, f, rfl⟩ := hdisturb
    exact sane_disturb hb h f
  simp only [not_exists] at hpass hdisturb
  exact (still_step hn s hpass hdisturb).sane hb

/-- **All line buffers are sane after any run** of a bot whose connections were new. -/
theorem sane_run (b : Bot μ κ γ) (networks : List Config.Network) (steps : List (Step κ γ ν)) :
    ({ b with net := .ofNetworks networks }.run steps).net.Sane := by
  have hall (b : Bot μ κ γ) (hn : b.net.Sound) (hb : b.net.Sane) : (b.run steps).net.Sane := by
    induction steps generalizing b with
    | nil => exact hb
    | cons s steps ih => exact ih _ ((moves_step hn s).sound hn) (sane_step hn hb s)
  refine hall _ (Net.sound_ofNetworks networks) fun h s hs => ?_
  cases hs

end Bot

end IrcBot
