/-
What a pass hands on of a stream. While the socket of a connection reports no error and no
write to it fails, a pass does one thing with what it has received: the connection hears the
next lines of it, in order. If it loses the socket in such a pass, it has heard all lines
before, for then the stream was read to its end.
-/
import IrcBot.Proofs.Bot.Buffers
import IrcBot.Proofs.Bot.Losing

namespace IrcBot.Bot

open Pool (Audit)
open Pool.Audit (Since FailedSince)

/-- A connection that has been told the first lines of a stream; the others are still to come
from its socket. The lines of the stream depend on what is still to arrive. -/
structure Due (i : Nat) (h : Handle) (lines : List Bytes → List Text) (ms : List Moment) (n : Net)
    (s : Socket Role) : Prop where
  current : n.socketOf i = some h
  pooled : n.pool.socket? h = some s
  hung : s.callbacks = callbacks i
  orderly : s.reader.source.Orderly
  undisturbed : .occurred .disconnected ∉ ms
  rest : ∀ more, lines more = received ms ++ s.reader.toCome more

/-- A connection that has been told all lines of a stream, and then that it is disconnected. -/
structure Ended (i : Nat) (lines : List Bytes → List Text) (ms : List Moment) (n : Net) :
    Prop where
  lost : n.socketOf i = none
  heard : ∃ said, ms = said ++ [.occurred .disconnected] ∧ .occurred .disconnected ∉ said ∧
    received said = lines []

/-- A connection goes on with a stream, or has come to its end. -/
def OnCourse (i : Nat) (h : Handle) (lines : List Bytes → List Text) (ms : List Moment)
    (n : Net) : Prop := (∃ s, Due i h lines ms n s) ∨ Ended i lines ms n

variable {registered i : Nat} {h h' : Handle} {lines : List Bytes → List Text}
  {ms before : List Moment} {n n' : Net} {es : List Entry} {s s' : Socket Role}
  {r r' : Pool.Run Role Desk}

/-! ## Callbacks -/

theorem Due.open (hd : Due i h lines ms (netOf r) s) : Open i h s r :=
  ⟨hd.current, hd.pooled, hd.hung⟩

theorem Due.spared (hd : Due i h lines (before ++ told i r) (netOf r) s) (hr : Spares i h r r') :
    Due i h lines (before ++ told i r') (netOf r') s := by
  obtain ⟨hconnection, hpooled, htold⟩ := hr hd.current
  rw [htold]
  exact ⟨(socketOf_netOf hconnection).trans hd.current, hpooled.trans hd.pooled, hd.hung,
    hd.orderly, hd.undisturbed, hd.rest⟩

/-- What leaves the reader of the socket alone leaves all as it is. -/
theorem Due.set (hd : Due i h lines (before ++ told i r) (netOf r) s)
    (hcallbacks : s'.callbacks = s.callbacks) (hreader : s'.reader = s.reader) :
    Due i h lines (before ++ told i { r with pool := r.pool.set h s' })
      (netOf { r with pool := r.pool.set h s' }) s' :=
  ⟨hd.current, Pool.socket?_set_self, hcallbacks.trans hd.hung, hreader ▸ hd.orderly,
    hd.undisturbed, hreader ▸ hd.rest⟩

theorem Ended.goes (he : Ended i lines (before ++ told i r) (netOf r))
    (hr : Goes registered r r') : Ended i lines (before ++ told i r') (netOf r') := by
  rw [hr.told_lost he.lost]
  exact ⟨hr.lost he.lost, he.heard⟩

/-- A connection that hears lines is told that it has received them, one after the other. -/
theorem told_hearAll (registered : Nat) (hi : (netOf r).socketOf i = some h)
    (heard : List Text) :
    ∃ said, told i { r with world := heard.foldl (Desk.hear registered i) r.world } =
        told i r ++ said ∧
      received said = heard ∧ .occurred .disconnected ∉ said := by
  induction heard generalizing r with
  | nil => exact ⟨[], (List.append_nil _).symm, rfl, List.not_mem_nil⟩
  | cons line heard ih =>
    obtain ⟨c, hc, hsocket⟩ := Option.bind_eq_some_iff.1 hi
    obtain ⟨hreceived, hfine⟩ := received_handleLine c.session registered line
    have hworld := hear_eq registered line hc
    have hfirst : told i { r with world := r.world.hear registered i line } =
        told i r ++ (c.session.handleLine registered line).2.map .occurred := by
      rw [told_of_events (congrArg Desk.events hworld), List.map_map]
      exact congrArg _ (account_occurred_self _)
    obtain ⟨said, htold, hsaid, hsaidfine⟩ := ih (socketOf_hear registered hi line)
    refine ⟨(c.session.handleLine registered line).2.map .occurred ++ said, ?_, ?_,
      List.not_mem_append hfine hsaidfine⟩
    · rw [List.foldl_cons, htold, hfirst, List.append_assoc]
    · rw [received_append, hreceived, hsaid]
      rfl

theorem Due.hear (registered : Nat) (hd : Due i h lines (before ++ told i r) (netOf r) s) :
    Due i h lines (before ++ told i (heardAll registered r i h))
      (netOf (heardAll registered r i h)) { s with reader := s.reader.drain.2.2 } := by
  have hopen : Open i h _ (heardAll registered r i h) := hd.open.heardAll
  have hdrained : (r.pool.drain h).1.1 = s.reader.drain.1 := by
    simp only [Pool.drain, hd.open.pooled]
  obtain ⟨said, htold, hsaid, hfine⟩ := told_hearAll registered
    (r := { r with pool := (r.pool.drain h).2 }.note (.read h (r.pool.drain h).1.1)) hd.current
    (r.pool.drain h).1.1
  have htold : told i (heardAll registered r i h) = told i r ++ said := htold
  rw [htold, ← List.append_assoc]
  refine ⟨hopen.current, hopen.pooled, hopen.hung, (Reader.drain_orderly hd.orderly).1,
    List.not_mem_append hd.undisturbed hfine, fun more => ?_⟩
  rw [received_append, hsaid, hdrained, hd.rest, Reader.toCome_drain, List.append_assoc]

/-- A socket is given up when nothing of its stream is to come any more. -/
theorem Due.lose (registered : Nat) (hd : Due i h lines (before ++ told i r) (netOf r) s)
    (hspent : s.reader.toCome [] = []) :
    Ended i lines (before ++ told i ((loseSocket i h).run (Pool.serve (conduct registered)) r).2)
      (netOf ((loseSocket i h).run (Pool.serve (conduct registered)) r).2) := by
  refine ⟨hd.open.lost_loseSocket, before ++ told i r, ?_, hd.undisturbed, ?_⟩
  · obtain ⟨c, hc, hsocket⟩ := Option.bind_eq_some_iff.1 hd.current
    rw [run_loseSocket_current hc hsocket, told_of_events (r := r) rfl, List.append_assoc]
    exact congrArg _ (congrArg _ (account_occurred .disconnected))
  · rw [hd.rest, hspent, List.append_nil]

theorem Due.readSocket (registered : Nat) (hd : Due i h lines (before ++ told i r) (netOf r) s) :
    OnCourse i h lines
      (before ++ told i ((readSocket i h).run (Pool.serve (conduct registered)) r).2)
      (netOf ((readSocket i h).run (Pool.serve (conduct registered)) r).2) := by
  rw [run_readSocket_current hd.current, isSome_drain hd.open]
  split
  · next hstop =>
    exact .inr ((hd.hear registered).lose registered ((Reader.drain_orderly hd.orderly).2 hstop))
  · exact .inl ⟨_, hd.hear registered⟩

/-- A callback that does not tell of trouble keeps the connection on its course. -/
theorem OnCourse.dispatch (hon : OnCourse i h lines (before ++ told i r) (netOf r))
    (h' : Handle) (occasion : Occasion) (hfine : h' = h → occasion ≠ .other) :
    OnCourse i h lines (before ++ told i (Pool.dispatch (conduct registered) r h' occasion))
      (netOf (Pool.dispatch (conduct registered) r h' occasion)) := by
  rcases hon with ⟨s, hd⟩ | he
  case inr => exact .inr (he.goes (goes_dispatch occasion))
  by_cases hh : h' = h
  case neg => exact .inl ⟨s, hd.spared (spares_dispatch hh occasion)⟩
  subst hh
  cases occasion with
  | other => exact absurd rfl (hfine rfl)
  | writable =>
    rw [hd.open.dispatch_writable]
    exact .inl ⟨s, hd⟩
  | readable =>
    have hcallback : s.callbacks.on .readable = some (.reader i) := by rw [hd.hung]; rfl
    have hcalled : Due i h' lines _ (netOf (r.note (.called h' .readable))) s :=
      hd.spared (spares_pool rfl)
    simp only [Pool.dispatch, hd.open.pooled, hcallback]
    exact hcalled.readSocket registered

/-! ## A pass -/

/-- In a pass that has come so far, a write to the socket has failed, or the connection is on its
course. -/
def Passing (a₀ : Audit Role Desk) (i : Nat) (h : Handle) (lines : List Bytes → List Text)
    (before : List Moment) (a : Audit Role Desk) : Prop :=
  Since a₀ a ∧ (FailedSince a₀ a h ∨ OnCourse i h lines (before ++ told i a.run) (netOf a.run))

variable {a a' a₀ : Audit Role Desk}

theorem Passing.dispatch (hp : Passing a₀ i h lines before a) (h' : Handle) (occasion : Occasion)
    (hfine : h' = h → occasion ≠ .other) :
    Passing a₀ i h lines before (Audit.dispatch (conduct registered) a h' occasion) := by
  obtain ⟨hs, hcourse⟩ := hp
  refine ⟨hs.dispatch h' occasion, hcourse.imp (·.mono ((Since.refl a).dispatch h' occasion).grows)
    fun hon => ?_⟩
  rw [Audit.dispatch_run]
  exact hon.dispatch h' occasion hfine

/-- A flush changes the queue of the socket, not what it is to receive, unless writing fails. -/
theorem Due.flush (hs : Since a₀ a) (hd : Due i h lines (before ++ told i a.run) (netOf a.run) s) :
    FailedSince a₀ (Audit.flush (conduct registered) a h).2 h ∨
      OnCourse i h lines (before ++ told i (Audit.flush (conduct registered) a h).2.run)
        (netOf (Audit.flush (conduct registered) a h).2.run) := by
  have hpooled : a.socket? h = some s := hd.pooled
  simp only [Audit.flush, hpooled]
  split
  · exact .inr (.inl ⟨_, hd.set rfl rfl⟩)
  · split
    · exact .inr (.inl ⟨_, hd.set (Socket.callbacks_flush { s with blocked := false })
        (Socket.reader_flush { s with blocked := false })⟩)
    · next e hfailed =>
      exact .inl ((FailedSince.of_flush (s := { s with blocked := false }) hs hfailed).mono
        (Pool.Audit.grows_writeFailed _ h))

theorem Passing.flush (hp : Passing a₀ i h lines before a) (h' : Handle) :
    Passing a₀ i h lines before (Audit.flush (conduct registered) a h').2 := by
  obtain ⟨hs, hcourse⟩ := hp
  refine ⟨hs.flush h', ?_⟩
  rcases hcourse with hfailed | ⟨s, hd⟩ | he
  · exact .inl (hfailed.mono ((Since.refl a).flush h').grows)
  · by_cases hh : h' = h
    · subst hh
      exact hd.flush hs
    · rw [(Audit.flush_run _ a h').2]
      exact .inr (.inl ⟨s, hd.spared (spares_flush hh)⟩)
  · rw [(Audit.flush_run _ a h').2]
    exact .inr (.inr (he.goes goes_flush))

/-- A flush that leaves the failure for later changes only the queue, whether it fails or not. -/
theorem Passing.flushQueued {acc : List Handle × Audit Role Desk}
    (hp : Passing a₀ i h lines before acc.2) (h' : Handle) :
    Passing a₀ i h lines before (Audit.flushQueued acc h').2 := by
  rcases Audit.flushQueued_cases acc h' with ⟨hsame, -⟩ | ⟨t, ht, -, hflushed⟩
  · rwa [hsame]
  obtain ⟨hs, hcourse⟩ := hp
  have hgrows := Pool.Audit.grows_put acc.2 h' [Pool.flushing t] t.flush.2
  have hgoes : Goes 0 acc.2.run (acc.2.put h' [Pool.flushing t] t.flush.2).run :=
    goes_pool (.touch (n := netOf acc.2.run) ht (Socket.callbacks_flush t))
  rw [hflushed]
  refine ⟨hs.put ht (.flush t t.blocked), ?_⟩
  rcases hcourse with hfailed | ⟨s, hd⟩ | he
  · exact .inl (hfailed.mono hgrows)
  · by_cases hh : h' = h
    · subst hh
      cases ht.symm.trans hd.pooled
      exact .inr (.inl ⟨_, hd.set (Socket.callbacks_flush t) (Socket.reader_flush t)⟩)
    · exact .inr (.inl ⟨s, hd.spared (spares_pool (Pool.socket?_set_other hh))⟩)
  · exact .inr (.inr (he.goes hgoes))

theorem Passing.flushAll {acc : List Handle × Audit Role Desk}
    (hp : Passing a₀ i h lines before acc.2) (keys : List Handle) :
    Passing a₀ i h lines before (keys.foldl Audit.flushQueued acc).2 := by
  induction keys generalizing acc with
  | nil => exact hp
  | cons h' keys ih => exact ih (hp.flushQueued h')

/-- Only sockets of which a write has failed are told so. -/
theorem Passing.writeFailedAll {failed : List Handle} (hp : Passing a₀ i h lines before a)
    (hall : ∀ h' ∈ failed, FailedSince a₀ a h') :
    Passing a₀ i h lines before (failed.foldl (Audit.writeFailed (conduct registered)) a) := by
  induction failed generalizing a with
  | nil => exact hp
  | cons h' failed ih =>
    obtain ⟨hnow, hrest⟩ := List.forall_mem_cons.1 hall
    have hgrows := Pool.Audit.grows_writeFailed (c := conduct registered) a h'
    refine ih ⟨hp.1.writeFailed hnow, ?_⟩ fun h'' hmem => (hrest h'' hmem).mono hgrows
    rcases hp.2 with hfailed | ⟨s, hd⟩ | he
    · exact .inl (hfailed.mono hgrows)
    · by_cases hh : h' = h
      · subst hh
        exact .inl (hnow.mono hgrows)
      · rw [Audit.writeFailed_run]
        exact .inr (.inl ⟨s, hd.spared (spares_writeFailed hh)⟩)
    · rw [Audit.writeFailed_run]
      exact .inr (.inr (he.goes goes_writeFailed))

theorem Passing.poll {report : Pool.Report} (hp : Passing a₀ i h lines before a)
    (hfine : ∀ e ∈ report.ready, e.handle = h → e.error = false) :
    Passing a₀ i h lines before (Audit.poll (conduct registered) report a) := by
  have hattended : Passing a₀ i h lines before
      (Audit.attended (conduct registered) report a).2 := by
    refine Audit.attended_keeps hp fun acc e he hacc => Audit.attend_keeps ?_
      (fun _ hp => hp.flush e.handle) hacc
    refine fun a occasion htrouble hp => hp.dispatch e.handle occasion fun hh hother => ?_
    exact absurd (htrouble hother) (by simp [hfine e he hh])
  unfold Audit.poll
  generalize Audit.attended (conduct registered) report a = acc at hattended
  obtain ⟨wrote, a'⟩ := acc
  have hbegun : Passing a₀ i h lines before (([] : List Handle), a').2 := hattended
  have hflushed := hbegun.flushAll (report.arrange a'.run.pool.sockets.keys)
  have hfailed := FailedSince.flushAll hbegun.1 (by simp)
    (report.arrange a'.run.pool.sockets.keys)
  exact Audit.callAll_keeps (fun _ h' hp => hp.dispatch h' .writable (by simp))
    (hflushed.writeFailedAll hfailed) _ _

/-! ## Steps -/

variable {μ κ γ ν : Type} [DecidableEq κ] {b : Bot μ κ γ}

/-- The pass over the sockets of a bot, before it begins. -/
def auditOf (b : Bot μ κ γ) : Audit Role Desk where
  run := { pool := b.net.pool, world := { connections := b.net.connections } }

/-- A write to this socket fails in the pass. -/
def FailsWrite (b : Bot μ κ γ) (report : Pool.Report) (h : Handle) : Prop :=
  FailedSince b.auditOf (Audit.poll (conduct b.settings.registeredNumeric) report b.auditOf) h

/-- **A pass hands on what the socket has received, and gives the socket up only at the end of
its stream**, if the socket reports no error and no write to it fails. -/
theorem Due.pollSockets {report : Pool.Report} (hd : Due i h lines ms b.net s)
    (hfine : ∀ e ∈ report.ready, e.handle = h → e.error = false)
    (hwritten : ¬ FailsWrite b report h) :
    OnCourse i h lines (ms ++ account i (b.entries (.pollSockets report : Step κ γ ν)))
      (b.step (.pollSockets report : Step κ γ ν)).net := by
  have hbegun : OnCourse i h lines (ms ++ told i b.auditOf.run) (netOf b.auditOf.run) := by
    refine .inl ⟨s, ?_⟩
    rw [show told i b.auditOf.run = [] from rfl, List.append_nil]
    exact hd
  have hpassing : Passing b.auditOf i h lines ms
      (Audit.poll (conduct b.settings.registeredNumeric) report b.auditOf) :=
    Passing.poll ⟨.refl _, .inr hbegun⟩ hfine
  obtain ⟨-, hcourse⟩ := hpassing
  have hon := hcourse.resolve_left hwritten
  rwa [Audit.poll_run] at hon

/-- What takes nothing out of any socket, and does not disconnect the connection, leaves it on its
course. -/
theorem Due.still (hd : Due i h lines ms n s) (hn : n.Sound) (hm : n.Moves registered es n')
    (hs : n.Still es n') (hfine : .occurred .disconnected ∉ account i es) :
    ∃ s', Due i h lines (ms ++ account i es) n' s' := by
  have hi := hm.socketOf_undisturbed hn hd.current hfine
  obtain ⟨s', hpooled, hhung⟩ := (hm.sound hn).pooled i h hi
  obtain ⟨t, ht, hreader⟩ := hs.kept hn hd.current hpooled
  cases ht.symm.trans hd.pooled
  refine ⟨s', hi, hpooled, hhung, hreader ▸ hd.orderly,
    List.not_mem_append hd.undisturbed hfine, fun more => ?_⟩
  rw [received_append, hs.received_account, List.append_nil, hreader]
  exact hd.rest more

/-- What happens to another stream is nothing to this one. -/
theorem Due.disturb_other (hd : Due i h lines ms b.net s) (hne : h' ≠ h) (f : Stream → Stream) :
    Due i h lines ms (b.step (.disturb h' f : Step κ γ ν)).net s := by
  refine ⟨hd.current, ?_, hd.hung, hd.orderly, hd.undisturbed, hd.rest⟩
  simp only [step, Pool.adjustStream]
  split
  · exact hd.pooled
  · exact (Pool.socket?_set_other hne).trans hd.pooled

/-- What arrives goes on with the stream. -/
theorem Due.arrive {f : Stream → Stream} {arrivals : List Arrival} {ended : Bool}
    (hd : Due i h lines ms b.net s)
    (hf : ∀ stream, (f stream).source = stream.source.extend arrivals ended)
    (harrivals : ∀ a ∈ arrivals, a.Orderly) :
    ∃ s', s'.reader.source = s.reader.source.extend arrivals ended ∧
      Due i h (fun more => lines (arrivals.flatMap Arrival.pieces ++ more)) ms
        (b.step (.disturb h f : Step κ γ ν)).net s' := by
  have hsource : (f s.stream).source = s.reader.source.extend arrivals ended := hf s.stream
  refine ⟨{ s with
      reader := { s.reader with source := s.reader.source.extend arrivals ended }
      sink := (f s.stream).sink },
    rfl, hd.current, ?_, hd.hung, hd.orderly.extend harrivals ended, hd.undisturbed, fun more => ?_⟩
  · simp only [step, Pool.adjustStream, hd.pooled, hsource, Pool.socket?_set_self]
  · exact (hd.rest _).trans (congrArg _ (Reader.toCome_extend ..).symm)

end IrcBot.Bot
