/-
A pass over the sockets, seen from the connections: whatever is reported and in
whatever order the sockets are gone through, the pass is a chain of moves, and
the events on the desk after it are those of the moves.
-/
import IrcBot.Proofs.Bot.Callbacks
import IrcBot.Proofs.Pool.Keeping

namespace IrcBot.Bot

variable {registered i : Nat} {h : Handle} {c : Connection} {r r' r'' : Pool.Run Role Desk}

/-- Part of a pass that is a chain of moves. -/
def Goes (registered : Nat) (r r' : Pool.Run Role Desk) : Prop :=
  ∃ events, r'.world.events = r.world.events ++ events ∧
    Net.Moves registered (netOf r) (events.map .triggered) (netOf r')

theorem Goes.refl : Goes registered r r := ⟨[], by simp, .refl _⟩

theorem Goes.trans (h : Goes registered r r') (h' : Goes registered r' r'') :
    Goes registered r r'' := by
  obtain ⟨events, hevents, hmoves⟩ := h
  obtain ⟨events', hevents', hmoves'⟩ := h'
  refine ⟨events ++ events', ?_, ?_⟩
  · rw [hevents', hevents, List.append_assoc]
  · rw [List.map_append]
    exact hmoves.trans hmoves'

/-- A move of the pool alone triggers nothing. -/
theorem goes_pool {pool : Pool Role} {notes : Array Pool.Note}
    (h : Net.Move registered (netOf r) [] { netOf r with pool := pool }) :
    Goes registered r { r with pool := pool, notes := notes } :=
  ⟨[], by simp, h.moves⟩

theorem goes_note {note : Pool.Note} : Goes registered r (r.note note) :=
  ⟨[], by simp [Pool.Run.note], .refl _⟩

/-! ## Callbacks -/

theorem goes_loseSocket :
    Goes registered r ((loseSocket i h).run (Pool.serve (conduct registered)) r).2 := by
  by_cases hcurrent : (netOf r).socketOf i = some h
  · obtain ⟨c, hc, hsocket⟩ := Option.bind_eq_some_iff.1 hcurrent
    rw [run_loseSocket_current hc hsocket]
    exact ⟨[.occurred i .disconnected], rfl, (Net.Move.lose hc hsocket).moves⟩
  · rw [run_loseSocket_stale hcurrent]
    exact .refl

theorem hear_eq (registered : Nat) (line : Text) {d : Desk}
    (hc : d.connections.get? i = some c) :
    d.hear registered i line = {
      connections := d.connections.insert i
        { c with session := (c.session.handleLine registered line).1 }
      events := d.events ++
        (c.session.handleLine registered line).2.map (.occurred i) } := by
  simp only [Desk.hear, takeTurn, hc]

theorem socketOf_hear (registered : Nat) (hi : (netOf r).socketOf i = some h) (line : Text) :
    (netOf { r with world := r.world.hear registered i line }).socketOf i = some h := by
  obtain ⟨c, hc, hsocket⟩ := Option.bind_eq_some_iff.1 hi
  rw [hear_eq registered line hc]
  refine (Net.socketOf_insert (n := netOf r)).trans ?_
  rw [if_pos rfl]
  exact Session.socket_handleLine.trans hsocket

/-- A connection that hears lines keeps its socket meanwhile. -/
theorem goes_hearAll (hcurrent : (netOf r).socketOf i = some h) (lines : List Text) :
    Goes registered r { r with world := lines.foldl (Desk.hear registered i) r.world } := by
  induction lines generalizing r with
  | nil => exact .refl
  | cons line lines ih =>
    obtain ⟨c, hc, hsocket⟩ := Option.bind_eq_some_iff.1 hcurrent
    have hheard := hear_eq registered line hc
    have hfirst : Goes registered r { r with world := r.world.hear registered i line } := by
      refine ⟨(c.session.handleLine registered line).2.map (.occurred i), by rw [hheard], ?_⟩
      have hmove : Net.Moves registered (netOf r) _ _ := (Net.Move.hear line hc hsocket).moves
      rw [List.map_map, Function.comp_def]
      simpa only [netOf, hheard] using hmove
    exact hfirst.trans (ih (socketOf_hear registered hcurrent line))

theorem goes_drain :
    Goes registered r
      ({ r with pool := (r.pool.drain h).2 }.note (.read h (r.pool.drain h).1.1)) := by
  have hdrained : Goes registered r { r with pool := (r.pool.drain h).2 } := by
    unfold Pool.drain
    split
    · exact .refl
    · next s hs => exact goes_pool (.touch (n := netOf r) hs rfl)
  exact hdrained.trans goes_note

theorem goes_readSocket :
    Goes registered r ((readSocket i h).run (Pool.serve (conduct registered)) r).2 := by
  by_cases hcurrent : (netOf r).socketOf i = some h
  · have hheard : Goes registered r (heardAll registered r i h) :=
      goes_drain.trans (goes_hearAll (r := { r with pool := (r.pool.drain h).2 }.note _) hcurrent _)
    rw [run_readSocket_current hcurrent]
    split
    · exact hheard.trans goes_loseSocket
    · exact hheard
  · rw [run_readSocket_stale hcurrent]
    exact .refl

theorem goes_behave (role : Role) :
    Goes registered r ((behave role h).run (Pool.serve (conduct registered)) r).2 := by
  cases role with
  | reader i => exact goes_readSocket
  | closer i => exact goes_loseSocket

theorem goes_dispatch (occasion : Occasion) :
    Goes registered r (Pool.dispatch (conduct registered) r h occasion) := by
  unfold Pool.dispatch
  split
  · exact .refl
  · next s hs =>
    split
    · next role _ => exact (goes_note.trans (goes_behave role)).trans goes_note
    · next hnone =>
      split
      · next hother =>
        rw [hother] at hnone
        exact goes_pool (.drop (n := netOf r) hs hnone)
      · exact .refl

/-! ## The pass -/

theorem kept_goes (registered : Nat) (r : Pool.Run Role Desk) :
    Pool.Kept (conduct registered) (Goes registered r) where
  dispatch _ _ occasion hr := hr.trans (goes_dispatch occasion)
  set r' _ _ _ hs _ hcallbacks hr := hr.trans (goes_pool (.touch (n := netOf r') hs hcallbacks))

theorem goes_writeFailed : Goes registered r (Pool.writeFailed (conduct registered) r h) :=
  (kept_goes registered r).writeFailed h .refl

theorem goes_flush : Goes registered r (Pool.flush (conduct registered) r h).2 :=
  (kept_goes registered r).flush h .refl

theorem goes_attend (acc : List Handle × Pool.Run Role Desk) (ready : Pool.Readiness) :
    Goes registered acc.2 (Pool.attend (conduct registered) acc ready).2 :=
  (kept_goes registered acc.2).attend acc ready .refl

theorem goes_attendAll (ready : List Pool.Readiness) (acc : List Handle × Pool.Run Role Desk) :
    Goes registered acc.2 (ready.foldl (Pool.attend (conduct registered)) acc).2 :=
  (kept_goes registered acc.2).attendAll ready .refl

/-- What is left of a pass once all that is ready has been seen to. -/
def windUp (registered : Nat) (report : Pool.Report)
    (acc : List Handle × Pool.Run Role Desk) : Pool.Run Role Desk :=
  let flushed := (report.arrange acc.2.pool.sockets.keys).foldl Pool.flushQueued ([], acc.2.pool)
  let r := flushed.1.foldl (Pool.writeFailed (conduct registered)) { acc.2 with pool := flushed.2 }
  (report.arrange r.pool.wantingWriting).foldl
    (fun r h =>
      if acc.1.contains h then r else Pool.dispatch (conduct registered) r h .writable) r

theorem poll_eq (report : Pool.Report) :
    Pool.poll (conduct registered) report r =
      windUp registered report (report.ready.foldl (Pool.attend (conduct registered)) ([], r)) :=
  rfl

theorem goes_failed (failed : List Handle) :
    Goes registered r (failed.foldl (Pool.writeFailed (conduct registered)) r) :=
  (kept_goes registered r).writeFailedAll failed .refl

theorem goes_called (wrote handles : List Handle) :
    Goes registered r (handles.foldl (fun r h =>
      if wrote.contains h then r else Pool.dispatch (conduct registered) r h .writable) r) :=
  (kept_goes registered r).callAll wrote handles .refl

theorem goes_windUp (report : Pool.Report) (acc : List Handle × Pool.Run Role Desk) :
    Goes registered acc.2 (windUp registered report acc) := by
  have hkept := kept_goes registered acc.2
  have hflushed : Goes registered acc.2 { acc.2 with
      pool := ((report.arrange acc.2.pool.sockets.keys).foldl Pool.flushQueued
        ([], acc.2.pool)).2 } :=
    hkept.flushAll _ .refl
  exact hkept.callAll _ _ (hkept.writeFailedAll _ hflushed)

theorem goes_poll (report : Pool.Report) :
    Goes registered r (Pool.poll (conduct registered) report r) :=
  (kept_goes registered r).poll report .refl

/-- **A pass is a chain of moves** of the connections and their pool. -/
theorem moves_pollSockets {μ κ γ : Type} (b : Bot μ κ γ) (report : Pool.Report) :
    b.net.Moves b.settings.registeredNumeric
      ((Pool.poll (conduct b.settings.registeredNumeric) report
        { pool := b.net.pool, world := { connections := b.net.connections } }).world.events.map
        .triggered)
      (b.pollSockets report).net := by
  have hgoes : Goes b.settings.registeredNumeric
      { pool := b.net.pool, world := { connections := b.net.connections } } _ := goes_poll report
  obtain ⟨events, hevents, hmoves⟩ := hgoes
  rw [hevents]
  exact hmoves

end IrcBot.Bot
