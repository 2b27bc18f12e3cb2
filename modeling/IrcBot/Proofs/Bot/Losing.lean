/-
What the parts of a pass do to one socket of a connection. Whatever happens to
other sockets leaves it alone; trouble, the end of its stream and a failed write
cost the connection the socket; and what is lost in a pass stays lost in it.
-/
import IrcBot.Proofs.Bot.Rounds

namespace IrcBot.Bot

variable {registered i : Nat} {h h' : Handle} {r r' r'' : Pool.Run Role Desk} {n n' : Net}
variable {es : List Entry}

/-! ## Without new sockets -/

theorem Net.Move.socketOf_kept (hm : n.Move registered es n') (hes : ∀ j h, .attached j h ∉ es) :
    n'.socketOf i = n.socketOf i ∨ n'.socketOf i = none := by
  cases hm with
  | touch hs hcallbacks => exact .inl rfl
  | speak line hsocket => exact .inl rfl
  | @rename j c nick hc =>
    rw [Net.socketOf_insert]
    split
    · next hj => exact .inl (hj ▸ (Net.socketOf_eq hc).symm)
    · exact .inl rfl
  | attach stream nick hc hphase => exact absurd (List.mem_singleton.2 rfl) (hes _ _)
  | lose hc hsocket =>
    rw [Net.socketOf_insert]
    split
    · exact .inr rfl
    · exact .inl rfl
  | @hear j c h line hc hsocket =>
    rw [Net.socketOf_insert]
    split
    · next hj =>
      exact .inl (hj ▸ Session.socket_handleLine.trans (Net.socketOf_eq hc).symm)
    · exact .inl rfl
  | drop hs hother => exact .inl rfl

/-- Without a new socket a connection keeps the one it has, or has none any more. -/
theorem Net.Moves.socketOf_kept (hm : n.Moves registered es n')
    (hes : ∀ j h, .attached j h ∉ es) :
    n'.socketOf i = n.socketOf i ∨ n'.socketOf i = none := by
  induction hm with
  | refl => exact .inl rfl
  | head first _ ih =>
    have hfirst := first.socketOf_kept (i := i) fun j h hmem =>
      hes j h (List.mem_append_left _ hmem)
    rcases ih fun j h hmem => hes j h (List.mem_append_right _ hmem) with hsame | hnone
    · rw [hsame]
      exact hfirst
    · exact .inr hnone

/-- Nothing happens to a connection without a socket, but for getting one. -/
theorem Net.Move.account_lost (hm : n.Move registered es n') (hi : n.socketOf i = none)
    (hes : ∀ j h, .attached j h ∉ es) : account i es = [] := by
  have hother {j : Nat} {h : Handle} (hj : n.socketOf j = some h) : j ≠ i := by
    rintro rfl
    exact absurd (hi.symm.trans hj) (by simp)
  cases hm with
  | touch | rename | drop => rfl
  | speak line hsocket => exact account_occurred_other (hother hsocket) [.rawLineSent line]
  | attach stream nick hc hphase => exact absurd (List.mem_singleton.2 rfl) (hes _ _)
  | lose hc hsocket =>
    exact account_occurred_other (hother ((Net.socketOf_eq hc).trans hsocket)) [.disconnected]
  | hear line hc hsocket =>
    exact account_occurred_other (hother ((Net.socketOf_eq hc).trans hsocket)) _

theorem Net.Moves.account_lost (hm : n.Moves registered es n') (hi : n.socketOf i = none)
    (hes : ∀ j h, .attached j h ∉ es) : account i es = [] := by
  induction hm with
  | refl => rfl
  | head first _ ih =>
    simp only [List.mem_append, not_or, forall_and] at hes
    have hstays := (first.socketOf_kept (i := i) hes.1).elim (·.trans hi) id
    rw [account_append, first.account_lost hi hes.1, ih hstays hes.2]
    rfl

/-- Whether a connection has no socket any more. -/
def Lost (i : Nat) (r : Pool.Run Role Desk) : Prop := (netOf r).socketOf i = none

/-- What a pass has told of a connection. -/
def told (i : Nat) (r : Pool.Run Role Desk) : List Moment :=
  account i (r.world.events.map .triggered)

theorem told_of_events {events : List Event}
    (hevents : r'.world.events = r.world.events ++ events) :
    told i r' = told i r ++ account i (events.map .triggered) := by
  rw [told, hevents, List.map_append, account_append, told]

/-- What is lost in a pass stays lost in it. -/
theorem Goes.lost (hr : Goes registered r r') (hlost : Lost i r) : Lost i r' := by
  obtain ⟨events, -, hmoves⟩ := hr
  rcases hmoves.socketOf_kept (i := i) (by simp) with hsame | hnone
  · exact hsame.trans hlost
  · exact hnone

/-- Of a connection that has lost its socket a pass tells nothing more. -/
theorem Goes.told_lost (hr : Goes registered r r') (hlost : Lost i r) : told i r' = told i r := by
  obtain ⟨events, hevents, hmoves⟩ := hr
  rw [told_of_events hevents, hmoves.account_lost hlost (by simp), List.append_nil]

/-! ## Other sockets -/

/-- Part of a pass that leaves a connection and its socket alone, and tells nothing of them. -/
def Spares (i : Nat) (h : Handle) (r r' : Pool.Run Role Desk) : Prop :=
  (netOf r).socketOf i = some h →
    r'.world.connections.get? i = r.world.connections.get? i ∧
      r'.pool.socket? h = r.pool.socket? h ∧ told i r' = told i r

theorem Spares.refl : Spares i h r r := fun _ => ⟨rfl, rfl, rfl⟩

theorem socketOf_netOf (hsame : r'.world.connections.get? i = r.world.connections.get? i) :
    (netOf r').socketOf i = (netOf r).socketOf i := by
  simp only [Net.socketOf, netOf, hsame]

theorem Spares.trans (h₁ : Spares i h r r') (h₂ : Spares i h r' r'') : Spares i h r r'' := by
  intro hi
  obtain ⟨hc', hs', ht'⟩ := h₁ hi
  obtain ⟨hc'', hs'', ht''⟩ := h₂ ((socketOf_netOf hc').trans hi)
  exact ⟨hc''.trans hc', hs''.trans hs', ht''.trans ht'⟩

theorem spares_pool {pool : Pool Role} {notes : Array Pool.Note}
    (hs : pool.socket? h = r.pool.socket? h) :
    Spares i h r { r with pool := pool, notes := notes } := fun _ => ⟨rfl, hs, rfl⟩

theorem spares_loseSocket (hne : h' ≠ h) (j : Nat) :
    Spares i h r ((loseSocket j h').run (Pool.serve (conduct registered)) r).2 := by
  by_cases hcurrent : (netOf r).socketOf j = some h'
  · obtain ⟨c, hc, hsocket⟩ := Option.bind_eq_some_iff.1 hcurrent
    rw [run_loseSocket_current hc hsocket]
    intro hi
    have hj : j ≠ i := by
      rintro rfl
      exact hne (Option.some.inj (hcurrent.symm.trans hi))
    refine ⟨Table.get?_insert_other _ _ hj, Pool.socket?_close_other hne, ?_⟩
    rw [told_of_events (r := r) rfl]
    exact (congrArg _ (account_occurred_other hj [.disconnected])).trans (List.append_nil _)
  · rw [run_loseSocket_stale hcurrent]
    exact .refl

theorem spares_hear (registered : Nat) {j : Nat} (hj : j ≠ i) (lines : List Text) :
    Spares i h r { r with world := lines.foldl (Desk.hear registered j) r.world } := by
  induction lines generalizing r with
  | nil => exact .refl
  | cons line lines ih =>
    suffices hfirst : Spares i h r { r with world := r.world.hear registered j line } from
      hfirst.trans ih
    cases hc : r.world.connections.get? j with
    | none =>
      have hsame : r.world.hear registered j line = r.world := by
        simp only [Desk.hear, takeTurn, hc]
      rw [hsame]
      exact .refl
    | some c =>
      intro _
      rw [hear_eq registered line hc]
      refine ⟨Table.get?_insert_other _ _ hj, rfl, ?_⟩
      rw [told_of_events (r := r) rfl, List.map_map]
      exact (congrArg _ (account_occurred_other hj _)).trans (List.append_nil _)

theorem socket?_drain_other (hne : h' ≠ h) {p : Pool Role} :
    (p.drain h').2.socket? h = p.socket? h := by
  unfold Pool.drain
  split
  · rfl
  · exact Pool.socket?_set_other hne

theorem spares_readSocket (hne : h' ≠ h) (j : Nat) :
    Spares i h r ((readSocket j h').run (Pool.serve (conduct registered)) r).2 := by
  by_cases hcurrent : (netOf r).socketOf j = some h'
  · intro hi
    have hj : j ≠ i := by
      rintro rfl
      exact hne (Option.some.inj (hcurrent.symm.trans hi))
    have hheard : Spares i h r (heardAll registered r j h') :=
      (spares_pool (socket?_drain_other hne)).trans (spares_hear registered hj _)
    rw [run_readSocket_current hcurrent]
    split
    · exact hheard.trans (spares_loseSocket hne j) hi
    · exact hheard hi
  · rw [run_readSocket_stale hcurrent]
    exact .refl

theorem spares_dispatch (hne : h' ≠ h) (occasion : Occasion) :
    Spares i h r (Pool.dispatch (conduct registered) r h' occasion) := by
  unfold Pool.dispatch
  split
  · exact .refl
  · split
    · next role _ =>
      have hcalled : Spares i h r (r.note (.called h' occasion)) := spares_pool rfl
      refine hcalled.trans (.trans ?_ (spares_pool rfl))
      cases role with
      | reader j => exact spares_readSocket hne j
      | closer j => exact spares_loseSocket hne j
    · split
      · exact spares_pool (Pool.socket?_close_other hne)
      · exact .refl

theorem spares_writeFailed (hne : h' ≠ h) :
    Spares i h r (Pool.writeFailed (conduct registered) r h') := by
  unfold Pool.writeFailed
  refine .trans ?_ (spares_dispatch hne .other)
  split
  · exact spares_pool (Pool.socket?_set_other hne)
  · exact .refl

theorem spares_flush (hne : h' ≠ h) :
    Spares i h r (Pool.flush (conduct registered) r h').2 := by
  unfold Pool.flush
  split
  · exact .refl
  · simp only
    split
    · exact spares_pool (Pool.socket?_set_other hne)
    · split
      · exact spares_pool (Pool.socket?_set_other hne)
      · exact .trans (spares_pool (Pool.socket?_set_other hne)) (spares_writeFailed hne)

/-! ## The socket itself -/

/-- A connection uses a socket, which looks like this and calls the connection back. -/
structure Open (i : Nat) (h : Handle) (s : Socket Role) (r : Pool.Run Role Desk) : Prop where
  current : (netOf r).socketOf i = some h
  pooled : r.pool.socket? h = some s
  hung : s.callbacks = callbacks i

variable {s : Socket Role}

theorem Open.spared (ho : Open i h s r) (hr : Spares i h r r') : Open i h s r' := by
  obtain ⟨hsame, hpooled, -⟩ := hr ho.current
  exact ⟨(socketOf_netOf hsame).trans ho.current, hpooled.trans ho.pooled, ho.hung⟩

theorem Open.lost_loseSocket (ho : Open i h s r) :
    Lost i ((loseSocket i h).run (Pool.serve (conduct registered)) r).2 := by
  obtain ⟨c, hc, hsocket⟩ := Option.bind_eq_some_iff.1 ho.current
  rw [run_loseSocket_current hc hsocket]
  refine (Net.socketOf_insert (n := netOf r)).trans ?_
  rw [if_pos rfl]
  rfl

/-- In trouble the socket is lost. -/
theorem Open.dispatch_other (ho : Open i h s r) :
    Lost i (Pool.dispatch (conduct registered) r h .other) := by
  have hon : s.callbacks.on .other = some (.closer i) := by rw [ho.hung]; rfl
  simp only [Pool.dispatch, ho.pooled, hon]
  have hcalled : Open i h s (r.note (.called h .other)) := ho.spared (spares_pool rfl)
  exact hcalled.lost_loseSocket

/-- Connections have no callback for writing. -/
theorem Open.dispatch_writable (ho : Open i h s r) :
    Pool.dispatch (conduct registered) r h .writable = r := by
  have hon : s.callbacks.on .writable = none := by rw [ho.hung]; rfl
  simp only [Pool.dispatch, ho.pooled, hon, reduceCtorEq, if_false]

theorem socketOf_hearAll (registered : Nat) (hi : (netOf r).socketOf i = some h)
    (lines : List Text) :
    (netOf { r with world := lines.foldl (Desk.hear registered i) r.world }).socketOf i =
      some h := by
  induction lines generalizing r with
  | nil => exact hi
  | cons line lines ih =>
    exact ih (r := { r with world := r.world.hear registered i line })
      (socketOf_hear registered hi line)

theorem Open.heardAll (ho : Open i h s r) :
    Open i h { s with reader := s.reader.drain.2.2 } (heardAll registered r i h) := by
  have hdrained : (r.pool.drain h).2.socket? h = some { s with reader := s.reader.drain.2.2 } := by
    simp only [Pool.drain, ho.pooled, Pool.socket?_set_self]
  exact ⟨socketOf_hearAll registered ho.current _, hdrained, ho.hung⟩

theorem isSome_drain (ho : Open i h s r) :
    (r.pool.drain h).1.2.isSome = s.reader.drain.2.1.isSome := by
  simp only [Pool.drain, ho.pooled, Option.isSome_map]

theorem Open.lost_readSocket (ho : Open i h s r) (hstop : s.reader.drain.2.1.isSome = true) :
    Lost i ((readSocket i h).run (Pool.serve (conduct registered)) r).2 := by
  rw [run_readSocket_current ho.current, isSome_drain ho, if_pos hstop]
  exact ho.heardAll.lost_loseSocket

theorem Open.readSocket (ho : Open i h s r) (hstop : ¬ s.reader.drain.2.1.isSome = true) :
    Open i h { s with reader := s.reader.drain.2.2 }
      ((readSocket i h).run (Pool.serve (conduct registered)) r).2 := by
  rw [run_readSocket_current ho.current, isSome_drain ho, if_neg hstop]
  exact ho.heardAll

/-- Reading loses the socket if the stream stops, and else only takes what was received. -/
theorem Open.dispatch_readable (registered : Nat) (ho : Open i h s r) :
    if s.reader.drain.2.1.isSome then Lost i (Pool.dispatch (conduct registered) r h .readable)
    else Open i h { s with reader := s.reader.drain.2.2 }
      (Pool.dispatch (conduct registered) r h .readable) := by
  have hon : s.callbacks.on .readable = some (.reader i) := by rw [ho.hung]; rfl
  have hcalled : Open i h s (r.note (.called h .readable)) := ho.spared (spares_pool rfl)
  simp only [Pool.dispatch, ho.pooled, hon]
  split
  · next hstop => exact hcalled.lost_readSocket hstop
  · next hstop => exact (hcalled.readSocket hstop).spared (spares_pool rfl)

theorem Open.set {s' : Socket Role} (ho : Open i h s r) (hs : s'.callbacks = s.callbacks) :
    Open i h s' { r with pool := r.pool.set h s' } :=
  ⟨ho.current, Pool.socket?_set_self, hs.trans ho.hung⟩

theorem Open.writeFailed (ho : Open i h s r) :
    Lost i (Pool.writeFailed (conduct registered) r h) := by
  have hcleared : Open i h { s with queue := s.queue.clear } _ := ho.set rfl
  simp only [Pool.writeFailed, ho.pooled]
  exact hcleared.dispatch_other

theorem flush_empty (hs : s.queue.isEmpty = true) (hblocked : s.blocked = false) :
    s.flush = (none, s) := by
  obtain ⟨callbacks, reader, sink, ⟨pieces⟩, blocked⟩ := s
  simp only [WriteQueue.isEmpty, List.isEmpty_iff] at hs hblocked
  subst hs hblocked
  simp only [Socket.flush, WriteQueue.flush, WriteQueue.flushPieces]

/-- Writing loses the socket if it does not take the bytes. -/
theorem Open.flush (registered : Nat) (ho : Open i h s r) :
    if ({ s with blocked := false } : Socket Role).flush.1.isSome then
      Lost i (Pool.flush (conduct registered) r h).2
    else Open i h ({ s with blocked := false } : Socket Role).flush.2
      (Pool.flush (conduct registered) r h).2 := by
  simp only [Pool.flush, ho.pooled]
  by_cases hempty : s.queue.isEmpty = true
  · have hflush := flush_empty (s := { s with blocked := false }) hempty rfl
    simp only [hempty, if_true, hflush, Option.isSome_none, Bool.false_eq_true, if_false]
    exact ho.set rfl
  · have hset := ho.set (Socket.callbacks_flush { s with blocked := false })
    simp only [hempty, if_false, Bool.false_eq_true]
    cases hflush : ({ s with blocked := false } : Socket Role).flush with
    | mk error s' =>
      rw [hflush] at hset
      cases error with
      | none => exact hset
      | some e => exact hset.writeFailed

end IrcBot.Bot
