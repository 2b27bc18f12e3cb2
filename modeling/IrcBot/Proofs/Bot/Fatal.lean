/-
What ends a socket in a pass. A socket whose error flag is reported, one that is
read to the end of its stream or to a failure, and one that does not take what is
queued are all lost by the end of the pass, whatever else is reported and
whichever of them meet in one pass.

The proof follows the socket through the pass. Until it is lost it is `Armed`: it
is still in use, and what will end it is still there.
-/
import IrcBot.Proofs.Bot.Losing

namespace IrcBot.Bot

variable {registered i : Nat} {h h' : Handle} {r r' : Pool.Run Role Desk} {s : Socket Role}

/-! ## A socket that will be lost -/

/-- What stays true of a socket in a pass until it is lost. -/
structure Lasting (Q : Socket Role → Prop) : Prop where
  read : ∀ s, Q s → s.reader.drain.2.1.isSome = true ∨ Q { s with reader := s.reader.drain.2.2 }
  written : ∀ s, Q s → ({ s with blocked := false } : Socket Role).flush.1.isSome = true ∨
    Q ({ s with blocked := false } : Socket Role).flush.2

/-- A connection has lost its socket, or it still uses it and `Q` is true of it. -/
def Armed (i : Nat) (h : Handle) (Q : Socket Role → Prop) (r : Pool.Run Role Desk) : Prop :=
  Lost i r ∨ ∃ s, Open i h s r ∧ Q s

variable {Q : Socket Role → Prop}

theorem Armed.dispatch (hQ : Lasting Q) (ha : Armed i h Q r) (h' : Handle) (occasion : Occasion) :
    Armed i h Q (Pool.dispatch (conduct registered) r h' occasion) := by
  rcases ha with hlost | ⟨s, ho, hs⟩
  · exact .inl (Goes.lost (goes_dispatch occasion) hlost)
  by_cases hh : h' = h
  · subst hh
    cases occasion with
    | other => exact .inl ho.dispatch_other
    | writable =>
      rw [ho.dispatch_writable]
      exact .inr ⟨s, ho, hs⟩
    | readable =>
      have hread := ho.dispatch_readable registered
      split at hread
      · exact .inl hread
      · next hstop => exact .inr ⟨_, hread, (hQ.read s hs).resolve_left hstop⟩
  · exact .inr ⟨s, ho.spared (spares_dispatch hh occasion), hs⟩

theorem Armed.flush (hQ : Lasting Q) (ha : Armed i h Q r) (h' : Handle) :
    Armed i h Q (Pool.flush (conduct registered) r h').2 := by
  rcases ha with hlost | ⟨s, ho, hs⟩
  · exact .inl (Goes.lost goes_flush hlost)
  by_cases hh : h' = h
  · subst hh
    have hwritten := ho.flush registered
    split at hwritten
    · exact .inl hwritten
    · next hfail => exact .inr ⟨_, hwritten, (hQ.written s hs).resolve_left hfail⟩
  · exact .inr ⟨s, ho.spared (spares_flush hh), hs⟩

theorem Armed.attend (hQ : Lasting Q) {acc : List Handle × Pool.Run Role Desk}
    (ha : Armed i h Q acc.2) (ready : Pool.Readiness) :
    Armed i h Q (Pool.attend (conduct registered) acc ready).2 :=
  Pool.attend_keeps (fun _ occasion hr => hr.dispatch hQ ready.handle occasion)
    (fun _ hr => hr.flush hQ ready.handle) ha

theorem Armed.attended (hQ : Lasting Q) (ready : List Pool.Readiness)
    {acc : List Handle × Pool.Run Role Desk} (ha : Armed i h Q acc.2) :
    Armed i h Q (ready.foldl (Pool.attend (conduct registered)) acc).2 := by
  induction ready generalizing acc with
  | nil => exact ha
  | cons e ready ih => exact ih (ha.attend hQ e)

/-! ## In trouble, or at the end of the stream -/

theorem lasting_any : Lasting fun _ => True := ⟨fun _ _ => .inr trivial, fun _ _ => .inr trivial⟩

theorem lasting_stopped : Lasting fun s => s.reader.drain.2.1.isSome = true :=
  ⟨fun _ hs => .inl hs, fun s hs => .inr (by rw [Socket.reader_flush]; exact hs)⟩

/-- A socket that is lost when some report is seen to is lost after all of them. -/
theorem Armed.attendAll (hQ : Lasting Q) (fatal : Pool.Readiness → Prop)
    (hfatal : ∀ acc e, fatal e → Armed i h Q acc.2 →
      Lost i (Pool.attend (conduct registered) acc e).2)
    {ready : List Pool.Readiness} {e : Pool.Readiness} (he : e ∈ ready) (hbad : fatal e)
    {acc : List Handle × Pool.Run Role Desk} (ha : Armed i h Q acc.2) :
    Lost i (ready.foldl (Pool.attend (conduct registered)) acc).2 := by
  induction ready generalizing acc with
  | nil => cases he
  | cons e' ready ih =>
    rcases List.mem_cons.1 he with rfl | he
    · exact (goes_attendAll ready _).lost (hfatal acc e hbad ha)
    · exact ih he (ha.attend hQ e')

theorem attend_told {acc : List Handle × Pool.Run Role Desk} {e : Pool.Readiness}
    (herror : e.error = true) :
    Pool.attend (conduct registered) acc e =
      Pool.attend (conduct registered)
        (acc.1, Pool.dispatch (conduct registered) acc.2 e.handle .other)
        { e with error := false } := by
  simp only [Pool.attend, herror, if_true, Bool.false_eq_true, if_false]

theorem Armed.attend_error {acc : List Handle × Pool.Run Role Desk} {e : Pool.Readiness}
    (ha : Armed i e.handle Q acc.2) (herror : e.error = true) :
    Lost i (Pool.attend (conduct registered) acc e).2 := by
  rw [attend_told herror]
  refine (goes_attend _ _).lost ?_
  rcases ha with hlost | ⟨s, ho, -⟩
  · exact (goes_dispatch .other).lost hlost
  · exact ho.dispatch_other

theorem attend_read {acc : List Handle × Pool.Run Role Desk} {e : Pool.Readiness}
    (herror : e.error = false) (hreadable : e.readable = true) :
    Pool.attend (conduct registered) acc e =
      Pool.attend (conduct registered)
        (acc.1, Pool.dispatch (conduct registered) acc.2 e.handle .readable)
        { e with readable := false } := by
  simp only [Pool.attend, herror, hreadable, if_true, Bool.false_eq_true, if_false]

theorem Armed.attend_stopped {acc : List Handle × Pool.Run Role Desk} {e : Pool.Readiness}
    (ha : Armed i e.handle (fun s => s.reader.drain.2.1.isSome = true) acc.2)
    (hreadable : e.readable = true) :
    Lost i (Pool.attend (conduct registered) acc e).2 := by
  cases herror : e.error with
  | true => exact ha.attend_error herror
  | false =>
    rw [attend_read herror hreadable]
    refine (goes_attend _ _).lost ?_
    rcases ha with hlost | ⟨s, ho, hstop⟩
    · exact (goes_dispatch .readable).lost hlost
    · have hread := ho.dispatch_readable registered
      rwa [if_pos hstop] at hread

/-! ## What is queued cannot be written -/

/-- Something is queued, and writing it fails. -/
def Failing (s : Socket Role) : Prop := s.queue.isEmpty = false ∧ s.flush.1.isSome = true

/-- How writing ends depends on the queue and on the stream only. -/
theorem flush_congr {s' : Socket Role} (hqueue : s'.queue = s.queue) (hsink : s'.sink = s.sink) :
    s'.flush.1 = s.flush.1 := by
  unfold Socket.flush
  rw [hqueue, hsink]
  obtain ⟨flushed, queue, sink⟩ := s.queue.flush s.sink
  cases flushed <;> rfl

theorem Failing.congr {s' : Socket Role} (hs : Failing s) (hqueue : s'.queue = s.queue)
    (hsink : s'.sink = s.sink) : Failing s' := by
  unfold Failing
  rw [hqueue, flush_congr hqueue hsink]
  exact hs

theorem lasting_failing : Lasting Failing := by
  refine ⟨fun s hs => .inr (hs.congr rfl rfl), fun s hs => .inl ?_⟩
  have hunblocked : Failing { s with blocked := false } := hs.congr rfl rfl
  exact hunblocked.2

theorem mem_flushQueued {κ : Type} {acc : List Handle × Pool κ} (hin : h ∈ acc.1) (h' : Handle) :
    h ∈ (Pool.flushQueued acc h').1 := by
  obtain ⟨failed, p⟩ := acc
  simp only [Pool.flushQueued]
  split
  · exact hin
  · split
    · exact hin
    · simp only
      split
      · exact List.mem_append_left _ hin
      · exact hin

/-- While queues are flushed: a failure is on the account, or it is still to come. -/
def Failed (i : Nat) (h : Handle) (r : Pool.Run Role Desk) (acc : List Handle × Pool Role) : Prop :=
  ∃ s, Open i h s { r with pool := acc.2 } ∧ (h ∈ acc.1 ∨ Failing s)

variable {acc : List Handle × Pool Role}

theorem Failed.flushQueued_self (hf : Failed i h r acc) :
    Failed i h r (Pool.flushQueued acc h) ∧ h ∈ (Pool.flushQueued acc h).1 := by
  obtain ⟨failed, p⟩ := acc
  obtain ⟨s, ho, hs⟩ := hf
  have hpooled : p.socket? h = some s := ho.pooled
  simp only [Pool.flushQueued, hpooled]
  by_cases hempty : s.queue.isEmpty = true
  · rw [if_pos hempty]
    exact ⟨⟨s, ho, hs⟩, hs.resolve_right fun hfailing => by simp [hfailing.1] at hempty⟩
  · rw [if_neg hempty]
    have hin : h ∈ if s.flush.1.isSome then failed ++ [h] else failed := by
      split
      · exact List.mem_append_right _ (List.mem_singleton.2 rfl)
      · next hfine => exact hs.resolve_right fun hfailing => hfine hfailing.2
    exact ⟨⟨s.flush.2, ho.set (Socket.callbacks_flush s), .inl hin⟩, hin⟩

theorem Failed.flushQueued_other (hf : Failed i h r acc) (hne : h' ≠ h) :
    Failed i h r (Pool.flushQueued acc h') := by
  obtain ⟨s, ho, hs⟩ := hf
  refine ⟨s, ho.spared ?_, hs.imp_left (mem_flushQueued · h')⟩
  obtain ⟨failed, p⟩ := acc
  simp only [Pool.flushQueued]
  split
  · exact .refl
  · split
    · exact .refl
    · exact spares_pool (Pool.socket?_set_other hne)

/-- A socket whose flush fails is on the account of failures once its turn has come. -/
theorem Failed.flushQueuedAll {handles : List Handle} (hf : Failed i h r acc)
    (hin : h ∈ handles ∨ h ∈ acc.1) :
    Failed i h r (handles.foldl Pool.flushQueued acc) ∧
      h ∈ (handles.foldl Pool.flushQueued acc).1 := by
  induction handles generalizing acc with
  | nil => exact ⟨hf, hin.resolve_left List.not_mem_nil⟩
  | cons h' handles ih =>
    by_cases hh : h' = h
    · subst hh
      exact ih hf.flushQueued_self.1 (.inr hf.flushQueued_self.2)
    · refine ih (hf.flushQueued_other hh) (hin.imp (fun hin => ?_) (mem_flushQueued · h'))
      exact (List.mem_cons.1 hin).resolve_left (Ne.symm hh)

/-- A socket on the account of failures is lost. -/
theorem Open.writeFailedAll {failed : List Handle} (ho : Open i h s r) (hin : h ∈ failed) :
    Lost i (failed.foldl (Pool.writeFailed (conduct registered)) r) := by
  induction failed generalizing r with
  | nil => cases hin
  | cons h' failed ih =>
    by_cases hh : h' = h
    · subst hh
      exact (goes_failed failed).lost ho.writeFailed
    · refine ih (ho.spared (spares_writeFailed hh)) ?_
      exact (List.mem_cons.1 hin).resolve_left (Ne.symm hh)

theorem Open.windUp {report : Pool.Report} (hall : ∀ l, l ⊆ report.arrange l)
    {acc : List Handle × Pool.Run Role Desk} (ho : Open i h s acc.2) (hs : Failing s) :
    Lost i (windUp registered report acc) := by
  have hkey : h ∈ acc.2.pool.sockets.keys := by
    exact Table.mem_keys.2 (Table.contains_iff.2 ⟨s, ho.pooled⟩)
  have hf : Failed i h acc.2 ([], acc.2.pool) := ⟨s, ho, .inr hs⟩
  obtain ⟨⟨s', ho', -⟩, hin⟩ := hf.flushQueuedAll (.inl (hall _ hkey))
  exact (goes_called _ _).lost (ho'.writeFailedAll hin)

/-! ## The pass -/

/-- What ends a socket in a pass. -/
inductive Fatal (report : Pool.Report) (p : Pool Role) (h : Handle) : Prop where
  | trouble {e : Pool.Readiness} (he : e ∈ report.ready) (hhandle : e.handle = h)
    (herror : e.error = true)
  /-- It is read to the end of its stream, or until reading fails. -/
  | stopped {e : Pool.Readiness} (he : e ∈ report.ready) (hhandle : e.handle = h)
    (hreadable : e.readable = true) (hstop : (p.drain h).1.2.isSome = true)
  /-- What is queued cannot be written. -/
  | failing {s : Socket Role} (hs : p.socket? h = some s) (hfailing : Failing s)

/-- **What is fatal to a socket costs the connection its socket** in the same pass, whatever else
is reported and in whatever order all sockets are gone through. -/
theorem Open.lost_poll {report : Pool.Report} (hall : ∀ l, l ⊆ report.arrange l)
    (ho : Open i h s r) (hfatal : Fatal report r.pool h) :
    Lost i (Pool.poll (conduct registered) report r) := by
  rw [poll_eq]
  cases hfatal with
  | trouble he hhandle herror =>
    refine (goes_windUp report _).lost
      (Armed.attendAll lasting_any (fun e => e.handle = h ∧ e.error = true) ?_ he
        ⟨hhandle, herror⟩ (.inr ⟨s, ho, trivial⟩))
    rintro acc e ⟨rfl, herror⟩ ha
    exact ha.attend_error herror
  | stopped he hhandle hreadable hstop =>
    rw [isSome_drain ho] at hstop
    refine (goes_windUp report _).lost
      (Armed.attendAll lasting_stopped (fun e => e.handle = h ∧ e.readable = true) ?_ he
        ⟨hhandle, hreadable⟩ (.inr ⟨s, ho, hstop⟩))
    rintro acc e ⟨rfl, hreadable⟩ ha
    exact ha.attend_stopped hreadable
  | failing hs hfailing =>
    cases ho.pooled.symm.trans hs
    have ha : Armed i h Failing
        (report.ready.foldl (Pool.attend (conduct registered)) ([], r)).2 :=
      Armed.attended lasting_failing report.ready (.inr ⟨s, ho, hfailing⟩)
    rcases ha with hlost | ⟨s', ho', hfailing'⟩
    · exact (goes_windUp report _).lost hlost
    · exact ho'.windUp hall hfailing'

end IrcBot.Bot
