/-
The lives of sockets. Whatever a pool does, each of its sockets goes through turns of
a few kinds, and each turn leaves its deeds in the ledger; a queue is dropped only
when a flush of it has failed. What every turn keeps, a socket keeps as long as it is
in the pool.
-/
import IrcBot.Proofs.Pool.Ledger
import IrcBot.Proofs.Pool.Sockets

namespace IrcBot.Pool

variable {κ ω : Type} {R : Requests}

/-- One turn of a socket of the pool, with the deeds it leaves. -/
inductive Turn : Socket κ → List Deed → Socket κ → Prop where
  | update (s : Socket κ) (callbacks : Callbacks κ) : Turn s [] { s with callbacks }
  | unblock (s : Socket κ) : Turn s [] { s with blocked := false }
  | arrive (s : Socket κ) (arrivals : List Arrival) (ended : Bool) :
    Turn s [.arrived (arrivals.flatMap Arrival.bytes)]
      { s with reader := { s.reader with source := s.reader.source.extend arrivals ended } }
  /-- The system has other answers in store for writes. -/
  | prepare (s : Socket κ) (answers : List Answer) (broken : Option IoError) :
    Turn s [] { s with sink := { s.sink with answers, broken } }
  | queue (s : Socket κ) (bytes : Bytes) :
    Turn s [.queued bytes] { s with queue := s.queue.push bytes }
  | count (s : Socket κ) : Turn s [.counted s.queue.pending] s
  | flush (s : Socket κ) (blocked : Bool) :
    Turn s [flushing s] ({ s with blocked } : Socket κ).flush.2
  | read (s : Socket κ) :
    Turn s [.asked s.reader.received (s.reader.next.1.mapError .ofStop)]
      { s with reader := s.reader.next.2 }
  | drain (s : Socket κ) :
    Turn s (s.reader.calls.map fun call => .asked call.1 (call.2.mapError .ofStop))
      { s with reader := s.reader.drain.2.2 }

/-- Some flush has failed. -/
def Failing (deeds : List Deed) : Prop := ∃ taken e, .flushed taken (.failed e) ∈ deeds

/-- What a socket goes through, from its being in the pool (or not) to its being there (or not). -/
inductive Life : Option (Socket κ) → List Deed → Option (Socket κ) → Prop where
  | same (start : Option (Socket κ)) : Life start [] start
  | turn {start : Option (Socket κ)} {deeds more : List Deed} {s s' : Socket κ} :
    Life start deeds (some s) → Turn s more s' → Life start (deeds ++ more) (some s')
  | clear {start : Option (Socket κ)} {deeds : List Deed} {s : Socket κ} :
    Life start deeds (some s) → Failing deeds →
      Life start (deeds ++ [.dropped]) (some { s with queue := s.queue.clear })
  | leave {start : Option (Socket κ)} {deeds : List Deed} {s : Socket κ} :
    Life start deeds (some s) → Life start (deeds ++ [.dropped]) none

section Life

variable {start middle last : Option (Socket κ)} {deeds more : List Deed}

theorem Failing.append_left (h : Failing more) : Failing (deeds ++ more) := by
  obtain ⟨taken, e, hmem⟩ := h
  exact ⟨taken, e, List.mem_append_right _ hmem⟩

theorem Failing.append_right (h : Failing deeds) : Failing (deeds ++ more) := by
  obtain ⟨taken, e, hmem⟩ := h
  exact ⟨taken, e, List.mem_append_left _ hmem⟩

theorem Life.trans (h : Life start deeds middle) (h' : Life middle more last) :
    Life start (deeds ++ more) last := by
  induction h' with
  | same => rwa [List.append_nil]
  | turn _ hturn ih => exact List.append_assoc .. ▸ ih.turn hturn
  | clear _ hfailing ih => exact List.append_assoc .. ▸ ih.clear hfailing.append_left
  | leave _ ih => exact List.append_assoc .. ▸ ih.leave

/-- What is not in the pool does nothing and stays out. -/
theorem Life.of_none (h : Life (none : Option (Socket κ)) deeds last) : deeds = [] ∧ last = none := by
  induction h with
  | same => exact ⟨rfl, rfl⟩
  | turn _ _ ih | clear _ _ ih | leave _ ih => exact absurd ih.2 (by simp)

end Life

namespace Audit

variable {a a' a₀ : Audit κ ω} {h h' : Handle} {s : Socket κ} {entered : List Deed}

/-! ## Look-ups -/

theorem deeds_append (run : Run κ ω) (ledger : List (Handle × Deed)) (entered : List Deed)
    (h h' : Handle) :
    deeds ⟨run, ledger ++ entered.map (h, ·)⟩ h' =
      deeds ⟨run, ledger⟩ h' ++ if h = h' then entered else [] := by
  have hentered : ((entered.map (h, ·)).filter fun entry => entry.1 == h').map Prod.snd =
      if h = h' then entered else [] := by
    by_cases he : h = h' <;> simp [List.filter_map, Function.comp_def, he]
  rw [deeds, List.filter_append, List.map_append, hentered]
  rfl

theorem deeds_put_self : (a.put h entered s).deeds h = a.deeds h ++ entered := by
  rw [put, deeds_append, if_pos rfl]
  rfl

theorem deeds_put_other (hne : h ≠ h') : (a.put h entered s).deeds h' = a.deeds h' := by
  rw [put, deeds_append, if_neg hne, List.append_nil]
  rfl

theorem socket?_put_self : (a.put h entered s).socket? h = some s := socket?_set_self

theorem socket?_put_other (hne : h ≠ h') : (a.put h entered s).socket? h' = a.socket? h' :=
  socket?_set_other hne

theorem deeds_leave_self : (a.leave h).deeds h = a.deeds h ++ [.dropped] := by
  have happend := deeds_append a.run a.ledger [.dropped] h h
  rwa [if_pos rfl] at happend

theorem deeds_leave_other (hne : h ≠ h') : (a.leave h).deeds h' = a.deeds h' := by
  have happend := deeds_append a.run a.ledger [.dropped] h h'
  rwa [if_neg hne, List.append_nil] at happend

/-! ## What has happened since -/

/-- What has happened from one audit to a later one: each socket has had a life, and the
ledger has its deeds. -/
structure Since (a₀ a : Audit κ ω) : Prop where
  nextHandle_eq : a.run.pool.nextHandle = a₀.run.pool.nextHandle
  life : ∀ h, ∃ deeds, a.deeds h = a₀.deeds h ++ deeds ∧ Life (a₀.socket? h) deeds (a.socket? h)

/-- A flush of a socket has failed since. -/
def FailedSince (a₀ a : Audit κ ω) (h : Handle) : Prop :=
  ∃ deeds, a.deeds h = a₀.deeds h ++ deeds ∧ Failing deeds

theorem Since.refl (a : Audit κ ω) : Since a a :=
  ⟨rfl, fun _ => ⟨[], (List.append_nil _).symm, .same _⟩⟩

theorem Since.trans (hs : Since a₀ a) (hs' : Since a a') : Since a₀ a' := by
  refine ⟨hs'.nextHandle_eq.trans hs.nextHandle_eq, fun h => ?_⟩
  obtain ⟨deeds, hdeeds, hlife⟩ := hs.life h
  obtain ⟨more, hmore, hlife'⟩ := hs'.life h
  exact ⟨deeds ++ more, by rw [hmore, hdeeds, List.append_assoc], hlife.trans hlife'⟩

/-- What changes only one socket extends the life of that socket. -/
theorem Since.extend (hs : Since a₀ a) (hnext : a'.run.pool.nextHandle = a.run.pool.nextHandle)
    (hothers : ∀ h', h ≠ h' → a'.deeds h' = a.deeds h' ∧ a'.socket? h' = a.socket? h')
    (hself : ∀ deeds, a.deeds h = a₀.deeds h ++ deeds → Life (a₀.socket? h) deeds (a.socket? h) →
      ∃ more, a'.deeds h = a.deeds h ++ more ∧
        Life (a₀.socket? h) (deeds ++ more) (a'.socket? h)) : Since a₀ a' := by
  refine ⟨hnext.trans hs.nextHandle_eq, fun h' => ?_⟩
  obtain ⟨deeds, hdeeds, hlife⟩ := hs.life h'
  by_cases he : h = h'
  · subst he
    obtain ⟨more, hmore, hlife'⟩ := hself deeds hdeeds hlife
    exact ⟨deeds ++ more, by rw [hmore, hdeeds, List.append_assoc], hlife'⟩
  · obtain ⟨hdeeds', hsocket'⟩ := hothers h' he
    exact ⟨deeds, hdeeds'.trans hdeeds, hsocket' ▸ hlife⟩

theorem Since.put {s' : Socket κ} (hs : Since a₀ a) (hsocket : a.socket? h = some s)
    (hturn : Turn s entered s') : Since a₀ (a.put h entered s') := by
  refine hs.extend (h := h) rfl ?_ fun deeds _ hlife => ⟨entered, deeds_put_self, ?_⟩
  · exact fun h' hne => ⟨deeds_put_other hne, socket?_put_other hne⟩
  · rw [socket?_put_self]
    exact (hsocket ▸ hlife).turn hturn

theorem Since.leave (hs : Since a₀ a) (hsocket : a.socket? h = some s) : Since a₀ (a.leave h) := by
  refine hs.extend (h := h) rfl ?_ fun deeds _ hlife => ⟨[.dropped], deeds_leave_self, ?_⟩
  · exact fun h' hne => ⟨deeds_leave_other hne, socket?_close_other hne⟩
  · rw [show (a.leave h).socket? h = none from socket?_close_self]
    exact (hsocket ▸ hlife).leave

theorem Since.clear (hs : Since a₀ a) (hsocket : a.socket? h = some s)
    (hfailed : FailedSince a₀ a h) :
    Since a₀ (a.put h [.dropped] { s with queue := s.queue.clear }) := by
  refine hs.extend (h := h) rfl ?_ fun deeds hdeeds hlife => ⟨[.dropped], deeds_put_self, ?_⟩
  · exact fun h' hne => ⟨deeds_put_other hne, socket?_put_other hne⟩
  · -- The deeds that the failure is among are those of the life, for the ledger is the same.
    obtain ⟨deeds', hdeeds', hfailing⟩ := hfailed
    obtain rfl := List.append_cancel_left (hdeeds.symm.trans hdeeds')
    rw [socket?_put_self]
    exact (hsocket ▸ hlife).clear hfailing

/-- What changes neither sockets nor the ledger is nothing that has happened. -/
theorem Since.congr (hs : Since a₀ a) (hnext : a'.run.pool.nextHandle = a.run.pool.nextHandle)
    (hsockets : ∀ h, a'.socket? h = a.socket? h) (hledger : a'.ledger = a.ledger) :
    Since a₀ a' := by
  refine ⟨hnext.trans hs.nextHandle_eq, fun h => ?_⟩
  rw [hsockets h, deeds, hledger]
  exact hs.life h

theorem Since.of_pool {a'' : Audit κ ω} (hs : Since a₀ a'') (hpool : a'.run.pool = a''.run.pool)
    (hledger : a'.ledger = a''.ledger) : Since a₀ a' :=
  hs.congr (by rw [hpool]) (fun h => by rw [socket?, hpool, socket?]) hledger

/-! ## Every function of the pool -/

variable {c : Conduct κ ω R} {q : Ask κ R.Ask} {r : Run κ ω}

/-- A request about no socket of the pool leaves all sockets as they are. -/
theorem serve_apart (hq : ∀ h, q.target? = some h → r.pool.socket? h = none) :
    (Pool.serve c q r).2.pool.nextHandle = r.pool.nextHandle ∧
      ∀ h, (Pool.serve c q r).2.pool.socket? h = r.pool.socket? h := by
  cases q with
  | readLine h | drain h | enqueue h bytes | update h callbacks | remove h =>
    have hnone := hq h rfl
    simp [Pool.serve, Run.apply, readLine, Pool.drain, enqueue, Pool.update, remove, withSocket,
      hnone, Run.note]
  | close h =>
    refine ⟨rfl, fun h' => ?_⟩
    by_cases he : h = h'
    · subst he
      exact socket?_close_self.trans (hq h rfl).symm
    · exact socket?_close_other he
  | contains h | pending? h | stop | act i => exact ⟨rfl, fun _ => rfl⟩

/-- A request about a socket of the pool is a turn of it, or takes it out of the pool. -/
theorem serve_on (hq : q.target? = some h) (hs : r.pool.socket? h = some s) :
    (∃ s', Turn s (q.deeds s) s' ∧ (Pool.serve c q r).2.pool = r.pool.set h s') ∨
      (q.deeds s = [.dropped] ∧ (Pool.serve c q r).2.pool = (r.pool.close h).2) := by
  have hsame : r.pool = r.pool.set h s := (set_of_socket? hs).symm
  cases q with
  | readLine _ =>
    obtain rfl := Option.some.inj hq
    refine .inl ⟨_, .read s, ?_⟩
    simp [Pool.serve, Run.apply, readLine, hs, Run.note]
  | drain _ =>
    obtain rfl := Option.some.inj hq
    refine .inl ⟨_, .drain s, ?_⟩
    simp [Pool.serve, Run.apply, Pool.drain, hs, Run.note]
  | enqueue _ bytes =>
    obtain rfl := Option.some.inj hq
    refine .inl ⟨_, .queue s bytes, ?_⟩
    simp [Pool.serve, Run.apply, enqueue, withSocket, hs]
  | update _ callbacks =>
    obtain rfl := Option.some.inj hq
    refine .inl ⟨_, .update s callbacks, ?_⟩
    simp [Pool.serve, Run.apply, Pool.update, withSocket, hs]
  | remove _ =>
    obtain rfl := Option.some.inj hq
    refine .inr ⟨rfl, ?_⟩
    simp [Pool.serve, Run.apply, remove, close, hs]
  | close _ =>
    obtain rfl := Option.some.inj hq
    exact .inr ⟨rfl, rfl⟩
  | contains _ =>
    obtain rfl := Option.some.inj hq
    exact .inl ⟨s, .update s s.callbacks, hsame⟩
  | pending? _ =>
    obtain rfl := Option.some.inj hq
    exact .inl ⟨s, .count s, hsame⟩
  | stop | act i => simp [Ask.target?] at hq

theorem Since.serve (hs : Since a₀ a) (q : Ask κ R.Ask) : Since a₀ (serve c q a).2 := by
  by_cases hq : ∃ h s, q.target? = some h ∧ a.run.pool.socket? h = some s
  · obtain ⟨h, s, hq, hsocket⟩ := hq
    have hentries : entries a.run.pool q = (q.deeds s).map (h, ·) := by
      simp only [entries, hq, hsocket, Option.elim_some]
    rcases serve_on (c := c) hq hsocket with ⟨s', hturn, hpool⟩ | ⟨hdropped, hpool⟩
    · refine (hs.put hsocket hturn).of_pool hpool ?_
      exact congrArg (a.ledger ++ ·) hentries
    · refine (hs.leave hsocket).of_pool hpool ?_
      rw [hdropped] at hentries
      exact congrArg (a.ledger ++ ·) hentries
  · have hnone (h : Handle) (htarget : q.target? = some h) : a.run.pool.socket? h = none :=
      Option.eq_none_iff_forall_ne_some.2 fun s hsocket => hq ⟨h, s, htarget, hsocket⟩
    obtain ⟨hnext, hsockets⟩ := serve_apart (c := c) hnone
    have hentries : entries a.run.pool q = [] := by
      unfold entries
      split
      · rfl
      · next h htarget => rw [hnone h htarget]; rfl
    refine hs.congr hnext hsockets ?_
    exact (congrArg (a.ledger ++ ·) hentries).trans (List.append_nil _)

theorem Since.dispatch (hs : Since a₀ a) (h : Handle) (occasion : Occasion) :
    Since a₀ (dispatch c a h occasion) := by
  unfold Audit.dispatch
  split
  · exact hs
  · next s hsocket =>
    split
    · next k hk =>
      have hrun : Since a₀ ((c.behave k h).run (Audit.serve c) (a.note (.called h occasion))).2 :=
        Program.run_keeps (P := Since a₀) (fun q a hs => Since.serve hs q) _ _ (hs.of_pool rfl rfl)
      exact hrun.of_pool rfl rfl
    · split
      · exact hs.leave hsocket
      · exact hs

/-! ### The ledger only grows -/

/-- Every deed that is in the ledger stays there. -/
def Grows (a a' : Audit κ ω) : Prop := ∀ h, a.deeds h <+: a'.deeds h

theorem Grows.trans {a'' : Audit κ ω} (hg : Grows a a') (hg' : Grows a' a'') : Grows a a'' :=
  fun h => (hg h).trans (hg' h)

theorem Since.grows (hs : Since a a') : Grows a a' := by
  intro h
  obtain ⟨deeds, hdeeds, -⟩ := hs.life h
  exact ⟨deeds, hdeeds.symm⟩

theorem grows_put (a : Audit κ ω) (h : Handle) (entered : List Deed) (s : Socket κ) :
    Grows a (a.put h entered s) := by
  intro h'
  by_cases he : h = h'
  · subst he
    rw [deeds_put_self]
    exact List.prefix_append _ _
  · exact (deeds_put_other he).symm ▸ List.prefix_rfl

theorem grows_writeFailed (a : Audit κ ω) (h : Handle) : Grows a (writeFailed c a h) := by
  unfold Audit.writeFailed
  split
  · exact (grows_put a h _ _).trans ((Since.refl _).dispatch h .other).grows
  · exact ((Since.refl a).dispatch h .other).grows

theorem grows_writeFailedAll (failed : List Handle) (a : Audit κ ω) :
    Grows a (failed.foldl (writeFailed c) a) := by
  induction failed generalizing a with
  | nil => exact fun h => List.prefix_rfl
  | cons h failed ih => exact (grows_writeFailed a h).trans (ih _)

theorem FailedSince.mono (hf : FailedSince a₀ a h) (hg : Grows a a') : FailedSince a₀ a' h := by
  obtain ⟨deeds, hdeeds, hfailing⟩ := hf
  obtain ⟨more, hmore⟩ := hg h
  exact ⟨deeds ++ more, by rw [← hmore, hdeeds, List.append_assoc], hfailing.append_right⟩

/-- A flush that failed is entered as such. -/
theorem flushing_of_failed {e : IoError} (h : s.flush.1 = some e) :
    ∃ taken, flushing s = .flushed taken (.failed e) := by
  unfold Socket.flush at h
  cases hflush : s.queue.flush s.sink with
  | mk flushed rest =>
    rw [hflush] at h
    cases flushed with
    | drained => simp at h
    | blocked => simp at h
    | failed e' =>
      obtain rfl : e' = e := by simpa using h
      exact ⟨_, by rw [flushing, hflush]⟩

theorem FailedSince.of_flush {e : IoError} {s' : Socket κ} (hs : Since a₀ a)
    (hfailed : s.flush.1 = some e) : FailedSince a₀ (a.put h [flushing s] s') h := by
  obtain ⟨deeds, hdeeds, -⟩ := hs.life h
  obtain ⟨taken, hflushing⟩ := flushing_of_failed hfailed
  refine ⟨deeds ++ [flushing s], ?_, taken, e, ?_⟩
  · rw [deeds_put_self, hdeeds, List.append_assoc]
  · rw [hflushing]
    exact List.mem_append_right _ List.mem_cons_self

theorem Since.writeFailed (hs : Since a₀ a) (hfailed : FailedSince a₀ a h) :
    Since a₀ (writeFailed c a h) := by
  unfold Audit.writeFailed
  split
  · next s hsocket => exact (hs.clear hsocket hfailed).dispatch h .other
  · exact hs.dispatch h .other

theorem Since.flush (hs : Since a₀ a) (h : Handle) : Since a₀ (flush c a h).2 := by
  unfold Audit.flush
  split
  · exact hs
  · next s hsocket =>
    dsimp only
    split
    · exact hs.put hsocket (.unblock s)
    · have hflushed := hs.put hsocket (.flush s false)
      split
      · exact hflushed
      · next e hfailed =>
        exact hflushed.writeFailed (.of_flush (s := { s with blocked := false }) hs hfailed)

/-! ### What calls and flushes keep -/

section Keeps

variable {P : Audit κ ω → Prop}

/-- A socket is told of trouble only if the report says so. -/
theorem attend_keeps {acc : List Handle × Audit κ ω} {ready : Readiness}
    (hdispatch : ∀ a occasion, (occasion = .other → ready.error = true) → P a →
      P (Audit.dispatch c a ready.handle occasion))
    (hflush : ∀ a, P a → P (Audit.flush c a ready.handle).2) (hacc : P acc.2) :
    P (attend c acc ready).2 := by
  obtain ⟨wrote, a⟩ := acc
  have htold : P (if ready.error then Audit.dispatch c a ready.handle .other else a) := by
    split
    · next herror => exact hdispatch a .other (fun _ => herror) hacc
    · exact hacc
  simp only [Audit.attend]
  generalize (if ready.error then Audit.dispatch c a ready.handle .other else a) = a₁ at htold
  have hread : P (if ready.readable then Audit.dispatch c a₁ ready.handle .readable else a₁) := by
    split
    · exact hdispatch a₁ .readable (by simp) htold
    · exact htold
  generalize (if ready.readable then Audit.dispatch c a₁ ready.handle .readable else a₁) = a₂
    at hread
  split
  · have hflushed := hflush a₂ hread
    split
    · next hanswer =>
      rw [hanswer] at hflushed
      exact hdispatch _ .writable (by simp) hflushed
    · next hanswer =>
      rw [hanswer] at hflushed
      exact hflushed
  · exact hread

theorem attended_keeps {report : Report} (ha : P a)
    (hattend : ∀ acc, ∀ ready ∈ report.ready, P acc.2 → P (attend c acc ready).2) :
    P (attended c report a).2 := by
  have hall (ready : List Readiness) (hready : ready ⊆ report.ready)
      (acc : List Handle × Audit κ ω) (hacc : P acc.2) :
      P (ready.foldl (Audit.attend c) acc).2 := by
    induction ready generalizing acc with
    | nil => exact hacc
    | cons first ready ih =>
      obtain ⟨hfirst, hrest⟩ := List.cons_subset.1 hready
      exact ih hrest _ (hattend acc first hfirst hacc)
  exact hall report.ready (List.Subset.refl _) ([], a) ha

theorem callAll_keeps (hcall : ∀ a h, P a → P (Audit.dispatch c a h .writable)) (ha : P a)
    (wrote handles : List Handle) :
    P (handles.foldl
      (fun a h => if wrote.contains h then a else Audit.dispatch c a h .writable) a) := by
  induction handles generalizing a with
  | nil => exact ha
  | cons h handles ih =>
    refine ih ?_
    dsimp only
    split
    · exact ha
    · exact hcall a h ha

end Keeps

theorem Since.attended (hs : Since a₀ a) (report : Report) : Since a₀ (attended c report a).2 :=
  attended_keeps hs fun _ ready _ hacc =>
    attend_keeps (fun _ occasion _ hs => hs.dispatch ready.handle occasion)
      (fun _ hs => hs.flush ready.handle) hacc

/-- Either nothing is queued, or the socket is flushed. -/
theorem flushQueued_cases (acc : List Handle × Audit κ ω) (h : Handle) :
    (flushQueued acc h = acc ∧ ∀ s, acc.2.socket? h = some s → s.queue.isEmpty = true) ∨
      ∃ s, acc.2.socket? h = some s ∧ s.queue.isEmpty = false ∧
        flushQueued acc h = (if s.flush.1.isSome then acc.1 ++ [h] else acc.1,
          acc.2.put h [flushing s] s.flush.2) := by
  obtain ⟨failed, a⟩ := acc
  cases hsocket : a.socket? h with
  | none =>
    refine .inl ⟨?_, fun s hs => absurd hs (by simp)⟩
    simp only [flushQueued, hsocket]
  | some s =>
    cases hempty : s.queue.isEmpty with
    | true =>
      refine .inl ⟨?_, fun s' hs => ?_⟩
      · simp only [flushQueued, hsocket, hempty, if_true]
      · obtain rfl := Option.some.inj hs
        exact hempty
    | false =>
      refine .inr ⟨s, rfl, hempty, ?_⟩
      simp only [flushQueued, hsocket, hempty, Bool.false_eq_true, if_false]

theorem Since.flushQueued {acc : List Handle × Audit κ ω} (hs : Since a₀ acc.2) (h : Handle) :
    Since a₀ (flushQueued acc h).2 := by
  rcases flushQueued_cases acc h with ⟨hsame, -⟩ | ⟨s, hsocket, -, hflushed⟩
  · rw [hsame]
    exact hs
  · rw [hflushed]
    exact hs.put hsocket (.flush s s.blocked)

theorem Since.flushAll {acc : List Handle × Audit κ ω} (hs : Since a₀ acc.2) (keys : List Handle) :
    Since a₀ (keys.foldl Audit.flushQueued acc).2 := by
  induction keys generalizing acc with
  | nil => exact hs
  | cons h keys ih => exact ih (hs.flushQueued h)

/-- The account of failures has those that have happened. -/
theorem FailedSince.flushQueued {acc : List Handle × Audit κ ω} (hs : Since a₀ acc.2)
    (hf : ∀ h ∈ acc.1, FailedSince a₀ acc.2 h) (h : Handle) :
    ∀ h' ∈ (flushQueued acc h).1, FailedSince a₀ (Audit.flushQueued acc h).2 h' := by
  have hgrows := ((Since.refl acc.2).flushQueued h).grows
  rcases flushQueued_cases acc h with ⟨hsame, -⟩ | ⟨s, -, -, hflushed⟩
  · rw [hsame]
    exact hf
  · intro h' hmem
    rw [hflushed] at hmem hgrows ⊢
    dsimp only at hmem hgrows ⊢
    split at hmem
    · next hsome =>
      obtain ⟨e, hfailed⟩ := Option.isSome_iff_exists.1 hsome
      rcases List.mem_append.1 hmem with hbefore | hnow
      · exact (hf h' hbefore).mono hgrows
      · obtain rfl := List.mem_singleton.1 hnow
        exact .of_flush hs hfailed
    · exact (hf h' hmem).mono hgrows

theorem FailedSince.flushAll {acc : List Handle × Audit κ ω} (hs : Since a₀ acc.2)
    (hf : ∀ h ∈ acc.1, FailedSince a₀ acc.2 h) (keys : List Handle) :
    ∀ h ∈ (keys.foldl Audit.flushQueued acc).1,
      FailedSince a₀ (keys.foldl Audit.flushQueued acc).2 h := by
  induction keys generalizing acc with
  | nil => exact hf
  | cons h keys ih => exact ih (hs.flushQueued h) (.flushQueued hs hf h)

theorem Since.writeFailedAll (hs : Since a₀ a) {failed : List Handle}
    (hfailed : ∀ h ∈ failed, FailedSince a₀ a h) :
    Since a₀ (failed.foldl (Audit.writeFailed c) a) := by
  induction failed generalizing a with
  | nil => exact hs
  | cons h failed ih =>
    obtain ⟨hnow, hrest⟩ := List.forall_mem_cons.1 hfailed
    exact ih (hs.writeFailed hnow) fun h' hmem => (hrest h' hmem).mono (grows_writeFailed a h)

theorem Since.finished {acc : List Handle × Audit κ ω} (hs : Since a₀ acc.2) (report : Report) :
    Since a₀ (finished c report acc) := by
  obtain ⟨wrote, a⟩ := acc
  -- Only the handles of failed flushes are told of a failure, so no queue is dropped but theirs.
  have hflushed := Since.flushAll (show Since a₀ (([] : List Handle), a).2 from hs)
    (report.arrange a.run.pool.sockets.keys)
  have hfailed := FailedSince.flushAll (show Since a₀ (([] : List Handle), a).2 from hs)
    (by simp) (report.arrange a.run.pool.sockets.keys)
  exact callAll_keeps (fun _ h hs => hs.dispatch h .writable)
    (hflushed.writeFailedAll hfailed) _ _

theorem Since.poll (hs : Since a₀ a) (report : Report) : Since a₀ (poll c report a) :=
  (hs.attended report).finished report

end Audit

end IrcBot.Pool
