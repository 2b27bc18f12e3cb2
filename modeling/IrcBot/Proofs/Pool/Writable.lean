/-
Calls for writing. A socket with nothing queued that is not blocked is called for writing in every
pass, whether the system has reported it or not, and by two places of the pass: at once if it is
reported, else at the end. It is called once all the same, and only in that condition
(`called_once_for_writing`), whatever callbacks queue, close or panic at in between, as long as
each acts on its own socket.
-/
import IrcBot.Proofs.Pool.Separation
import IrcBot.Proofs.Pool.Watch

namespace IrcBot.Pool

variable {κ ω ι : Type} {R : Requests}

/-- No socket is reported as writable twice. -/
def Report.Distinct (report : Report) : Prop :=
  ((report.ready.filter (·.writable)).map (·.handle)).Nodup

namespace Watch

/-- The sockets that have been called for writing, once for every call. -/
def written (w : Watch κ ω ι) : List Handle := w.writings.map (·.handle)

/-- All calls for writing were made when nothing was queued and the socket was not blocked. -/
def Timely (w : Watch κ ω ι) : Prop :=
  ∀ call ∈ w.writings, call.socket.queue.isEmpty = true ∧ call.socket.blocked = false

/-- What the account of those called for writing says of the calls. -/
structure Tally (wrote : List Handle) (w : Watch κ ω ι) : Prop where
  timely : w.Timely
  fewer : w.written.Sublist wrote
  /-- Who is in the account without having been called has no callback for writing. -/
  met : ∀ h ∈ wrote, ¬ w.Replaced h → ∀ s, w.socket? h = some s →
    s.callbacks.writable.isSome = true → h ∈ w.written

variable {c : Conduct κ ω R} {w w' : Watch κ ω R.Ask} {h : Handle} {s : Socket κ}
variable {wrote handles : List Handle} {report : Report}

/-! ## One call for writing -/

theorem dispatch_unwanted (hs : w.socket? h = some s) (hk : s.callbacks.writable = none) :
    dispatch c w h .writable = w := by
  have hs : w.run.pool.socket? h = some s := hs
  simp [dispatch, Pool.dispatch, calling, hs, Callbacks.on, hk]

theorem writings_dispatch {k : κ} (hs : w.socket? h = some s)
    (hk : s.callbacks.writable = some k) : ∃ call : Call κ R.Ask, call.handle = h ∧
      call.socket = s ∧ (dispatch c w h .writable).writings = w.writings ++ [call] := by
  have hs : w.run.pool.socket? h = some s := hs
  refine ⟨⟨h, .writable, s,
    (c.behave k h).asked (Pool.serve c) (w.run.note (.called h .writable))⟩, rfl, rfl, ?_⟩
  simp only [writings, dispatch, calling, hs, Callbacks.on, hk, List.filter_append]
  rfl

theorem timely_dispatch (hw : w.Timely) (hs : w.socket? h = some s)
    (hempty : s.queue.isEmpty = true) (hfree : s.blocked = false) :
    (dispatch c w h .writable).Timely := by
  cases hk : s.callbacks.writable with
  | none => rwa [dispatch_unwanted hs hk]
  | some k =>
    obtain ⟨call, -, hsocket, hwritings⟩ := writings_dispatch (c := c) hs hk
    intro call' hcall'
    rw [hwritings, List.mem_append, List.mem_singleton] at hcall'
    rcases hcall' with hcall' | rfl
    · exact hw call' hcall'
    · exact hsocket ▸ ⟨hempty, hfree⟩

/-! ## Ready sockets -/

theorem Tally.aside (ht : Tally wrote w) (ha : Aside w w') : Tally wrote w' := by
  have hwritten : w'.written = w.written := congrArg (List.map Call.handle) ha.writings
  refine ⟨?_, hwritten ▸ ht.fewer, fun h hmem hnot s' hs' hwants => ?_⟩
  · unfold Timely
    rw [ha.writings]
    exact ht.timely
  · obtain ⟨s, hs, hsame⟩ := ha.callbacks h s' hnot hs'
    rw [hwritten]
    exact ht.met h hmem (fun hr => hnot (hr.onward ha.calls)) s hs (hsame ▸ hwants)

/-- A socket that can be written is called at once, and gets into the account. -/
theorem Tally.called (ht : Tally wrote w) (hs : w.socket? h = some s)
    (hempty : s.queue.isEmpty = true) (hfree : s.blocked = false) :
    Tally (wrote ++ [h]) (dispatch c w h .writable) := by
  have htimely := timely_dispatch (c := c) ht.timely hs hempty hfree
  cases hk : s.callbacks.writable with
  | none =>
    rw [dispatch_unwanted hs hk] at htimely ⊢
    refine ⟨htimely, ht.fewer.trans (List.sublist_append_left _ _), fun h' hmem hnot s' hs' => ?_⟩
    intro hwants
    rcases List.mem_append.1 hmem with hmem | hmem
    · exact ht.met h' hmem hnot s' hs' hwants
    · obtain rfl := List.mem_singleton.1 hmem
      cases hs.symm.trans hs'
      rw [hk] at hwants
      cases hwants
  | some k =>
    obtain ⟨call, hcall, -, hwritings⟩ := writings_dispatch (c := c) hs hk
    have hwritten : (dispatch c w h .writable).written = w.written ++ [h] := by
      rw [written, hwritings, List.map_append, List.map_singleton, hcall]
      rfl
    refine ⟨htimely, hwritten ▸ ht.fewer.append_right [h], fun h' hmem hnot s' hs' hwants => ?_⟩
    rw [hwritten]
    rcases List.mem_append.1 hmem with hmem | hmem
    · have honward := onward_dispatch (c := c) w h .writable
      obtain ⟨s₀, hs₀, hsame⟩ := honward.callbacks h' s' hnot hs'
      refine List.mem_append_left _ ?_
      exact ht.met h' hmem (fun hr => hnot (hr.onward honward.calls)) s₀ hs₀ (hsame ▸ hwants)
    · exact List.mem_append_right _ hmem

theorem socket?_flush (hflush : flush c w h = (some true, w')) :
    ∃ s, w'.socket? h = some s ∧ s.queue.isEmpty = true ∧ s.blocked = false := by
  unfold flush at hflush
  split at hflush
  · cases hflush
  · next s hs =>
    dsimp only at hflush
    split at hflush
    · next hempty =>
      cases hflush
      exact ⟨_, socket?_set_self, hempty, rfl⟩
    · split at hflush <;> cases hflush

/-- Seeing to a ready socket keeps the account right; it gets longer only by a socket that is
reported as writable. -/
theorem Tally.attend (ht : Tally wrote w) (ready : Readiness) :
    Tally (attend c (wrote, w) ready).1 (attend c (wrote, w) ready).2 ∧
      ((attend c (wrote, w) ready).1 = wrote ∨ ready.writable = true ∧
        (attend c (wrote, w) ready).1 = wrote ++ [ready.handle]) := by
  have htold : Aside w (tell c w ready) := (kept_aside w).tell ready (.refl w)
  unfold Watch.attend
  dsimp only
  split
  · next hwritable =>
    have hflushed := (kept_aside (c := c) w).flush ready.handle htold
    split
    · next w' hflush =>
      obtain ⟨s, hs, hempty, hfree⟩ := socket?_flush hflush
      rw [hflush] at hflushed
      exact ⟨(ht.aside hflushed).called hs hempty hfree, .inr ⟨hwritable, rfl⟩⟩
    · next hflush =>
      rw [hflush] at hflushed
      exact ⟨ht.aside hflushed, .inl rfl⟩
  · exact ⟨ht.aside htold, .inl rfl⟩

theorem Tally.attended (ht : Tally wrote w) (ready : List Readiness) :
    Tally (ready.foldl (Watch.attend c) (wrote, w)).1 (ready.foldl (Watch.attend c) (wrote, w)).2 ∧
      (ready.foldl (Watch.attend c) (wrote, w)).1.Sublist
        (wrote ++ (ready.filter (·.writable)).map (·.handle)) := by
  induction ready generalizing wrote w with
  | nil => exact ⟨ht, by simp⟩
  | cons e ready ih =>
    obtain ⟨hnext, hgrown⟩ := ht.attend (c := c) e
    obtain ⟨hlast, hsub⟩ := ih hnext
    refine ⟨hlast, hsub.trans ?_⟩
    rcases hgrown with hgrown | ⟨hwritable, hgrown⟩
    · rw [hgrown, List.filter_cons]
      refine List.Sublist.append_left (List.Sublist.map _ ?_) wrote
      split
      · exact List.sublist_cons_self _ _
      · exact .refl _
    · rw [hgrown, List.filter_cons_of_pos hwritable, List.map_cons, List.append_assoc]
      exact .refl _

/-- Once what is queued has been flushed, the account is right and holds nobody twice. -/
theorem tally_settled (r : Run κ ω) (hdistinct : report.Distinct) :
    Tally (settled c report { run := r }).1 (settled c report { run := r }).2 ∧
      (settled c report { run := r }).1.Nodup := by
  have hstart : Tally [] ({ run := r } : Watch κ ω R.Ask) :=
    ⟨fun _ hcall => (List.not_mem_nil hcall).elim, .refl [],
      fun _ hmem => (List.not_mem_nil hmem).elim⟩
  obtain ⟨hattended, hsub⟩ := hstart.attended (c := c) report.ready
  have haside : Aside (report.ready.foldl (attend c) ([], { run := r })).2
      (settled c report { run := r }).2 := (kept_aside _).settled (.refl _)
  exact ⟨hattended.aside haside, hdistinct.sublist hsub⟩

/-! ## The others -/

/-- A callback that asks for its own socket only leaves the others alone. -/
theorem socket?_dispatch_other {occasion : Occasion} (hown : (dispatch c w h occasion).Own)
    {h' : Handle} (hne : h' ≠ h) : (dispatch c w h occasion).socket? h' = w.socket? h' := by
  refine dispatch_keeps (P := fun r : Run κ ω => r.pool.socket? h' = w.socket? h')
    (Q := fun q => ∀ x ∈ q.target?, x = h) (fun q r hq hr => ?_) (fun _ _ hr => hr)
    (fun r hr => ?_) (fun call hcall q hq x hx => ?_) rfl
  · refine (socket?_serve_other fun x hx he => ?_).trans hr
    exact hne (he.symm.trans (hq x hx))
  · exact (socket?_close_other (Ne.symm hne)).trans hr
  · rw [hown call (List.mem_append_right _ hcall) q hq x hx]
    exact (occasion_calling call hcall).1

theorem calls_callAll (wrote handles : List Handle) (w : Watch κ ω R.Ask) :
    w.calls <+: (callAll c wrote handles w).calls := by
  refine List.foldlRecOn (motive := fun w' : Watch κ ω R.Ask => w.calls <+: w'.calls) handles _
    List.prefix_rfl fun w' hw' h _ => ?_
  split
  · exact hw'
  · exact hw'.trans (List.prefix_append _ _)

theorem Own.of_prefix {u u' : Watch κ ω ι} (hown : u'.Own) (hcalls : u.calls <+: u'.calls) :
    u.Own := fun call hcall => hown call (hcalls.subset hcall)

/-- Of the sockets that want to write exactly those are called that have not been yet. -/
theorem written_callAll (hnodup : handles.Nodup)
    (hwant : ∀ h ∈ handles, ∃ s, w.socket? h = some s ∧ s.wantsWriting = true)
    (hown : (callAll c wrote handles w).Own) (hw : w.Timely) :
    (callAll c wrote handles w).written =
        w.written ++ handles.filter (fun h => !wrote.contains h) ∧
      (callAll c wrote handles w).Timely := by
  induction handles generalizing w with
  | nil => exact ⟨(List.append_nil _).symm, hw⟩
  | cons h handles ih =>
    obtain ⟨hh, hnodup⟩ := List.nodup_cons.1 hnodup
    obtain ⟨s, hs, hwants⟩ := hwant h List.mem_cons_self
    have hrest := fun x hx => hwant x (List.mem_cons_of_mem h hx)
    have hstep : callAll c wrote (h :: handles) w =
        callAll c wrote handles (if wrote.contains h then w else dispatch c w h .writable) := rfl
    rw [hstep] at hown ⊢
    by_cases hcalled : wrote.contains h = true
    · rw [if_pos hcalled] at hown ⊢
      rw [List.filter_cons_of_neg (by rw [hcalled]; decide)]
      exact ih hnodup hrest hown hw
    · rw [if_neg hcalled] at hown ⊢
      rw [List.filter_cons_of_pos (by rw [Bool.not_eq_true] at hcalled; rw [hcalled]; rfl)]
      simp only [Socket.wantsWriting, Bool.and_eq_true, Bool.not_eq_true',
        Option.isSome_iff_exists] at hwants
      obtain ⟨⟨⟨k, hk⟩, hempty⟩, hfree⟩ := hwants
      have hown' : (dispatch c w h .writable).Own := hown.of_prefix (calls_callAll _ _ _)
      obtain ⟨hwritten, htimely⟩ := ih hnodup
        (fun x hx => by
          rw [socket?_dispatch_other hown' (by rintro rfl; exact hh hx)]
          exact hrest x hx)
        hown (timely_dispatch hw hs hempty hfree)
      obtain ⟨call, hcall, -, hwritings⟩ := writings_dispatch (c := c) hs hk
      refine ⟨?_, htimely⟩
      rw [hwritten, written, hwritings, List.map_append, List.map_singleton, hcall,
        List.append_assoc]
      rfl

/-! ## The pass -/

/-- The end of a pass: who has been called is not called again, and who has not is called. -/
theorem once_callAll (ht : Tally wrote w) (hwrote : wrote.Nodup) (hfair : report.Fair)
    (hlast : callAll c wrote (report.arrange w.run.pool.wantingWriting) w = w') (hown : w'.Own) :
    w'.written.Nodup ∧ w'.Timely ∧
      ∀ h s, w.socket? h = some s → s.wantsWriting = true → ¬ w'.Replaced h →
        w'.written.count h = 1 := by
  subst hlast
  have hperm := hfair w.run.pool.wantingWriting
  have hmem (h : Handle) : h ∈ report.arrange w.run.pool.wantingWriting ↔
      ∃ s, w.socket? h = some s ∧ s.wantsWriting = true := by
    rw [hperm.mem_iff, mem_wantingWriting, Option.any_eq_true]
    rfl
  have hnodup := hperm.nodup_iff.2 (nodup_wantingWriting w.run.pool)
  have hcalls := calls_callAll (c := c) wrote (report.arrange w.run.pool.wantingWriting) w
  obtain ⟨hwritten, htimely⟩ := written_callAll hnodup (fun h => (hmem h).1) hown ht.timely
  have honce : (w.written ++ (report.arrange w.run.pool.wantingWriting).filter
      fun h => !wrote.contains h).Nodup := by
    refine List.Nodup.append (hwrote.sublist ht.fewer) (hnodup.filter _) fun h hcalled hrest => ?_
    have hnew := (List.mem_filter.1 hrest).2
    simp [ht.fewer.subset hcalled] at hnew
  rw [hwritten]
  refine ⟨honce, htimely, fun h s hs hwants hnot => List.count_eq_one_of_mem honce ?_⟩
  by_cases hcalled : h ∈ wrote
  · refine List.mem_append_left _ (ht.met h hcalled (fun hr => hnot (hr.onward hcalls)) s hs ?_)
    simp only [Socket.wantsWriting, Bool.and_eq_true] at hwants
    exact hwants.1.1
  · refine List.mem_append_right _ (List.mem_filter.2 ⟨(hmem h).2 ⟨s, hs, hwants⟩, ?_⟩)
    simpa using hcalled

/-- **A socket that can be written is called once.** Take any pass whose report names no socket as
writable twice, and in which every callback that is called asks for its own socket only. No socket
is called for writing more than once; each such call is made when nothing is queued for the socket
and it is not blocked; and whoever, once what is queued has been flushed, has a callback for
writing, nothing queued and is not blocked, is called exactly once, reported or not, unless its
callbacks have been replaced in the pass. -/
theorem called_once_for_writing (c : Conduct κ ω R) (report : Report) (r : Run κ ω)
    (hfair : report.Fair) (hdistinct : report.Distinct)
    (hown : (poll c report { run := r }).Own) :
    let w := poll c report { run := r }
    w.run = Pool.poll c report r ∧
      w.run.called = r.called ++ w.calls.map (fun call => (call.handle, call.occasion)) ∧
      w.written.Nodup ∧ w.Timely ∧
      ∀ h s, (Pool.settled c report r).2.pool.socket? h = some s → s.wantsWriting = true →
        ¬ w.Replaced h → w.written.count h = 1 := by
  intro w
  have hrun : w.run = Pool.poll c report r := poll_run c report { run := r }
  refine ⟨hrun, hrun ▸ called_poll c report r, ?_⟩
  have hsettled : forget (settled c report { run := r }) = Pool.settled c report r :=
    forget_settled c report { run := r }
  obtain ⟨htally, hwrote⟩ := tally_settled (c := c) r hdistinct
  rw [← hsettled]
  exact once_callAll htally hwrote hfair rfl hown

/-- A conduct in which a socket that may write queues two bytes, does nothing or panics. -/
def writers : Conduct Nat Unit (.writing Unit) where
  behave
    | 0, h => .ask (R := requests Nat (.writing Unit)) (.enqueue h [104, 105]) fun _ => .done ()
    | 1, _ => .done ()
    | _, _ => .panicked
  perform _ world := ((), world)

/-- A socket for each of the three, of which the second has something queued. -/
def threeWriters : Run Nat Unit :=
  [Step.add {} { writable := some 0 }, .add {} { writable := some 1 },
    .add {} { writable := some 2 }, .ask (.enqueue 1 [104, 105])].foldl (Run.step writers)
    (.fresh Nat 5 ())

theorem three_writers_called_once :
    let report : Report := { ready := [⟨0, false, true, false⟩], arrange := List.reverse }
    let w := poll writers report { run := threeWriters }
    report.Fair ∧ report.Distinct ∧ w.Own ∧ w.written.count 0 = 1 ∧ w.written.count 1 = 1 ∧
      w.written.count 2 = 1 := by
  intro report w
  have hasked : ∀ call ∈ w.calls, ∀ q ∈ call.asked,
      (∀ h ∈ q.target?, h = call.handle) ∧ ∀ h callbacks, q ≠ .update h callbacks := by
    refine asked_poll (P := fun h q => (∀ x ∈ q.target?, x = h) ∧
      ∀ x callbacks, q ≠ .update x callbacks) (fun k h => ?_) report threeWriters
    match k with
    | 0 => exact ⟨⟨fun x hx => (Option.mem_some.1 hx).symm, by simp⟩, fun _ => trivial⟩
    | 1 => trivial
    | _ + 2 => trivial
  have hfair : report.Fair := List.reverse_perm
  have hdistinct : report.Distinct := List.nodup_singleton 0
  have hown : w.Own := fun call hcall q hq => (hasked call hcall q hq).1
  obtain ⟨-, -, -, -, honce⟩ :=
    called_once_for_writing writers report threeWriters hfair hdistinct hown
  have hcount (h : Handle) (hwants : ((Pool.settled writers report threeWriters).2.pool.socket?
      h).any (·.wantsWriting) = true) : w.written.count h = 1 := by
    obtain ⟨s, hs, hwants⟩ := (Option.any_eq_true _ _).1 hwants
    refine honce h s hs hwants ?_
    rintro ⟨call, hcall, callbacks, hq⟩
    exact (hasked call hcall _ hq).2 h callbacks rfl
  exact ⟨hfair, hdistinct, hown, hcount 0 (by decide +kernel), hcount 1 (by decide +kernel), hcount 2 (by decide +kernel)⟩

end Watch

end IrcBot.Pool
