/-
A pass with its calls. Beside the run a watch keeps which callbacks are called, on which
occasion, how the socket is at that moment, and what the callback asks for. The watched pass makes
the same steps as the pass itself (`Watch.poll_run`), and its calls are those that the pass notes
(`Watch.called_poll`).
-/
import IrcBot.Proofs.Pool.Lives

namespace IrcBot.Pool

variable {κ ω ι : Type} {R : Requests}

/-- One call of a callback. -/
structure Call (κ ι : Type) where
  handle : Handle
  occasion : Occasion
  /-- The socket at the moment of the call. -/
  socket : Socket κ
  asked : List (Ask κ ι)

/-- The call that a note tells of. -/
def Note.call? : Note → Option (Handle × Occasion)
  | .called h occasion => some (h, occasion)
  | .returned .. | .read .. => none

/-- The calls that are noted. -/
def Run.called (r : Run κ ω) : List (Handle × Occasion) := r.notes.toList.filterMap Note.call?

/-- The first parts of a pass: ready sockets are seen to, and what is queued is flushed. It goes
with the sockets called back for writing. -/
def settled (c : Conduct κ ω R) (report : Report) (r : Run κ ω) : List Handle × Run κ ω :=
  let (wrote, r) := report.ready.foldl (attend c) ([], r)
  let (failed, pool) := (report.arrange r.pool.sockets.keys).foldl flushQueued ([], r.pool)
  (wrote, failed.foldl (writeFailed c) { r with pool })

/-- A pass ends by calling those who want to write and have not been called yet. -/
theorem poll_eq_settled (c : Conduct κ ω R) (report : Report) (r : Run κ ω) :
    poll c report r =
      (report.arrange (settled c report r).2.pool.wantingWriting).foldl
        (fun r' h => if (settled c report r).1.contains h then r' else dispatch c r' h .writable)
        (settled c report r).2 := rfl

/-- A run with its calls. -/
structure Watch (κ ω ι : Type) where
  run : Run κ ω
  calls : List (Call κ ι) := []

namespace Watch

def socket? (w : Watch κ ω ι) (h : Handle) : Option (Socket κ) := w.run.pool.socket? h

def withPool (w : Watch κ ω ι) (pool : Pool κ) : Watch κ ω ι :=
  { w with run := { w.run with pool } }

/-- The calls for writing. -/
def writings (w : Watch κ ω ι) : List (Call κ ι) := w.calls.filter (·.occasion = .writable)

/-- Some callback has replaced the callbacks of a socket. -/
def Replaced (w : Watch κ ω ι) (h : Handle) : Prop :=
  ∃ call ∈ w.calls, ∃ callbacks, .update h callbacks ∈ call.asked

/-- Every callback asks for its own socket only. -/
def Own (w : Watch κ ω ι) : Prop :=
  ∀ call ∈ w.calls, ∀ q ∈ call.asked, ∀ h ∈ q.target?, h = call.handle

/-! ## The watched pass -/

/-- The call that calling a socket back comes to, if it has a callback for the occasion. -/
def calling (c : Conduct κ ω R) (r : Run κ ω) (h : Handle) (occasion : Occasion) :
    List (Call κ R.Ask) :=
  match r.pool.socket? h with
  | none => []
  | some s =>
    match s.callbacks.on occasion with
    | some k =>
      let asked := (c.behave k h).asked (Pool.serve c) (r.note (.called h occasion))
      [{ handle := h, occasion, socket := s, asked }]
    | none => []

def dispatch (c : Conduct κ ω R) (w : Watch κ ω R.Ask) (h : Handle) (occasion : Occasion) :
    Watch κ ω R.Ask where
  run := Pool.dispatch c w.run h occasion
  calls := w.calls ++ calling c w.run h occasion

def writeFailed (c : Conduct κ ω R) (w : Watch κ ω R.Ask) (h : Handle) : Watch κ ω R.Ask :=
  let w := match w.socket? h with
    | some s => w.withPool (w.run.pool.set h { s with queue := s.queue.clear })
    | none => w
  dispatch c w h .other

def flush (c : Conduct κ ω R) (w : Watch κ ω R.Ask) (h : Handle) :
    Option Bool × Watch κ ω R.Ask :=
  match w.socket? h with
  | none => (none, w)
  | some s =>
    let s := { s with blocked := false }
    if s.queue.isEmpty then (some true, w.withPool (w.run.pool.set h s))
    else
      let w := w.withPool (w.run.pool.set h s.flush.2)
      match s.flush.1 with
      | none => (some false, w)
      | some _ => (none, writeFailed c w h)

/-- A ready socket is told of trouble, and read. -/
def tell (c : Conduct κ ω R) (w : Watch κ ω R.Ask) (ready : Readiness) : Watch κ ω R.Ask :=
  let w := if ready.error then dispatch c w ready.handle .other else w
  if ready.readable then dispatch c w ready.handle .readable else w

def attend (c : Conduct κ ω R) (acc : List Handle × Watch κ ω R.Ask) (ready : Readiness) :
    List Handle × Watch κ ω R.Ask :=
  let (wrote, w) := acc
  let w := tell c w ready
  if ready.writable then
    match flush c w ready.handle with
    | (some true, w) => (wrote ++ [ready.handle], dispatch c w ready.handle .writable)
    | (_, w) => (wrote, w)
  else (wrote, w)

def settled (c : Conduct κ ω R) (report : Report) (w : Watch κ ω R.Ask) :
    List Handle × Watch κ ω R.Ask :=
  let (wrote, w) := report.ready.foldl (attend c) ([], w)
  let (failed, pool) := (report.arrange w.run.pool.sockets.keys).foldl flushQueued ([], w.run.pool)
  (wrote, failed.foldl (writeFailed c) (w.withPool pool))

/-- The last part of a pass: those are called who want to write and have not been called yet. -/
def callAll (c : Conduct κ ω R) (wrote handles : List Handle) (w : Watch κ ω R.Ask) :
    Watch κ ω R.Ask :=
  handles.foldl (fun w h => if wrote.contains h then w else dispatch c w h .writable) w

def poll (c : Conduct κ ω R) (report : Report) (w : Watch κ ω R.Ask) : Watch κ ω R.Ask :=
  let (wrote, w) := settled c report w
  callAll c wrote (report.arrange w.run.pool.wantingWriting) w

/-! ## Watching changes nothing -/

section Steps

variable (c : Conduct κ ω R)

theorem writeFailed_run (w : Watch κ ω R.Ask) (h : Handle) :
    (writeFailed c w h).run = Pool.writeFailed c w.run h := by
  unfold writeFailed Pool.writeFailed socket?
  cases w.run.pool.socket? h <;> rfl

/-- What is left of some answer and a watch without the calls. -/
def forget {α : Type} (acc : α × Watch κ ω ι) : α × Run κ ω := (acc.1, acc.2.run)

theorem forget_flush (w : Watch κ ω R.Ask) (h : Handle) :
    forget (flush c w h) = Pool.flush c w.run h := by
  unfold flush Pool.flush socket?
  cases w.run.pool.socket? h with
  | none => rfl
  | some s =>
    dsimp only
    split
    · rfl
    · cases ({ s with blocked := false } : Socket κ).flush.1 with
      | none => rfl
      | some e => exact congrArg (Prod.mk none) (writeFailed_run c _ h)

theorem forget_attend (acc : List Handle × Watch κ ω R.Ask) (ready : Readiness) :
    forget (attend c acc ready) = Pool.attend c (forget acc) ready := by
  obtain ⟨wrote, w⟩ := acc
  have htold (told : Bool) (occasion : Occasion) (w : Watch κ ω R.Ask) :
      (if told then dispatch c w ready.handle occasion else w).run =
        if told then Pool.dispatch c w.run ready.handle occasion else w.run := by
    split <;> rfl
  simp only [attend, tell, Pool.attend, forget]
  rw [← htold ready.error .other w, ← htold ready.readable .readable _]
  generalize (if ready.readable then _ else _ : Watch κ ω R.Ask) = w
  split
  · rw [← forget_flush]
    rcases flush c w ready.handle with ⟨_ | _ | _, w⟩ <;> rfl
  · rfl

theorem forget_settled (report : Report) (w : Watch κ ω R.Ask) :
    forget (settled c report w) = Pool.settled c report w.run := by
  have hattended : forget (report.ready.foldl (attend c) ([], w)) =
      report.ready.foldl (Pool.attend c) ([], w.run) :=
    (List.foldl_hom forget fun acc ready => (forget_attend c acc ready).symm).symm
  unfold settled Pool.settled
  rw [← hattended]
  have hfailed (failed : List Handle) (w : Watch κ ω R.Ask) :
      (failed.foldl (writeFailed c) w).run = failed.foldl (Pool.writeFailed c) w.run :=
    (List.foldl_hom Watch.run fun w h => (writeFailed_run c w h).symm).symm
  exact congrArg (Prod.mk _) (hfailed _ _)

theorem callAll_run (wrote handles : List Handle) (w : Watch κ ω R.Ask) :
    (callAll c wrote handles w).run = handles.foldl
      (fun r h => if wrote.contains h then r else Pool.dispatch c r h .writable) w.run := by
  refine (List.foldl_hom Watch.run fun w h => ?_).symm
  split <;> rfl

/-- **The watched pass makes the same steps as the pass.** -/
theorem poll_run (report : Report) (w : Watch κ ω R.Ask) :
    (poll c report w).run = Pool.poll c report w.run := by
  unfold poll
  rw [callAll_run, poll_eq_settled, ← forget_settled]
  rfl

end Steps

/-! ## What a request and a call do -/

section Calls

variable {c : Conduct κ ω R} {q : Ask κ R.Ask} {r : Run κ ω} {h h' : Handle} {s' : Socket κ}
variable {w : Watch κ ω R.Ask} {occasion : Occasion}

/-- A request for another socket leaves a socket alone. -/
theorem socket?_serve_other (hq : ∀ x ∈ q.target?, x ≠ h) :
    (Pool.serve c q r).2.pool.socket? h = r.pool.socket? h := by
  by_cases hpresent : ∃ x s, q.target? = some x ∧ r.pool.socket? x = some s
  · obtain ⟨x, s, htarget, hs⟩ := hpresent
    rcases Audit.serve_on (c := c) htarget hs with ⟨s', -, hpool⟩ | ⟨-, hpool⟩
    · rw [hpool, socket?_set_other (hq x htarget)]
    · rw [hpool, socket?_close_other (hq x htarget)]
  · refine (Audit.serve_apart fun x htarget => ?_).2 h
    exact Option.eq_none_iff_forall_ne_some.2 fun s hs => hpresent ⟨x, s, htarget, hs⟩

/-- A request that does not replace the callbacks of a socket leaves them, and adds no socket. -/
theorem callbacks_serve (hq : ∀ callbacks, q ≠ .update h callbacks)
    (hs' : (Pool.serve c q r).2.pool.socket? h = some s') :
    ∃ s, r.pool.socket? h = some s ∧ s'.callbacks = s.callbacks := by
  by_cases htarget : q.target? = some h
  · cases hs : r.pool.socket? h with
    | none =>
      have hsame := (Audit.serve_apart (c := c) (q := q) (r := r) fun x hx => by
        cases htarget.symm.trans hx; exact hs).2 h
      exact ⟨s', hs.symm.trans (hsame.symm.trans hs'), rfl⟩
    | some s =>
      refine ⟨s, rfl, ?_⟩
      cases q with
      | update x callbacks =>
        cases htarget
        exact absurd rfl (hq callbacks)
      | readLine x | drain x | enqueue x bytes | remove x | close x | contains x | pending? x =>
        cases htarget
        simp_all [Pool.serve, Run.apply, readLine, Pool.drain, enqueue, withSocket, Run.note,
          socket?_remove_self]
        all_goals exact hs' ▸ rfl
      | stop | act i => cases htarget
  · refine ⟨s', ?_, rfl⟩
    rwa [socket?_serve_other (by rintro x hx rfl; exact htarget hx)] at hs'

theorem called_serve : (Pool.serve c q r).2.called = r.called := by
  cases q with
  | readLine x | drain x => simp [Pool.serve, Run.apply, Run.called, Note.call?]
  | _ => rfl

/-- What every request that a called callback makes keeps, and closing keeps, a call keeps. -/
theorem dispatch_keeps {P : Run κ ω → Prop} {Q : Ask κ R.Ask → Prop}
    (hserve : ∀ q r, Q q → P r → P (Pool.serve c q r).2) (hnote : ∀ r n, P r → P (r.note n))
    (hclose : ∀ r, P r → P { r with pool := (r.pool.close h).2 })
    (hasked : ∀ call ∈ calling c r h occasion, ∀ q ∈ call.asked, Q q) (hr : P r) :
    P (Pool.dispatch c r h occasion) := by
  unfold calling at hasked
  unfold Pool.dispatch
  split
  · exact hr
  · next s hs =>
    simp only [hs] at hasked
    split
    · next k hk =>
      simp only [hk, List.mem_singleton, forall_eq] at hasked
      exact hnote _ _ (Program.run_keeps_asked hserve _ _ hasked (hnote _ _ hr))
    · split
      · exact hclose r hr
      · exact hr

theorem called_dispatch : (dispatch c w h occasion).run.called =
    w.run.called ++
      (calling c w.run h occasion).map fun call => (call.handle, call.occasion) := by
  have hnote (r : Run κ ω) (n : Note) : (r.note n).called = r.called ++ n.call?.toList := by
    unfold Run.called
    rw [Run.toList_notes_note, List.filterMap_append]
    cases hn : n.call? <;> simp [hn]
  unfold dispatch Pool.dispatch calling
  cases w.run.pool.socket? h with
  | none => exact (List.append_nil _).symm
  | some s =>
    dsimp only
    cases s.callbacks.on occasion with
    | none =>
      dsimp only
      rw [List.map_nil, List.append_nil]
      split <;> rfl
    | some k =>
      have hrun : ((c.behave k h).run (Pool.serve c) (w.run.note (.called h occasion))).2.called =
          (w.run.note (.called h occasion)).called :=
        Program.run_keeps (P := fun r : Run κ ω => r.called = _)
          (fun q r hr => called_serve.trans hr) _ _ rfl
      dsimp only
      rw [hnote, hrun, hnote]
      simp [Note.call?]

end Calls

/-! ## What the parts of a pass keep -/

/-- What calls for no writing keep, and changes of a socket that leave its callbacks. -/
structure Kept (c : Conduct κ ω R) (P : Watch κ ω R.Ask → Prop) : Prop where
  dispatch : ∀ w h occasion, occasion ≠ .writable → P w → P (dispatch c w h occasion)
  set : ∀ w h s s', w.socket? h = some s → s'.callbacks = s.callbacks → P w →
    P (w.withPool (w.run.pool.set h s'))

namespace Kept

variable {c : Conduct κ ω R} {P : Watch κ ω R.Ask → Prop} {w : Watch κ ω R.Ask}

theorem tell (hP : Kept c P) (ready : Readiness) (hw : P w) : P (tell c w ready) := by
  have htold (told : Bool) (occasion : Occasion) (hoccasion : occasion ≠ .writable)
      (w : Watch κ ω R.Ask) (hw : P w) :
      P (if told then Watch.dispatch c w ready.handle occasion else w) := by
    split
    · exact hP.dispatch w ready.handle occasion hoccasion hw
    · exact hw
  exact htold _ .readable (by decide) _ (htold _ .other (by decide) _ hw)

theorem writeFailed (hP : Kept c P) (h : Handle) (hw : P w) : P (writeFailed c w h) := by
  refine hP.dispatch _ h .other (by decide) ?_
  split
  · next s hs => exact hP.set w h s { s with queue := s.queue.clear } hs rfl hw
  · exact hw

theorem flush (hP : Kept c P) (h : Handle) (hw : P w) : P (flush c w h).2 := by
  unfold Watch.flush
  split
  · exact hw
  · next s hs =>
    dsimp only
    split
    · exact hP.set w h s { s with blocked := false } hs rfl hw
    · have hflushed := hP.set w h s _ hs (Socket.callbacks_flush { s with blocked := false }) hw
      split
      · exact hflushed
      · exact hP.writeFailed h hflushed

theorem flushAll (hP : Kept c P) (handles : List Handle) {acc : List Handle × Pool κ}
    (hacc : P (w.withPool acc.2)) : P (w.withPool (handles.foldl flushQueued acc).2) := by
  refine List.foldlRecOn (motive := fun acc : List Handle × Pool κ => P (w.withPool acc.2))
    handles flushQueued hacc fun acc hacc h _ => ?_
  unfold flushQueued
  dsimp only
  split
  · exact hacc
  · next s hs =>
    split
    · exact hacc
    · exact hP.set (w.withPool acc.2) h s _ hs s.callbacks_flush hacc

theorem writeFailedAll (hP : Kept c P) (failed : List Handle) (hw : P w) :
    P (failed.foldl (Watch.writeFailed c) w) :=
  List.foldlRecOn failed (Watch.writeFailed c) hw fun _ hw h _ => hP.writeFailed h hw

/-- After the ready sockets have been seen to, until what is queued is flushed. -/
theorem settled (hP : Kept c P) {report : Report} (hw : P (report.ready.foldl (attend c) ([], w)).2) :
    P (settled c report w).2 := hP.writeFailedAll _ (hP.flushAll _ hw)

variable (hcall : ∀ w h, P w → P (Watch.dispatch c w h .writable))

include hcall

theorem attend (hP : Kept c P) (acc : List Handle × Watch κ ω R.Ask) (ready : Readiness)
    (hacc : P acc.2) : P (attend c acc ready).2 := by
  have htold := hP.tell ready hacc
  unfold Watch.attend
  dsimp only
  split
  · have hflushed := hP.flush ready.handle htold
    split
    · next w hflush =>
      rw [hflush] at hflushed
      exact hcall w ready.handle hflushed
    · next hflush =>
      rw [hflush] at hflushed
      exact hflushed
  · exact htold

/-- What calls for writing keep as well, the pass keeps. -/
theorem poll (hP : Kept c P) (report : Report) (hw : P w) : P (poll c report w) := by
  have hattended : P (report.ready.foldl (Watch.attend c) ([], w)).2 :=
    List.foldlRecOn (motive := fun acc : List Handle × Watch κ ω R.Ask => P acc.2) report.ready _
      hw fun acc hacc ready _ => hP.attend hcall acc ready hacc
  refine List.foldlRecOn _ _ (hP.settled hattended) fun w hw h _ => ?_
  split
  · exact hw
  · exact hcall w h hw

end Kept

/-- The calls that are noted since some run are those that are kept. -/
def Tells (r : Run κ ω) (w : Watch κ ω ι) : Prop :=
  w.run.called = r.called ++ w.calls.map fun call => (call.handle, call.occasion)

theorem Tells.dispatch {c : Conduct κ ω R} {r : Run κ ω} {w : Watch κ ω R.Ask} (hw : Tells r w)
    (h : Handle) (occasion : Occasion) : Tells r (dispatch c w h occasion) := by
  unfold Tells
  rw [called_dispatch, hw, List.append_assoc, ← List.map_append]
  rfl

/-- **The calls of the watched pass are those that the pass notes.** -/
theorem called_poll (c : Conduct κ ω R) (report : Report) (r : Run κ ω) :
    (Pool.poll c report r).called = r.called ++
      (poll c report { run := r }).calls.map fun call => (call.handle, call.occasion) := by
  have hkept : Kept c (Tells r) :=
    ⟨fun _ h occasion _ hw => hw.dispatch h occasion, fun _ _ _ _ _ _ hw => hw⟩
  rw [← poll_run c report { run := r }]
  exact hkept.poll (fun _ h hw => hw.dispatch h .writable) report (List.append_nil _).symm

/-- What callbacks ask for is of the kind that they may ask for. -/
theorem asked_poll {c : Conduct κ ω R} {P : Handle → Ask κ R.Ask → Prop}
    (hc : ∀ k h, (c.behave k h).Asks (P h)) (report : Report) (r : Run κ ω) :
    ∀ call ∈ (poll c report { run := r }).calls, ∀ q ∈ call.asked, P call.handle q := by
  have hcalling (r : Run κ ω) (h : Handle) (occasion : Occasion) :
      ∀ call ∈ calling c r h occasion, ∀ q ∈ call.asked, P call.handle q := by
    unfold calling
    split
    · simp
    · split
      · next k _ =>
        rintro call hcall
        obtain rfl := List.mem_singleton.1 hcall
        exact (hc k h).of_asked _
      · simp
  have hdispatch (w : Watch κ ω R.Ask) (h : Handle) (occasion : Occasion)
      (hw : ∀ call ∈ w.calls, ∀ q ∈ call.asked, P call.handle q) :
      ∀ call ∈ (dispatch c w h occasion).calls, ∀ q ∈ call.asked, P call.handle q :=
    List.forall_mem_append.2 ⟨hw, hcalling w.run h occasion⟩
  have hkept : Kept c fun w => ∀ call ∈ w.calls, ∀ q ∈ call.asked, P call.handle q :=
    ⟨fun w h occasion _ hw => hdispatch w h occasion hw, fun _ _ _ _ _ _ hw => hw⟩
  exact hkept.poll (fun w h hw => hdispatch w h .writable hw) report (by simp)

/-- A later moment: more has been called, and the callbacks of a socket are as they were unless
they have been replaced. -/
structure Onward (w w' : Watch κ ω ι) : Prop where
  calls : w.calls <+: w'.calls
  callbacks : ∀ h s', ¬ w'.Replaced h → w'.socket? h = some s' →
    ∃ s, w.socket? h = some s ∧ s'.callbacks = s.callbacks

/-- A later moment before which nobody has been called for writing. -/
structure Aside (w w' : Watch κ ω ι) : Prop extends Onward w w' where
  writings : w'.writings = w.writings

section Later

variable {c : Conduct κ ω R} {w w' : Watch κ ω R.Ask} {u u' u'' : Watch κ ω ι} {h : Handle}

theorem Replaced.onward (hr : u.Replaced h) (ho : u.calls <+: u'.calls) : u'.Replaced h := by
  obtain ⟨call, hcall, hasked⟩ := hr
  exact ⟨call, ho.subset hcall, hasked⟩

theorem Onward.refl (u : Watch κ ω ι) : Onward u u :=
  ⟨List.prefix_rfl, fun _ s' _ hs' => ⟨s', hs', rfl⟩⟩

theorem Onward.trans (ho : Onward u u') (ho' : Onward u' u'') : Onward u u'' := by
  refine ⟨ho.calls.trans ho'.calls, fun h s'' hnot hs'' => ?_⟩
  obtain ⟨s', hs', hsame'⟩ := ho'.callbacks h s'' hnot hs''
  obtain ⟨s, hs, hsame⟩ := ho.callbacks h s' (fun hr => hnot (hr.onward ho'.calls)) hs'
  exact ⟨s, hs, hsame'.trans hsame⟩

theorem onward_dispatch (w : Watch κ ω R.Ask) (h : Handle) (occasion : Occasion) :
    Onward w (dispatch c w h occasion) := by
  refine ⟨List.prefix_append _ _, fun h' s' hnot hs' => ?_⟩
  have hkept : ∀ s', (Pool.dispatch c w.run h occasion).pool.socket? h' = some s' →
      ∃ s, w.run.pool.socket? h' = some s ∧ s'.callbacks = s.callbacks := by
    refine dispatch_keeps (Q := fun q => ∀ callbacks, q ≠ .update h' callbacks)
      (P := fun r : Run κ ω => ∀ s', r.pool.socket? h' = some s' →
        ∃ s, w.run.pool.socket? h' = some s ∧ s'.callbacks = s.callbacks)
      (fun q r hq hr s' hs' => ?_) (fun _ _ hr => hr) (fun r hr s' hs' => ?_) ?_
      (fun s' hs' => ⟨s', hs', rfl⟩)
    · obtain ⟨s, hs, hsame⟩ := callbacks_serve hq hs'
      obtain ⟨s₀, hs₀, hsame₀⟩ := hr s hs
      exact ⟨s₀, hs₀, hsame.trans hsame₀⟩
    · by_cases he : h = h'
      · subst he
        cases socket?_close_self.symm.trans hs'
      · exact hr s' ((socket?_close_other he).symm.trans hs')
    · rintro call hcall q hq callbacks rfl
      exact hnot ⟨call, List.mem_append_right _ hcall, callbacks, hq⟩
  exact hkept s' hs'

theorem onward_set {s s' : Socket κ} (hs : u.socket? h = some s)
    (hsame : s'.callbacks = s.callbacks) : Onward u (u.withPool (u.run.pool.set h s')) := by
  refine ⟨List.prefix_rfl, fun h' s'' _ hs'' => ?_⟩
  by_cases he : h = h'
  · subst he
    cases socket?_set_self.symm.trans hs''
    exact ⟨s, hs, hsame⟩
  · exact ⟨s'', (socket?_set_other he).symm.trans hs'', rfl⟩

theorem occasion_calling {r : Run κ ω} {occasion : Occasion} :
    ∀ call ∈ calling c r h occasion, call.handle = h ∧ call.occasion = occasion := by
  unfold calling
  split
  · simp
  · split
    · simp
    · simp

/-- Until the next call for writing everything is aside. -/
theorem kept_aside (w₀ : Watch κ ω R.Ask) : Kept c (Aside w₀) where
  dispatch w h occasion hoccasion hw := by
    refine ⟨hw.toOnward.trans (onward_dispatch w h occasion), ?_⟩
    have hnone : (calling c w.run h occasion).filter (·.occasion = .writable) = [] := by
      refine List.filter_eq_nil_iff.2 fun call hcall => ?_
      simp [(occasion_calling call hcall).2, hoccasion]
    rw [← hw.writings]
    unfold writings dispatch
    rw [List.filter_append, hnone, List.append_nil]
  set w h s s' hs hsame hw := ⟨hw.toOnward.trans (onward_set hs hsame), hw.writings⟩

theorem Aside.refl (u : Watch κ ω ι) : Aside u u := ⟨.refl u, rfl⟩

end Later

end Watch

end IrcBot.Pool
