/-
A pool with a ledger. Beside the pool an audit keeps a list of what is done with
each socket: what is queued for it, what it takes of that, what is dropped, what it
receives and answers. The audited pass makes the same steps as the pass itself, and
entering them changes nothing of what it does (`Audit.poll_run`).
-/
import IrcBot.Pool.Poll
import IrcBot.Proofs.Program
import IrcBot.Proofs.Stream.Reading

namespace IrcBot.Pool

variable {κ ω : Type} {R : Requests}

/-- What is done with a socket. -/
inductive Deed where
  | added (stream : Stream)
  | arrived (bytes : Bytes)
  | queued (bytes : Bytes)
  /-- It was asked how many bytes wait to be written. -/
  | counted (pending : Nat)
  /-- Its queue was written, of which the stream took these bytes. -/
  | flushed (taken : Bytes) (how : WriteQueue.Flushed)
  /-- What was still queued was dropped. -/
  | dropped
  /-- It was asked for a line, and received these bytes meanwhile. -/
  | asked (received : Bytes) (answer : Except Error (Option Text))
  deriving DecidableEq

/-- What a flush of a socket does. -/
def flushing (s : Socket κ) : Deed :=
  let (flushed, _, sink) := s.queue.flush s.sink
  .flushed (sink.taken.drop s.sink.taken.length) flushed

/-- The socket that a request is about. -/
def Ask.target? {ι : Type} : Ask κ ι → Option Handle
  | .readLine h | .drain h | .enqueue h _ | .update h _ | .remove h | .close h | .contains h
  | .pending? h => some h
  | .stop | .act _ => none

/-- What a request does with the socket it is about. -/
def Ask.deeds {ι : Type} (s : Socket κ) : Ask κ ι → List Deed
  | .readLine _ => [.asked s.reader.received (s.reader.next.1.mapError .ofStop)]
  | .drain _ => s.reader.calls.map fun call => .asked call.1 (call.2.mapError .ofStop)
  | .enqueue _ bytes => [.queued bytes]
  | .remove _ | .close _ => [.dropped]
  | .pending? _ => [.counted s.queue.pending]
  | .update .. | .contains _ | .stop | .act _ => []

/-- A run with its ledger. -/
structure Audit (κ ω : Type) where
  run : Run κ ω
  ledger : List (Handle × Deed) := []

namespace Audit

def socket? (a : Audit κ ω) (h : Handle) : Option (Socket κ) := a.run.pool.socket? h

/-- What was done with one socket. -/
def deeds (a : Audit κ ω) (h : Handle) : List Deed :=
  (a.ledger.filter fun entry => entry.1 == h).map Prod.snd

def note (a : Audit κ ω) (n : Note) : Audit κ ω := { a with run := a.run.note n }

/-- Enters what was done with a socket and how the socket is afterwards. -/
def put (a : Audit κ ω) (h : Handle) (deeds : List Deed) (s : Socket κ) : Audit κ ω where
  run := { a.run with pool := a.run.pool.set h s }
  ledger := a.ledger ++ deeds.map (h, ·)

/-- Enters that a socket is closed. -/
def leave (a : Audit κ ω) (h : Handle) : Audit κ ω where
  run := { a.run with pool := (a.run.pool.close h).2 }
  ledger := a.ledger ++ [(h, .dropped)]

/-! ## The audited pass -/

/-- What a request enters. -/
def entries {ι : Type} (p : Pool κ) (q : Ask κ ι) : List (Handle × Deed) :=
  match q.target? with
  | none => []
  | some h => ((p.socket? h).elim [] q.deeds).map (h, ·)

def serve (c : Conduct κ ω R) (q : Ask κ R.Ask) (a : Audit κ ω) :
    (requests κ R).Answer q × Audit κ ω :=
  let (answer, run) := Pool.serve c q a.run
  (answer, { run, ledger := a.ledger ++ entries a.run.pool q })

def dispatch (c : Conduct κ ω R) (a : Audit κ ω) (h : Handle) (occasion : Occasion) :
    Audit κ ω :=
  match a.socket? h with
  | none => a
  | some s =>
    match s.callbacks.on occasion with
    | some k =>
      let (outcome, a) := (c.behave k h).run (serve c) (a.note (.called h occasion))
      a.note (.returned h outcome)
    | none => if occasion = .other then a.leave h else a

def writeFailed (c : Conduct κ ω R) (a : Audit κ ω) (h : Handle) : Audit κ ω :=
  let a := match a.socket? h with
    | some s => a.put h [.dropped] { s with queue := s.queue.clear }
    | none => a
  dispatch c a h .other

def flush (c : Conduct κ ω R) (a : Audit κ ω) (h : Handle) : Option Bool × Audit κ ω :=
  match a.socket? h with
  | none => (none, a)
  | some s =>
    let s := { s with blocked := false }
    if s.queue.isEmpty then (some true, a.put h [] s)
    else
      let a := a.put h [flushing s] s.flush.2
      match s.flush.1 with
      | none => (some false, a)
      | some _ => (none, writeFailed c a h)

def attend (c : Conduct κ ω R) (acc : List Handle × Audit κ ω) (ready : Readiness) :
    List Handle × Audit κ ω :=
  let (wrote, a) := acc
  let h := ready.handle
  let a := if ready.error then dispatch c a h .other else a
  let a := if ready.readable then dispatch c a h .readable else a
  if ready.writable then
    match flush c a h with
    | (some true, a) => (wrote ++ [h], dispatch c a h .writable)
    | (_, a) => (wrote, a)
  else (wrote, a)

def flushQueued (acc : List Handle × Audit κ ω) (h : Handle) : List Handle × Audit κ ω :=
  let (failed, a) := acc
  match a.socket? h with
  | none => acc
  | some s =>
    if s.queue.isEmpty then acc
    else (if s.flush.1.isSome then failed ++ [h] else failed, a.put h [flushing s] s.flush.2)

/-- The first part of a pass: every ready socket is seen to. -/
def attended (c : Conduct κ ω R) (report : Report) (a : Audit κ ω) : List Handle × Audit κ ω :=
  report.ready.foldl (attend c) ([], a)

/-- The rest of a pass: what is queued is flushed, and who wants to write is called. -/
def finished (c : Conduct κ ω R) (report : Report) (acc : List Handle × Audit κ ω) : Audit κ ω :=
  let (wrote, a) := acc
  let (failed, a) := (report.arrange a.run.pool.sockets.keys).foldl flushQueued ([], a)
  let a := failed.foldl (writeFailed c) a
  (report.arrange a.run.pool.wantingWriting).foldl
    (fun a h => if wrote.contains h then a else dispatch c a h .writable) a

def poll (c : Conduct κ ω R) (report : Report) (a : Audit κ ω) : Audit κ ω :=
  finished c report (attended c report a)

/-! ## Entering changes nothing -/

variable (c : Conduct κ ω R)

theorem dispatch_run (a : Audit κ ω) (h : Handle) (occasion : Occasion) :
    (dispatch c a h occasion).run = Pool.dispatch c a.run h occasion := by
  have hserve (q : Ask κ R.Ask) (a : Audit κ ω) (r : Run κ ω) (hr : a.run = r) :
      (serve c q a).1 = (Pool.serve c q r).1 ∧ (serve c q a).2.run = (Pool.serve c q r).2 := by
    subst hr
    exact ⟨rfl, rfl⟩
  cases hs : a.run.pool.socket? h with
  | none => simp only [dispatch, Pool.dispatch, socket?, hs]
  | some s =>
    cases hk : s.callbacks.on occasion with
    | some k =>
      have hrun := Program.run_sim (Audit.run · = ·) hserve (c.behave k h)
        (show (a.note (.called h occasion)).run = _ from rfl)
      simp only [dispatch, Pool.dispatch, socket?, hs, hk]
      show Run.note _ _ = _
      rw [hrun.1, hrun.2]
      rfl
    | none =>
      simp only [dispatch, Pool.dispatch, socket?, hs, hk]
      split <;> rfl

theorem writeFailed_run (a : Audit κ ω) (h : Handle) :
    (writeFailed c a h).run = Pool.writeFailed c a.run h := by
  cases hs : a.run.pool.socket? h with
  | none => simp only [writeFailed, Pool.writeFailed, dispatch_run, socket?, hs]
  | some s => simp only [writeFailed, Pool.writeFailed, dispatch_run, socket?, hs, put]

theorem flush_run (a : Audit κ ω) (h : Handle) :
    (flush c a h).1 = (Pool.flush c a.run h).1 ∧
      (flush c a h).2.run = (Pool.flush c a.run h).2 := by
  cases hs : a.run.pool.socket? h with
  | none => simp only [flush, Pool.flush, socket?, hs, and_self]
  | some s =>
    cases hf : ({ s with blocked := false } : Socket κ).flush with
    | mk error flushed =>
      simp only [flush, Pool.flush, socket?, hs, hf]
      split
      · exact ⟨rfl, rfl⟩
      · cases error with
        | none => exact ⟨rfl, rfl⟩
        | some e => exact ⟨rfl, writeFailed_run c _ h⟩

/-- What is left of some answer and an audit without the ledger. -/
def forget {α : Type} (acc : α × Audit κ ω) : α × Run κ ω := (acc.1, acc.2.run)

theorem forget_flush (a : Audit κ ω) (h : Handle) :
    forget (flush c a h) = Pool.flush c a.run h :=
  Prod.ext (flush_run c a h).1 (flush_run c a h).2

theorem forget_attend (acc : List Handle × Audit κ ω) (ready : Readiness) :
    forget (attend c acc ready) = Pool.attend c (forget acc) ready := by
  obtain ⟨wrote, a⟩ := acc
  have htold (told : Bool) (occasion : Occasion) (a : Audit κ ω) :
      (if told then dispatch c a ready.handle occasion else a).run =
        if told then Pool.dispatch c a.run ready.handle occasion else a.run := by
    split
    · exact dispatch_run c a ready.handle occasion
    · rfl
  simp only [attend, Pool.attend, forget]
  -- Both calls that may come before the flush are told apart from it, as one audit.
  rw [← htold ready.error .other a, ← htold ready.readable .readable _]
  generalize (if ready.readable then _ else _ : Audit κ ω) = a
  split
  · rw [← forget_flush]
    rcases flush c a ready.handle with ⟨_ | _ | _, a⟩
    · rfl
    · rfl
    · exact congrArg (Prod.mk _) (dispatch_run c a ready.handle .writable)
  · rfl

theorem forget_attended (report : Report) (a : Audit κ ω) :
    forget (attended c report a) = report.ready.foldl (Pool.attend c) ([], a.run) := by
  exact (List.foldl_hom forget fun acc ready => (forget_attend c acc ready).symm).symm

theorem flushQueued_run (acc : List Handle × Audit κ ω) (h : Handle) :
    (flushQueued acc h).1 = (Pool.flushQueued (acc.1, acc.2.run.pool) h).1 ∧
      (flushQueued acc h).2.run =
        { acc.2.run with pool := (Pool.flushQueued (acc.1, acc.2.run.pool) h).2 } := by
  obtain ⟨failed, a⟩ := acc
  cases hs : a.run.pool.socket? h with
  | none => simp only [flushQueued, Pool.flushQueued, socket?, hs, and_self]
  | some s =>
    simp only [flushQueued, Pool.flushQueued, socket?, hs]
    split <;> exact ⟨rfl, rfl⟩

theorem flushAll_run (keys : List Handle) (acc : List Handle × Audit κ ω) :
    (keys.foldl flushQueued acc).1 = (keys.foldl Pool.flushQueued (acc.1, acc.2.run.pool)).1 ∧
      (keys.foldl flushQueued acc).2.run =
        { acc.2.run with pool := (keys.foldl Pool.flushQueued (acc.1, acc.2.run.pool)).2 } := by
  induction keys generalizing acc with
  | nil => exact ⟨rfl, rfl⟩
  | cons h keys ih =>
    obtain ⟨hfailed, hrun⟩ := flushQueued_run acc h
    have hacc : ((flushQueued acc h).1, (flushQueued acc h).2.run.pool) =
        Pool.flushQueued (acc.1, acc.2.run.pool) h := by
      rw [hfailed, hrun]
    have hrest := ih (flushQueued acc h)
    rw [hacc, hrun] at hrest
    exact hrest

theorem writeFailedAll_run (failed : List Handle) (a : Audit κ ω) :
    (failed.foldl (writeFailed c) a).run = failed.foldl (Pool.writeFailed c) a.run :=
  (List.foldl_hom Audit.run fun a h => (writeFailed_run c a h).symm).symm

theorem callAll_run (wrote : List Handle) (handles : List Handle) (a : Audit κ ω) :
    (handles.foldl (fun a h => if wrote.contains h then a else dispatch c a h .writable) a).run =
      handles.foldl (fun r h => if wrote.contains h then r else Pool.dispatch c r h .writable)
        a.run := by
  refine (List.foldl_hom Audit.run fun a h => ?_).symm
  split
  · rfl
  · exact (dispatch_run c a h .writable).symm

/-- **The audited pass makes the same steps as the pass.** -/
theorem poll_run (report : Report) (a : Audit κ ω) :
    (poll c report a).run = Pool.poll c report a.run := by
  have hattended := forget_attended c report a
  cases hacc : attended c report a with
  | mk wrote a' =>
    rw [hacc] at hattended
    obtain ⟨hfailed, hrun⟩ := flushAll_run (report.arrange a'.run.pool.sockets.keys) ([], a')
    simp only [poll, finished, Pool.poll, hacc, ← hattended, forget, callAll_run,
      writeFailedAll_run, hrun, hfailed]

end Audit

end IrcBot.Pool
