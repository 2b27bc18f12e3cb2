/-
What a pass keeps. Whatever callbacks keep, and changes of queues and sinks do not touch,
a pass keeps, and so does every part of it (`Kept.poll`).
-/
import IrcBot.Pool.Poll
import IrcBot.Proofs.Pool.Sockets

namespace IrcBot.Pool

variable {κ ω : Type} {R : Requests} {c : Conduct κ ω R} {P : Run κ ω → Prop} {r : Run κ ω}

/-- What dispatching and flushing a socket keep, seeing to it keeps. -/
theorem attend_keeps {acc : List Handle × Run κ ω} {ready : Readiness}
    (hdispatch : ∀ r occasion, P r → P (dispatch c r ready.handle occasion))
    (hflush : ∀ r, P r → P (flush c r ready.handle).2) (hacc : P acc.2) :
    P (attend c acc ready).2 := by
  obtain ⟨wrote, r⟩ := acc
  have htold : P (if ready.error then dispatch c r ready.handle .other else r) := by
    split
    · exact hdispatch r .other hacc
    · exact hacc
  simp only [attend]
  generalize (if ready.error then dispatch c r ready.handle .other else r) = r₁ at htold
  have hread : P (if ready.readable then dispatch c r₁ ready.handle .readable else r₁) := by
    split
    · exact hdispatch r₁ .readable htold
    · exact htold
  generalize (if ready.readable then dispatch c r₁ ready.handle .readable else r₁) = r₂ at hread
  split
  · have hwritten := hflush r₂ hread
    split
    · next hresult =>
      rw [hresult] at hwritten
      exact hdispatch _ .writable hwritten
    · next hresult =>
      rw [hresult] at hwritten
      exact hwritten
  · exact hread

/-- What callbacks keep, and what does not depend on queues and sinks. -/
structure Kept (c : Conduct κ ω R) (P : Run κ ω → Prop) : Prop where
  dispatch : ∀ r h occasion, P r → P (dispatch c r h occasion)
  set : ∀ r h s s', r.pool.socket? h = some s → s'.reader = s.reader →
    s'.callbacks = s.callbacks → P r → P { r with pool := r.pool.set h s' }

namespace Kept

theorem writeFailed (hP : Kept c P) (h : Handle) (hr : P r) : P (writeFailed c r h) := by
  refine hP.dispatch _ h .other ?_
  cases hs : r.pool.socket? h with
  | none => exact hr
  | some s => exact hP.set r h s { s with queue := s.queue.clear } hs rfl rfl hr

theorem flush (hP : Kept c P) (h : Handle) (hr : P r) : P (flush c r h).2 := by
  unfold Pool.flush
  split
  · exact hr
  · next s hs =>
    dsimp only
    split
    · exact hP.set r h s { s with blocked := false } hs rfl rfl hr
    · have hwritten := hP.set r h s _ hs (Socket.reader_flush { s with blocked := false })
        (Socket.callbacks_flush _) hr
      split
      · exact hwritten
      · exact hP.writeFailed h hwritten

theorem attend (hP : Kept c P) (acc : List Handle × Run κ ω) (ready : Readiness)
    (hacc : P acc.2) : P (attend c acc ready).2 :=
  attend_keeps (fun r occasion hr => hP.dispatch r ready.handle occasion hr)
    (fun _ hr => hP.flush ready.handle hr) hacc

theorem attendAll (hP : Kept c P) (ready : List Readiness) {acc : List Handle × Run κ ω}
    (hacc : P acc.2) : P (ready.foldl (Pool.attend c) acc).2 :=
  List.foldlRecOn (motive := fun acc : List Handle × Run κ ω => P acc.2) ready (Pool.attend c)
    hacc fun acc hacc e _ => hP.attend acc e hacc

theorem flushQueued (hP : Kept c P) (acc : List Handle × Pool κ) (h : Handle)
    (hacc : P { r with pool := acc.2 }) : P { r with pool := (flushQueued acc h).2 } := by
  obtain ⟨failed, pool⟩ := acc
  simp only [Pool.flushQueued]
  split
  · exact hacc
  · next s hs =>
    split
    · exact hacc
    · exact hP.set { r with pool } h s _ hs (Socket.reader_flush s) (Socket.callbacks_flush s) hacc

theorem flushAll (hP : Kept c P) (handles : List Handle) {acc : List Handle × Pool κ}
    (hacc : P { r with pool := acc.2 }) :
    P { r with pool := (handles.foldl Pool.flushQueued acc).2 } :=
  List.foldlRecOn (motive := fun acc : List Handle × Pool κ => P { r with pool := acc.2 })
    handles Pool.flushQueued hacc fun acc hacc h _ => hP.flushQueued acc h hacc

theorem writeFailedAll (hP : Kept c P) (failed : List Handle) (hr : P r) :
    P (failed.foldl (Pool.writeFailed c) r) :=
  List.foldlRecOn failed (Pool.writeFailed c) hr fun _ hr h _ => hP.writeFailed h hr

theorem callAll (hP : Kept c P) (wrote handles : List Handle) (hr : P r) :
    P (handles.foldl (fun r h =>
      if wrote.contains h then r else Pool.dispatch c r h .writable) r) := by
  refine List.foldlRecOn handles _ hr fun r hr h _ => ?_
  split
  · exact hr
  · exact hP.dispatch r h .writable hr

/-- What each part of a pass keeps, the pass keeps. -/
theorem poll (hP : Kept c P) (report : Report) (hr : P r) : P (poll c report r) := by
  have hattended : P (report.ready.foldl (Pool.attend c) ([], r)).2 := hP.attendAll report.ready hr
  unfold Pool.poll
  generalize report.ready.foldl (Pool.attend c) ([], r) = acc at hattended
  obtain ⟨wrote, r₁⟩ := acc
  have hflushed : P { r₁ with
      pool := ((report.arrange r₁.pool.sockets.keys).foldl Pool.flushQueued ([], r₁.pool)).2 } :=
    hP.flushAll _ hattended
  exact hP.callAll wrote _ (hP.writeFailedAll _ hflushed)

end Kept

end IrcBot.Pool
