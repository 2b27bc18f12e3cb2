/-
Sockets do not affect each other. A pass goes through sockets in rounds, one local action at a
time, and notes some of them for a later round. For one socket only its own turns count
(`Alike.sift`): the rounds of two passes leave it the same if its turns are the same, in whatever
order and among whatever others they come.
-/
import IrcBot.Proofs.Pool.Locality
import IrcBot.Proofs.Pool.Passes
import Mathlib.Data.List.Nodup

namespace IrcBot.Pool

variable {κ ω π ε : Type} {R : Requests}

/-- Sockets are gone through in some order of them. -/
def Report.Fair (report : Report) : Prop := ∀ handles, (report.arrange handles).Perm handles

/-- What is reported of one socket. -/
def Report.about (report : Report) (h : Handle) : List Readiness :=
  report.ready.filter (·.handle = h)

/-- In every fair order a handle comes up once if it comes up at all. -/
theorem Report.Fair.filter {report report' : Report} (hfair : report.Fair) (hfair' : report'.Fair)
    {handles handles' : List Handle} (hnodup : handles.Nodup) (hnodup' : handles'.Nodup)
    {h : Handle} (hmem : h ∈ handles ↔ h ∈ handles') :
    (report.arrange handles).filter (id · = h) = (report'.arrange handles').filter (id · = h) := by
  have hcount : (report.arrange handles).count h = (report'.arrange handles').count h := by
    rw [(hfair handles).count_eq, (hfair' handles').count_eq, hnodup.count, hnodup'.count]
    simp only [hmem]
  simp only [id, List.filter_eq, hcount]

theorem nodup_wantingWriting (p : Pool κ) : p.wantingWriting.Nodup :=
  (Table.nodup_keys p.sockets.ascending).sublist (List.filter_sublist.map _)

theorem mem_wantingWriting {p : Pool κ} {h : Handle} :
    h ∈ p.wantingWriting ↔ (p.socket? h).any (·.wantsWriting) = true := by
  simp only [wantingWriting, List.mem_map, List.mem_filter, Prod.exists, Table.mem_entries]
  cases hs : p.socket? h with
  | none => simp_all [socket?]
  | some s => simp_all [socket?]

namespace Audit

/-! ## Rounds -/

/-- One turn of a round. The handle is noted if the action answers so. -/
def gather (whose : ε → Handle) (act : ε → Audit κ ω → Bool × Audit κ ω)
    (acc : List Handle × Audit κ ω) (e : ε) : List Handle × Audit κ ω :=
  (if (act e acc.2).1 then acc.1 ++ [whose e] else acc.1, (act e acc.2).2)

/-- Two rounds have left a socket the same. -/
structure Alike (keys : Handle → κ → Prop) (part : Handle → ω → π) (h : Handle)
    (acc acc' : List Handle × Audit κ ω) : Prop where
  hung : acc.2.Hung keys
  hung' : acc'.2.Hung keys
  view : acc.2.view part h = acc'.2.view part h
  noted : acc.1.count h = acc'.1.count h

section Rounds

variable {keys : Handle → κ → Prop} {part : Handle → ω → π} {h : Handle}
variable {acc acc' acc'' : List Handle × Audit κ ω} {whose : ε → Handle} {e : ε}
variable {act act' : ε → Audit κ ω → Bool × Audit κ ω}

theorem Alike.symm (ha : Alike keys part h acc acc') : Alike keys part h acc' acc :=
  ⟨ha.hung', ha.hung, ha.view.symm, ha.noted.symm⟩

theorem Alike.trans (ha : Alike keys part h acc acc') (ha' : Alike keys part h acc' acc'') :
    Alike keys part h acc acc'' :=
  ⟨ha.hung, ha'.hung', ha.view.trans ha'.view, ha.noted.trans ha'.noted⟩

theorem count_gather (acc : List Handle × Audit κ ω) :
    (gather whose act acc e).1.count h =
      acc.1.count h + if (act e acc.2).1 ∧ whose e = h then 1 else 0 := by
  unfold gather
  cases (act e acc.2).1 with
  | true => simp [List.count_append, List.count_singleton]
  | false => simp

/-- The turn of another socket. -/
theorem Alike.other (ha : Alike keys part h acc acc')
    (hact : Local keys part (whose e) (act e)) (hne : whose e ≠ h) :
    Alike keys part h (gather whose act acc e) acc' where
  hung := hact.hung _ ha.hung
  hung' := ha.hung'
  view := (hact.others _ h ha.hung (Ne.symm hne)).trans ha.view
  noted := by
    rw [count_gather, if_neg fun hnoted => hne hnoted.2]
    exact ha.noted

/-- The turn of the socket itself. -/
theorem Alike.both (ha : Alike keys part h acc acc') (hact : Local keys part (whose e) (act e))
    (hsame : act e = act' e) (he : whose e = h) :
    Alike keys part h (gather whose act acc e) (gather whose act' acc' e) := by
  subst he
  obtain ⟨hanswer, hview⟩ := hact.own _ _ ha.hung ha.hung' ha.view
  have hhung' : (gather whose act' acc' e).2.Hung keys := by
    rw [gather, ← hsame]
    exact hact.hung _ ha.hung'
  refine ⟨hact.hung _ ha.hung, hhung', ?_, ?_⟩
  · rw [gather, gather, ← hsame]
    exact hview
  · rw [count_gather, count_gather, ha.noted, ← hsame, hanswer]

/-- **Only its own turns count** for a socket. -/
theorem Alike.sift (hact : ∀ e, Local keys part (whose e) (act e))
    (hsame : ∀ e, whose e = h → act e = act' e) (es : List ε) (ha : Alike keys part h acc acc') :
    Alike keys part h (es.foldl (gather whose act) acc)
      ((es.filter (whose · = h)).foldl (gather whose act') acc') := by
  induction es generalizing acc acc' with
  | nil => exact ha
  | cons e es ih =>
    by_cases he : whose e = h
    · rw [List.filter_cons_of_pos (by simpa using he)]
      exact ih (ha.both (hact e) (hsame e he) he)
    · rw [List.filter_cons_of_neg (by simpa using he)]
      exact ih (ha.other (hact e) he)

/-- Rounds in which a socket has the same turns leave it the same. -/
theorem Alike.round (hact : ∀ e, Local keys part (whose e) (act e))
    (hact' : ∀ e, Local keys part (whose e) (act' e)) (hsame : ∀ e, whose e = h → act e = act' e)
    {es es' : List ε} (hes : es.filter (whose · = h) = es'.filter (whose · = h))
    (ha : Alike keys part h acc acc') :
    Alike keys part h (es.foldl (gather whose act) acc) (es'.foldl (gather whose act') acc') := by
  have hfirst := ha.sift hact hsame es
  have hrefl : Alike keys part h acc' acc' := ha.symm.trans ha
  have hsecond := hrefl.sift hact' (fun _ _ => rfl) es'
  rw [hes] at hfirst
  exact hfirst.trans hsecond.symm

end Rounds

/-! ## The rounds of a pass -/

variable {c : Conduct κ ω R}

/-- What is done for one ready socket; the answer says whether it was called back for writing. -/
def tend (c : Conduct κ ω R) (ready : Readiness) (a : Audit κ ω) : Bool × Audit κ ω :=
  let h := ready.handle
  let a := if ready.error then dispatch c a h .other else a
  let a := if ready.readable then dispatch c a h .readable else a
  if ready.writable then
    match flush c a h with
    | (some true, a) => (true, dispatch c a h .writable)
    | (_, a) => (false, a)
  else (false, a)

/-- A socket with something queued is flushed; the answer says whether this failed. -/
def flushOne (h : Handle) (a : Audit κ ω) : Bool × Audit κ ω :=
  match a.socket? h with
  | none => (false, a)
  | some s =>
    if s.queue.isEmpty then (false, a)
    else (s.flush.1.isSome, a.put h [flushing s] s.flush.2)

theorem attend_eq (c : Conduct κ ω R) : attend c = gather Readiness.handle (tend c) := by
  funext ⟨wrote, a⟩ ready
  simp only [attend, gather, tend]
  split
  · split <;> simp_all
  · simp

theorem flushQueued_eq : flushQueued = gather (κ := κ) (ω := ω) id flushOne := by
  funext ⟨failed, a⟩ h
  cases hs : a.socket? h with
  | none => simp [flushQueued, gather, flushOne, hs]
  | some s => cases hempty : s.queue.isEmpty <;> simp [flushQueued, gather, flushOne, hs, hempty]

section Phases

variable {keys : Handle → κ → Prop} {part : Handle → ω → π} {h : Handle}

theorem local_flushOne : Local keys part h (flushOne (κ := κ) (ω := ω) h) := by
  refine .look fun socket hsocket => ?_
  cases socket with
  | none => exact ⟨_, .done false, fun a hs => by simp only [flushOne, hs]⟩
  | some s =>
    have hput : Local keys part h fun a : Audit κ ω => ((), a.put h [flushing s] s.flush.2) :=
      local_put _ (s.callbacks_flush.symm ▸ hsocket s rfl)
    refine ⟨_, .ite s.queue.isEmpty (.done false) (hput.answer s.flush.1.isSome), fun a hs => ?_⟩
    simp only [flushOne, hs]

theorem local_tend (hc : c.Separate keys part) (ready : Readiness) :
    Local keys part ready.handle (tend c ready) := by
  have htold (told : Bool) (occasion : Occasion) : Local keys part ready.handle fun a =>
      ((), if told then dispatch c a ready.handle occasion else a) := by
    cases told with
    | true => exact local_dispatch hc occasion
    | false => exact .done ()
  have hwritten : Local keys part ready.handle fun a =>
      match flush c a ready.handle with
      | (some true, a) => (true, dispatch c a ready.handle .writable)
      | (_, a) => (false, a) := by
    have hnext (answer : Option Bool) : Local keys part ready.handle fun a =>
        if answer = some true then (true, dispatch c a ready.handle .writable) else (false, a) := by
      split
      · exact (local_dispatch hc .writable).answer true
      · exact .done false
    refine ((local_flush hc).bind hnext).of_eq fun a => ?_
    rcases flush c a ready.handle with ⟨_ | _ | _, a⟩ <;> rfl
  exact (htold ready.error .other).seq
    ((htold ready.readable .readable).seq (.ite ready.writable hwritten (.done _)))

/-- A round that notes nothing. -/
theorem foldl_gather {whose : ε → Handle} {act : ε → Audit κ ω → Audit κ ω} (es : List ε)
    (noted : List Handle) (a : Audit κ ω) :
    es.foldl (gather whose fun e a => (false, act e a)) (noted, a) =
      (noted, es.foldl (fun a e => act e a) a) := by
  induction es generalizing a with
  | nil => rfl
  | cons e es ih => exact ih (act e a)

variable {a a' : Audit κ ω} {report report' : Report} {handles handles' : List Handle}

/-- A round that notes nothing leaves alone what was noted before. -/
theorem Alike.walk (act act' : Handle → Audit κ ω → Audit κ ω)
    (hact : ∀ h, Local keys part h fun a => ((), act h a))
    (hact' : ∀ h, Local keys part h fun a => ((), act' h a)) (hsame : act h = act' h)
    (hhandles : handles.filter (id · = h) = handles'.filter (id · = h))
    {noted noted' : List Handle} (ha : Alike keys part h (noted, a) (noted', a')) :
    Alike keys part h (noted, handles.foldl (fun a h => act h a) a)
      (noted', handles'.foldl (fun a h => act' h a) a') := by
  have hround := ha.round (fun h => (hact h).answer false) (fun h => (hact' h).answer false)
    (by rintro _ rfl; exact congrArg (fun act a => (false, act a)) hsame) hhandles
  rwa [foldl_gather, foldl_gather] at hround

theorem alike_attended (hc : c.Separate keys part) (habout : report.about h = report'.about h)
    (ha : Alike keys part h ([], a) ([], a')) :
    Alike keys part h (attended c report a) (attended c report' a') := by
  unfold attended
  rw [attend_eq]
  exact ha.round (local_tend hc) (local_tend hc) (fun _ _ => rfl) habout

theorem alike_flushed (hfair : report.Fair) (hfair' : report'.Fair)
    (ha : Alike keys part h ([], a) ([], a')) :
    Alike keys part h
      ((report.arrange a.run.pool.sockets.keys).foldl flushQueued ([], a))
      ((report'.arrange a'.run.pool.sockets.keys).foldl flushQueued ([], a')) := by
  have hsocket : a.run.pool.socket? h = a'.run.pool.socket? h := congrArg View.socket ha.view
  have hmem : h ∈ a.run.pool.sockets.keys ↔ h ∈ a'.run.pool.sockets.keys := by
    rw [Table.mem_keys, Table.mem_keys]
    exact Bool.eq_iff_iff.1 (congrArg Option.isSome hsocket)
  rw [flushQueued_eq]
  exact ha.round (fun _ => local_flushOne) (fun _ => local_flushOne) (fun _ _ => rfl)
    (hfair.filter hfair' (Table.nodup_keys a.run.pool.sockets.ascending)
      (Table.nodup_keys a'.run.pool.sockets.ascending) hmem)

theorem alike_told (hc : c.Separate keys part) {failed failed' : List Handle}
    (ha : Alike keys part h (failed, a) (failed', a')) :
    Alike keys part h (failed, failed.foldl (writeFailed c) a)
      (failed', failed'.foldl (writeFailed c) a') := by
  have hnoted : failed.count h = failed'.count h := ha.noted
  exact ha.walk (fun h a => writeFailed c a h) (fun h a => writeFailed c a h)
    (fun _ => local_writeFailed hc) (fun _ => local_writeFailed hc) rfl
    (by simp only [id, List.filter_eq, hnoted])

theorem alike_called (hc : c.Separate keys part) (hfair : report.Fair) (hfair' : report'.Fair)
    {wrote wrote' : List Handle} (ha : Alike keys part h (wrote, a) (wrote', a')) :
    Alike keys part h
      (wrote, (report.arrange a.run.pool.wantingWriting).foldl
        (fun a h => if wrote.contains h then a else dispatch c a h .writable) a)
      (wrote', (report'.arrange a'.run.pool.wantingWriting).foldl
        (fun a h => if wrote'.contains h then a else dispatch c a h .writable) a') := by
  have hsocket : a.run.pool.socket? h = a'.run.pool.socket? h := congrArg View.socket ha.view
  have hmem : h ∈ a.run.pool.wantingWriting ↔ h ∈ a'.run.pool.wantingWriting := by
    rw [mem_wantingWriting, mem_wantingWriting, hsocket]
  have hcall (wrote : List Handle) (h : Handle) : Local keys part h fun a =>
      ((), if wrote.contains h then a else dispatch c a h .writable) := by
    split
    · exact .done ()
    · exact local_dispatch hc .writable
  have hnoted : wrote.count h = wrote'.count h := ha.noted
  have hwrote : wrote.contains h = wrote'.contains h := by
    rw [Bool.eq_iff_iff, List.contains_iff_mem, List.contains_iff_mem, ← List.count_pos_iff,
      ← List.count_pos_iff, hnoted]
  refine ha.walk (fun h a => if wrote.contains h then a else dispatch c a h .writable)
    (fun h a => if wrote'.contains h then a else dispatch c a h .writable)
    (hcall wrote) (hcall wrote') (by simp only [hwrote]) ?_
  exact hfair.filter hfair' (nodup_wantingWriting _) (nodup_wantingWriting _) hmem

/-- **A pass leaves a socket the same** whatever the other sockets are and do. -/
theorem alike_poll (hc : c.Separate keys part) (hfair : report.Fair) (hfair' : report'.Fair)
    (habout : report.about h = report'.about h) (ha : a.Hung keys) (ha' : a'.Hung keys)
    (hview : a.view part h = a'.view part h) :
    (poll c report a).Hung keys ∧
      (poll c report a).view part h = (poll c report' a').view part h := by
  have hready := alike_attended hc habout ⟨ha, ha', hview, rfl⟩
  unfold poll finished
  generalize attended c report a = acc at hready ⊢
  generalize attended c report' a' = acc' at hready ⊢
  obtain ⟨wrote, a⟩ := acc
  obtain ⟨wrote', a'⟩ := acc'
  have hflushed := alike_flushed hfair hfair' ⟨hready.hung, hready.hung', hready.view, rfl⟩
  dsimp only at hflushed ⊢
  generalize (report.arrange _).foldl flushQueued _ = acc at hflushed ⊢
  generalize (report'.arrange _).foldl flushQueued _ = acc' at hflushed ⊢
  have htold := alike_told hc hflushed
  have hlast : Alike keys part h (wrote, acc.1.foldl (writeFailed c) acc.2)
      (wrote', acc'.1.foldl (writeFailed c) acc'.2) :=
    ⟨htold.hung, htold.hung', htold.view, hready.noted⟩
  have hcalled := alike_called hc hfair hfair' hlast
  exact ⟨hcalled.hung, hcalled.view⟩

end Phases

/-! ## Sockets that are gone -/

theorem dispatch_gone {a : Audit κ ω} {h : Handle} (hs : a.socket? h = none)
    (occasion : Occasion) : dispatch c a h occasion = a := by simp only [dispatch, hs]

theorem attend_gone {a : Audit κ ω} {ready : Readiness} (hs : a.socket? ready.handle = none)
    (wrote : List Handle) : attend c (wrote, a) ready = (wrote, a) := by
  have hflush : flush c a ready.handle = (none, a) := by simp only [flush, hs]
  simp only [attend, dispatch_gone hs, ite_self, hflush]

/-- What is reported of a socket does not depend on the order of the report, if it is reported
once. -/
theorem about_perm {report report' : Report} (hnodup : (report.ready.map (·.handle)).Nodup)
    (hperm : report'.ready.Perm report.ready) (h : Handle) : report'.about h = report.about h := by
  have hone : (report.about h).length ≤ 1 := by
    have hcount : (report.about h).length = (report.ready.map (·.handle)).count h := by
      rw [Report.about, ← List.countP_eq_length_filter, List.count, List.countP_map]
      exact List.countP_congr fun ready _ => by simp
    rw [hcount]
    exact List.nodup_iff_count_le_one.1 hnodup h
  have habout : (report'.about h).Perm (report.about h) := hperm.filter _
  generalize report.about h = about at hone habout
  match about, hone with
  | [], _ => exact habout.eq_nil
  | [ready], _ => exact List.perm_singleton.1 habout

/-- **Sockets of a pool do not affect each other**, if their callbacks act only on their own.

- Two passes over two pools in which a socket is the same, and of which it is told the same, leave
  it the same: what it was called for, what it was handed and has written, what is still queued or
  buffered, and whether it is in the pool at all. So it is whatever the other sockets are and in
  whatever order sockets are reported and gone through.
- So a pass over one pool leaves every socket the same in whatever order each is reported.
- The pass is that of the pool.
- To be told of a socket that is not in the pool does nothing.
- A handle that was given out and is not in the pool is never in the pool again. -/
theorem sockets_keep_apart (c : Conduct κ ω R) (keys : Handle → κ → Prop) (part : Handle → ω → π)
    (hc : c.Separate keys part) :
    (∀ (a a' : Audit κ ω) (report report' : Report) (h : Handle), a.Hung keys → a'.Hung keys →
      report.Fair → report'.Fair → report.about h = report'.about h →
      a.view part h = a'.view part h →
      (poll c report a).Hung keys ∧
        (poll c report a).view part h = (poll c report' a').view part h) ∧
    (∀ (a : Audit κ ω) (report report' : Report), a.Hung keys → report.Fair → report'.Fair →
      (report.ready.map (·.handle)).Nodup → report'.ready.Perm report.ready →
      ∀ h, (poll c report' a).view part h = (poll c report a).view part h) ∧
    (∀ (a : Audit κ ω) (report : Report), (poll c report a).run = Pool.poll c report a.run) ∧
    (∀ (a : Audit κ ω) (wrote : List Handle) (ready : Readiness),
      a.socket? ready.handle = none → attend c (wrote, a) ready = (wrote, a)) ∧
    (∀ (a : Audit κ ω) (h : Handle), h < a.run.pool.nextHandle → a.socket? h = none →
      ∀ steps : List (Step κ R), (steps.foldl (step c) a).socket? h = none ∧
        ∀ stream callbacks, ((steps.foldl (step c) a).run.pool.add stream callbacks).1 ≠ h) := by
  refine ⟨fun a a' report report' h ha ha' hfair hfair' habout hview => ?_,
    fun a report report' ha hfair hfair' hnodup hperm h => ?_, fun a report => poll_run c report a,
    fun a wrote ready hs => attend_gone hs wrote, fun a h hlt hs steps => ?_⟩
  · exact alike_poll hc hfair hfair' habout ha ha' hview
  · exact (alike_poll hc hfair' hfair (about_perm hnodup hperm h) ha ha rfl).2
  · obtain ⟨-, hlt', hs'⟩ := gone_steps (c := c) hlt hs steps
    exact ⟨hs', fun _ _ => Nat.ne_of_gt hlt'⟩

/-- Callbacks that listen, panic or close their socket. The world counts for every socket how often
it has listened. -/
def neighbours : Conduct Nat (Handle → Nat) (.writing Handle) where
  behave k h :=
    match k with
    | 0 => do
      let _ ← Program.request (R := requests Nat (.writing Handle)) (.drain h)
      Program.request (R := requests Nat (.writing Handle)) (.act h)
    | 1 => .panicked
    | _ => do
      let _ ← Program.request (R := requests Nat (.writing Handle)) (.close h)
      .done ()
  perform h w := ((), Function.update w h (w h + 1))

theorem neighbours_separate : neighbours.Separate (fun _ _ => True) (fun h w => w h) := by
  intro h k _
  match k with
  | 0 =>
    refine ⟨rfl, fun _ => ⟨⟨fun w w' hsame => ⟨rfl, ?_⟩, fun h' hne w => ?_⟩, fun _ => trivial⟩⟩
    · simp only [neighbours, Function.update_self, hsame]
    · exact Function.update_of_ne hne _ _
  | 1 => trivial
  | _ + 2 => exact ⟨rfl, fun _ => trivial⟩

/-- A listener with a line to read, and a socket beside it. -/
def beside (k : Nat) : Audit Nat (Handle → Nat) :=
  [Step.add { source := { arrivals := [.data [104, 105, 10]] } } { readable := some 0 },
    .add {} { readable := some k }].foldl (step neighbours) { run := .fresh Nat 5 fun _ => 0 }

theorem listener_apart_from_neighbours :
    let panicking := poll neighbours { ready := [⟨0, true, false, false⟩, ⟨1, true, false, false⟩] }
      (beside 1)
    let closing := poll neighbours { ready := [⟨1, true, false, false⟩, ⟨0, true, false, false⟩] }
      (beside 2)
    panicking.view (fun h w => w h) 0 = closing.view (fun h w => w h) 0 ∧
      (panicking.view (fun h w => w h) 0).part = 1 ∧
      panicking.run.pool.contains 1 = true ∧ closing.run.pool.contains 1 = false := by
  have hhung (k : Nat) : (beside k).Hung fun _ _ => True := fun _ _ _ _ _ _ => trivial
  have hfair (ready : List Readiness) : ({ ready } : Report).Fair := fun _ => .rfl
  have happly := (sockets_keep_apart neighbours _ _ neighbours_separate).1 (beside 1) (beside 2)
    { ready := [⟨0, true, false, false⟩, ⟨1, true, false, false⟩] }
    { ready := [⟨1, true, false, false⟩, ⟨0, true, false, false⟩] } 0 (hhung 1) (hhung 2)
    (hfair _) (hfair _) rfl rfl
  exact ⟨happly.2, by decide +kernel, by decide +kernel, by decide +kernel⟩

end Audit

end IrcBot.Pool
