/-
What is local to a socket of a pool. Of an audit a socket has its own part (`Audit.View`): itself,
its part of the world, its deeds and its notes. An action is local to a handle when it changes
this part only and sees nothing else (`Local`). Actions are put together from a few local ones;
so are the calls and flushes of a pass, if the callbacks keep to their sockets.
-/
import IrcBot.Proofs.Pool.Lives

namespace IrcBot.Pool

variable {κ ω π β : Type} {R : Requests}

def Note.handle : Note → Handle
  | .called h _ | .returned h _ | .read h _ => h

/-- All keys among the callbacks are of a kind. -/
def Callbacks.Within (keys : κ → Prop) (callbacks : Callbacks κ) : Prop :=
  ∀ occasion k, callbacks.on occasion = some k → keys k

/-- A request that a callback of a socket may make without touching others. What acts on the world
sees and changes the part of its socket only. -/
def Ask.KeepsTo (c : Conduct κ ω R) (keys : Handle → κ → Prop) (part : Handle → ω → π)
    (h : Handle) : Ask κ R.Ask → Prop
  | .readLine h' | .drain h' | .enqueue h' _ | .remove h' | .close h' | .contains h'
  | .pending? h' => h' = h
  | .update h' callbacks => h' = h ∧ Callbacks.Within (keys h) callbacks
  | .stop => True
  | .act i =>
    (∀ w w', part h w = part h w' → (c.perform i w).1 = (c.perform i w').1 ∧
      part h (c.perform i w).2 = part h (c.perform i w').2) ∧
    ∀ h', h' ≠ h → ∀ w, part h' (c.perform i w).2 = part h' w

/-- Callbacks act only on the socket they are called for; `keys` tells which keys hang on which
socket, and `part` what a socket has of the world. -/
def Conduct.Separate (c : Conduct κ ω R) (keys : Handle → κ → Prop) (part : Handle → ω → π) :
    Prop :=
  ∀ h k, keys h k → (c.behave k h).Asks (Ask.KeepsTo c keys part h)

namespace Audit

/-- What a socket has of an audit. -/
structure View (κ π : Type) where
  socket : Option (Socket κ)
  part : π
  deeds : List Deed
  notes : List Note

def view (part : Handle → ω → π) (a : Audit κ ω) (h : Handle) : View κ π where
  socket := a.socket? h
  part := part h a.run.world
  deeds := a.deeds h
  notes := a.run.notes.toList.filter (·.handle = h)

/-- All callbacks hang where they may. -/
def Hung (keys : Handle → κ → Prop) (a : Audit κ ω) : Prop :=
  ∀ h s, a.socket? h = some s → Callbacks.Within (keys h) s.callbacks

/-- An action on a socket that changes only what this socket has, and sees nothing else. -/
structure Local (keys : Handle → κ → Prop) (part : Handle → ω → π) (h : Handle)
    (act : Audit κ ω → β × Audit κ ω) : Prop where
  hung : ∀ a, a.Hung keys → (act a).2.Hung keys
  others : ∀ a h', a.Hung keys → h' ≠ h → (act a).2.view part h' = a.view part h'
  own : ∀ a a', a.Hung keys → a'.Hung keys → a.view part h = a'.view part h →
    (act a).1 = (act a').1 ∧ (act a).2.view part h = (act a').2.view part h

variable {keys : Handle → κ → Prop} {part : Handle → ω → π} {h : Handle}

/-! ## Putting local actions together -/

section Together

variable {γ : Type}

theorem Local.done (b : β) : Local keys part h fun a => (b, a) where
  hung _ ha := ha
  others _ _ _ _ := rfl
  own _ _ _ _ hview := ⟨rfl, hview⟩

theorem Local.bind {act : Audit κ ω → β × Audit κ ω} {next : β → Audit κ ω → γ × Audit κ ω}
    (hact : Local keys part h act) (hnext : ∀ b, Local keys part h (next b)) :
    Local keys part h fun a => next (act a).1 (act a).2 where
  hung a ha := (hnext _).hung _ (hact.hung a ha)
  others a h' ha hne :=
    ((hnext _).others _ h' (hact.hung a ha) hne).trans (hact.others a h' ha hne)
  own a a' ha ha' hview := by
    obtain ⟨hanswer, hview'⟩ := hact.own a a' ha ha' hview
    rw [hanswer]
    exact (hnext _).own _ _ (hact.hung a ha) (hact.hung a' ha') hview'

/-- What does the same as a local action, whatever the socket is or if it is not there, is local. -/
theorem Local.look {act : Audit κ ω → β × Audit κ ω}
    (hlook : ∀ socket : Option (Socket κ),
      (∀ s, socket = some s → Callbacks.Within (keys h) s.callbacks) →
        ∃ act', Local keys part h act' ∧ ∀ a, a.socket? h = socket → act a = act' a) :
    Local keys part h act := by
  constructor
  · intro a ha
    obtain ⟨act', hlocal, heq⟩ := hlook (a.socket? h) (ha h)
    rw [heq a rfl]
    exact hlocal.hung a ha
  · intro a h' ha hne
    obtain ⟨act', hlocal, heq⟩ := hlook (a.socket? h) (ha h)
    rw [heq a rfl]
    exact hlocal.others a h' ha hne
  · intro a a' ha ha' hview
    obtain ⟨act', hlocal, heq⟩ := hlook (a.socket? h) (ha h)
    have hsame : a'.socket? h = a.socket? h := (congrArg View.socket hview).symm
    rw [heq a rfl, heq a' hsame]
    exact hlocal.own a a' ha ha' hview

/-- What changes the view of one socket by itself. -/
theorem Local.of_view {act : Audit κ ω → Audit κ ω} (change : View κ π → View κ π)
    (hview : ∀ a h', (act a).view part h' =
      if h' = h then change (a.view part h') else a.view part h')
    (hhung : ∀ v s, (change v).socket = some s →
      (∀ s', v.socket = some s' → Callbacks.Within (keys h) s'.callbacks) →
        Callbacks.Within (keys h) s.callbacks) :
    Local keys part h fun a => ((), act a) where
  hung a ha h' s hs := by
    have hchange := congrArg View.socket (hview a h')
    split at hchange
    · next he =>
      subst he
      exact hhung _ s (hchange.symm.trans hs) (ha h')
    · exact ha h' s (hchange.symm.trans hs)
  others a h' _ hne := (hview a h').trans (if_neg hne)
  own a a' _ _ hsame := by
    rw [hview, hview, if_pos rfl, if_pos rfl, hsame]
    exact ⟨rfl, rfl⟩

theorem Local.of_eq {act act' : Audit κ ω → β × Audit κ ω} (hact : Local keys part h act)
    (heq : ∀ a, act' a = act a) : Local keys part h act' := by
  obtain rfl : act' = act := funext heq
  exact hact

theorem Local.seq {act : Audit κ ω → Audit κ ω} {next : Audit κ ω → γ × Audit κ ω}
    (hact : Local keys part h fun a => ((), act a)) (hnext : Local keys part h next) :
    Local keys part h fun a => next (act a) := hact.bind fun _ => hnext

theorem Local.answer {act : Audit κ ω → Audit κ ω} (b : β)
    (hact : Local keys part h fun a => ((), act a)) : Local keys part h fun a => (b, act a) :=
  hact.seq (.done b)

theorem Local.ite (p : Bool) {act act' : Audit κ ω → β × Audit κ ω}
    (hact : Local keys part h act) (hact' : Local keys part h act') :
    Local keys part h fun a => if p then act a else act' a := by
  cases p with
  | true => exact hact
  | false => exact hact'

end Together

/-! ## What is local -/

theorem local_put (entered : List Deed) {s : Socket κ}
    (hs : Callbacks.Within (keys h) s.callbacks) :
    Local keys part h fun a : Audit κ ω => ((), a.put h entered s) := by
  refine .of_view (fun v => { v with socket := some s, deeds := v.deeds ++ entered })
    (fun a h' => ?_) fun v s' hs' _ => ?_
  · split
    · next he =>
      subst he
      simp only [view, deeds_put_self, socket?_put_self]
      rfl
    · next hne =>
      simp only [view, deeds_put_other (Ne.symm hne), socket?_put_other (Ne.symm hne)]
      rfl
  · cases hs'
    exact hs

theorem local_leave : Local keys part h fun a : Audit κ ω => ((), a.leave h) := by
  refine .of_view (fun v => { v with socket := none, deeds := v.deeds ++ [.dropped] })
    (fun a h' => ?_) fun v s' hs' _ => nomatch hs'
  split
  · next he =>
    subst he
    have hsocket : (a.leave h').socket? h' = none := socket?_close_self
    simp only [view, deeds_leave_self, hsocket]
    rfl
  · next hne =>
    have hsocket : (a.leave h).socket? h' = a.socket? h' := socket?_close_other (Ne.symm hne)
    simp only [view, deeds_leave_other (Ne.symm hne), hsocket]
    rfl

theorem local_note {n : Note} (hn : n.handle = h) :
    Local keys part h fun a : Audit κ ω => ((), a.note n) := by
  refine .of_view (fun v => { v with notes := v.notes ++ [n] }) (fun a h' => ?_)
    fun v s hs hv => hv s hs
  have hpush : (a.note n).run.notes.toList = a.run.notes.toList ++ [n] :=
    Run.toList_notes_note a.run n
  unfold view
  rw [hpush, List.filter_append, List.filter_singleton, hn]
  by_cases he : h' = h
  · simp only [he, decide_true, if_true]
    rfl
  · simp only [he, Ne.symm he, decide_false, if_false, cond_false, List.append_nil]
    rfl

theorem local_notes {notes : List Note} (hnotes : ∀ n ∈ notes, n.handle = h) :
    Local keys part h fun a : Audit κ ω => ((), notes.foldl note a) := by
  induction notes with
  | nil => exact .done ()
  | cons n notes ih =>
    obtain ⟨hn, hnotes⟩ := List.forall_mem_cons.1 hnotes
    exact (local_note hn).seq (ih hnotes)

/-! ## Requests -/

variable {c : Conduct κ ω R} {a : Audit κ ω} {s : Socket κ}

theorem entries_none {q : Ask κ R.Ask} (hq : q.target? = some h) (hs : a.socket? h = none) :
    entries a.run.pool q = [] := by
  have hs : a.run.pool.socket? h = none := hs
  simp only [entries, hq, hs, Option.elim_none, List.map_nil]

theorem entries_some {q : Ask κ R.Ask} (hq : q.target? = some h) (hs : a.socket? h = some s) :
    entries a.run.pool q = (q.deeds s).map (h, ·) := by
  have hs : a.run.pool.socket? h = some s := hs
  simp only [entries, hq, hs, Option.elim_some]

theorem run_notes (notes : List Note) (a : Audit κ ω) :
    notes.foldl note a = { a with run := notes.foldl Run.note a.run } := by
  induction notes generalizing a with
  | nil => rfl
  | cons n notes ih => exact ih (a.note n)

/-- A request that leaves the socket in the pool. -/
theorem local_turn {q : Ask κ R.Ask} (hq : q.target? = some h)
    (absent : (requests κ R).Answer q × List Note)
    (present : Socket κ → (requests κ R).Answer q × List Note) (after : Socket κ → Socket κ)
    (hnone : ∀ r : Run κ ω, r.pool.socket? h = none →
      Pool.serve c q r = (absent.1, absent.2.foldl Run.note r))
    (hsome : ∀ (r : Run κ ω) s, r.pool.socket? h = some s → Pool.serve c q r =
      ((present s).1, (present s).2.foldl Run.note { r with pool := r.pool.set h (after s) }))
    (habsent : ∀ n ∈ absent.2, n.handle = h) (hpresent : ∀ s, ∀ n ∈ (present s).2, n.handle = h)
    (hafter : ∀ s, Callbacks.Within (keys h) s.callbacks →
      Callbacks.Within (keys h) (after s).callbacks) : Local keys part h (serve c q) := by
  refine .look fun socket hsocket => ?_
  cases socket with
  | none =>
    refine ⟨_, (local_notes habsent).answer absent.1, fun a hs => ?_⟩
    simp only [serve, hnone a.run hs, entries_none hq hs, List.append_nil, run_notes]
  | some s =>
    have hput : Local keys part h fun a : Audit κ ω => ((), a.put h (q.deeds s) (after s)) :=
      local_put _ (hafter s (hsocket s rfl))
    refine ⟨_, (hput.seq (local_notes (hpresent s))).answer (present s).1, fun a hs => ?_⟩
    simp only [serve, hsome a.run s hs, entries_some hq hs, run_notes, put]

/-- A request that takes the socket out of the pool. -/
theorem local_parting {q : Ask κ R.Ask} (hq : q.target? = some h)
    (absent : (requests κ R).Answer q) (present : Socket κ → (requests κ R).Answer q)
    (hnone : ∀ r : Run κ ω, r.pool.socket? h = none → Pool.serve c q r = (absent, r))
    (hsome : ∀ (r : Run κ ω) s, r.pool.socket? h = some s →
      Pool.serve c q r = (present s, { r with pool := (r.pool.close h).2 }))
    (hdeeds : ∀ s, q.deeds s = [.dropped]) : Local keys part h (serve c q) := by
  refine .look fun socket _ => ?_
  cases socket with
  | none =>
    refine ⟨_, .done absent, fun a hs => ?_⟩
    simp only [serve, hnone a.run hs, entries_none hq hs, List.append_nil]
  | some s =>
    refine ⟨_, local_leave.answer (present s), fun a hs => ?_⟩
    simp only [serve, hsome a.run s hs, entries_some hq hs, hdeeds, leave, List.map_singleton]

theorem local_act {i : R.Ask} (hi : Ask.KeepsTo c keys part h (.act i)) :
    Local keys part h (serve c (.act i)) := by
  obtain ⟨hown, hothers⟩ := hi
  have hview (a : Audit κ ω) (h' : Handle) : (serve c (.act i) a).2.view part h' =
      { a.view part h' with part := part h' (c.perform i a.run.world).2 } := by
    have hledger : (serve c (.act i) a).2.ledger = a.ledger := List.append_nil _
    simp only [view, deeds, hledger]
    rfl
  refine ⟨fun a ha => ha, fun a h' _ hne => ?_, fun a a' _ _ hsame => ?_⟩
  · rw [hview, hothers h' hne]
    rfl
  · obtain ⟨hanswer, hpart⟩ := hown _ _ (congrArg View.part hsame)
    rw [hview, hview, hsame, hpart]
    exact ⟨hanswer, rfl⟩

theorem local_stop : Local keys part h (serve c .stop) := by
  have hview (a : Audit κ ω) (h' : Handle) :
      (serve c .stop a).2.view part h' = a.view part h' := by
    have hledger : (serve c .stop a).2.ledger = a.ledger := List.append_nil _
    simp only [view, deeds, hledger]
    rfl
  refine ⟨fun a ha => ha, fun a h' _ _ => hview a h', fun a a' _ _ hsame => ⟨rfl, ?_⟩⟩
  rw [hview, hview, hsame]

/-- **What keeps to a socket is local to it.** -/
theorem local_serve {q : Ask κ R.Ask} (hq : q.KeepsTo c keys part h) :
    Local keys part h (serve c q) := by
  cases q with
  | readLine h' =>
    obtain rfl : h' = h := hq
    refine local_turn rfl (.error (.unknownHandle h'), [.read h' []])
      (fun s => (s.reader.next.1.mapError .ofStop,
        [.read h' (s.reader.next.1.mapError Error.ofStop).toOption.join.toList]))
      (fun s => { s with reader := s.reader.next.2 }) (fun r hs => ?_) (fun r s hs => ?_)
      (by simp [Note.handle]) (by simp [Note.handle]) fun s hs => hs
    · simp only [Pool.serve, Run.apply, readLine, hs]
      rfl
    · simp only [Pool.serve, Run.apply, readLine, hs]
      rfl
  | drain h' =>
    obtain rfl : h' = h := hq
    refine local_turn rfl (([], some (.unknownHandle h')), [.read h' []])
      (fun s => ((s.reader.drain.1, s.reader.drain.2.1.map .ofStop), [.read h' s.reader.drain.1]))
      (fun s => { s with reader := s.reader.drain.2.2 }) (fun r hs => ?_) (fun r s hs => ?_)
      (by simp [Note.handle]) (by simp [Note.handle]) fun s hs => hs
    · simp only [Pool.serve, Run.apply, Pool.drain, hs]
      rfl
    · simp only [Pool.serve, Run.apply, Pool.drain, hs]
      rfl
  | enqueue h' bytes =>
    obtain rfl : h' = h := hq
    refine local_turn rfl (.error (.unknownHandle h'), []) (fun s => (.ok (), []))
      (fun s => { s with queue := s.queue.push bytes }) (fun r hs => ?_) (fun r s hs => ?_)
      (by simp) (by simp) fun s hs => hs
    · simp only [Pool.serve, Run.apply, enqueue, withSocket, hs]
      rfl
    · simp only [Pool.serve, Run.apply, enqueue, withSocket, hs]
      rfl
  | update h' callbacks =>
    obtain ⟨rfl, hcallbacks⟩ := hq
    refine local_turn rfl (.error (.unknownHandle h'), []) (fun s => (.ok (), []))
      (fun s => { s with callbacks }) (fun r hs => ?_) (fun r s hs => ?_)
      (by simp) (by simp) fun s _ => hcallbacks
    · simp only [Pool.serve, Run.apply, Pool.update, withSocket, hs]
      rfl
    · simp only [Pool.serve, Run.apply, Pool.update, withSocket, hs]
      rfl
  | remove h' =>
    obtain rfl : h' = h := hq
    refine local_parting rfl (.error (.unknownHandle h')) (fun s => .ok s.stream) (fun r hs => ?_)
      (fun r s hs => ?_) fun s => rfl
    · simp only [Pool.serve, Run.apply, remove, hs]
    · simp only [Pool.serve, Run.apply, remove, hs]
      rfl
  | close h' =>
    obtain rfl : h' = h := hq
    refine local_parting rfl false (fun s => true) (fun r hs => ?_) (fun r s hs => ?_) fun s => rfl
    · have hsame : (r.pool.close h').2 = r.pool := close_of_none hs
      simp only [Pool.serve, Run.apply, hsame]
      simp [close, contains, hs]
    · simp only [Pool.serve, Run.apply, close, contains, hs, Option.isSome_some]
  | contains h' =>
    obtain rfl : h' = h := hq
    refine local_turn rfl (false, []) (fun s => (true, [])) id (fun r hs => ?_) (fun r s hs => ?_)
      (by simp) (by simp) fun s hs => hs
    · simp only [Pool.serve, contains, hs, Option.isSome_none, List.foldl_nil]
    · simp only [Pool.serve, contains, hs, Option.isSome_some, List.foldl_nil, id,
        set_of_socket? hs]
  | pending? h' =>
    obtain rfl : h' = h := hq
    refine local_turn rfl (none, []) (fun s => (some s.queue.pending, [])) id (fun r hs => ?_)
      (fun r s hs => ?_) (by simp) (by simp) fun s hs => hs
    · simp only [Pool.serve, pending?, hs, Option.map_none, List.foldl_nil]
    · simp only [Pool.serve, pending?, hs, Option.map_some, List.foldl_nil, id, set_of_socket? hs]
  | stop => exact local_stop
  | act i => exact local_act hq

/-- So is what a callback does that keeps to its socket. -/
theorem local_run {α : Type} {p : Program (requests κ R) α}
    (hp : p.Asks (Ask.KeepsTo c keys part h)) : Local keys part h (p.run (serve c)) := by
  induction p with
  | done a => exact .done _
  | failed => exact .done _
  | panicked => exact .done _
  | ask q next ih => exact (local_serve hp.1).bind fun answer => ih answer (hp.2 answer)

/-! ## Calls and flushes -/

variable (hc : c.Separate keys part)

include hc

theorem local_dispatch (occasion : Occasion) :
    Local keys part h fun a => ((), dispatch c a h occasion) := by
  refine .look fun socket hsocket => ?_
  cases socket with
  | none => exact ⟨_, .done (), fun a hs => by simp only [dispatch, hs]⟩
  | some s =>
    cases hk : s.callbacks.on occasion with
    | some k =>
      have hcalled := local_run (hc h k (hsocket s rfl occasion k hk))
      have hreturned := ((local_note (n := .called h occasion) rfl).seq hcalled).bind
        fun outcome => local_note (n := .returned h outcome) rfl
      exact ⟨_, hreturned, fun a hs => by simp only [dispatch, hs, hk]⟩
    | none =>
      by_cases hother : occasion = .other
      · exact ⟨_, local_leave, fun a hs => by simp only [dispatch, hs, hk, if_pos hother]⟩
      · exact ⟨_, .done (), fun a hs => by simp only [dispatch, hs, hk, if_neg hother]⟩

theorem local_writeFailed : Local keys part h fun a => ((), writeFailed c a h) := by
  refine .look fun socket hsocket => ?_
  cases socket with
  | none =>
    exact ⟨_, local_dispatch hc .other, fun a hs => by simp only [writeFailed, hs]⟩
  | some s =>
    have hclear : Local keys part h fun a : Audit κ ω =>
        ((), a.put h [.dropped] { s with queue := s.queue.clear }) := local_put _ (hsocket s rfl)
    refine ⟨_, hclear.seq (local_dispatch hc .other), fun a hs => ?_⟩
    simp only [writeFailed, hs]

theorem local_flush : Local keys part h (flush c · h) := by
  refine .look fun socket hsocket => ?_
  cases socket with
  | none => exact ⟨_, .done none, fun a hs => by simp only [flush, hs]⟩
  | some s =>
    have hwithin := hsocket s rfl
    cases hempty : s.queue.isEmpty with
    | true =>
      have hput : Local keys part h fun a : Audit κ ω =>
          ((), a.put h [] { s with blocked := false }) := local_put _ hwithin
      refine ⟨_, hput.answer (some true), fun a hs => ?_⟩
      simp only [flush, hs, hempty, if_true]
    | false =>
      have hput : Local keys part h fun a : Audit κ ω =>
          ((), a.put h [flushing { s with blocked := false }]
            ({ s with blocked := false } : Socket κ).flush.2) :=
        local_put _ ((Socket.callbacks_flush _).symm ▸ hwithin)
      cases hflush : ({ s with blocked := false } : Socket κ).flush.1 with
      | none =>
        refine ⟨_, hput.answer (some false), fun a hs => ?_⟩
        simp only [flush, hs, hempty, hflush, Bool.false_eq_true, if_false]
      | some e =>
        refine ⟨_, (hput.seq (local_writeFailed hc)).answer none, fun a hs => ?_⟩
        simp only [flush, hs, hempty, hflush, Bool.false_eq_true, if_false]

end Audit

end IrcBot.Pool
