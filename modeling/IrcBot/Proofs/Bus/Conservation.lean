/-
No event is lost, and none is dispatched twice. At every point of a run what has been
triggered is what polls have taken and after it what still waits, in one order. A poll
dispatches what it took, all of it triggered before, and returns the number of it.
-/
import IrcBot.Proofs.Bus.Delivery

namespace IrcBot.Bus

variable {κ γ ε ω : Type} {R : Requests}

def Note.triggered? : Note κ γ ε → Option ε
  | .triggered event => some event
  | _ => none

/-- The events triggered, in their order. -/
def triggered (ns : List (Note κ γ ε)) : List ε := ns.filterMap Note.triggered?

/-- The events polls have taken, in the order they were taken. -/
def taken (ns : List (Note κ γ ε)) : List ε := ns.flatMap Note.batch

/-- The polls that have come to an end, each with what it took and the number it returned. What
the polls took that are under way is given, the innermost first. -/
def finished : List (List ε) → List (Note κ γ ε) → List (List ε × Nat)
  | _, [] => []
  | under, .took events :: ns => finished (events :: under) ns
  | under, .polled count :: ns => (under.headD [], count) :: finished under.tail ns
  | under, _ :: ns => finished under ns

variable {ns more : List (Note κ γ ε)} {part : Stretch κ γ ε}

theorem triggered_concat (n : Note κ γ ε) :
    triggered (ns ++ [n]) = triggered ns ++ n.triggered?.toList := by
  rw [triggered, List.filterMap_append, ← triggered]
  cases h : n.triggered? <;> simp [h]

theorem taken_concat (n : Note κ γ ε) : taken (ns ++ [n]) = taken ns ++ n.batch := by
  simp [taken]

theorem triggered_eq_taken [DecidableEq κ] {name : ε → Text} {b : Bus κ γ ε}
    (h : Truthful name b ns) :
    b.pending ++ triggered ns = taken ns ++ pendingAfter b.pending ns := by
  induction ns using List.reverseRecOn with
  | nil => simp [triggered, taken, pendingAfter]
  | append_singleton ns n ih =>
    have hfront := ih h.front
    have hn := h ns n [] rfl
    rw [triggered_concat, taken_concat, pendingAfter_concat, ← List.append_assoc, hfront]
    cases n with
    | took events =>
      obtain rfl : events = pendingAfter b.pending ns := hn
      simp [Note.triggered?, Note.batch, Note.queue]
    | triggered event => simp [Note.triggered?, Note.batch, Note.queue]
    | _ => simp [Note.triggered?, Note.batch, Note.queue]

/-! ## Counts -/

theorem finished_plain {n : Note κ γ ε} (hn : n.isPlain = true) (under : List (List ε)) :
    finished under (n :: ns) = finished under ns := by
  cases n with
  | triggered | registered | unregistered | unregisteredAll => rfl
  | took | dispatched | called | returned | polled => cases hn

theorem finished_front (under : List (List ε)) (ns more : List (Note κ γ ε)) :
    finished under ns <+: finished under (ns ++ more) := by
  induction ns generalizing under with
  | nil => exact List.nil_prefix
  | cons n ns ih =>
    cases n with
    | polled count => exact List.cons_prefix_cons.2 ⟨rfl, ih under.tail⟩
    | took events => exact ih (events :: under)
    | _ => exact ih under

/-- Each poll has returned the number of events it took. -/
def Exact (polls : List (List ε × Nat)) : Prop := ∀ poll ∈ polls, poll.2 = poll.1.length

theorem Exact.sum_counts {polls : List (List ε × Nat)} (h : Exact polls) :
    (polls.map (·.2)).sum = (polls.flatMap (·.1)).length := by
  rw [List.length_flatMap, List.map_congr_left h]

theorem Told.exact (h : Told part ns) (under : List (List ε)) (more : List (Note κ γ ε))
    (hmore : Exact (finished under more)) : Exact (finished under (ns ++ more)) := by
  induction h generalizing under more with
  | nothing | dispatched | called => exact hmore
  | plain hn _ ih =>
    rw [List.cons_append, finished_plain hn]
    exact ih under more hmore
  | @poll events inner ns _ _ ih ih' =>
    have hpoll : Exact (finished (events :: under) (.polled events.length :: (ns ++ more))) :=
      List.forall_mem_cons.2 ⟨rfl, ih' under more hmore⟩
    rw [List.cons_append, List.append_assoc]
    exact ih (events :: under) _ hpoll
  | dispatch _ _ ih ih' =>
    rw [List.cons_append, List.append_assoc]
    exact ih under _ (ih' under more hmore)
  | call _ _ _ ih ih' =>
    rw [List.cons_append, List.append_assoc]
    exact ih under _ (ih' under more hmore)

/-! ## Runs -/

/-- What a run that ended so has made of events, from a start without notes. -/
structure Conserves [DecidableEq κ] (c : Conduct κ γ ε ω R) (start last : Run κ γ ε ω) : Prop where
  /-- At every point of the notes, what was triggered has been taken or waits, in this order. -/
  kept : ∀ before after, last.notes.toList = before ++ after →
    ∃ mid, Steps c start mid ∧ Steps c mid last ∧ mid.notes.toList = before ∧
      start.bus.pending ++ triggered before = taken before ++ mid.bus.pending
  /-- A poll takes what has been triggered up to then and was not taken, and dispatches just
  this, in this order. -/
  batches : ∀ before batch after, last.notes.toList = before ++ .took batch :: after →
    start.bus.pending ++ triggered before = taken before ++ batch ∧ dispatchesOf 0 after = batch
  /-- In the end every event taken has been dispatched once, and no other. -/
  once : (last.notes.toList.flatMap Note.dispatch).Perm (taken last.notes.toList)
  /-- At every point the polls that have come to an end have returned, together, the number of
  events they took. -/
  counted : ∀ before after, last.notes.toList = before ++ after →
    ((finished [] before).map (·.2)).sum = ((finished [] before).flatMap (·.1)).length

theorem conserves [DecidableEq κ] {c : Conduct κ γ ε ω R} {start last : Run κ γ ε ω}
    (hstart : start.notes.toList = []) (hsteps : Steps c start last)
    (htells : Tells .doings start last) : Conserves c start last := by
  have hdelivers := delivers hstart hsteps htells
  obtain ⟨ns, hns, htold⟩ := htells
  have hnotes : last.notes.toList = ns := by rw [hns, hstart, List.nil_append]
  refine ⟨fun before after hsplit => ?_, fun before batch after hsplit => ?_,
    hnotes ▸ htold.dispatched_perm, fun before after hsplit => ?_⟩
  · obtain ⟨mid, hmid, hlater, hreplays⟩ := hdelivers.points before after hsplit
    refine ⟨mid, hmid, hlater, by rw [hreplays.notes, hstart, List.nil_append], ?_⟩
    rw [hreplays.pending, triggered_eq_taken hreplays.truthful]
  · obtain ⟨hbatch, hdispatched⟩ := hdelivers.batches before batch after hsplit
    obtain ⟨mid, -, -, hreplays⟩ := hdelivers.points before _ hsplit
    rw [triggered_eq_taken hreplays.truthful, ← hbatch]
    exact ⟨rfl, hdispatched⟩
  · have hall : Exact (finished [] (ns ++ [])) := htold.exact [] [] (by simp [finished, Exact])
    rw [List.append_nil] at hall
    obtain rfl := hnotes.symm.trans hsplit
    exact Exact.sum_counts fun poll hpoll => hall poll ((finished_front [] before after).subset hpoll)

/-- **Events are conserved over every run** of triggers, polls and other requests, whatever the
handlers do. A poll within the depth allowed returns the number in its last note. -/
theorem run_conserves_events [DecidableEq κ] (c : Conduct κ γ ε ω R) (depth : Nat) (b : Bus κ γ ε)
    (world : ω) {α : Type} (p : Program (requests κ γ ε R) α) :
    let start : Run κ γ ε ω := { bus := b, world }
    Conserves c start (p.run (serve c (poll c depth)) start).2 ∧
      (∀ r, poll c 0 r = (0, r)) ∧
      ∀ inner r, ∃ ns, (poll c (inner + 1) r).2.notes.toList =
        r.notes.toList ++ .took r.bus.pending :: (ns ++ [.polled (poll c (inner + 1) r).1]) := by
  intro start
  refine ⟨conserves rfl (steps_run (steps_poll c depth) p start)
    (tells_run (tells_poll c depth) p start), fun r => rfl, fun inner r => ?_⟩
  obtain ⟨ns, hnotes, -⟩ := notes_poll (tells_poll c inner) r
  exact ⟨ns, hnotes⟩

end IrcBot.Bus
