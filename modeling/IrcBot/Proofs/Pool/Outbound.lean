/-
What becomes of the bytes queued for a socket. An account of its deeds says what was
queued and what the stream took since the queue was last dropped; what it took is
always a front of what was queued, and the rest is what still waits. A failed flush
drops the rest before its step is over, and a socket that is gone sends nothing.
-/
import IrcBot.Proofs.Pool.Steps
import IrcBot.Proofs.Record
import IrcBot.Proofs.Stream.Flushing

namespace IrcBot.Pool

variable {κ ω : Type} {R : Requests}

/-- What was done with the bytes for a socket since its queue was last dropped. -/
structure Account where
  /-- What the stream had taken before. -/
  before : Bytes := []
  queued : Bytes := []
  taken : Bytes := []

def Account.after (a : Account) : Deed → Account
  | .added stream => { before := stream.sink.taken }
  | .queued bytes => { a with queued := a.queued ++ bytes }
  | .flushed taken _ => { a with taken := a.taken ++ taken }
  | .dropped => { before := a.before ++ a.taken }
  | .arrived _ | .counted _ | .asked .. => a

def account (deeds : List Deed) : Account := deeds.foldl Account.after {}

/-- What a deed owes to the account of the deeds before it. -/
def Fair (a : Account) : Deed → Prop
  | .flushed taken _ => a.taken ++ taken <+: a.queued
  | .counted pending => a.taken.length + pending = a.queued.length
  | _ => True

/-- Every deed owes nothing to the deeds before it. -/
def AllFair (deeds : List Deed) : Prop :=
  ∀ front deed back, deeds = front ++ deed :: back → Fair (account front) deed

/-- The account of a socket agrees with the socket. -/
structure Balanced (deeds : List Deed) (s : Socket κ) : Prop where
  queued : (account deeds).queued = (account deeds).taken ++ s.queue.bytes
  taken : s.sink.taken = (account deeds).before ++ (account deeds).taken

variable {deeds more : List Deed} {s s' : Socket κ}

theorem account_append (deeds more : List Deed) :
    account (deeds ++ more) = more.foldl Account.after (account deeds) := List.foldl_append

theorem AllFair.concat {deed : Deed} (h : AllFair deeds) (hdeed : Fair (account deeds) deed) :
    AllFair (deeds ++ [deed]) := forall_split_concat h hdeed

/-! ## One turn -/

theorem account_asked (calls : List (Bytes × Except Error (Option Text))) :
    account (deeds ++ calls.map fun call => .asked call.1 call.2) = account deeds := by
  induction calls generalizing deeds with
  | nil => rw [List.map_nil, List.append_nil]
  | cons call calls ih =>
    rw [List.map_cons, List.append_cons, ih, account_append]
    rfl

theorem AllFair.asked (h : AllFair deeds) (calls : List (Bytes × Except Error (Option Text))) :
    AllFair (deeds ++ calls.map fun call => .asked call.1 call.2) := by
  induction calls generalizing deeds with
  | nil => rwa [List.map_nil, List.append_nil]
  | cons call calls ih =>
    rw [List.map_cons, List.append_cons]
    exact ih (h.concat trivial)

/-- What a flush takes is the front of what is queued. -/
theorem flushing_spec (s : Socket κ) (blocked : Bool) :
    ∃ front, flushing s = .flushed front (s.queue.flush s.sink).1 ∧
      ({ s with blocked } : Socket κ).flush.2.sink.taken = s.sink.taken ++ front ∧
      s.queue.bytes = front ++ ({ s with blocked } : Socket κ).flush.2.queue.bytes ∧
      ((s.queue.flush s.sink).1 = .drained →
        ({ s with blocked } : Socket κ).flush.2.queue.bytes = []) := by
  obtain ⟨front, htaken, hrest, hdrained⟩ := s.queue.flush_spec s.sink
  refine ⟨front, ?_, ?_, ?_, ?_⟩
  · rw [flushing]
    dsimp only
    rw [htaken, List.drop_left]
  · rw [Socket.sink_flush]
    exact htaken
  · rw [Socket.queue_flush]
    exact hrest
  · rw [Socket.queue_flush]
    exact hdrained

/-- **A turn keeps the account of a socket in balance**, and owes nothing. -/
theorem Balanced.turn (hb : Balanced deeds s) (hf : AllFair deeds) (hturn : Turn s more s') :
    Balanced (deeds ++ more) s' ∧ AllFair (deeds ++ more) := by
  cases hturn with
  | update | unblock | prepare =>
    rw [List.append_nil]
    exact ⟨⟨hb.queued, hb.taken⟩, hf⟩
  | queue bytes =>
    refine ⟨⟨?_, ?_⟩, hf.concat trivial⟩
    · rw [account_append]
      show (account deeds).queued ++ bytes = (account deeds).taken ++ (s.queue.push bytes).bytes
      rw [hb.queued, WriteQueue.bytes_push, List.append_assoc]
    · rw [account_append]
      exact hb.taken
  | count =>
    refine ⟨⟨?_, ?_⟩, hf.concat ?_⟩
    · rw [account_append]
      exact hb.queued
    · rw [account_append]
      exact hb.taken
    · show (account deeds).taken.length + s.queue.pending = (account deeds).queued.length
      rw [hb.queued, List.length_append, WriteQueue.pending_eq]
  | flush blocked =>
    obtain ⟨front, hflushing, htaken, hrest, -⟩ := flushing_spec s blocked
    rw [hflushing]
    refine ⟨⟨?_, ?_⟩, hf.concat ?_⟩
    · rw [account_append]
      show (account deeds).queued = (account deeds).taken ++ front ++ _
      rw [hb.queued, hrest, List.append_assoc]
    · rw [account_append, htaken, hb.taken]
      exact List.append_assoc _ _ _
    · show (account deeds).taken ++ front <+: (account deeds).queued
      rw [hb.queued, hrest, ← List.append_assoc]
      exact List.prefix_append _ _
  | arrive | read =>
    refine ⟨⟨?_, ?_⟩, hf.concat trivial⟩
    · rw [account_append]
      exact hb.queued
    · rw [account_append]
      exact hb.taken
  | drain =>
    -- One turn, but any number of deeds: all of them calls for a line.
    have hasked : s.reader.calls.map (fun call => Deed.asked call.1 (call.2.mapError .ofStop)) =
        (s.reader.calls.map fun call => (call.1, call.2.mapError Error.ofStop)).map
          fun call => .asked call.1 call.2 := by
      rw [List.map_map]
      rfl
    rw [hasked]
    exact ⟨⟨by rw [account_asked]; exact hb.queued, by rw [account_asked]; exact hb.taken⟩,
      hf.asked _⟩

/-! ## A whole life -/

theorem Life.balanced {start last : Option (Socket κ)} (hlife : Life start more last)
    (hf : AllFair deeds) (hb : ∀ s, start = some s → Balanced deeds s) :
    AllFair (deeds ++ more) ∧ ∀ s, last = some s → Balanced (deeds ++ more) s := by
  induction hlife with
  | same =>
    rw [List.append_nil]
    exact ⟨hf, hb⟩
  | turn _ hturn ih =>
    obtain ⟨hfair, hbalanced⟩ := ih
    obtain ⟨hbalanced, hfair⟩ := (hbalanced _ rfl).turn hfair hturn
    rw [← List.append_assoc]
    refine ⟨hfair, fun s hs => ?_⟩
    obtain rfl := Option.some.inj hs
    exact hbalanced
  | clear _ _ ih =>
    obtain ⟨hfair, hbalanced⟩ := ih
    rw [← List.append_assoc]
    refine ⟨hfair.concat trivial, fun s hs => ?_⟩
    obtain rfl := Option.some.inj hs
    refine ⟨?_, ?_⟩
    · rw [account_append]
      rfl
    · rw [account_append]
      exact (hbalanced _ rfl).taken.trans (List.append_nil _).symm
  | leave _ ih =>
    rw [← List.append_assoc]
    exact ⟨ih.1.concat trivial, by simp⟩

/-- The account of every socket is in balance, whatever has become of it. -/
theorem Audit.Story.balanced {a : Audit κ ω} {h : Handle} (hstory : a.Story h) :
    AllFair (a.deeds h) ∧ ∀ s, a.socket? h = some s → Balanced (a.deeds h) s := by
  have hnone : AllFair [] := forall_split_nil
  cases hstory with
  | unused _ hdeeds hsocket =>
    rw [hdeeds, hsocket]
    exact ⟨hnone, by simp⟩
  | given stream callbacks deeds _ hdeeds hlife =>
    have hadded : AllFair ([] ++ [.added stream]) := hnone.concat trivial
    rw [hdeeds]
    refine hlife.balanced hadded fun s hs => ?_
    obtain rfl := Option.some.inj hs
    exact ⟨rfl, (List.append_nil _).symm⟩

end IrcBot.Pool
