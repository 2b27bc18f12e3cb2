/-
What comes in through a pool. Whoever asks a socket for lines, and whenever, the calls
together answer the segments of what the socket has received, in order and each once;
no call answers that there is no line, or that the stream has stopped, before all
lines received so far have been answered.
-/
import IrcBot.Proofs.Pool.Steps

namespace IrcBot.Pool

open Reader

variable {κ ω : Type} {R : Requests}

/-- The calls for a line among what was done with a socket. -/
def asked (deeds : List Deed) : List (Bytes × Except Error (Option Text)) :=
  deeds.filterMap fun
    | .asked received answer => some (received, answer)
    | _ => none

/-- All bytes that have arrived on the stream of a socket. -/
def arrived (deeds : List Deed) : Bytes :=
  deeds.flatMap fun
    | .added stream => stream.source.content
    | .arrived bytes => bytes
    | _ => []

variable {deeds more : List Deed} {s s' : Socket κ} {limit : Nat}

theorem asked_append (deeds more : List Deed) : asked (deeds ++ more) = asked deeds ++ asked more :=
  List.filterMap_append

theorem arrived_append (deeds more : List Deed) :
    arrived (deeds ++ more) = arrived deeds ++ arrived more := List.flatMap_append

theorem asked_calls (calls : List (Bytes × Except Source.Stop (Option Text))) :
    asked (calls.map fun call => .asked call.1 (call.2.mapError .ofStop)) =
      calls.map fun call => (call.1, call.2.mapError .ofStop) := by
  induction calls with
  | nil => rfl
  | cons call calls ih => exact congrArg (List.cons _) ih

theorem arrived_calls (calls : List (Bytes × Except Source.Stop (Option Text))) :
    arrived (calls.map fun call => .asked call.1 (call.2.mapError .ofStop)) = [] := by
  induction calls with
  | nil => rfl
  | cons call calls ih => exact ih

/-! ## What was answered is in the ledger -/

section Answers

variable {ι : Type} {p : Pool κ} {h : Handle}

theorem asked_readLine (hs : p.socket? h = some s) :
    asked ((Ask.readLine h : Ask κ ι).deeds s) = [(s.reader.received, (p.readLine h).1)] := by
  simp only [readLine, hs]
  rfl

/-- Who reads all lines is answered what the calls for them answer. -/
theorem asked_drain (hs : p.socket? h = some s) :
    (asked ((Ask.drain h : Ask κ ι).deeds s)).map Prod.snd =
      (p.drain h).1.1.map (fun line => .ok (some line)) ++
        [(p.drain h).1.2.elim (.ok none) .error] := by
  have hcalls := congrArg (List.map (Except.mapError Error.ofStop)) (answers_calls s.reader)
  rw [List.map_map, List.map_append, List.map_map] at hcalls
  rw [Ask.deeds, asked_calls, List.map_map]
  simp only [Pool.drain, hs]
  refine hcalls.trans (congrArg (List.append _) ?_)
  cases s.reader.drain.2.1 <;> rfl

/-- What a request does with the socket it is about is entered, whoever makes it. -/
theorem deeds_serve {c : Conduct κ ω R} {a : Audit κ ω} {q : Ask κ R.Ask}
    (hq : q.target? = some h) (hs : a.socket? h = some s) :
    (Audit.serve c q a).2.deeds h = a.deeds h ++ q.deeds s := by
  have hentered : Audit.entries a.run.pool q = (q.deeds s).map (h, ·) := by
    rw [Audit.entries, hq]
    show ((a.run.pool.socket? h).elim [] q.deeds).map _ = _
    rw [show a.run.pool.socket? h = some s from hs]
    rfl
  rw [Audit.serve, hentered, Audit.deeds_append, if_pos rfl]
  rfl

theorem asked_serve {c : Conduct κ ω R} {a : Audit κ ω} (hs : a.socket? h = some s) :
    asked ((Audit.serve c (.readLine h) a).2.deeds h) =
      asked (a.deeds h) ++ [(s.reader.received, (a.run.pool.readLine h).1)] := by
  rw [deeds_serve rfl hs, asked_append, asked_readLine hs]

theorem asked_serve_drain {c : Conduct κ ω R} {a : Audit κ ω} (hs : a.socket? h = some s) :
    (asked ((Audit.serve c (.drain h) a).2.deeds h)).map Prod.snd =
      (asked (a.deeds h)).map Prod.snd ++
        ((a.run.pool.drain h).1.1.map (fun line => .ok (some line)) ++
          [(a.run.pool.drain h).1.2.elim (.ok none) .error]) := by
  rw [deeds_serve rfl hs, asked_append, List.map_append, asked_drain hs]

end Answers

/-! ## Calls are right -/

/-- The calls to a socket are right for what has arrived on its stream. -/
abbrev Heeded (deeds : List Deed) (r : Reader) : Prop := Heard 8191 (arrived deeds) (asked deeds) r

/-- A deed that neither brings bytes nor asks for a line. -/
theorem Heeded.of_silent {r : Reader} (h : Heeded deeds r) (hasked : asked more = [])
    (harrived : arrived more = []) : Heeded (deeds ++ more) r := by
  unfold Heeded
  rwa [asked_append, arrived_append, hasked, harrived, List.append_nil, List.append_nil]

/-- **A turn of a socket leaves its calls right.** -/
theorem Turn.heeded (hturn : Turn s more s') (h : Heeded deeds s.reader) :
    Heeded (deeds ++ more) s'.reader := by
  cases hturn with
  | update | unblock | prepare | queue | count => exact h.of_silent rfl rfl
  | flush blocked =>
    rw [Socket.reader_flush]
    exact h.of_silent rfl rfl
  | arrive arrivals ended =>
    have harrived : arrived [.arrived (arrivals.flatMap Arrival.bytes)] =
        arrivals.flatMap Arrival.bytes := by simp [arrived]
    unfold Heeded
    rw [asked_append, arrived_append, harrived, show asked [.arrived _] = [] from rfl,
      List.append_nil]
    exact h.extend arrivals ended
  | read =>
    unfold Heeded
    rw [asked_append, arrived_append, show arrived [.asked _ _] = [] from rfl, List.append_nil]
    exact h.next (toOption_mapError Error.ofStop s.reader.next.1)
  | drain =>
    unfold Heeded
    rw [asked_append, arrived_append, asked_calls, arrived_calls, List.append_nil]
    exact h.drain .ofStop

/-- The calls of a socket are right as long as it lives, and stay so. -/
theorem Life.heeded {start last : Option (Socket κ)} (hlife : Life start more last)
    (h : ∃ r, Heeded deeds r ∧ ∀ s, start = some s → s.reader = r) :
    ∃ r, Heeded (deeds ++ more) r ∧ ∀ s, last = some s → s.reader = r := by
  induction hlife with
  | same => rwa [List.append_nil]
  | turn _ hturn ih =>
    obtain ⟨r, hheeded, hreader⟩ := ih
    obtain rfl := hreader _ rfl
    rw [← List.append_assoc]
    exact ⟨_, hturn.heeded hheeded, fun s hs => by rw [Option.some.inj hs]⟩
  | clear _ _ ih =>
    obtain ⟨r, hheeded, hreader⟩ := ih
    obtain rfl := hreader _ rfl
    rw [← List.append_assoc]
    exact ⟨_, hheeded.of_silent rfl rfl, fun s hs => by rw [← Option.some.inj hs]⟩
  | leave _ ih =>
    obtain ⟨r, hheeded, -⟩ := ih
    rw [← List.append_assoc]
    exact ⟨r, hheeded.of_silent rfl rfl, by simp⟩

theorem Audit.Story.heeded {a : Audit κ ω} {h : Handle} (hstory : a.Story h) :
    ∃ r, Heeded (a.deeds h) r ∧ ∀ s, a.socket? h = some s → s.reader = r := by
  cases hstory with
  | unused _ hdeeds hsocket =>
    rw [hdeeds, hsocket]
    exact ⟨_, heard_fresh {} 8191, by simp⟩
  | given stream callbacks deeds _ hdeeds hlife =>
    have hstart : Heeded [.added stream] (Socket.ofStream stream callbacks).reader := by
      have harrived : arrived [.added stream] = stream.source.content := by simp [arrived]
      unfold Heeded
      rw [harrived]
      exact heard_fresh stream.source 8191
    have hreader : ∃ r, Heeded [.added stream] r ∧
        ∀ s, some (Socket.ofStream stream callbacks) = some s → s.reader = r :=
      ⟨_, hstart, fun s hs => by rw [← Option.some.inj hs]⟩
    rw [hdeeds]
    exact hlife.heeded hreader

/-- **The calls for a line answer what has arrived, segment by segment.** After any run of
a pool, and for any handle: if no run of bytes without a line feed that has arrived on the
stream is longer than 8191 bytes, then

- what the calls have received is the beginning of the stream, and their answers are the
  first segments of the stream, each decoded as a whole and without the carriage return at
  its end, in order;
- after each call, the lines answered so far are among those received so far, and they are
  all of them if the call has answered that there is no line, that the stream is closed, or
  that reading failed;
- while the socket is in the pool, what was received is the segments handed out as lines, each
  with its line feed, and what is buffered; and the rest of the stream is still to be read.

And a read that brings nothing leaves what is buffered as it was. Every call is entered as it is
answered; reading all lines is entered as calls that answer just these lines, and at last why there
are no more. -/
theorem answers_segments (c : Conduct κ ω R) (pollTimeout : Nat) (world : ω)
    (steps : List (Step κ R)) (h : Handle) :
    let a := Audit.after c pollTimeout world steps
    let stream := arrived (a.deeds h)
    let calls := asked (a.deeds h)
    a.run = steps.foldl (Run.step c) (.fresh κ pollTimeout world) ∧
      (Short 8191 stream →
        receivedBy calls <+: stream ∧
          linesOf calls <+: linesIn stream ∧
          (∀ seen, seen <+: calls →
            linesOf seen <+: linesIn (receivedBy seen) ∧
              ∀ last ∈ seen.getLast?, last.2.toOption.join = none →
                linesOf seen = linesIn (receivedBy seen)) ∧
          ∀ s, a.run.pool.socket? h = some s →
            stream = receivedBy calls ++ s.reader.source.content ∧
              ∃ handed, Accounted calls s.reader.buffer.bytes handed) ∧
      (∀ r : Reader, r.fill.1 ≠ .ok true → r.fill.2.buffer = r.buffer) ∧
      ∀ (before : Audit κ ω) (s : Socket κ), before.socket? h = some s →
        asked ((Audit.serve c (.readLine h) before).2.deeds h) =
            asked (before.deeds h) ++ [(s.reader.received, (before.run.pool.readLine h).1)] ∧
          (asked ((Audit.serve c (.drain h) before).2.deeds h)).map Prod.snd =
            (asked (before.deeds h)).map Prod.snd ++
              ((before.run.pool.drain h).1.1.map (fun line => .ok (some line)) ++
                [(before.run.pool.drain h).1.2.elim (.ok none) .error]) := by
  intro a stream calls
  obtain ⟨r, hheeded, hreader⟩ := (Audit.story c pollTimeout world steps h).heeded
  have hreceived : receivedBy calls <+: stream := ⟨_, hheeded.content.symm⟩
  refine ⟨Audit.after_run c pollTimeout world steps, fun hshort => ?_, fun r => buffer_fill,
    fun before s hs => ⟨asked_serve hs, asked_serve_drain hs⟩⟩
  have hshort : Short 8191 (receivedBy calls) := hshort.of_infix hreceived.isInfix
  refine ⟨hreceived, ?_, ?_, ?_⟩
  · exact (hheeded.right hshort calls List.prefix_rfl).ordered.trans (linesIn_mono hreceived)
  · intro seen hseen
    obtain ⟨hordered, hcomplete⟩ := hheeded.right hshort seen hseen
    exact ⟨hordered, hcomplete⟩
  · intro s hs
    rw [hreader s hs]
    exact ⟨hheeded.content, hheeded.accounted hshort⟩

/-- A line of which the second character and the line end are both split over reads, and
the beginning of another line. -/
def splitReads : List (Step Unit (.writing Unit)) :=
  [.add { source := { arrivals := [.data [99, 195], .blocked, .data [169, 13]] } } {},
    .ask (.readLine 0), .ask (.readLine 0), .arrive 0 [.interrupted, .data [10, 120]] false,
    .ask (.readLine 0), .ask (.readLine 0)]

theorem answers_segments_of_split_reads :
    let a := Audit.after idle 5 () splitReads
    Short 8191 (arrived (a.deeds 0)) ∧ linesOf (asked (a.deeds 0)) = ["cé".toList] ∧
      linesOf (asked (a.deeds 0)) <+: linesIn (arrived (a.deeds 0)) := by
  have hlength : (arrived ((Audit.after idle 5 () splitReads).deeds 0)).length = 6 := by decide +kernel
  have hshort : Short 8191 (arrived ((Audit.after idle 5 () splitReads).deeds 0)) := by
    intro run hrun _
    have hle := hrun.length_le
    omega
  exact ⟨hshort, by decide +kernel, ((answers_segments idle 5 () splitReads 0).2.1 hshort).2.1⟩

end IrcBot.Pool
