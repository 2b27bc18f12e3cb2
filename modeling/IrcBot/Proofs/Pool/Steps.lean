/-
Runs of a pool. A step is something its owner asks for, a pass of its loop, or what
the system does to a stream; a run is any number of steps from a new pool. Every
handle then has one story: it was given out once and its socket has had one life, or
it was never given out.
-/
import IrcBot.Proofs.Pool.Lives

namespace IrcBot.Pool

variable {κ ω : Type} {R : Requests}

/-- What is done with a pool. -/
inductive Step (κ : Type) (R : Requests) where
  | add (stream : Stream) (callbacks : Callbacks κ)
  /-- The owner asks for what callbacks may ask for as well. -/
  | ask (q : Ask κ R.Ask)
  | pass (report : Report)
  /-- More arrives on a stream, or its end. -/
  | arrive (h : Handle) (arrivals : List Arrival) (ended : Bool)
  /-- The system has other answers in store for the writes to a stream. -/
  | prepare (h : Handle) (answers : List Answer) (broken : Option IoError)

def Run.step (c : Conduct κ ω R) (r : Run κ ω) : Step κ R → Run κ ω
  | .add stream callbacks => { r with pool := (r.pool.add stream callbacks).2 }
  | .ask q => (Pool.serve c q r).2
  | .pass report => Pool.poll c report r
  | .arrive h arrivals ended =>
    { r with
      pool := r.pool.adjustStream h fun s => { s with source := s.source.extend arrivals ended } }
  | .prepare h answers broken =>
    { r with
      pool := r.pool.adjustStream h fun s => { s with sink := { s.sink with answers, broken } } }

/-- A new pool. -/
def Run.fresh (κ : Type) (pollTimeout : Nat) (world : ω) : Run κ ω :=
  { pool := { pollTimeout }, world }

/-- A conduct in which no callback does anything. -/
def idle : Conduct Unit Unit (.writing Unit) where
  behave _ _ := .done ()
  perform _ world := ((), world)

namespace Audit

def step (c : Conduct κ ω R) (a : Audit κ ω) : Step κ R → Audit κ ω
  | .add stream callbacks =>
    { run := a.run.step c (.add stream callbacks)
      ledger := a.ledger ++ [(a.run.pool.nextHandle, .added stream)] }
  | .ask q => (serve c q a).2
  | .pass report => poll c report a
  | .arrive h arrivals ended =>
    { run := a.run.step c (.arrive h arrivals ended)
      ledger := a.ledger ++
        if (a.socket? h).isSome then [(h, .arrived (arrivals.flatMap Arrival.bytes))] else [] }
  | .prepare h answers broken => { a with run := a.run.step c (.prepare h answers broken) }

/-- The audit of a run from a new pool. -/
def after (c : Conduct κ ω R) (pollTimeout : Nat) (world : ω) (steps : List (Step κ R)) :
    Audit κ ω :=
  steps.foldl (step c) { run := .fresh κ pollTimeout world }

variable {c : Conduct κ ω R} {a a' : Audit κ ω} {h : Handle}

theorem step_run (c : Conduct κ ω R) (a : Audit κ ω) (s : Step κ R) :
    (a.step c s).run = a.run.step c s := by
  cases s with
  | pass report => exact poll_run c report a
  | _ => rfl

/-- **The audit of a run is a run.** -/
theorem after_run (c : Conduct κ ω R) (pollTimeout : Nat) (world : ω) (steps : List (Step κ R)) :
    (after c pollTimeout world steps).run = steps.foldl (Run.step c) (.fresh κ pollTimeout world) :=
  (List.foldl_hom Audit.run fun a s => (step_run c a s).symm).symm

/-- Every step but adding a socket is turns of sockets that are there. -/
theorem since_step {s : Step κ R} (hs : ∀ stream callbacks, s ≠ .add stream callbacks) :
    Since a (a.step c s) := by
  cases s with
  | add stream callbacks => exact absurd rfl (hs stream callbacks)
  | ask q => exact (Since.refl a).serve q
  | pass report => exact (Since.refl a).poll report
  | arrive h arrivals ended =>
    cases hsocket : a.run.pool.socket? h with
    | none =>
      refine (Since.refl a).of_pool ?_ ?_
      · simp only [step, Run.step, adjustStream, hsocket]
      · simp only [step, socket?, hsocket, Option.isSome_none, Bool.false_eq_true, if_false,
          List.append_nil]
    | some s =>
      refine ((Since.refl a).put hsocket (.arrive s arrivals ended)).of_pool ?_ ?_
      · simp only [step, Run.step, adjustStream, hsocket]
        rfl
      · simp only [step, socket?, hsocket, Option.isSome_some, if_true]
        rfl
  | prepare h answers broken =>
    cases hsocket : a.run.pool.socket? h with
    | none =>
      refine (Since.refl a).of_pool ?_ rfl
      simp only [step, Run.step, adjustStream, hsocket]
    | some s =>
      refine ((Since.refl a).put hsocket (.prepare s answers broken)).of_pool ?_ ?_
      · simp only [step, Run.step, adjustStream, hsocket]
        rfl
      · exact (List.append_nil _).symm

/-- Whether a handle was given out, and what has become of its socket. -/
inductive Story (a : Audit κ ω) (h : Handle) : Prop where
  | unused : a.run.pool.nextHandle ≤ h → a.deeds h = [] → a.socket? h = none → Story a h
  | given (stream : Stream) (callbacks : Callbacks κ) (deeds : List Deed) :
    h < a.run.pool.nextHandle → a.deeds h = .added stream :: deeds →
      Life (some (.ofStream stream callbacks)) deeds (a.socket? h) → Story a h

theorem Story.since (hstory : Story a h) (hs : Since a a') : Story a' h := by
  obtain ⟨more, hmore, hlife⟩ := hs.life h
  cases hstory with
  | unused hle hdeeds hsocket =>
    rw [hsocket] at hlife
    obtain ⟨rfl, hnone⟩ := hlife.of_none
    refine .unused (hs.nextHandle_eq ▸ hle) ?_ hnone
    rw [hmore, hdeeds, List.append_nil]
  | given stream callbacks deeds hlt hdeeds hlived =>
    refine .given stream callbacks (deeds ++ more) (hs.nextHandle_eq ▸ hlt) ?_ (hlived.trans hlife)
    rw [hmore, hdeeds, List.cons_append]

theorem deeds_add (stream : Stream) (callbacks : Callbacks κ) :
    (a.step c (.add stream callbacks)).deeds h =
      a.deeds h ++ if a.run.pool.nextHandle = h then [.added stream] else [] :=
  deeds_append (a.run.step c (.add stream callbacks)) a.ledger [.added stream] _ h

theorem socket?_add (stream : Stream) (callbacks : Callbacks κ) :
    (a.step c (.add stream callbacks)).socket? h =
      if a.run.pool.nextHandle = h then some (.ofStream stream callbacks) else a.socket? h :=
  Table.get?_insert _ _ _ _

theorem Story.add (hstory : Story a h) (stream : Stream) (callbacks : Callbacks κ) :
    Story (a.step c (.add stream callbacks)) h := by
  have hdeeds := deeds_add (a := a) (c := c) (h := h) stream callbacks
  have hsocket := socket?_add (a := a) (c := c) (h := h) stream callbacks
  by_cases he : a.run.pool.nextHandle = h
  · rw [if_pos he] at hdeeds hsocket
    cases hstory with
    | unused _ hnone _ =>
      rw [hnone] at hdeeds
      exact .given stream callbacks [] (he ▸ Nat.lt_succ_self _) hdeeds (hsocket ▸ .same _)
    | given _ _ _ hlt _ _ => exact absurd he (Nat.ne_of_gt hlt)
  · rw [if_neg he] at hdeeds hsocket
    rw [List.append_nil] at hdeeds
    cases hstory with
    | unused hle hnone habsent =>
      exact .unused (Nat.lt_of_le_of_ne hle he) (hdeeds.trans hnone) (hsocket.trans habsent)
    | given stream' callbacks' deeds hlt hgiven hlived =>
      exact .given stream' callbacks' deeds (Nat.lt_succ_of_lt hlt) (hdeeds.trans hgiven)
        (hsocket ▸ hlived)

theorem Story.step (hstory : Story a h) (s : Step κ R) : Story (a.step c s) h := by
  by_cases hadd : ∃ stream callbacks, s = .add stream callbacks
  · obtain ⟨stream, callbacks, rfl⟩ := hadd
    exact hstory.add stream callbacks
  · exact hstory.since (since_step fun stream callbacks he => hadd ⟨stream, callbacks, he⟩)

/-- **Every handle has one story**, after any run. -/
theorem story (c : Conduct κ ω R) (pollTimeout : Nat) (world : ω) (steps : List (Step κ R))
    (h : Handle) : Story (after c pollTimeout world steps) h := by
  have hall (a : Audit κ ω) (hstory : Story a h) : Story (steps.foldl (step c) a) h := by
    induction steps generalizing a with
    | nil => exact hstory
    | cons s steps ih => exact ih _ (hstory.step s)
  exact hall _ (.unused (Nat.zero_le h) rfl rfl)

end Audit

end IrcBot.Pool
