/-
How the notes of a run nest. A poll notes what it takes, then the dispatches of just
those events, then how many they were; a dispatch notes its registrations, then a call
for each of them; and between a call and its return stands what the handler does, whole
polls included (`Told`). Whatever handlers do, and however their calls end, a run leaves
notes of this shape (`tells_run`).

A poll's own dispatches, and a dispatch's own calls, are found among notes that may hold
those of other polls by passing over the polls inside (`dispatchesOf`, `callsOf`). Where
notes nest they are the events taken and the registrations read (`Told.fulfilled`).
-/
import IrcBot.Bus.Poll

namespace IrcBot.Bus

variable {κ γ ε ω : Type} {R : Requests}

/-- What a stretch of notes tells. -/
inductive Stretch (κ γ ε : Type) where
  /-- What a handler does, or somebody outside. -/
  | doings
  | dispatches (events : List ε)
  /-- Calls with one event. -/
  | calls (event : ε) (registrations : List (Registration κ γ))

/-- Whether a note tells of something that runs no handler. -/
def Note.isPlain : Note κ γ ε → Bool
  | .triggered _ | .registered .. | .unregistered .. | .unregisteredAll .. => true
  | .took _ | .dispatched .. | .called .. | .returned _ | .polled _ => false

inductive Told : Stretch κ γ ε → List (Note κ γ ε) → Prop where
  | nothing : Told .doings []
  | plain {n : Note κ γ ε} {ns : List (Note κ γ ε)} (hn : n.isPlain = true)
    (rest : Told .doings ns) : Told .doings (n :: ns)
  | poll {events : List ε} {inner ns : List (Note κ γ ε)} (inside : Told (.dispatches events) inner)
    (rest : Told .doings ns) :
    Told .doings (.took events :: (inner ++ .polled events.length :: ns))
  | dispatched : Told (.dispatches []) []
  | dispatch {event : ε} {events : List ε} {snapshot : List (Registration κ γ)}
    {inner ns : List (Note κ γ ε)} (inside : Told (.calls event snapshot) inner)
    (rest : Told (.dispatches events) ns) :
    Told (.dispatches (event :: events)) (.dispatched event snapshot :: (inner ++ ns))
  | called {event : ε} : Told (.calls event []) []
  /-- However a call ends, the calls of the other registrations follow. -/
  | call {event : ε} {registration : Registration κ γ} {registrations : List (Registration κ γ)}
    {inner ns : List (Note κ γ ε)} (outcome : Outcome Unit) (inside : Told .doings inner)
    (rest : Told (.calls event registrations) ns) :
    Told (.calls event (registration :: registrations))
      (.called event registration :: (inner ++ .returned outcome :: ns))

variable {part : Stretch κ γ ε} {ns more : List (Note κ γ ε)}

theorem Told.append {ns more : List (Note κ γ ε)} (h : Told .doings ns)
    (hmore : Told .doings more) : Told .doings (ns ++ more) := by
  generalize hpart : (Stretch.doings : Stretch κ γ ε) = part at h
  induction h with
  | nothing => exact hmore
  | plain hn _ ih => exact .plain hn (ih hpart)
  | poll inside _ _ ih =>
    rw [List.cons_append, List.append_assoc]
    exact .poll inside (ih hpart)
  | dispatched | dispatch | called | call => cases hpart

/-! ## Runs leave notes that nest -/

/-- The notes of this run that the other does not have yet tell of such a stretch. -/
def Tells (part : Stretch κ γ ε) (r r' : Run κ γ ε ω) : Prop :=
  ∃ ns, r'.notes.toList = r.notes.toList ++ ns ∧ Told part ns

variable {r r' r'' : Run κ γ ε ω}

theorem Tells.refl (r : Run κ γ ε ω) : Tells .doings r r := ⟨[], by simp, .nothing⟩

theorem Tells.trans (h : Tells .doings r r') (h' : Tells .doings r' r'') :
    Tells .doings r r'' := by
  obtain ⟨ns, hns, htold⟩ := h
  obtain ⟨more, hmore, htold'⟩ := h'
  exact ⟨ns ++ more, by rw [hmore, hns, List.append_assoc], htold.append htold'⟩

theorem Tells.plain {n : Note κ γ ε} (hn : n.isPlain = true) (hnotes : r'.notes = r.notes) :
    Tells .doings r (r'.note n) :=
  ⟨[n], by rw [Run.toList_notes_note, hnotes], .plain hn .nothing⟩

theorem tells_triggerAll (r : Run κ γ ε ω) (events : List ε) :
    Tells .doings r (events.foldl Run.trigger r) := by
  induction events generalizing r with
  | nil => exact .refl r
  | cons event events ih => exact (Tells.plain rfl rfl).trans (ih (r.trigger event))

section Runs

variable [DecidableEq κ] {c : Conduct κ γ ε ω R} {poll : Run κ γ ε ω → Nat × Run κ γ ε ω}

theorem tells_serve (hpoll : ∀ r, Tells .doings r (poll r).2) (q : Ask κ γ ε R.Ask)
    (r : Run κ γ ε ω) : Tells .doings r (serve c poll q r).2 := by
  cases q with
  | register | unregister | unregisterAll | trigger => exact .plain rfl rfl
  | wake => exact .refl r
  | poll => exact hpoll r
  | act i => exact tells_triggerAll { r with world := (c.perform i r.world).2.1 } _

theorem tells_run {α : Type} (hpoll : ∀ r, Tells .doings r (poll r).2)
    (p : Program (requests κ γ ε R) α) (r : Run κ γ ε ω) :
    Tells .doings r (p.run (serve c poll) r).2 :=
  Program.run_keeps (P := Tells .doings r) (fun q _ h => h.trans (tells_serve hpoll q _)) p r
    (.refl r)

theorem tells_call (hpoll : ∀ r, Tells .doings r (poll r).2) (event : ε) (r : Run κ γ ε ω)
    (registration : Registration κ γ) :
    ∃ inner outcome, (call c poll event r registration).notes.toList =
      r.notes.toList ++ .called event registration :: (inner ++ [.returned outcome]) ∧
      Told .doings inner := by
  let p := c.behave registration.handler registration.context event
  obtain ⟨inner, hinner, hinside⟩ :=
    tells_run (c := c) hpoll p (r.note (.called event registration))
  refine ⟨inner, (p.run (serve c poll) (r.note (.called event registration))).1, ?_, hinside⟩
  rw [call, Run.toList_notes_note, hinner, Run.toList_notes_note]
  simp [p]

theorem tells_calls (hpoll : ∀ r, Tells .doings r (poll r).2) (event : ε)
    (registrations : List (Registration κ γ)) (r : Run κ γ ε ω) :
    Tells (.calls event registrations) r (registrations.foldl (call c poll event) r) := by
  induction registrations generalizing r with
  | nil => exact ⟨[], by simp, .called⟩
  | cons registration registrations ih =>
    obtain ⟨inner, outcome, hcall, hinside⟩ := tells_call (c := c) hpoll event r registration
    obtain ⟨ns, hns, hrest⟩ := ih (call c poll event r registration)
    refine ⟨_, ?_, .call outcome hinside hrest⟩
    rw [List.foldl_cons, hns, hcall]
    simp

theorem tells_dispatches (hpoll : ∀ r, Tells .doings r (poll r).2) (events : List ε)
    (r : Run κ γ ε ω) :
    Tells (.dispatches events) r (events.foldl (dispatch c poll) r) := by
  induction events generalizing r with
  | nil => exact ⟨[], by simp, .dispatched⟩
  | cons event events ih =>
    let snapshot := r.bus.registry.registrations (c.name event)
    obtain ⟨inner, hinner, hinside⟩ := tells_calls (c := c) hpoll event snapshot
      (r.note (.dispatched event snapshot))
    obtain ⟨ns, hns, hrest⟩ := ih (dispatch c poll r event)
    refine ⟨_, ?_, .dispatch hinside hrest⟩
    rw [List.foldl_cons, hns, dispatch, hinner, Run.toList_notes_note]
    simp

/-- A poll notes what it takes first, and last the number it returns. -/
theorem notes_poll {depth : Nat} (hpoll : ∀ r, Tells .doings r (Bus.poll c depth r).2)
    (r : Run κ γ ε ω) :
    ∃ inner, (Bus.poll c (depth + 1) r).2.notes.toList =
        r.notes.toList ++ .took r.bus.pending ::
          (inner ++ [.polled (Bus.poll c (depth + 1) r).1]) ∧
      Told (.dispatches r.bus.pending) inner := by
  obtain ⟨inner, hinner, hinside⟩ := tells_dispatches (c := c) hpoll r.bus.pending
    (({ r with bus := { r.bus with pending := [] } }).note (.took r.bus.pending))
  refine ⟨inner, ?_, hinside⟩
  rw [Bus.poll, Run.toList_notes_note, hinner, Run.toList_notes_note]
  simp

/-- A poll leaves notes that nest, those of the polls inside it among them. -/
theorem tells_poll (c : Conduct κ γ ε ω R) (depth : Nat) (r : Run κ γ ε ω) :
    Tells .doings r (Bus.poll c depth r).2 := by
  induction depth generalizing r with
  | zero => exact .refl r
  | succ depth ih =>
    obtain ⟨inner, hnotes, hinside⟩ := notes_poll ih r
    exact ⟨_, hnotes, .poll hinside .nothing⟩

end Runs

/-! ## What belongs to a poll, and to a dispatch -/

/-- The events dispatched by the poll that these notes are from, up to its end; polls inside it,
so many of which are under way, are passed over. -/
def dispatchesOf : Nat → List (Note κ γ ε) → List ε
  | _, [] => []
  | level, .took _ :: ns => dispatchesOf (level + 1) ns
  | 0, .polled _ :: _ => []
  | level + 1, .polled _ :: ns => dispatchesOf level ns
  | 0, .dispatched event _ :: ns => event :: dispatchesOf 0 ns
  | level, _ :: ns => dispatchesOf level ns

/-- The calls made by the dispatch that these notes are from, up to the next dispatch or the end
of its poll; polls inside it are passed over. -/
def callsOf : Nat → List (Note κ γ ε) → List (ε × Registration κ γ)
  | _, [] => []
  | level, .took _ :: ns => callsOf (level + 1) ns
  | 0, .polled _ :: _ => []
  | level + 1, .polled _ :: ns => callsOf level ns
  | 0, .dispatched .. :: _ => []
  | 0, .called event registration :: ns => (event, registration) :: callsOf 0 ns
  | level, _ :: ns => callsOf level ns

def Stretch.events : Stretch κ γ ε → List ε
  | .dispatches events => events
  | .doings | .calls .. => []

def Stretch.pairs : Stretch κ γ ε → List (ε × Registration κ γ)
  | .calls event registrations => registrations.map (event, ·)
  | .doings | .dispatches _ => []

theorem dispatchesOf_plain {n : Note κ γ ε} (hn : n.isPlain = true) (level : Nat) :
    dispatchesOf level (n :: ns) = dispatchesOf level ns := by
  cases n with
  | triggered | registered | unregistered | unregisteredAll => cases level <;> rfl
  | took | dispatched | called | returned | polled => cases hn

theorem callsOf_plain {n : Note κ γ ε} (hn : n.isPlain = true) (level : Nat) :
    callsOf level (n :: ns) = callsOf level ns := by
  cases n with
  | triggered | registered | unregistered | unregisteredAll => cases level <;> rfl
  | took | dispatched | called | returned | polled => cases hn

/-- What is told inside another poll is not that poll's own. -/
theorem Told.inside (h : Told part ns) (level : Nat) (more : List (Note κ γ ε)) :
    dispatchesOf (level + 1) (ns ++ more) = dispatchesOf (level + 1) more ∧
      callsOf (level + 1) (ns ++ more) = callsOf (level + 1) more := by
  induction h generalizing level more with
  | nothing | dispatched | called => exact ⟨rfl, rfl⟩
  | plain hn _ ih =>
    rw [List.cons_append, dispatchesOf_plain hn, callsOf_plain hn]
    exact ih level more
  | poll _ _ ih ih' => simp [dispatchesOf, callsOf, ih, ih']
  | dispatch _ _ ih ih' => simp [dispatchesOf, callsOf, ih, ih']
  | call _ _ _ ih ih' => simp [dispatchesOf, callsOf, ih, ih']

theorem Told.dispatchesOf_append (h : Told part ns) (more : List (Note κ γ ε)) :
    dispatchesOf 0 (ns ++ more) = part.events ++ dispatchesOf 0 more := by
  induction h generalizing more with
  | nothing | dispatched | called => rfl
  | plain hn _ ih =>
    rw [List.cons_append, dispatchesOf_plain hn]
    exact ih more
  | poll inside _ _ ih =>
    simp [dispatchesOf, inside.inside, ih, Stretch.events]
  | dispatch _ _ ih ih' => simp [dispatchesOf, ih, ih', Stretch.events]
  | call _ _ _ ih ih' => simp [dispatchesOf, ih, ih', Stretch.events]

/-- Where dispatches are over, no call follows: it would be taken for one of the last. -/
def Stretch.Over : Stretch κ γ ε → List (Note κ γ ε) → Prop
  | .dispatches _, more => callsOf 0 more = []
  | .doings, _ | .calls .., _ => True

theorem Told.callsOf_append (h : Told part ns) (more : List (Note κ γ ε)) (hover : part.Over more) :
    callsOf 0 (ns ++ more) = part.pairs ++ callsOf 0 more := by
  induction h generalizing more with
  | nothing | dispatched | called => rfl
  | plain hn _ ih =>
    rw [List.cons_append, callsOf_plain hn]
    exact ih more trivial
  | poll inside _ _ ih => simp [callsOf, inside.inside, ih _ trivial, Stretch.pairs]
  | dispatch => exact hover.symm
  | call _ _ _ ih ih' => simp [callsOf, ih _ trivial, ih' _ trivial, Stretch.pairs]

/-! ## Nothing is dispatched or called but for a poll or a dispatch -/

/-- The event whose dispatch a note tells of, if any. -/
def Note.dispatch : Note κ γ ε → List ε
  | .dispatched event _ => [event]
  | _ => []

/-- The call that a note tells of, if any. -/
def Note.call : Note κ γ ε → List (ε × Registration κ γ)
  | .called event registration => [(event, registration)]
  | _ => []

/-- The events that a note owes dispatches. -/
def Note.batch : Note κ γ ε → List ε
  | .took events => events
  | _ => []

/-- The calls that a note owes. -/
def Note.listed : Note κ γ ε → List (ε × Registration κ γ)
  | .dispatched event snapshot => snapshot.map (event, ·)
  | _ => []

theorem owes_plain {n : Note κ γ ε} (hn : n.isPlain = true) :
    n.dispatch = [] ∧ n.call = [] ∧ n.batch = [] ∧ n.listed = [] := by
  cases n with
  | triggered | registered | unregistered | unregisteredAll => exact ⟨rfl, rfl, rfl, rfl⟩
  | took | dispatched | called | returned | polled => cases hn

/-- Every event taken is dispatched once, and no other. -/
theorem Told.dispatched_perm (h : Told part ns) :
    (ns.flatMap Note.dispatch).Perm (part.events ++ ns.flatMap Note.batch) := by
  induction h with
  | nothing | dispatched | called => exact .nil
  | plain hn _ ih =>
    obtain ⟨hdispatch, -, hbatch, -⟩ := owes_plain hn
    simpa [hdispatch, hbatch] using ih
  | poll _ _ ih ih' =>
    simpa [Note.dispatch, Note.batch, Stretch.events] using ih.append ih'
  | @dispatch event events snapshot inner ns _ _ ih ih' =>
    -- what inner polls have taken comes before the other events of this one
    have hswap : (inner.flatMap Note.batch ++ (events ++ ns.flatMap Note.batch)).Perm
        (events ++ (inner.flatMap Note.batch ++ ns.flatMap Note.batch)) :=
      List.perm_append_comm_assoc _ _ _
    simpa [Note.dispatch, Note.batch, Stretch.events] using (ih.append ih').trans hswap
  | call _ _ _ ih ih' =>
    simpa [Note.dispatch, Note.batch, Stretch.events] using ih.append ih'

/-- Every handler of a dispatch is called once for it, and no other. -/
theorem Told.called_perm (h : Told part ns) :
    (ns.flatMap Note.call).Perm (part.pairs ++ ns.flatMap Note.listed) := by
  induction h with
  | nothing | dispatched | called => exact .nil
  | plain hn _ ih =>
    obtain ⟨-, hcall, -, hlisted⟩ := owes_plain hn
    simpa [hcall, hlisted] using ih
  | poll _ _ ih ih' =>
    simpa [Note.call, Note.listed, Stretch.pairs] using ih.append ih'
  | dispatch _ _ ih ih' =>
    simpa [Note.call, Note.listed, Stretch.pairs] using ih.append ih'
  | @call event registration registrations inner ns outcome _ _ ih ih' =>
    have hswap : (inner.flatMap Note.listed ++
          (registrations.map (event, ·) ++ ns.flatMap Note.listed)).Perm
        (registrations.map (event, ·) ++
          (inner.flatMap Note.listed ++ ns.flatMap Note.listed)) :=
      List.perm_append_comm_assoc _ _ _
    simpa [Note.call, Note.listed, Stretch.pairs] using (ih.append ih').trans hswap

/-! ## Polls and dispatches do what they note -/

/-- What the notes after this one owe to it: a poll dispatches the events it took, a dispatch calls
the handlers of its registrations. -/
def Note.FulfilledBy : Note κ γ ε → List (Note κ γ ε) → Prop
  | .took events, after => dispatchesOf 0 after = events
  | .dispatched event snapshot, after => callsOf 0 after = snapshot.map (event, ·)
  | _, _ => True

def AllFulfilled : List (Note κ γ ε) → Prop
  | [] => True
  | n :: ns => n.FulfilledBy ns ∧ AllFulfilled ns

theorem fulfilledBy_plain {n : Note κ γ ε} (hn : n.isPlain = true) (after : List (Note κ γ ε)) :
    n.FulfilledBy after := by
  cases n with
  | triggered | registered | unregistered | unregisteredAll => trivial
  | took | dispatched | called | returned | polled => cases hn

theorem Told.fulfilled (h : Told part ns) (more : List (Note κ γ ε)) (hover : part.Over more)
    (hmore : AllFulfilled more) : AllFulfilled (ns ++ more) := by
  induction h generalizing more with
  | nothing | dispatched | called => exact hmore
  | plain hn _ ih => exact ⟨fulfilledBy_plain hn _, ih more trivial hmore⟩
  | @poll events inner ns inside _ ih ih' =>
    rw [List.cons_append, List.append_assoc]
    refine ⟨?_, ih _ rfl ⟨trivial, ih' more trivial hmore⟩⟩
    show dispatchesOf 0 (inner ++ _) = events
    rw [inside.dispatchesOf_append]
    exact List.append_nil events
  | @dispatch event events snapshot inner ns inside rest ih ih' =>
    rw [List.cons_append, List.append_assoc]
    have hrest : callsOf 0 (ns ++ more) = [] := (rest.callsOf_append more hover).trans hover
    refine ⟨?_, ih _ trivial (ih' more hover hmore)⟩
    show callsOf 0 (inner ++ _) = snapshot.map (event, ·)
    rw [inside.callsOf_append _ trivial, hrest]
    exact List.append_nil _
  | call outcome _ _ ih ih' =>
    rw [List.cons_append, List.append_assoc]
    exact ⟨trivial, ih _ trivial ⟨trivial, ih' more trivial hmore⟩⟩

theorem AllFulfilled.at {before after : List (Note κ γ ε)} {n : Note κ γ ε}
    (h : AllFulfilled (before ++ n :: after)) : n.FulfilledBy after := by
  induction before with
  | nil => exact h.1
  | cons _ before ih => exact ih h.2

end IrcBot.Bus
