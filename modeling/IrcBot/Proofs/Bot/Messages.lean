/-
Messages that are heard. The lines that connections hear in the course of moves are heard
one at a time, each by a session in the state it is in then (`Net.Hears`). The messages
triggered are those the lines say to these sessions, in order (`Net.Hears.messages`).
-/
import IrcBot.Proofs.Bot.Serving
import IrcBot.Proofs.Session.Texts

namespace IrcBot

/-- A message to the bot or in a channel. -/
def Event.isMessage : Event → Bool
  | .occurred _ what => what.isMessage
  | .module .. => false

theorem Event.occurred_of_isMessage {event : Event} (h : event.isMessage = true) :
    ∃ i what, event = .occurred i what ∧ what.isProtocol = true := by
  cases event with
  | module => cases h
  | occurred i what => exact ⟨i, what, rfl, Occurrence.isProtocol_of_isMessage h⟩

theorem Event.name_of_isMessage {event : Event} (h : event.isMessage = true) :
    event.name = "private-message".toList ∨ event.name = "channel-message".toList := by
  cases event with
  | module => cases h
  | occurred i what =>
    cases what with
    | privateMessage => exact .inl rfl
    | channelMessage => exact .inr rfl
    | _ => cases h

/-- A line that is heard: by which connection, and in which state of its session. -/
structure Hearing where
  connection : Nat
  session : Session
  line : Text

namespace Hearing

/-- The message that the line says. -/
def message? (x : Hearing) : Option Event :=
  (x.session.message? x.line).map (.occurred x.connection)

/-- The line says this message. -/
inductive Says (x : Hearing) : Event → Prop where
  | message {what : Occurrence} (h : x.session.Says x.line what) :
    Says x (.occurred x.connection what)

theorem message?_eq_some_iff {x : Hearing} {event : Event} :
    x.message? = some event ↔ x.Says event := by
  constructor
  · intro h
    obtain ⟨what, hwhat, rfl⟩ := Option.map_eq_some_iff.1 h
    exact .message (Session.message?_eq_some_iff.1 hwhat)
  · rintro ⟨h⟩
    exact Option.map_eq_some_iff.2 ⟨_, Session.message?_eq_some_iff.2 h, rfl⟩

end Hearing

namespace Bot

variable {registered : Nat} {n n' : Net} {es : List Entry} {heard : List Hearing}

/-- Moves, with the lines that are heard in them. -/
inductive Net.Hears (registered : Nat) : Net → List Entry → List Hearing → Net → Prop where
  | refl (n : Net) : Hears registered n [] [] n
  | hear {n n' : Net} {es : List Entry} {heard : List Hearing} {i : Nat} {c : Connection}
    {h : Handle} {line : Text} (hc : n.connections.get? i = some c)
    (hsocket : c.session.socket = some h)
    (rest : Hears registered
      { n with
        connections := n.connections.insert i
          { c with session := (c.session.handleLine registered line).1 } } es heard n') :
    Hears registered n
      ((c.session.handleLine registered line).2.map (fun what => .triggered (.occurred i what)) ++
        es)
      ({ connection := i, session := c.session, line } :: heard) n'
  | other {n n' n'' : Net} {es es' : List Entry} {heard : List Hearing}
    (first : n.Move registered es n')
    (hunheard : ∀ i line, .triggered (.occurred i (.rawLineReceived line)) ∉ es)
    (rest : Hears registered n' es' heard n'') : Hears registered n (es ++ es') heard n''

theorem Net.Moves.hears (hm : n.Moves registered es n') :
    ∃ heard, n.Hears registered es heard n' := by
  induction hm with
  | refl n => exact ⟨[], .refl n⟩
  | head first _ ih =>
    obtain ⟨heard, hrest⟩ := ih
    cases first with
    | hear line hc hsocket => exact ⟨_, .hear hc hsocket hrest⟩
    | touch hs hcallbacks => exact ⟨heard, .other (.touch hs hcallbacks) (by simp) hrest⟩
    | speak line hsocket => exact ⟨heard, .other (.speak line hsocket) (by simp) hrest⟩
    | rename nick hc => exact ⟨heard, .other (.rename nick hc) (by simp) hrest⟩
    | attach stream nick hc hphase =>
      exact ⟨heard, .other (.attach stream nick hc hphase) (by simp) hrest⟩
    | lose hc hsocket => exact ⟨heard, .other (.lose hc hsocket) (by simp) hrest⟩
    | drop hs hother => exact ⟨heard, .other (.drop hs hother) (by simp) hrest⟩

/-- What occurs on a connection has the messages that occur there. -/
theorem messages_occurred (i : Nat) (whats : List Occurrence) :
    ((whats.map fun what => Entry.triggered (.occurred i what)).filterMap Entry.event?).filter
        Event.isMessage = (whats.filter Occurrence.isMessage).map (.occurred i) := by
  rw [List.filterMap_map, show (Entry.event? ∘ fun what => Entry.triggered (.occurred i what)) =
    fun what => some (.occurred i what) from rfl, List.filterMap_eq_map', List.filter_map]
  rfl

/-- While no line is heard, there is no message. -/
theorem messages_unheard (first : n.Move registered es n')
    (hunheard : ∀ i line, .triggered (.occurred i (.rawLineReceived line)) ∉ es) :
    (es.filterMap Entry.event?).filter Event.isMessage = [] :=
  List.filter_eq_nil_iff.2 fun event hevent => Bool.eq_false_iff.1
    (unheard_events (fun _ => Event.occurred_of_isMessage) first.moves hunheard event hevent)

/-- **The messages triggered are those that the lines say**, one after the other. -/
theorem Net.Hears.messages (h : n.Hears registered es heard n') :
    (es.filterMap Entry.event?).filter Event.isMessage = heard.filterMap Hearing.message? := by
  induction h with
  | refl => rfl
  | @hear n n' es heard i c h line _ _ _ ih =>
    rw [List.filterMap_append, List.filter_append, messages_occurred, Session.messages_handleLine,
      ih, List.filterMap_cons]
    simp only [Hearing.message?]
    cases c.session.message? line <;> rfl
  | other first hunheard _ ih =>
    rw [List.filterMap_append, List.filter_append, messages_unheard first hunheard, ih]
    rfl

end Bot

end IrcBot
