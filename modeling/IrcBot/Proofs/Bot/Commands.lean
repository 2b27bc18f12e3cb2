/-
Bot commands. A message is a command if its text is a mark, a word without a space
directly after it, and then nothing or a space. Handlers that publish commands trigger one
event for each message that is one, in the order the messages were heard, and it is left
to a later poll of the bus (`run_publishes_commands`).
-/
import IrcBot.Proofs.Bot.Builtins
import IrcBot.Proofs.Bot.Messages
import IrcBot.Proofs.Bus.Deferral
import IrcBot.Proofs.Wire.Grammar

namespace IrcBot

/-! ## Texts -/

namespace Builtin

variable {mark text rest name args : Text}

theorem dropMark?_eq_some_iff : dropMark? mark text = some rest ↔ text = mark ++ rest := by
  fun_induction dropMark? mark text with
  | case1 t => exact Option.some_inj
  | case2 m mark => simp
  | case3 m mark t ih => simp [ih]
  | case4 m mark c t hne => simp [Ne.symm hne]

/-- Every text is a word, and nothing or a space after it. -/
theorem exists_word (t : Text) :
    ∃ word rest, t = word ++ rest ∧ ' ' ∉ word ∧ Message.StartsApart rest := by
  cases hcut : Text.cut? ' ' t with
  | none =>
    exact ⟨t, [], (List.append_nil t).symm, Text.cut?_eq_none_iff.1 hcut, fun _ h => by cases h⟩
  | some p =>
    obtain ⟨word, after⟩ := p
    obtain ⟨ht, hword⟩ := Text.cut?_eq_some_iff.1 hcut
    exact ⟨word, ' ' :: after, ht, hword, fun _ h => by cases h; rfl⟩

/-- A word directly after the mark makes a command, unless it is empty. -/
theorem splitCommand?_append (hname : ' ' ∉ name) (hrest : Message.StartsApart rest) :
    splitCommand? mark (mark ++ (name ++ rest)) =
      if name.isEmpty then none else some (name, Text.trimBlank rest) := by
  have hmark : dropMark? mark (mark ++ (name ++ rest)) = some (name ++ rest) :=
    dropMark?_eq_some_iff.2 rfl
  rw [splitCommand?, hmark, Option.bind_some]
  cases rest with
  | nil =>
    rw [List.append_nil, Text.cut?_eq_none_iff.2 hname]
    rfl
  | cons c after =>
    obtain rfl : c = ' ' := hrest c rfl
    rw [Text.cut?_eq_some_iff.2 ⟨rfl, hname⟩]
    rfl

/-- A text is a command exactly if it is the mark, a word directly after it, and then nothing or
a space. -/
theorem splitCommand?_eq_some_iff :
    splitCommand? mark text = some (name, args) ↔
      ∃ rest, text = mark ++ name ++ rest ∧ name ≠ [] ∧ ' ' ∉ name ∧ Message.StartsApart rest ∧
        args = Text.trimBlank rest := by
  constructor
  · intro h
    obtain ⟨t, hmark, -⟩ := Option.bind_eq_some_iff.1 h
    obtain rfl := dropMark?_eq_some_iff.1 hmark
    obtain ⟨word, rest, rfl, hword, hrest⟩ := exists_word t
    rw [splitCommand?_append hword hrest] at h
    split at h
    · cases h
    · next hne =>
      cases h
      exact ⟨rest, (List.append_assoc ..).symm, by simpa using hne, hword, hrest, rfl⟩
  · rintro ⟨rest, rfl, hne, hname, hrest, rfl⟩
    rw [List.append_assoc, splitCommand?_append hname hrest, if_neg (by simpa using hne)]

end Builtin

open Builtin (splitCommand?)

/-! ## Messages that are commands -/

/-- The command that a message is under a mark: on the same connection, from the same sender, in
the same channel if there is one. -/
inductive Commands (mark : Text) : Event → Event → Prop where
  | privately {i : Nat} {sender : User} {name rest : Text} (hne : name ≠ []) (hname : ' ' ∉ name)
    (hrest : Message.StartsApart rest) :
    Commands mark (.occurred i (.privateMessage sender (mark ++ name ++ rest)))
      (.occurred i (.command sender none name (Text.trimBlank rest)))
  | inChannel {i : Nat} {sender : User} {channel name rest : Text} (hne : name ≠ [])
    (hname : ' ' ∉ name) (hrest : Message.StartsApart rest) :
    Commands mark (.occurred i (.channelMessage sender channel (mark ++ name ++ rest)))
      (.occurred i (.command sender (some channel) name (Text.trimBlank rest)))

namespace Event

variable {mark : Text} {message command : Event}

/-- The command that an event is, if it is one. -/
def command? (mark : Text) : Event → Option Event
  | .occurred i (.privateMessage sender text) => (splitCommand? mark text).map fun word =>
    .occurred i (.command sender none word.1 word.2)
  | .occurred i (.channelMessage sender channel text) => (splitCommand? mark text).map fun word =>
    .occurred i (.command sender (some channel) word.1 word.2)
  | _ => none

theorem command?_eq_some_iff :
    command? mark message = some command ↔ Commands mark message command := by
  constructor
  · intro h
    unfold command? at h
    split at h
    · obtain ⟨⟨name, args⟩, hsplit, rfl⟩ := Option.map_eq_some_iff.1 h
      obtain ⟨rest, rfl, hne, hname, hrest, rfl⟩ := Builtin.splitCommand?_eq_some_iff.1 hsplit
      exact .privately hne hname hrest
    · obtain ⟨⟨name, args⟩, hsplit, rfl⟩ := Option.map_eq_some_iff.1 h
      obtain ⟨rest, rfl, hne, hname, hrest, rfl⟩ := Builtin.splitCommand?_eq_some_iff.1 hsplit
      exact .inChannel hne hname hrest
    · cases h
  · intro h
    cases h with
    | privately hne hname hrest | inChannel hne hname hrest =>
      exact Option.map_eq_some_iff.2
        ⟨_, Builtin.splitCommand?_eq_some_iff.2 ⟨_, rfl, hne, hname, hrest, rfl⟩, rfl⟩

theorem command?_eq_none (h : message.isMessage = false) : message.command? mark = none := by
  cases message with
  | module => rfl
  | occurred i what => cases what <;> first | rfl | cases h

end Event

namespace Bot

variable {μ κ γ ν ω : Type} {mark : Text} {mine : κ → Bool}

/-! ## The module that publishes commands -/

/-- The service of publishing as commands the messages that are. -/
def commanding (mark : Text) (mine : κ → Bool) : Service κ γ ν Event where
  attends := Event.isMessage
  mine
  behave := Builtin.Kind.commands.handle mark
  view
    | .acted .. => []
    | .triggered actor event => if mine actor then [event] else []
  answer event := (event.command? mark).toList
  Good _ := True
  Lost _ := False
  others d hd := by
    cases d with
    | acted => rfl
    | triggered actor event => exact if_neg (Bool.eq_false_iff.1 hd)
  unattended event hevent := by
    rw [Event.command?_eq_none hevent]
    rfl
  protocol _ hevent := Event.occurred_of_isMessage hevent
  good _ _ _ := trivial
  lost _ _ h := h

/-- What is published of an event is the command that it is. -/
theorem publishCommand_eq (mark : Text) (event : Event) :
    (Builtin.publishCommand mark event : Act κ γ ν Unit) =
      match event.command? mark with
      | some command => Act.trigger command
      | none => pure () := by
  cases event with
  | module => rfl
  | occurred i what =>
    cases what with
    | privateMessage sender text | channelMessage sender channel text =>
      simp only [Builtin.publishCommand, Builtin.publishCommand.publish, Event.command?]
      cases splitCommand? mark text <;> rfl
    | _ => rfl

theorem answers_commands (events : List Event) :
    (commanding mark mine : Service κ γ ν Event).answers events =
      events.filterMap (Event.command? mark) := by
  induction events with
  | nil => rfl
  | cons event events ih =>
    show (event.command? mark).toList ++ Service.answers _ events = _
    rw [ih, List.filterMap_cons]
    cases event.command? mark <;> rfl

variable [DecidableEq κ]

theorem answers_commanding : (commanding mark mine : Service κ γ ν Event).Answers := by
  intro handle k event poll r hk _ _ r'
  let s : Service κ γ ν Event := commanding mark mine
  have hk : mine k = true := hk
  refine .inr ?_
  have hbehave : s.behave event = _ := publishCommand_eq mark event
  show (Bus.RecordedRun.viewed s.view
    ((Bus.marked k (s.behave event)).run (Bus.serve (handling handle).recorded poll) r).2) =
      r.viewed s.view ++ (event.command? mark).toList
  rw [hbehave]
  cases event.command? mark with
  | none => exact (List.append_nil _).symm
  | some command =>
    -- the one event triggered is recorded as what this handler does
    have hview : s.view (.triggered k command) = [command] := if_pos hk
    show (r.world.2 ++ [Bus.Doing.triggered k command]).flatMap s.view = _
    rw [List.flatMap_append, List.flatMap_singleton, hview]
    rfl

/-! ## Polls of the bus -/

/-- The events published are triggered in the poll. -/
theorem published_sublist (b : Bot μ κ γ)
    (handle : κ → Option γ → Event → Bus.Handler κ γ Event (calls ν)) (depth : Nat) :
    ((commanding mark mine : Service κ γ ν Event).shownBy b (.pollBus handle depth)).Sublist
      (Bus.triggered (b.polled handle depth)) := by
  rw [polled, Bus.triggered_poll _ _ _ rfl]
  refine List.Sublist.flatMap_right _ fun d _ => ?_
  cases d with
  | acted => exact List.nil_sublist _
  | triggered actor event =>
    show (if mine actor then [event] else []).Sublist [event]
    split
    · exact List.Sublist.refl _
    · exact List.nil_sublist _

/-! ## Runs -/

/-- What is published in a poll of the bus is left to later polls. -/
structure Defers (b : Bot μ κ γ)
    (handle : κ → Option γ → Event → Bus.Handler κ γ Event (calls ν)) (depth : Nat)
    (published : List Event) : Prop where
  triggered : published.Sublist (Bus.triggered (b.polled handle depth))
  /-- A poll, nested in this one or not, takes what has been triggered up to then and was not
  taken, and dispatches just that. -/
  batches : ∀ before batch after, b.polled handle depth = before ++ .took batch :: after →
    b.bus.pending ++ Bus.triggered before = Bus.taken before ++ batch ∧
      Bus.dispatchesOf 0 after = batch
  /-- What no poll has taken waits for the next. -/
  waits : b.bus.pending ++ Bus.triggered (b.polled handle depth) =
    Bus.taken (b.polled handle depth) ++ (b.step (.pollBus handle depth)).bus.pending

/-- **Every message that is a command is published as one, once and in order.** In whatever way a
bot has come to have the module loaded that publishes commands: if publishing is left to the
module, then once no message waits on the bus any more it has triggered just one event for each
message that waited at first or was heard and that is a command. The messages heard are the lines
that say one. A command is answered where its message would be, and is dispatched in a later
poll. -/
theorem run_publishes_commands {c : ModuleConduct μ κ γ ω} {key : Builtin.HandlerId → κ}
    {builtin : Builtin.Instance → μ} {home : κ → Option Text} (hc : Builtin.Among c key builtin)
    (hown : c.RegistersOwn home) {networks : List Config.Network} {start : Bot μ κ γ}
    (hlives : Lives ν c home "commands".toList networks start) (m : Builtin.Instance)
    (hloaded : start.slots.get? "commands".toList = some ⟨builtin m, true⟩)
    (steps : List (Step κ γ ν)) (mark : Text) :
    let service : Service κ γ ν Event := commanding mark (m.owns key)
    service.RespectedIn "commands".toList start steps →
    (start.run steps).bus.pending.filter Event.isMessage = [] →
    ∃ heard,
      start.net.Hears start.settings.registeredNumeric (start.history steps) heard
        (start.run steps).net ∧
      service.shown start steps =
        (start.bus.pending ++ heard.filterMap Hearing.message?).filterMap (Event.command? mark) ∧
      (∀ x ∈ heard, ∀ message, x.message? = some message ↔ x.Says message) ∧
      (∀ message command, message.command? mark = some command ↔ Commands mark message command) ∧
      (∀ message command, Commands mark message command →
        command.connection? = message.connection? ∧
        command.replyTarget? = message.replyTarget? ∧
        ∀ i sender channel word args, command = .occurred i (.command sender channel word args) →
          command.name = "command.".toList ++ word) ∧
      ∀ earlier handle depth later, steps = earlier ++ .pollBus handle depth :: later →
        (start.run earlier).Defers handle depth
          (service.shownBy (start.run earlier) (.pollBus handle depth)) := by
  intro service hrespected hidle
  have hn : start.net.Sound := hlives.sound
  have hmoves := moves_run hn steps
  have hkind : m.kind = .commands := Builtin.Kind.name_injective (hlives.name_eq hown hc hloaded)
  have hnames (event : Event) (hevent : service.attends event = true) :
      event.name ∈ m.kind.events := by
    rw [hkind]
    rcases Event.name_of_isMessage hevent with hname | hname <;> simp [hname, Builtin.Kind.events]
  obtain ⟨own, hhas, hserves⟩ := hlives.serves hown hc hloaded hnames
  have hleft := Service.undisturbedIn_of_respected hhas hserves hrespected
  obtain ⟨heard, hheard⟩ := hmoves.hears
  refine ⟨heard, hheard, ?_, fun _ _ _ => Hearing.message?_eq_some_iff,
    fun _ _ => Event.command?_eq_some_iff, fun message command h => ?_,
    fun earlier handle depth later _ => ?_⟩
  · have hrun := Service.run_answers (s := service) answers_commanding hn trivial hleft id
    have hmessages : service.answers ((start.history steps).filterMap Entry.event?) =
        (heard.filterMap Hearing.message?).filterMap (Event.command? mark) := by
      rw [← service.answers_filter, ← answers_commands]
      exact congrArg service.answers hheard.messages
    have hnone : service.answers (start.run steps).bus.pending = [] := by
      rw [← service.answers_filter]
      exact congrArg service.answers hidle
    rw [hnone, List.append_nil, hmessages] at hrun
    rw [hrun, answers_commands, List.filterMap_append]
  · cases h <;> exact ⟨rfl, rfl, by rintro _ _ _ _ _ ⟨⟩; rfl⟩
  · obtain ⟨hbatches, hwaits⟩ := Bus.poll_defers (handling handle) depth (start.run earlier).bus
      { net := (start.run earlier).net }
    exact ⟨published_sublist _ handle depth, hbatches, hwaits⟩

/-- Commands among other texts. -/
def textLines : Bytes := Text.encode
  ([":a!b@c PRIVMSG bot :?seen  bob ", ":a NOTICE bot ?help", ":a PRIVMSG #d :? x",
    ":a privmsg #d ?y"].flatMap fun line => line.toList ++ ['\r', '\n'])

theorem run_publishes_commands_in_one_burst :
    let m : Builtin.Instance := ⟨.commands, 1⟩
    let service : Service Builtin.HandlerId Unit Unit Event := commanding "?".toList (m.owns id)
    let sender : User := { nick := "a".toList, user := some "b".toList, host := some "c".toList }
    service.shown equipped (heardAtOnce textLines) =
      [.occurred 0 (.command sender none "seen".toList "bob".toList),
        .occurred 0 (.command sender (some "#d".toList) "y".toList [])] := by
  intro m service sender
  have hprovided : service.Provided fun id _ => id.owner.kind.handle "?".toList :=
    Service.provided_of_handles (rfl : service.mine = m.owns id) rfl fun _ _ _ => rfl
  have hrespected : service.RespectedIn "commands".toList equipped (heardAtOnce textLines) := by
    refine Service.respectedIn_of_leaves (lives_equipped "commands".toList).sound ?_
    simp only [heardAtOnce, List.forall_mem_cons]
    exact ⟨trivial, trivial, ⟨hprovided, fun _ _ => service.respects_builtin _ _ _⟩, by simp⟩
  obtain ⟨heard, hheard, hshown, -⟩ := run_publishes_commands (Builtin.among_conduct id)
    (Builtin.registersOwn_conduct fun _ => rfl) (lives_equipped "commands".toList) m
    (by decide +kernel) (heardAtOnce textLines) "?".toList hrespected (by decide +kernel)
  rw [hshown, ← hheard.messages]
  decide +kernel

end Bot

end IrcBot
