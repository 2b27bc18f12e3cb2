/-
What an order makes a connection send. Every order but connecting comes down
to a list of lines (`Circuit.Order.lines`), fixed by the order and by the
channels the bot is in. A connection with a socket queues exactly these lines
and announces each of them (`carryOut_online`); one without refuses them and
nothing changes (`carryOut_offline`). Connecting comes down to lines, too: those
of the handshake, on the new socket (`connect_ok`).
-/
import IrcBot.Proofs.Pool.Sockets
import IrcBot.Proofs.Text.Lines
import IrcBot.Proofs.Wire.Commands

namespace IrcBot

/-- The line of a command with one word alone. -/
theorem Command.line_word {verb word : Text} {c : Command} (hv : c.verb = verb)
    (hw : c.words = [word]) (ht : c.freeText = none) : c.line = verb ++ [' '] ++ word := by
  rw [Command.line, hv, hw, ht]
  simp

/-- The line of a command with one word and a free text. -/
theorem Command.line_text {verb word text : Text} {c : Command} (hv : c.verb = verb)
    (hw : c.words = [word]) (ht : c.freeText = some text) :
    c.line = verb ++ [' '] ++ word ++ " :".toList ++ text := by
  rw [Command.line, hv, hw, ht]
  simp

theorem Command.line_pass (password : Text) :
    (Command.pass password).line = "PASS ".toList ++ password :=
  line_word rfl rfl rfl

theorem Command.line_nick (nick : Text) : (Command.nick nick).line = "NICK ".toList ++ nick :=
  line_word rfl rfl rfl

theorem Command.line_user (user realname : Text) : (Command.user user realname).line =
    "USER ".toList ++ user ++ " * * :".toList ++ realname := by
  show "USER".toList ++ [user, ['*'], ['*']].flatMap (' ' :: ·) ++ ([' ', ':'] ++ realname) = _
  simp only [List.flatMap_cons, List.flatMap_nil, List.append_assoc, List.append_nil]
  rfl

theorem Command.line_privmsg (target text : Text) :
    (Command.privmsg target text).line = "PRIVMSG ".toList ++ target ++ " :".toList ++ text :=
  line_text rfl rfl rfl

theorem Command.line_notice (target text : Text) :
    (Command.notice target text).line = "NOTICE ".toList ++ target ++ " :".toList ++ text :=
  line_text rfl rfl rfl

namespace Circuit

variable {κ : Type} {c : Circuit κ} {h : Handle}

/-- The connection has a socket, and the pool knows it. -/
structure Online (c : Circuit κ) (h : Handle) : Prop where
  socket : c.session.socket = some h
  pooled : ∃ s, c.pool.socket? h = some s

/-- The circuit with one more line queued for a socket and announced. -/
def queued (h : Handle) (c : Circuit κ) (line : Text) : Circuit κ :=
  { c.announce (.rawLineSent line) with pool := (c.pool.enqueue h (frame line)).2 }

@[simp] theorem session_queued (line : Text) : (c.queued h line).session = c.session := rfl

@[simp] theorem settings_queued (line : Text) : (c.queued h line).settings = c.settings := rfl

theorem Online.queued (hc : c.Online h) (line : Text) : (c.queued h line).Online h := by
  obtain ⟨s, hs⟩ := hc.pooled
  refine ⟨hc.socket, { s with queue := s.queue.push (frame line) }, ?_⟩
  simp only [Circuit.queued, Pool.enqueue_eq hs, Pool.socket?_set_self]

theorem raw_online (hc : c.Online h) (text : Text) :
    c.raw text = (.ok (), c.queued h (firstLine text)) := by
  obtain ⟨s, hs⟩ := hc.pooled
  simp only [raw, hc.socket, Pool.enqueue_eq hs, Circuit.queued]
  rfl

theorem raw_offline (hc : c.session.socket = none) (text : Text) :
    c.raw text = (.error .notConnected, c) := by
  simp only [raw, hc]

/-! ## Several lines -/

/-- The circuit with these lines queued for a socket and announced. -/
def queuedAll (c : Circuit κ) (h : Handle) (lines : List Text) : Circuit κ :=
  lines.foldl (queued h) c

@[simp] theorem queuedAll_nil : c.queuedAll h [] = c := rfl

theorem queuedAll_cons (line : Text) (lines : List Text) :
    c.queuedAll h (line :: lines) = (c.queued h line).queuedAll h lines := rfl

@[simp] theorem session_queuedAll (lines : List Text) :
    (c.queuedAll h lines).session = c.session := by
  induction lines generalizing c with
  | nil => rfl
  | cons line lines ih => rw [queuedAll_cons, ih, session_queued]

theorem Online.queuedAll (hc : c.Online h) (lines : List Text) :
    (c.queuedAll h lines).Online h := by
  induction lines generalizing c with
  | nil => exact hc
  | cons line lines ih => exact ih (hc.queued line)

theorem occurred_queuedAll (lines : List Text) :
    (c.queuedAll h lines).occurred = c.occurred ++ lines.map .rawLineSent := by
  induction lines generalizing c with
  | nil => simp
  | cons line lines ih =>
    rw [queuedAll_cons, ih]
    simp [queued, announce]

/-- The lines stand in the queue of the socket as pieces of their own. -/
theorem socket?_queuedAll {s : Socket κ} (hs : c.pool.socket? h = some s) (lines : List Text) :
    (c.queuedAll h lines).pool.socket? h =
      some { s with queue := ⟨s.queue.pieces ++ lines.map frame⟩ } := by
  induction lines generalizing c s with
  | nil => simpa using hs
  | cons line lines ih =>
    rw [queuedAll_cons, ih (s := { s with queue := s.queue.push (frame line) })]
    · simp [WriteQueue.pieces_push (frame_ne_nil line)]
    · simp only [queued, Pool.enqueue_eq hs, Pool.socket?_set_self]

theorem socket?_queuedAll_other {h' : Handle} (hne : h ≠ h') {s : Socket κ}
    (hs : c.pool.socket? h = some s) (lines : List Text) :
    (c.queuedAll h lines).pool.socket? h' = c.pool.socket? h' := by
  induction lines generalizing c s with
  | nil => rfl
  | cons line lines ih =>
    rw [queuedAll_cons, ih (s := { s with queue := s.queue.push (frame line) })]
    · simp only [queued, Pool.enqueue_eq hs, Pool.socket?_set_other hne]
    · simp only [queued, Pool.enqueue_eq hs, Pool.socket?_set_self]

/-! ## Commands -/

/-- The line a command is sent as. -/
def sentAs (command : Command) : Text := firstLine command.line

/-- What the line says that a command is sent as: of the free text the first line. -/
def sent (command : Command) : Message :=
  { command.message with trailing := command.freeText.map firstLine }

theorem unbroken_iff {t : Text} : Text.Unbroken t ↔ ∀ ch ∈ t, isLineEnd ch = false := by
  constructor
  · intro h ch hch
    simp only [isLineEnd, Bool.or_eq_false_iff, beq_eq_false_iff_ne]
    exact ⟨fun he => h.1 (he ▸ hch), fun he => h.2 (he ▸ hch)⟩
  · intro h
    exact ⟨fun hr => absurd (h _ hr) (by decide), fun hn => absurd (h _ hn) (by decide)⟩

theorem unbroken_firstLine (t : Text) : Text.Unbroken (firstLine t) :=
  unbroken_iff.2 isLineEnd_firstLine

theorem firstLine_of_unbroken {t : Text} (h : Text.Unbroken t) : firstLine t = t :=
  firstLine_of_forall (unbroken_iff.1 h)

theorem firstLine_append {front : Text} (h : Text.Unbroken front) (t : Text) :
    firstLine (front ++ t) = front ++ firstLine t := by
  refine List.takeWhile_append_of_pos fun ch hch => ?_
  rw [unbroken_iff.1 h ch hch]
  rfl

/-- What stands before the free text holds no line end, if the words do not. -/
theorem unbroken_beforeText {command : Command} (h : ∀ word ∈ command.words, Text.Unbroken word) :
    Text.Unbroken (command.verb ++ command.words.flatMap (' ' :: ·)) := by
  rw [unbroken_iff]
  intro ch hch
  rcases List.mem_append.1 hch with hverb | hwords
  · exact isLineEnd_of_all (t := command.verb) (by cases command <;> rfl) ch hverb
  · obtain ⟨word, hword, hch⟩ := List.mem_flatMap.1 hwords
    rcases List.mem_cons.1 hch with rfl | hch
    · rfl
    · exact unbroken_iff.1 (h word hword) ch hch

/-- If no word holds a line end, then all that is cut off is the end of the free text. -/
theorem display_sent {command : Command} (h : ∀ word ∈ command.words, Text.Unbroken word) :
    (sent command).display = sentAs command := by
  have hbefore := unbroken_beforeText h
  unfold sentAs Command.line
  rw [firstLine_append hbefore]
  cases htext : command.freeText with
  | none => simp [sent, Message.display, Command.message, htext, firstLine]
  | some text =>
    have hmark : firstLine (' ' :: ':' :: text) = ' ' :: ':' :: firstLine text :=
      firstLine_append (by decide : Text.Unbroken [' ', ':']) text
    simp [sent, Message.display, Command.message, htext, hmark]

/-- A command whose words can stand between spaces is read as what is sent of it. -/
theorem parse_sentAs {command : Command}
    (h : ∀ word ∈ command.words, Message.IsMiddle word ∧ Text.Unbroken word) :
    Message.parse (sentAs command) = .ok (sent command) := by
  have hargs : ∀ t ∈ (sent command).args, Text.Unbroken t := by
    intro t ht
    rcases List.mem_append.1 ht with hword | htext
    · exact (h t hword).2
    · obtain ⟨text, -, rfl⟩ := Option.map_eq_some_iff.1 (Option.mem_toList.1 htext)
      exact unbroken_firstLine text
  rw [← display_sent fun word hword => (h word hword).2]
  exact (Message.wellFormed_of_unbroken rfl (Command.isCommand_verb command)
    (fun word hword => (h word hword).1) hargs).parse_display

/-- A command without line ends is sent as its whole line. -/
theorem sentAs_of_sendable {command : Command} (h : command.Sendable) :
    sentAs command = command.line := by
  have hwhole : command.freeText.map firstLine = command.freeText := by
    cases htext : command.freeText with
    | none => rfl
    | some text => exact congrArg some (firstLine_of_unbroken (h.freeText text htext))
  rw [← display_sent fun word hword => (h.words word hword).2, sent, hwhole]
  exact Command.display_message command

theorem send_online (hc : c.Online h) (command : Command) :
    c.send command = (.ok (), c.queuedAll h [sentAs command]) :=
  raw_online hc command.line

theorem sendAll_online (hc : c.Online h) (commands : List Command) :
    c.sendAll commands = (.ok (), c.queuedAll h (commands.map sentAs)) := by
  induction commands generalizing c with
  | nil => rfl
  | cons command rest ih =>
    simp only [sendAll, send_online hc]
    rw [ih (hc.queuedAll _)]
    rfl

theorem sendAll_offline (hc : c.session.socket = none) (commands : List Command) :
    c.sendAll commands = (if commands = [] then .ok () else .error .notConnected, c) := by
  cases commands with
  | nil => rfl
  | cons command rest => simp only [sendAll, send, raw_offline hc, reduceCtorEq, if_false]

/-! ## Connecting -/

section Connecting

variable (callbacks : Callbacks κ) (stream : Stream)

/-- The circuit with a new socket, on which nothing is said yet. -/
def opened (c : Circuit κ) : Circuit κ :=
  { c with
    session := c.session.attach c.pool.nextHandle c.settings.primaryNick
    pool := (c.pool.add stream callbacks).2 }

theorem socket?_opened : (c.opened callbacks stream).pool.socket? c.pool.nextHandle =
    some (.ofStream stream callbacks) :=
  Table.get?_insert_self ..

theorem online_opened : (c.opened callbacks stream).Online c.pool.nextHandle :=
  ⟨rfl, _, socket?_opened callbacks stream⟩

/-- Connecting queues the handshake on the new socket. -/
theorem connect_ok (hphase : c.session.phase = .disconnected) :
    c.connect callbacks (.ok stream) =
      (.ok (), (c.opened callbacks stream).queuedAll c.pool.nextHandle
        ((Connection.handshake c.settings).map sentAs)) := by
  simp only [connect, hphase, if_true]
  exact sendAll_online (online_opened callbacks stream) _

end Connecting

/-! ## Orders -/

namespace Order

/-- Whether the order is to say something, on the socket there is. -/
def speaks : Order → Bool
  | .connect _ => false
  | _ => true

/-- The lines an order sends while the bot is in the channels of `t`. -/
def lines (t : Tracker) : Order → List Text
  | .connect _ => []
  | .raw line => [firstLine line]
  | .send command => [sentAs command]
  | .quit reason => [sentAs (.quit reason)]
  | .join channel => if t.hasChannel channel then [] else [sentAs (.join channel)]
  | .part channel reason => if t.hasChannel channel then [sentAs (.part channel reason)] else []
  | .nick new => [sentAs (.nick new)]
  | .message target text => (segments text).map fun line => sentAs (.privmsg target line)
  | .notice target text => (segments text).map fun line => sentAs (.notice target line)

/-- The session once the order is carried out: a nick counts at once before registration. -/
def settle (s : Session) : Order → Session
  | .nick new => { s with nick := if s.phase = .registered then s.nick else new }
  | _ => s

end Order

theorem carryOut_online (hc : c.Online h) (callbacks : Callbacks κ) {o : Order} (ho : o.speaks) :
    c.carryOut callbacks o =
      (.ok (), { c.queuedAll h (o.lines c.session.tracker) with session := o.settle c.session }) := by
  have keep : ∀ lines, { c.queuedAll h lines with session := c.session } = c.queuedAll h lines := by
    intro lines
    rw [← session_queuedAll (c := c) (h := h) lines]
  cases o with
  | connect dialled => simp [Order.speaks] at ho
  | raw line => exact raw_online hc line
  | send command | quit reason =>
    simp only [carryOut, Order.lines, Order.settle, send_online hc, keep]
  | join channel =>
    simp only [carryOut, join, Order.lines, Order.settle, keep]
    split
    · rfl
    · exact send_online hc _
  | part channel reason =>
    simp only [carryOut, part, Order.lines, Order.settle, keep]
    split
    · exact send_online hc _
    · rfl
  | nick new =>
    simp only [carryOut, nick, Order.lines, Order.settle, send_online hc, session_queuedAll]
  | message target text | notice target text =>
    simp only [carryOut, message, notice, Order.lines, Order.settle, sendAll_online hc, keep,
      List.map_map]
    rfl

theorem carryOut_offline (hc : c.session.socket = none) (callbacks : Callbacks κ) {o : Order}
    (ho : o.speaks) :
    c.carryOut callbacks o =
      (if o.lines c.session.tracker = [] then .ok () else .error .notConnected, c) := by
  cases o with
  | connect dialled => simp [Order.speaks] at ho
  | raw line | send command | quit reason =>
    simp only [carryOut, send, raw_offline hc, Order.lines, reduceCtorEq, if_false]
  | join channel =>
    simp only [carryOut, join, Order.lines]
    split
    · rfl
    · simp only [send, raw_offline hc, reduceCtorEq, if_false]
  | part channel reason =>
    simp only [carryOut, part, Order.lines]
    split
    · simp only [send, raw_offline hc, reduceCtorEq, if_false]
    · rfl
  | nick new =>
    simp only [carryOut, nick, send, raw_offline hc, Order.lines, reduceCtorEq, if_false]
  | message target text | notice target text =>
    simp only [carryOut, message, notice, Order.lines, sendAll_offline hc, List.map_eq_nil_iff]

end Circuit

end IrcBot
