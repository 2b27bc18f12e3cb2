/-
Orders to a connection of a bot. On a connection that has a socket, any orders
but connecting queue lines on this socket, one piece of the queue for each, and
trigger one event for each, in the same order; on a connection without a socket
they are refused and the bot stays as it is. No argument can smuggle in a
second line: all that is queued is lines without a line end inside, each with
its line end behind it.
-/
import IrcBot.Bot.Basic
import IrcBot.Proofs.Connection.Sending
import IrcBot.Proofs.Table

namespace IrcBot.Bot

open Circuit

namespace Net

/-- A connection of the net, with the pool of the net. -/
def circuit (n : Net) (c : Connection) : Circuit Role :=
  { settings := c.settings, session := c.session, pool := n.pool }

theorem order_online {n : Net} {i : Nat} {c : Connection} {h : Handle} {o : Order}
    (hc : n.connections.get? i = some c) (hon : (n.circuit c).Online h) (ho : o.speaks) :
    n.order i o =
      (.ok (),
        { connections := n.connections.insert i { c with session := o.settle c.session }
          pool := ((n.circuit c).queuedAll h (o.lines c.session.tracker)).pool },
        (o.lines c.session.tracker).map fun line => .occurred i (.rawLineSent line)) := by
  have hcarry := carryOut_online hon (callbacks i) ho
  simp only [circuit] at hcarry
  simp only [order, withConnection, hc, hcarry, circuit, occurred_queuedAll, List.nil_append,
    List.map_map]
  rfl

theorem order_offline {n : Net} {i : Nat} {c : Connection} {o : Order}
    (hc : n.connections.get? i = some c) (hoff : c.session.socket = none) (ho : o.speaks) :
    n.order i o =
      (if o.lines c.session.tracker = [] then .ok () else .error .notConnected, n, []) := by
  have hcarry := carryOut_offline (c := n.circuit c) hoff (callbacks i) ho
  simp only [circuit] at hcarry
  simp only [order, withConnection, hc, hcarry, Table.insert_of_get? hc, List.map_nil]
  rfl

end Net

variable {μ κ γ : Type} {b b' b'' : Bot μ κ γ} {i : Nat} {c : Connection} {h : Handle}

/-- A connection has said these lines on its socket, and no other socket has got any. -/
structure Said (i : Nat) (h : Handle) (lines : List Text) (b b' : Bot μ κ γ) : Prop where
  queued : ∀ s, b.net.pool.socket? h = some s →
    b'.net.pool.socket? h = some { s with queue := ⟨s.queue.pieces ++ lines.map frame⟩ }
  announced : b'.bus.pending =
    b.bus.pending ++ lines.map fun line => .occurred i (.rawLineSent line)
  others : ∀ h', h' ≠ h → b'.net.pool.socket? h' = b.net.pool.socket? h'

theorem Said.refl (b : Bot μ κ γ) : Said i h [] b b := ⟨by simp, by simp, by simp⟩

theorem Said.trans {ls ls' : List Text} (h₁ : Said i h ls b b') (h₂ : Said i h ls' b' b'') :
    Said i h (ls ++ ls') b b'' := by
  refine ⟨fun s hs => ?_, ?_, fun h' hne => ?_⟩
  · rw [h₂.queued _ (h₁.queued s hs)]
    simp
  · rw [h₂.announced, h₁.announced]
    simp
  · rw [h₂.others h' hne, h₁.others h' hne]

theorem order_online (hc : b.connection? i = some c) (hon : (b.net.circuit c).Online h)
    {o : Order} (ho : o.speaks) :
    (b.order i o).1 = .ok () ∧ Said i h (o.lines c.session.tracker) b (b.order i o).2 ∧
      (b.order i o).2.connection? i = some { c with session := o.settle c.session } := by
  obtain ⟨s, hs⟩ := hon.pooled
  simp only [order, Net.order_online hc hon ho, true_and]
  refine ⟨⟨fun s' hs' => ?_, ?_, fun h' hne => ?_⟩, ?_⟩
  · exact socket?_queuedAll (c := b.net.circuit c) hs' _
  · exact Bus.pending_triggerAll _ _
  · exact socket?_queuedAll_other (c := b.net.circuit c) (Ne.symm hne) hs _
  · exact Table.get?_insert_self _ _ _

theorem order_offline (hc : b.connection? i = some c) (hoff : c.session.socket = none)
    {o : Order} (ho : o.speaks) :
    b.order i o = (if o.lines c.session.tracker = [] then .ok () else .error .notConnected, b) := by
  simp only [order, Net.order_offline hc hoff ho]
  rfl

/-! ## Sequences of orders -/

/-- Gives orders to a connection in turn, and keeps the answers. -/
def orderAll (b : Bot μ κ γ) (i : Nat) : List Order → List (Except Refusal Unit) × Bot μ κ γ
  | [] => ([], b)
  | o :: rest =>
    let (result, b) := b.order i o
    let (results, b) := b.orderAll i rest
    (result :: results, b)

theorem settle_tracker (s : Session) (o : Order) : (o.settle s).tracker = s.tracker := by
  cases o <;> rfl

theorem settle_socket (s : Session) (o : Order) : (o.settle s).socket = s.socket := by
  cases o <;> rfl

theorem orderAll_online (hc : b.connection? i = some c) (hon : (b.net.circuit c).Online h)
    {os : List Order} (hos : ∀ o ∈ os, o.speaks) :
    (b.orderAll i os).1 = os.map (fun _ => .ok ()) ∧
      Said i h (os.flatMap (·.lines c.session.tracker)) b (b.orderAll i os).2 := by
  induction os generalizing b c with
  | nil => exact ⟨rfl, Said.refl b⟩
  | cons o os ih =>
    obtain ⟨hok, hsaid, hc'⟩ := order_online hc hon (hos o (by simp))
    obtain ⟨s, hs⟩ := hon.pooled
    have hon' : ((b.order i o).2.net.circuit { c with session := o.settle c.session }).Online h :=
      ⟨(settle_socket _ o).trans hon.socket, _, hsaid.queued s hs⟩
    have hrest := ih hc' hon' fun o ho => hos o (by simp [ho])
    simp only [settle_tracker] at hrest
    simp only [orderAll, List.map_cons, List.flatMap_cons, hok, hrest.1, true_and]
    exact hsaid.trans hrest.2

theorem orderAll_offline (hc : b.connection? i = some c) (hoff : c.session.socket = none)
    {os : List Order} (hos : ∀ o ∈ os, o.speaks) :
    b.orderAll i os =
      (os.map fun o => if o.lines c.session.tracker = [] then .ok () else .error .notConnected,
        b) := by
  induction os with
  | nil => rfl
  | cons o os ih =>
    simp only [orderAll, order_offline hc hoff (hos o (by simp)),
      ih fun o ho => hos o (by simp [ho]), List.map_cons]

/-! ## No smuggled lines -/

theorem isLineEnd_lines {t : Tracker} {o : Order} {line : Text} (h : line ∈ o.lines t) :
    ∀ ch ∈ line, isLineEnd ch = false := by
  suffices ∃ text, line = firstLine text by
    obtain ⟨text, rfl⟩ := this
    exact isLineEnd_firstLine
  cases o with
  | connect dialled => simp [Order.lines] at h
  | raw text => exact ⟨text, by simpa [Order.lines] using h⟩
  | send command => exact ⟨command.line, by simpa [Order.lines, sentAs] using h⟩
  | quit reason => exact ⟨(Command.quit reason).line, by simpa [Order.lines, sentAs] using h⟩
  | nick new => exact ⟨(Command.nick new).line, by simpa [Order.lines, sentAs] using h⟩
  | join channel =>
    simp only [Order.lines] at h
    split at h
    · simp at h
    · exact ⟨(Command.join channel).line, by simpa [sentAs] using h⟩
  | part channel reason =>
    simp only [Order.lines] at h
    split at h
    · exact ⟨(Command.part channel reason).line, by simpa [sentAs] using h⟩
    · simp at h
  | message target text =>
    obtain ⟨segment, -, rfl⟩ := List.mem_map.1 h
    exact ⟨_, rfl⟩
  | notice target text =>
    obtain ⟨segment, -, rfl⟩ := List.mem_map.1 h
    exact ⟨_, rfl⟩

/-- A text to a target is one line for each segment between line ends that is not empty. -/
theorem map_segments {verb target : Text} (hverb : ∀ ch ∈ verb, isLineEnd ch = false)
    (htarget : ∀ ch ∈ target, isLineEnd ch = false) (text : Text) :
    (segments text).map (fun segment => firstLine (verb ++ target ++ " :".toList ++ segment)) =
      ((text.splitOnP isLineEnd).filter (· ≠ [])).map
        fun segment => verb ++ target ++ " :".toList ++ segment := by
  rw [segments, Text.splitBy_eq_splitOnP]
  have hkept : (fun piece : Text => piece != []) = fun piece => decide (piece ≠ []) := by
    funext piece
    cases piece <;> rfl
  rw [hkept]
  refine List.map_congr_left fun segment hm => firstLine_of_forall fun ch hch => ?_
  have hsegment := Text.mem_splitOnP (List.mem_filter.1 hm).1
  simp only [List.mem_append] at hch
  rcases hch with ((hch | hch) | hch) | hch
  · exact hverb ch hch
  · exact htarget ch hch
  · exact isLineEnd_of_all rfl ch hch
  · exact hsegment ch hch

theorem lines_message {target : Text} (h : ∀ ch ∈ target, isLineEnd ch = false) (t : Tracker)
    (text : Text) :
    (Order.message target text).lines t =
      ((text.splitOnP isLineEnd).filter (· ≠ [])).map
        fun segment => "PRIVMSG ".toList ++ target ++ " :".toList ++ segment := by
  rw [← map_segments (isLineEnd_of_all rfl) h]
  simp only [Order.lines, sentAs, Command.line_privmsg]

theorem lines_notice {target : Text} (h : ∀ ch ∈ target, isLineEnd ch = false) (t : Tracker)
    (text : Text) :
    (Order.notice target text).lines t =
      ((text.splitOnP isLineEnd).filter (· ≠ [])).map
        fun segment => "NOTICE ".toList ++ target ++ " :".toList ++ segment := by
  rw [← map_segments (isLineEnd_of_all rfl) h]
  simp only [Order.lines, sentAs, Command.line_notice]

/-- **No order smuggles in a line.** Whatever a connection with a socket is told
to say, its socket gets exactly the lines of the orders, in order, each as a
piece of its own, and each is triggered as an event; without a socket the lines
are refused and the bot is as before. A line has no line end inside, neither as
text nor as bytes, and its line end behind it. A text to a target is sent as the
pieces between its line ends, the empty ones left out. -/
theorem orderAll_frames_lines (b : Bot μ κ γ) (i : Nat) (c : Connection) (os : List Order)
    (hc : b.connection? i = some c) (hos : ∀ o ∈ os, o.speaks) :
    (∀ h, (b.net.circuit c).Online h →
      (b.orderAll i os).1 = os.map (fun _ => .ok ()) ∧
        Said i h (os.flatMap (·.lines c.session.tracker)) b (b.orderAll i os).2) ∧
    (c.session.socket = none →
      b.orderAll i os =
        (os.map fun o => if o.lines c.session.tracker = [] then .ok () else .error .notConnected,
          b)) ∧
    (∀ line ∈ os.flatMap (·.lines c.session.tracker),
      (∀ ch ∈ line, isLineEnd ch = false) ∧ frame line = Text.encode line ++ [13, 10] ∧
        13 ∉ Text.encode line ∧ 10 ∉ Text.encode line) ∧
    (∀ target text : Text, (∀ ch ∈ target, isLineEnd ch = false) →
      (Order.message target text).lines c.session.tracker =
          ((text.splitOnP isLineEnd).filter (· ≠ [])).map
            (fun segment => "PRIVMSG ".toList ++ target ++ " :".toList ++ segment) ∧
        (Order.notice target text).lines c.session.tracker =
          ((text.splitOnP isLineEnd).filter (· ≠ [])).map
            fun segment => "NOTICE ".toList ++ target ++ " :".toList ++ segment) := by
  refine ⟨fun h hon => orderAll_online hc hon hos, fun hoff => orderAll_offline hc hoff hos,
    fun line hline => ?_, fun target text h => ⟨lines_message h _ text, lines_notice h _ text⟩⟩
  obtain ⟨o, -, ho⟩ := List.mem_flatMap.1 hline
  exact ⟨isLineEnd_lines ho, frame_eq (isLineEnd_lines ho)⟩

/-- A bot with one connection, which is on socket 0. -/
def onSocketZero : Bot Unit Unit Unit where
  net := {
    connections := Table.empty.insert 0 {
      settings := { name := "net".toList, host := "irc".toList, nicks := ["bot".toList] }
      session := { phase := .connected, socket := some 0, nick := "bot".toList } }
    pool := {
      sockets := Table.empty.insert 0 { callbacks := callbacks 0 }, nextHandle := 1,
      pollTimeout := 250 } }

theorem orderAll_frames_text_of_three_lines :
    (onSocketZero.orderAll 0 [.message "#c".toList "hi\r\nQUIT\n\nyo".toList]).2.bus.pending =
      ["PRIVMSG #c :hi", "PRIVMSG #c :QUIT", "PRIVMSG #c :yo"].map
        fun line => .occurred 0 (.rawLineSent line.toList) := by
  obtain ⟨honline, -⟩ := orderAll_frames_lines onSocketZero 0 _
    [.message "#c".toList "hi\r\nQUIT\n\nyo".toList] rfl (by decide)
  rw [(honline 0 ⟨rfl, _, rfl⟩).2.announced]
  rfl

end IrcBot.Bot
