/-
Pings are answered. A connection that stays on its socket hears pings among other lines;
they wait on the bus until a poll, and what the module that answers pings then queues for
the socket is one answer to each, in the order the pings were heard
(`run_answers_pings`). An answer holds the token as it came, for no line that is heard
has a line feed in it.
-/
import IrcBot.Proofs.Bot.Builtins
import IrcBot.Proofs.Bot.Heard
import IrcBot.Proofs.Session.Pings

namespace IrcBot

open Session (pingToken? pongLine)

namespace Bot

variable {registered i j : Nat} {h : Handle} {n n' : Net} {es : List Entry}

/-! ## Pings of a connection -/

/-- The token that an event wants back on this connection. -/
def ping? (i : Nat) : Event → Option Text
  | .occurred j what => if j = i then what.token? else none
  | .module .. => none

theorem name_of_ping? {event : Event} (h : (ping? i event).isSome = true) :
    event.name = "ping".toList := by
  cases event with
  | module => cases h
  | occurred j what =>
    simp only [ping?] at h
    split at h
    · cases what <;> first | rfl | cases h
    · cases h

/-- The tokens of all pings among these events. -/
def pings (i : Nat) (events : List Event) : List Text := events.filterMap (ping? i)

/-- What occurs on a connection has the pings among its lines, if that is so for one's own. -/
theorem pings_occurred (whats : List Occurrence)
    (htokens : whats.filterMap Occurrence.token? =
      (received (whats.map .occurred)).filterMap pingToken?) (j : Nat) :
    let es := whats.map fun what => Entry.triggered (.occurred j what)
    pings i (es.filterMap Entry.event?) = (received (account i es)).filterMap pingToken? := by
  intro es
  have hevents : es.filterMap Entry.event? = whats.map (.occurred j) := by
    rw [List.filterMap_map]
    exact congrFun List.filterMap_eq_map whats
  rw [hevents, pings, List.filterMap_map]
  by_cases hj : j = i
  · subst hj
    rw [account_occurred_self, ← htokens]
    exact congrArg (List.filterMap · whats) (funext fun what => if_pos rfl)
  · rw [account_occurred_other hj]
    exact List.filterMap_eq_nil_iff.2 fun what _ => if_neg hj

theorem pings_append (events more : List Event) :
    pings i (events ++ more) = pings i events ++ pings i more := List.filterMap_append

theorem received_attached (j : Nat) (h : Handle) : received (account i [.attached j h]) = [] := by
  simp only [account, List.filterMap_cons, moment?]
  split
  · rfl
  · next m hm =>
    split at hm <;> cases hm
    rfl

/-- The pings told of a connection are those among the lines it hears. -/
theorem pings_move (hm : n.Move registered es n') :
    pings i (es.filterMap Entry.event?) = (received (account i es)).filterMap pingToken? := by
  cases hm with
  | touch | rename | drop => rfl
  | attach =>
    rw [received_attached]
    rfl
  | @speak j h line => exact pings_occurred [.rawLineSent line] rfl j
  | @lose j => exact pings_occurred [.disconnected] rfl j
  | @hear j c h line =>
    refine pings_occurred _ ?_ j
    rw [(received_handleLine c.session registered line).1, Session.tokens_handleLine]
    cases hline : pingToken? line <;> simp [hline]

theorem pings_moves (hm : n.Moves registered es n') :
    pings i (es.filterMap Entry.event?) = (received (account i es)).filterMap pingToken? := by
  induction hm with
  | refl => rfl
  | head first _ ih =>
    rw [List.filterMap_append, pings_append, pings_move first, ih, account_append,
      received_append, List.filterMap_append]

/-! ## Staying on a socket -/

theorem Net.Gone.moves (hg : n.Gone h) (hm : n.Moves registered es n') : n'.Gone h := by
  induction hm with
  | refl => exact hg
  | head first _ ih => exact ih (hg.move first).1

/-- A connection is on this socket, or the socket is gone. -/
def Net.Kept (i : Nat) (h : Handle) (n : Net) : Prop := n.socketOf i = some h ∨ n.Gone h

theorem Net.Kept.moves (hkept : n.Kept i h) (hn : n.Sound) (hm : n.Moves registered es n') :
    n'.Kept i h := by
  rcases hkept with hi | hgone
  · obtain ⟨c, hc, hsocket⟩ := Option.bind_eq_some_iff.1 hi
    have hf : Fared registered i h c.session [] n := .on hc hsocket .silent
    cases hf.moves hn hm with
    | on hc' hsocket' => exact .inl ((Net.socketOf_eq hc').trans hsocket')
    | off _ _ _ gone => exact .inr gone
  · exact .inr (hgone.moves hm)

/-- A socket that is in use is not gone. -/
theorem Net.Sound.not_gone (hn : n.Sound) (hi : n.socketOf i = some h) : ¬ n.Gone h := by
  obtain ⟨s, hs, -⟩ := hn.pooled i h hi
  rintro ⟨-, hnone⟩
  cases hs.symm.trans hnone

/-! ## The module that answers -/

/-- What is queued to send a token back. -/
def pong (token : Text) : Bytes := Circuit.frame (Circuit.sentAs (.pong token))

variable {μ κ γ ν ω : Type} {mine : κ → Bool}

/-- The service of answering the pings of a connection, on one socket. The mark of commands does
not matter to it. -/
def pinging (i : Nat) (h : Handle) (mine : κ → Bool) : Service κ γ ν Bytes where
  attends event := (ping? i event).isSome
  mine
  behave := Builtin.Kind.ping.handle []
  view d := if mine d.actor then queuedIn h d else []
  answer event := ((ping? i event).map pong).toList
  Good := Net.Kept i h
  Lost := Net.Gone h
  others d hd := if_neg (Bool.eq_false_iff.1 hd)
  unattended event hevent := by
    rw [Option.isSome_eq_false_iff, Option.isNone_iff_eq_none] at hevent
    rw [hevent]
    rfl
  protocol event hevent := by
    cases event with
    | module => cases hevent
    | occurred j what =>
      refine ⟨j, what, rfl, ?_⟩
      simp only [ping?] at hevent
      split at hevent
      · cases what <;> first | rfl | cases hevent
      · cases hevent
  good hn hm hgood := hgood.moves hn hm
  lost _ hm hlost := hlost.moves hm

theorem answers_pings (events : List Event) :
    (pinging i h mine : Service κ γ ν Bytes).answers events = (pings i events).map pong := by
  induction events with
  | nil => rfl
  | cons event events ih =>
    show ((ping? i event).map pong).toList ++ Service.answers _ events = _
    rw [ih]
    simp only [pings, List.filterMap_cons]
    cases ping? i event <;> rfl

variable [DecidableEq κ]

/-- An order that has to be carried out is one act of its handler. -/
theorem world_insist (handle : κ → Option γ → Event → Bus.Handler κ γ Event (calls ν)) (k : κ)
    (j : Nat) (o : Circuit.Order) (poll) (r : Bus.RecordedRun κ γ Event (World ν) (calls ν)) :
    let after := (perform (.order j o : Call ν) r.world.1).2
    ((Bus.marked k (Builtin.insist j o)).run (Bus.serve (handling handle).recorded poll) r).2.world =
      (after.1, r.world.2 ++ [.acted k (.order j o) r.world.1 after]) := by
  intro after
  have hrequired (result : Except Refusal Unit) (r : Bus.RecordedRun κ γ Event (World ν) (calls ν)) :
      ((Bus.marked k (Act.require (κ := κ) (γ := γ) (ν := ν) result)).run
        (Bus.serve (handling handle).recorded poll) r).2 = r := by
    cases result <;> rfl
  exact (congrArg Bus.Run.world (hrequired _ _)).trans (Bus.world_triggerAll _ _)

/-- Sending a token back queues it for the socket of the connection it came from. -/
theorem queued_pong (hn : n.Sound) (hi : n.socketOf i = some h) (j : Nat) (token : Text) :
    Net.queued h n (n.order j (.send (.pong token))).2.1 =
      ((ping? i (.occurred j (.ping token))).map pong).toList := by
  by_cases hj : j = i
  · subst hj
    obtain ⟨c, hc, hsocket⟩ := Option.bind_eq_some_iff.1 hi
    rw [Net.queued_order_self hn hc hsocket rfl, ping?, if_pos rfl]
    rfl
  · rw [Net.queued_order_other hn (fun hother => hj (hn.distinct hother hi)) rfl, ping?, if_neg hj]
    rfl

/-- Such a handler answers a ping of the connection, on the socket it is kept on, and queues nothing
there for anything else. -/
theorem answers_pinging : (pinging i h mine : Service κ γ ν Bytes).Answers := by
  intro handle k event poll r hk hn hkept r'
  have hk : mine k = true := hk
  let s : Service κ γ ν Bytes := pinging i h mine
  -- what is no ping is passed over, and asks for no answer
  have hsilent (hsame : r' = r) (hnone : ping? i event = none) :
      r'.viewed s.view = r.viewed s.view ++ s.answer event := by
    have hanswer : s.answer event = [] := s.unattended event (by simp [s, pinging, hnone])
    rw [hsame, hanswer, List.append_nil]
  cases event with
  | module => exact .inr (hsilent rfl rfl)
  | occurred j what =>
    cases what with
    | ping token =>
      let after := (perform (.order j (.send (.pong token)) : Call ν) r.world.1).2
      have hworld : r'.world = (after.1, r.world.2 ++ [.acted k _ r.world.1 after]) :=
        world_insist handle k j (.send (.pong token)) poll r
      rcases hkept with hi | hgone
      · refine .inr ?_
        have hqueued : s.view (.acted k (.order j (.send (.pong token))) r.world.1 after) =
            s.answer (.occurred j (.ping token)) := (if_pos hk).trans (queued_pong hn hi j token)
        show r'.world.2.flatMap s.view = _
        rw [hworld, List.flatMap_append, List.flatMap_singleton, hqueued]
        rfl
      · have hmoves := Service.moves_call hn (.order j (.send (.pong token)))
        rw [hworld]
        exact .inl ⟨hmoves.sound hn, hgone.moves hmoves⟩
    | _ => exact .inr (hsilent rfl (ite_self none))

/-! ## Runs -/

/-- **Every ping is answered, once and in order.** In whatever way a bot has come to have the module
loaded that answers pings, and a connection online: while the connection stays on its socket, it
hears pings among other lines. If answering is left to the module, then once no ping waits on the
bus any more it has queued for the socket just one answer to each ping that waited at first and
each that was heard. A token without a carriage return is sent back as it came, on a line that is
read as having the token for its last parameter. -/
theorem run_answers_pings {c : ModuleConduct μ κ γ ω} {key : Builtin.HandlerId → κ}
    {builtin : Builtin.Instance → μ} {home : κ → Option Text} (hc : Builtin.Among c key builtin)
    (hown : c.RegistersOwn home) {networks : List Config.Network} {start : Bot μ κ γ}
    (hlives : Lives ν c home "ping".toList networks start) (m : Builtin.Instance)
    (hloaded : start.slots.get? "ping".toList = some ⟨builtin m, true⟩)
    (steps : List (Step κ γ ν)) (i : Nat) (h : Handle) :
    let service : Service κ γ ν Bytes := pinging i h (m.owns key)
    let tokens := (received (account i (start.history steps))).filterMap pingToken?
    start.net.socketOf i = some h → (start.run steps).net.socketOf i = some h →
    service.RespectedIn "ping".toList start steps → pings i (start.run steps).bus.pending = [] →
    service.shown start steps = (pings i start.bus.pending ++ tokens).map pong ∧
      ∀ token ∈ tokens, '\r' ∉ token →
        pong token = Text.encode (pongLine token ++ ['\r', '\n']) ∧
        Message.parse (pongLine token) =
          .ok { command := "PONG".toList, trailing := some token } := by
  intro service tokens hstart hend hrespected hidle
  have hn : start.net.Sound := hlives.sound
  have hmoves := moves_run hn steps
  have hkind : m.kind = .ping := Builtin.Kind.name_injective (hlives.name_eq hown hc hloaded)
  have hnames (event : Event) (hevent : service.attends event = true) :
      event.name ∈ m.kind.events := by
    rw [name_of_ping? hevent, hkind]
    exact List.mem_singleton_self _
  obtain ⟨own, hhas, hserves⟩ := hlives.serves hown hc hloaded hnames
  have hleft := Service.undisturbedIn_of_respected hhas hserves hrespected
  constructor
  · have hrun := Service.run_answers (s := service) answers_pinging hn (.inl hstart) hleft
      ((hmoves.sound hn).not_gone hend)
    simp only [service, answers_pings] at hrun
    rwa [hidle, pings_moves hmoves, List.map_nil, List.append_nil, ← List.map_append] at hrun
  · intro token htoken hr
    obtain ⟨line, hline, hping⟩ := List.mem_filterMap.1 htoken
    have hfeed : '\n' ∉ line := not_mem_received hn hlives.sane steps i line hline
    obtain ⟨hsent, hread⟩ := Session.parse_pong hr fun hmem =>
      hfeed ((Session.infix_of_pingToken? hping).subset hmem)
    exact ⟨by rw [pong, hsent]; rfl, hread⟩

/-- Pings among other lines. -/
def pingLines : Bytes :=
  Text.encode "PING a\r\nNOTICE bot :PING b\r\nping :c d\r\nPiNg\r\n".toList

theorem run_answers_pings_in_one_burst :
    let m : Builtin.Instance := ⟨.ping, 0⟩
    let service : Service Builtin.HandlerId Unit Unit Bytes := pinging 0 0 (m.owns id)
    service.shown equipped (heardAtOnce pingLines) =
        ["PONG :a", "PONG :c d", "PONG :"].map (fun line => Circuit.frame line.toList) ∧
      Message.parse "PONG :c d".toList =
        .ok { command := "PONG".toList, trailing := some "c d".toList } := by
  intro m service
  have hprovided : service.Provided fun id _ => id.owner.kind.handle "?".toList :=
    Service.provided_of_handles (rfl : service.mine = m.owns id) rfl fun _ _ _ => rfl
  have hrespected : service.RespectedIn "ping".toList equipped (heardAtOnce pingLines) := by
    refine Service.respectedIn_of_leaves (lives_equipped "ping".toList).sound ?_
    simp only [heardAtOnce, List.forall_mem_cons]
    exact ⟨trivial, trivial, ⟨hprovided, fun _ _ => service.respects_builtin _ _ _⟩, by simp⟩
  obtain ⟨hshown, hread⟩ := run_answers_pings (Builtin.among_conduct id)
    (Builtin.registersOwn_conduct fun _ => rfl) (lives_equipped "ping".toList) m
    (by decide +kernel) (heardAtOnce pingLines) 0 0 (by decide +kernel) (by decide +kernel)
    hrespected (by decide +kernel)
  have htokens : (received (account 0 (equipped.history (heardAtOnce pingLines)))).filterMap
      pingToken? = ["a".toList, "c d".toList, []] := by decide +kernel
  have hwaiting : pings 0 equipped.bus.pending = [] := by decide +kernel
  rw [htokens, hwaiting] at hshown
  rw [htokens] at hread
  exact ⟨hshown, (hread "c d".toList (by simp) (by decide)).2⟩

end Bot

end IrcBot
