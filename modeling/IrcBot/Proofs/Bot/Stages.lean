/-
The stages a connection goes through, told from its own account of what has
happened to it. `Advance` says which moment may come at which stage, and which
stage it leads to; the account of any run is a path of such advances that ends
in the stage the session is in. The stages `completing` and `answered` lie
inside the handling of one line and are never the last.
-/
import IrcBot.Proofs.Bot.Agreement

namespace IrcBot.Bot

open Session (Completes)

/-- What happens to one connection. -/
inductive Moment where
  | attached (h : Handle)
  | occurred (what : Occurrence)
  deriving DecidableEq

/-- What an entry of the history is to a connection. -/
def moment? (i : Nat) : Entry → Option Moment
  | .attached j h => if j = i then some (.attached h) else none
  | .triggered (.occurred j what) => if j = i then some (.occurred what) else none
  | .triggered (.module ..) => none

/-- The part of a history that is about one connection. -/
def account (i : Nat) (es : List Entry) : List Moment := es.filterMap (moment? i)

inductive Stage where
  | offline
  /-- Attached, and not yet registered. -/
  | waiting (h : Handle)
  /-- The line that completes registration has come. -/
  | completing (h : Handle)
  /-- It has been told as a reply. -/
  | answered (h : Handle)
  | registered (h : Handle)

inductive Advance (registered : Nat) : Stage → Moment → Stage → Prop where
  | attach (h : Handle) : Advance registered .offline (.attached h) (.waiting h)
  | hear {h : Handle} {line : Text} (hline : ¬ Completes registered line) :
    Advance registered (.waiting h) (.occurred (.rawLineReceived line)) (.waiting h)
  | complete {h : Handle} {line : Text} (hline : Completes registered line) :
    Advance registered (.waiting h) (.occurred (.rawLineReceived line)) (.completing h)
  | answer (h : Handle) (sender : Mask) (params : List Text) :
    Advance registered (.completing h) (.occurred (.serverMessage sender registered params))
      (.answered h)
  | welcome (h : Handle) : Advance registered (.answered h) (.occurred .connected) (.registered h)
  | hearOn (h : Handle) (line : Text) :
    Advance registered (.registered h) (.occurred (.rawLineReceived line)) (.registered h)
  | wait {h : Handle} {what : Occurrence} (hwhat : what.isPlain = true) :
    Advance registered (.waiting h) (.occurred what) (.waiting h)
  | stay {h : Handle} {what : Occurrence} (hwhat : what.isPlain = true) :
    Advance registered (.registered h) (.occurred what) (.registered h)
  | giveUp (h : Handle) : Advance registered (.waiting h) (.occurred .disconnected) .offline
  | lose (h : Handle) : Advance registered (.registered h) (.occurred .disconnected) .offline

inductive Path (registered : Nat) : Stage → List Moment → Stage → Prop where
  | nil (s : Stage) : Path registered s [] s
  | cons {s s' t : Stage} {m : Moment} {ms : List Moment} (first : Advance registered s m s')
    (rest : Path registered s' ms t) : Path registered s (m :: ms) t

variable {registered : Nat} {s t : Stage} {m : Moment} {ms ms' : List Moment}

theorem path_append :
    Path registered s (ms ++ ms') t ↔
      ∃ u, Path registered s ms u ∧ Path registered u ms' t := by
  constructor
  · intro h
    induction ms generalizing s with
    | nil => exact ⟨s, .nil s, h⟩
    | cons m ms ih =>
      cases h with
      | cons first rest =>
        obtain ⟨u, hu, hrest⟩ := ih rest
        exact ⟨u, .cons first hu, hrest⟩
  · rintro ⟨u, hu, hrest⟩
    induction hu with
    | nil => exact hrest
    | cons first _ ih => exact .cons first (ih hrest)

theorem path_singleton : Path registered s [m] t ↔ Advance registered s m t := by
  constructor
  · intro h
    cases h with
    | cons first rest =>
      cases rest
      exact first
  · exact fun h => .cons h (.nil t)

/-! ## Sessions and their stages -/

/-- The stage a session is in. -/
def stageOf (s : Session) : Stage :=
  match s.socket with
  | none => .offline
  | some h => if s.phase = .registered then .registered h else .waiting h

/-- The stage a connection is in. -/
def Net.stage (n : Net) (i : Nat) : Stage :=
  (n.connections.get? i).elim .offline fun c => stageOf c.session

variable {n n' : Net} {i : Nat} {es : List Entry} {c : Connection} {h : Handle}

theorem stage_insert {p : Pool Role} {j : Nat} :
    Net.stage { connections := n.connections.insert j c, pool := p } i =
      if j = i then stageOf c.session else n.stage i := by
  unfold Net.stage
  rw [Table.get?_insert]
  split <;> rfl

theorem stage_eq (hc : n.connections.get? i = some c) : n.stage i = stageOf c.session := by
  simp [Net.stage, hc]

theorem stage_offline (hi : n.socketOf i = none) : n.stage i = .offline := by
  unfold Net.socketOf at hi
  unfold Net.stage
  cases hc : n.connections.get? i with
  | none => rfl
  | some c =>
    rw [hc] at hi
    have hsocket : c.session.socket = none := hi
    simp only [Option.elim, stageOf, hsocket]

theorem advance_plain {s : Session} {what : Occurrence} (hs : s.socket = some h)
    (hwhat : what.isPlain = true) :
    Advance registered (stageOf s) (.occurred what) (stageOf s) := by
  unfold stageOf
  rw [hs]
  simp only
  split
  · exact .stay hwhat
  · exact .wait hwhat

theorem path_plains {s : Session} {whats : List Occurrence} (hs : s.socket = some h)
    (hwhats : ∀ what ∈ whats, what.isPlain = true) :
    Path registered (stageOf s) (whats.map .occurred) (stageOf s) := by
  induction whats with
  | nil => exact .nil _
  | cons what whats ih =>
    exact .cons (advance_plain hs (hwhats what (by simp))) (ih fun w hw => hwhats w (by simp [hw]))

theorem advance_lose {s : Session} (hs : s.socket = some h) :
    Advance registered (stageOf s) (.occurred .disconnected) .offline := by
  unfold stageOf
  rw [hs]
  simp only
  split
  · exact .lose h
  · exact .giveUp h

theorem stageOf_congr {s s' : Session} (h : s'.standing = s.standing) : stageOf s' = stageOf s := by
  have hphase : s'.phase = s.phase := congrArg Prod.fst h
  have hsocket : s'.socket = s.socket := congrArg Prod.snd h
  simp only [stageOf, hphase, hsocket]

/-- Handling a line takes a session from stage to stage along what the line is announced as. -/
theorem path_handleLine {s : Session} {line : Text} (hs : s.socket = some h)
    (hproper : s.Proper) :
    Path registered (stageOf s) ((s.handleLine registered line).2.map .occurred)
      (stageOf (s.handleLine registered line).1) := by
  by_cases hline : Completes registered line ∧ s.phase = .connected
  · obtain ⟨sender, params, hwhats, hphase, hsocket⟩ :=
      Session.handleLine_completing hline.1 hline.2
    have hbefore : stageOf s = .waiting h := by simp [stageOf, hs, hline.2]
    have hafter : stageOf (s.handleLine registered line).1 = .registered h := by
      simp [stageOf, hsocket, hs, hphase]
    rw [hwhats, hbefore, hafter]
    exact .cons (.complete hline.1) (.cons (.answer h sender params) (.cons (.welcome h) (.nil _)))
  · obtain ⟨whats, hwhats, hplain, hstanding⟩ := Session.handleLine_ordinary hline
    rw [hwhats, stageOf_congr hstanding]
    refine .cons ?_ (path_plains hs hplain)
    unfold stageOf
    rw [hs]
    simp only
    split
    · exact .hearOn h line
    · next hphase =>
      refine .hear fun hcompletes => hline ⟨hcompletes, ?_⟩
      have honline := hproper.online
      rw [hs] at honline
      cases hp : s.phase with
      | connected => rfl
      | registered => exact absurd hp hphase
      | disconnected => simp [hp, Phase.isOnline] at honline
      | connecting => simp [hp, Phase.isOnline] at honline

/-! ## Every move is a path -/

theorem account_append (es es' : List Entry) :
    account i (es ++ es') = account i es ++ account i es' :=
  List.filterMap_append

theorem account_occurred_self (whats : List Occurrence) :
    account i (whats.map fun what => .triggered (.occurred i what)) = whats.map .occurred := by
  simp only [account, List.filterMap_map]
  rw [← List.filterMap_eq_map]
  congr 1
  funext what
  simp [moment?]

theorem account_said (lines : List Text) :
    account i (lines.map fun line => .triggered (.occurred i (.rawLineSent line))) =
      lines.map fun line => .occurred (.rawLineSent line) := by
  have hsaid := account_occurred_self (i := i) (lines.map .rawLineSent)
  rwa [List.map_map, List.map_map] at hsaid

theorem account_occurred_other {j : Nat} (hne : j ≠ i) (whats : List Occurrence) :
    account i (whats.map fun what => .triggered (.occurred j what)) = [] := by
  simp [account, moment?, hne]

theorem path_move (hn : n.Sound) (hm : n.Move registered es n') :
    Path registered (n.stage i) (account i es) (n'.stage i) := by
  cases hm with
  | touch hs hcallbacks => exact .nil _
  | @speak j h line hsocket =>
    by_cases hj : j = i
    · subst hj
      obtain ⟨c, hc, hsocket⟩ := Option.bind_eq_some_iff.1 hsocket
      rw [stage_eq hc]
      have hplain : Occurrence.isPlain (.rawLineSent line) = true := rfl
      simpa [account, moment?] using path_singleton.2 (advance_plain hsocket hplain)
    · simpa [account, moment?, hj] using Path.nil (n.stage i)
  | @rename j c nick hc =>
    rw [stage_insert]
    split
    · next hj =>
      subst hj
      rw [stage_eq hc]
      exact .nil _
    · exact .nil _
  | @attach j c stream nick hc hphase =>
    rw [stage_insert]
    split
    · next hj =>
      subst hj
      rw [stage_offline (hn.socketOf_disconnected hc hphase)]
      have haccount : account j [.attached j n.pool.nextHandle] =
          [.attached n.pool.nextHandle] := by
        simp [account, moment?]
      rw [haccount]
      exact path_singleton.2 (.attach n.pool.nextHandle)
    · next hj =>
      simpa [account, moment?, hj] using Path.nil (n.stage i)
  | @lose j c h hc hsocket =>
    rw [stage_insert]
    split
    · next hj =>
      subst hj
      rw [stage_eq hc]
      have haccount : account j [.triggered (.occurred j .disconnected)] =
          [.occurred .disconnected] := by
        simp [account, moment?]
      rw [haccount]
      exact path_singleton.2 (advance_lose hsocket)
    · next hj =>
      simpa [account, moment?, hj] using Path.nil (n.stage i)
  | @hear j c h line hc hsocket =>
    rw [stage_insert]
    split
    · next hj =>
      subst hj
      rw [stage_eq hc, account_occurred_self]
      exact path_handleLine hsocket (hn.proper j c hc)
    · next hj =>
      rw [account_occurred_other hj]
      exact .nil _
  | drop hs hother => exact .nil _

theorem path_moves (hn : n.Sound) (hm : n.Moves registered es n') :
    Path registered (n.stage i) (account i es) (n'.stage i) := by
  induction hm with
  | refl => exact .nil _
  | head first _ ih =>
    rw [account_append]
    exact path_append.2 ⟨_, path_move hn first, ih (first.sound hn)⟩

variable {μ κ γ ν : Type} [DecidableEq κ]

/-- The account of a run leads to the stage the connection is in after it. -/
theorem path_run (b : Bot μ κ γ) (networks : List Config.Network) (steps : List (Step κ γ ν))
    (i : Nat) :
    Path b.settings.registeredNumeric .offline
      (account i (({ b with net := .ofNetworks networks }).history steps))
      (({ b with net := .ofNetworks networks }.run steps).net.stage i) := by
  have hn := Net.sound_ofNetworks networks
  have hoffline : (Net.ofNetworks networks).stage i = .offline := by
    refine stage_offline (Option.eq_none_iff_forall_ne_some.2 fun h hi => ?_)
    obtain ⟨c, hc, hsocket⟩ := Option.bind_eq_some_iff.1 hi
    obtain ⟨network, rfl⟩ := Net.get?_ofNetworks hc
    cases hsocket
  have hmoves := moves_run (b := { b with net := .ofNetworks networks }) hn steps
  have hpath := path_moves (i := i) hn hmoves
  rwa [hoffline] at hpath

end IrcBot.Bot
