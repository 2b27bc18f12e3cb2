/-
The session of every connection is what its history has made of it, over every run of a bot: moves
of the net do to a session only what may happen to one, and the lines that it has heard since its
socket last came or went are those that its account tells to be received (`run_live`). So what a
session has been announced can be read off the account (`run_announced`).
-/
import IrcBot.Proofs.Bot.Talk
import IrcBot.Proofs.Session.Routing

namespace IrcBot.Bot

open Session (Happening undergo live heardAfter heardSince announcedIn)

/-- The lines received on the present socket once this has come about as well. -/
def receivedAfter (lines : List Text) : Moment → List Text
  | .attached _ | .occurred .disconnected => []
  | .occurred (.rawLineReceived line) => lines ++ [line]
  | .occurred _ => lines

/-- The lines that an account tells to be received since the socket last came or went. -/
def receivedSince (ms : List Moment) : List Text := ms.foldl receivedAfter []

/-- What has happened to the session of a connection is told in some entries. -/
def Happened (registered i : Nat) (c : Connection) (es : List Entry) (n : Net) : Prop :=
  ∃ c', ∃ history : List Happening, n.connections.get? i = some c' ∧ c'.settings = c.settings ∧
    c'.session = history.foldl (undergo registered) c.session ∧
    ∀ lines, history.foldl heardAfter lines = (account i es).foldl receivedAfter lines

variable {registered i j : Nat} {n n' : Net} {es : List Entry} {c c' : Connection}

/-! ## Moves -/

theorem receivedAfter_handleLine (s : Session) (lines : List Text) (line : Text) :
    ((s.handleLine registered line).2.map Moment.occurred).foldl receivedAfter lines =
      lines ++ [line] := by
  obtain ⟨whats, hwhats, hothers⟩ := s.occurrences_handleLine registered line
  rw [hwhats, List.map_cons, List.foldl_cons, receivedAfter]
  clear hwhats
  induction whats with
  | nil => rfl
  | cons what whats ih =>
    obtain ⟨⟨hlost, hreceived⟩, hrest⟩ := List.forall_mem_cons.1 hothers
    have hsame : receivedAfter (lines ++ [line]) (.occurred what) = lines ++ [line] := by
      cases what with
      | disconnected => exact absurd rfl hlost
      | rawLineReceived other => exact absurd rfl (hreceived other)
      | _ => rfl
    rw [List.map_cons, List.foldl_cons, hsame]
    exact ih hrest

/-- Nothing happens to a connection of which no entry tells. -/
theorem Happened.still (hc : n.connections.get? i = some c)
    (hes : ∀ lines, (account i es).foldl receivedAfter lines = lines) :
    Happened registered i c es n :=
  ⟨c, [], hc, rfl, rfl, fun lines => (hes lines).symm⟩

/-- One thing happens to a connection, or it happens to another one. -/
theorem Happened.insert (what : Happening) (hc : n.connections.get? i = some c)
    (hd : n.connections.get? j = some c') {p : Pool Role}
    (hself : i = j → ∀ lines, (account i es).foldl receivedAfter lines = heardAfter lines what)
    (hother : i ≠ j → account i es = []) :
    Happened registered i c es
      { connections := n.connections.insert j
          { c' with session := undergo registered c'.session what }
        pool := p } := by
  by_cases he : i = j
  · subst he
    cases hd.symm.trans hc
    exact ⟨_, [what], Table.get?_insert_self .., rfl, rfl, fun lines => (hself rfl lines).symm⟩
  · refine .still ((Table.get?_insert_other _ _ (Ne.symm he)).trans hc) fun lines => ?_
    rw [hother he, List.foldl_nil]

theorem Net.Move.happened (hm : n.Move registered es n') (hc : n.connections.get? i = some c) :
    Happened registered i c es n' := by
  cases hm with
  | touch | drop => exact .still hc fun _ => rfl
  | @speak j h line hsocket =>
    refine .still hc fun lines => ?_
    by_cases he : j = i
    · subst he
      exact congrArg (List.foldl _ _) (account_said [line])
    · exact congrArg (List.foldl _ _) (account_occurred_other he [.rawLineSent line])
  | rename nick hd => exact .insert (.renamed nick) hc hd (fun _ _ => rfl) fun _ => rfl
  | attach stream nick hd hphase =>
    refine .insert (.attached n.pool.nextHandle nick) hc hd (fun he lines => ?_) fun hne => ?_
    · simp [account, moment?, he, receivedAfter, heardAfter]
    · simp [account, moment?, Ne.symm hne]
  | lose hd hsocket =>
    refine .insert .lost hc hd (fun he lines => ?_) fun hne => ?_
    · simp [account, moment?, he, receivedAfter, heardAfter]
    · simp [account, moment?, Ne.symm hne]
  | hear line hd hsocket =>
    refine .insert (.heard line) hc hd (fun he lines => ?_) fun hne => ?_
    · subst he
      rw [account_occurred_self]
      exact receivedAfter_handleLine _ lines line
    · exact account_occurred_other (Ne.symm hne) _

theorem Net.Moves.happened (hm : n.Moves registered es n') (hc : n.connections.get? i = some c) :
    Happened registered i c es n' := by
  induction hm generalizing c with
  | refl => exact .still hc fun _ => rfl
  | head first _ ih =>
    obtain ⟨c', history, hc', hsettings, hsession, hlines⟩ := first.happened hc
    obtain ⟨c'', later, hc'', hsettings', hsession', hlines'⟩ := ih hc'
    refine ⟨c'', history ++ later, hc'', hsettings'.trans hsettings, ?_, fun lines => ?_⟩
    · rw [hsession', hsession, List.foldl_append]
    · rw [List.foldl_append, hlines, hlines', account_append, List.foldl_append]

/-! ## Runs -/

variable {μ κ γ ν : Type} [DecidableEq κ]

/-- **Every session of a run is what its history has made of it**, and the lines heard in this
history since the socket last came or went are those that the account tells to be received. -/
theorem run_live (b : Bot μ κ γ) (networks : List Config.Network) (steps : List (Step κ γ ν))
    (hc : (Net.ofNetworks networks).connections.get? i = some c) :
    ∃ c' history, ({ b with net := .ofNetworks networks }.run steps).connection? i = some c' ∧
      c'.settings = c.settings ∧
      c'.session = live b.settings.registeredNumeric c.settings.primaryNick history ∧
      heardSince history = receivedSince
        (account i (({ b with net := .ofNetworks networks }).history steps)) := by
  have hmoves := moves_run (b := { b with net := .ofNetworks networks })
    (Net.sound_ofNetworks networks) steps
  obtain ⟨c', history, hc', hsettings, hsession, hlines⟩ := hmoves.happened hc
  obtain ⟨network, rfl⟩ := Net.get?_ofNetworks hc
  exact ⟨c', history, hc', hsettings, hsession, hlines []⟩

/-- **What a session has been announced can be read off its account**: the tokens in the lines
received since the socket last came or went, and no others. -/
theorem run_announced (b : Bot μ κ γ) (networks : List Config.Network)
    (steps : List (Step κ γ ν))
    (hc : (Net.ofNetworks networks).connections.get? i = some c) :
    ∃ c', ({ b with net := .ofNetworks networks }.run steps).connection? i = some c' ∧
      c'.session.isupport = .merge .empty ((receivedSince
        (account i (({ b with net := .ofNetworks networks }).history steps))).flatMap
          announcedIn) := by
  obtain ⟨c', history, hc', -, hsession, hlines⟩ := run_live b networks steps hc
  refine ⟨c', hc', ?_⟩
  rw [hsession, Session.isupport_live, hlines]

end IrcBot.Bot
