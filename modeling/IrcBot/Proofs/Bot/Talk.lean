/-
What a connection is told while it stays on a socket. It hears its server line by line, and
each line is handled in full before the next; what it says, and a nick it takes, may come
in between. It stays on the socket until it is disconnected, and then it never comes
back to it: all it is told later, it is told on some other socket.
-/
import IrcBot.Proofs.Bot.Stages

namespace IrcBot

/-- What a line is announced as: first as it is, and then as nothing that tells of another line
or of a loss. -/
theorem Session.occurrences_handleLine (s : Session) (registered : Nat) (line : Text) :
    ∃ whats, (s.handleLine registered line).2 = .rawLineReceived line :: whats ∧
      ∀ what ∈ whats, what ≠ .disconnected ∧ ∀ other, what ≠ .rawLineReceived other := by
  by_cases hline : Completes registered line ∧ s.phase = .connected
  · obtain ⟨sender, params, hwhats, -⟩ := handleLine_completing hline.1 hline.2
    exact ⟨_, hwhats, by simp⟩
  · obtain ⟨whats, hwhats, hplain, -⟩ := handleLine_ordinary hline
    refine ⟨whats, hwhats, fun what hwhat => ⟨?_, fun other => ?_⟩⟩
    · rintro rfl
      exact absurd (hplain _ hwhat) (by simp [Occurrence.isPlain])
    · rintro rfl
      exact absurd (hplain _ hwhat) (by simp [Occurrence.isPlain])

namespace Bot

/-! ## Talks -/

/-- The lines that a connection has heard from its server, what it has been told meanwhile, and
the session it has come to. -/
inductive Talk (registered : Nat) (start : Session) : List Text → List Moment → Session → Prop where
  | silent : Talk registered start [] [] start
  /-- A line is handled in full. -/
  | hear {lines : List Text} {ms : List Moment} {s : Session}
    (earlier : Talk registered start lines ms s) (line : Text) :
    Talk registered start (lines ++ [line])
      (ms ++ (s.handleLine registered line).2.map .occurred) (s.handleLine registered line).1
  | say {lines : List Text} {ms : List Moment} {s : Session}
    (earlier : Talk registered start lines ms s) (line : Text) :
    Talk registered start lines (ms ++ [.occurred (.rawLineSent line)]) s
  | rename {lines : List Text} {ms : List Moment} {s : Session}
    (earlier : Talk registered start lines ms s) (nick : Text) :
    Talk registered start lines ms { s with nick }

/-- The line that a moment tells to be received. -/
def Moment.received? : Moment → Option Text
  | .occurred (.rawLineReceived line) => some line
  | _ => none

/-- The lines that an account tells to be received. -/
def received (ms : List Moment) : List Text := ms.filterMap Moment.received?

variable {registered i : Nat} {start s : Session} {lines : List Text} {ms ms' : List Moment}
  {n n' : Net} {es : List Entry} {c : Connection} {h : Handle}

theorem received_append : received (ms ++ ms') = received ms ++ received ms' :=
  List.filterMap_append

/-- Handling a line tells of this line, of no other, and of no loss. -/
theorem received_handleLine (s : Session) (registered : Nat) (line : Text) :
    received ((s.handleLine registered line).2.map .occurred) = [line] ∧
      .occurred .disconnected ∉ (s.handleLine registered line).2.map Moment.occurred := by
  obtain ⟨whats, hwhats, hothers⟩ := s.occurrences_handleLine registered line
  have hnone : received (whats.map Moment.occurred) = [] := by
    refine List.filterMap_eq_nil_iff.2 fun m hm => ?_
    obtain ⟨what, hwhat, rfl⟩ := List.mem_map.1 hm
    cases what with
    | rawLineReceived other => exact absurd rfl ((hothers _ hwhat).2 other)
    | _ => rfl
  have hfirst : Moment.received? (.occurred (.rawLineReceived line)) = some line := rfl
  rw [hwhats, List.map_cons]
  refine ⟨?_, fun hmem => ?_⟩
  · rw [received, List.filterMap_cons_some hfirst]
    exact congrArg _ hnone
  · rcases List.mem_cons.1 hmem with he | hmem
    · cases he
    · obtain ⟨what, hwhat, he⟩ := List.mem_map.1 hmem
      exact (hothers _ hwhat).1 (Moment.occurred.inj he)

/-- The lines of a talk are those it tells to be received, each once and in order. -/
theorem Talk.received_eq (ht : Talk registered start lines ms s) : received ms = lines := by
  induction ht with
  | silent => rfl
  | @hear lines ms s _ line ih =>
    rw [received_append, ih, (received_handleLine s registered line).1]
  | say _ line ih => rw [received_append, ih]; exact List.append_nil _
  | rename _ nick ih => exact ih

/-- A talk tells of no loss. -/
theorem Talk.undisturbed (ht : Talk registered start lines ms s) :
    .occurred .disconnected ∉ ms := by
  induction ht with
  | silent => exact List.not_mem_nil
  | @hear lines ms s _ line ih =>
    exact List.not_mem_append ih (received_handleLine s registered line).2
  | say _ line ih => exact List.not_mem_append ih (by simp)
  | rename _ nick ih => exact ih

/-! ## A handle that is done with -/

/-- A handle that was given out is not in the pool any more. -/
def Net.Gone (h : Handle) (n : Net) : Prop := h < n.pool.nextHandle ∧ n.pool.socket? h = none

/-- What is gone stays gone: no connection ever gets this socket again. -/
theorem Net.Gone.move (hg : n.Gone h) (hm : n.Move registered es n') :
    n'.Gone h ∧ ∀ j, .attached j h ∉ es := by
  obtain ⟨hlt, hnone⟩ := hg
  have hother {h' : Handle} {s' : Socket Role} (hs' : n.pool.socket? h' = some s') : h' ≠ h := by
    rintro rfl
    cases hnone.symm.trans hs'
  have hclosed (h' : Handle) : (n.pool.close h').2.socket? h = none := by
    by_cases he : h' = h
    · subst he
      exact Pool.socket?_close_self
    · exact (Pool.socket?_close_other he).trans hnone
  cases hm with
  | touch hs hcallbacks =>
    exact ⟨⟨hlt, (Pool.socket?_set_other (hother hs)).trans hnone⟩, by simp⟩
  | speak | rename | hear => exact ⟨⟨hlt, hnone⟩, by simp⟩
  | attach stream nick hc hphase =>
    have hne : n.pool.nextHandle ≠ h := Nat.ne_of_gt hlt
    refine ⟨⟨Nat.lt_succ_of_lt hlt, ?_⟩, fun j hmem => ?_⟩
    · exact (Table.get?_insert_other _ _ hne).trans hnone
    · exact hne (Entry.attached.inj (List.mem_singleton.1 hmem)).2.symm
  | lose | drop => exact ⟨⟨hlt, hclosed _⟩, by simp⟩

theorem not_mem_account (hes : ∀ j, .attached j h ∉ es) : .attached h ∉ account i es := by
  intro hmem
  obtain ⟨e, he, hmoment⟩ := List.mem_filterMap.1 hmem
  cases e with
  | attached j h' =>
    simp only [moment?] at hmoment
    split at hmoment <;> cases hmoment
    exact hes j he
  | triggered event =>
    cases event with
    | module => cases hmoment
    | occurred j what =>
      simp only [moment?] at hmoment
      split at hmoment <;> cases hmoment

/-! ## Until the loss, and after it -/

/-- How a connection has fared on a socket: it talks on, or it has been disconnected; the socket
is then gone, and what the connection has been told since leads from there to where it is. -/
inductive Fared (registered i : Nat) (h : Handle) (start : Session) (ms : List Moment)
    (n : Net) : Prop where
  | on {c : Connection} {lines : List Text} (hc : n.connections.get? i = some c)
    (hsocket : c.session.socket = some h) (talk : Talk registered start lines ms c.session)
  | off {said rest : List Moment} {lines : List Text} {s : Session}
    (hms : ms = said ++ .occurred .disconnected :: rest)
    (talk : Talk registered start lines said s)
    (since : Path registered .offline rest (n.stage i)) (gone : n.Gone h)
    (never : .attached h ∉ rest)

theorem account_occurred (what : Occurrence) :
    account i [.triggered (.occurred i what)] = [.occurred what] :=
  account_occurred_self [what]

/-- What is told of another connection, or nothing at all, leaves the connection where it is. -/
theorem Fared.spared (hc : n'.connections.get? i = some c) (hsocket : c.session.socket = some h)
    (ht : Talk registered start lines ms c.session) (hnone : account i es = []) :
    Fared registered i h start (ms ++ account i es) n' := by
  rw [hnone, List.append_nil]
  exact .on hc hsocket ht

theorem Fared.move (hn : n.Sound) (hf : Fared registered i h start ms n)
    (hm : n.Move registered es n') :
    Fared registered i h start (ms ++ account i es) n' := by
  cases hf with
  | off hms talk since gone never =>
    subst hms
    obtain ⟨hgone, hnever⟩ := gone.move hm
    rw [List.append_assoc, List.cons_append]
    exact .off rfl talk (path_append.2 ⟨_, since, path_move hn hm⟩) hgone
      (List.not_mem_append never (not_mem_account hnever))
  | on hc hsocket talk =>
    cases hm with
    | touch | drop => exact .spared hc hsocket talk rfl
    | @speak j _ line _ =>
      by_cases hj : j = i
      · subst hj
        rw [account_occurred]
        exact .on hc hsocket (talk.say line)
      · exact .spared hc hsocket talk (account_occurred_other hj [.rawLineSent line])
    | @rename j c' nick hc' =>
      by_cases hj : j = i
      · subst hj
        cases hc.symm.trans hc'
        rw [show account j [] = [] from rfl, List.append_nil]
        exact .on (Table.get?_insert_self ..) hsocket (talk.rename nick)
      · exact .spared ((Table.get?_insert_other _ _ hj).trans hc) hsocket talk rfl
    | @attach j c' stream nick hc' hphase =>
      have hj : j ≠ i := by
        rintro rfl
        have hnone := hn.socketOf_disconnected hc' hphase
        rw [Net.socketOf_eq hc, hsocket] at hnone
        cases hnone
      have hnone : account i [.attached j n.pool.nextHandle] = [] := by
        simp [account, moment?, hj]
      exact .spared ((Table.get?_insert_other _ _ hj).trans hc) hsocket talk hnone
    | @lose j c' h' hc' hsocket' =>
      by_cases hj : j = i
      · subst hj
        cases hc.symm.trans hc'
        cases hsocket.symm.trans hsocket'
        obtain ⟨s, hs, -⟩ := hn.pooled j h ((Net.socketOf_eq hc).trans hsocket)
        rw [account_occurred]
        refine .off rfl talk ?_ ⟨hn.fresh h s hs, Pool.socket?_close_self⟩ List.not_mem_nil
        rw [stage_insert, if_pos rfl]
        exact .nil _
      · exact .spared ((Table.get?_insert_other _ _ hj).trans hc) hsocket talk
          (account_occurred_other hj [.disconnected])
    | @hear j c' h' line hc' hsocket' =>
      by_cases hj : j = i
      · subst hj
        cases hc.symm.trans hc'
        rw [account_occurred_self]
        exact .on (Table.get?_insert_self ..) (Session.socket_handleLine.trans hsocket)
          (talk.hear line)
      · exact .spared ((Table.get?_insert_other _ _ hj).trans hc) hsocket talk
          (account_occurred_other hj _)

/-- **A connection on a socket talks on until it is disconnected**, whatever is done. -/
theorem Fared.moves (hn : n.Sound) (hf : Fared registered i h start ms n)
    (hm : n.Moves registered es n') :
    Fared registered i h start (ms ++ account i es) n' := by
  induction hm generalizing ms with
  | refl =>
    rw [show account i [] = [] from rfl, List.append_nil]
    exact hf
  | head first _ ih =>
    rw [account_append, ← List.append_assoc]
    exact ih (first.sound hn) (hf.move hn first)

/-- A connection that is not disconnected keeps its socket. -/
theorem Net.Moves.socketOf_undisturbed (hm : n.Moves registered es n') (hn : n.Sound)
    (hi : n.socketOf i = some h) (hlost : .occurred .disconnected ∉ account i es) :
    n'.socketOf i = some h := by
  obtain ⟨c, hc, hsocket⟩ := Option.bind_eq_some_iff.1 hi
  have hf : Fared registered i h c.session [] n := .on hc hsocket .silent
  cases hf.moves hn hm with
  | on hc' hsocket' => exact (Net.socketOf_eq hc').trans hsocket'
  | off hms =>
    rw [List.nil_append] at hms
    exact absurd (hms ▸ List.mem_append_right _ List.mem_cons_self) hlost

end Bot

end IrcBot
