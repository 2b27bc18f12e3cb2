/-
What lines a connection hears. A line is what stands before a line feed in what a
socket has received, so no line that is heard in a run has a line feed in it, and
neither has anything that is read off it.
-/
import IrcBot.Proofs.Bot.Receiving
import IrcBot.Proofs.Text.Decoding

namespace IrcBot

/-! ## Lines of a stream -/

namespace Reader

variable {r left : Reader} {line : Text}

theorem not_mem_lineOf {segment : Bytes} (h : LineBuffer.lineFeed ∉ segment) :
    '\n' ∉ lineOf segment := by
  refine Text.not_mem_decode fun hmem => h ?_
  unfold LineBuffer.dropReturn at hmem
  split at hmem
  · exact (List.dropLast_prefix _).subset hmem
  · exact hmem

theorem not_mem_next (hb : r.buffer.Scanned) (h : r.next = (.ok (some line), left)) :
    '\n' ∉ line := by
  fun_induction Reader.next r with
  | case1 r line' buffer hn =>
    obtain ⟨segment, -, hsegment, rfl⟩ := LineBuffer.of_next_line hb hn
    cases h
    exact not_mem_lineOf hsegment
  | case2 r e buffer hn ih => exact ih (hb.of_next hn).1 h
  | case3 r buffer hn filled hf ih =>
    obtain ⟨bytes, -, hbuffer, -⟩ := fill_spec { r with buffer }
    rw [hf] at hbuffer
    refine ih ?_ h
    rw [hbuffer]
    exact (hb.of_next hn).1.extend bytes
  | case4 => cases h
  | case5 => cases h

/-- No line that is handed out has a line feed. -/
theorem not_mem_drain (hb : r.buffer.Scanned) : ∀ line ∈ r.drain.1, '\n' ∉ line := by
  fun_induction Reader.drain r with
  | case1 r line left hn lines stop last hdrain ih =>
    obtain ⟨-, -, hscanned, -, -⟩ := next_answers hb
    rw [hn] at hscanned
    rw [hdrain] at ih
    exact List.forall_mem_cons.2 ⟨not_mem_next hb hn, ih hscanned⟩
  | case2 | case3 => exact fun _ h => absurd h List.not_mem_nil

end Reader

namespace Bot

/-! ## Lines that are heard -/

/-- No line that is told to be received has a line feed. -/
def FeedFree (events : List Event) : Prop :=
  ∀ i line, .occurred i (.rawLineReceived line) ∈ events → '\n' ∉ line

theorem FeedFree.append {events more : List Event} (h : FeedFree events) (hmore : FeedFree more) :
    FeedFree (events ++ more) :=
  fun i line hmem => (List.mem_append.1 hmem).elim (h i line) (hmore i line)

/-- All line buffers know where they have searched, and no line with a line feed is heard. -/
def Clean (r : Pool.Run Role Desk) : Prop :=
  (∀ h s, r.pool.socket? h = some s → s.reader.buffer.Scanned) ∧ FeedFree r.world.events

variable {registered i : Nat} {h : Handle} {r : Pool.Run Role Desk}

theorem feedFree_hear {d : Desk} (hd : FeedFree d.events) {line : Text} (hline : '\n' ∉ line) :
    FeedFree (Desk.hear registered i d line).events := by
  cases hc : d.connections.get? i with
  | none => simpa only [Desk.hear, takeTurn, hc] using hd
  | some c =>
    rw [hear_eq registered line hc]
    obtain ⟨whats, hwhats, hothers⟩ := c.session.occurrences_handleLine registered line
    refine hd.append fun j other hmem => ?_
    rw [hwhats] at hmem
    obtain ⟨what, hwhat, he⟩ := List.mem_map.1 hmem
    cases he
    rcases List.mem_cons.1 hwhat with he | hwhat
    · cases he
      exact hline
    · exact absurd rfl ((hothers _ hwhat).2 other)

theorem Clean.set (hr : Clean r) {s : Socket Role} (hs : s.reader.buffer.Scanned) :
    Clean { r with pool := r.pool.set h s } := by
  refine ⟨fun h' s' hs' => ?_, hr.2⟩
  by_cases he : h = h'
  · subst he
    rw [Pool.socket?_set_self] at hs'
    cases hs'
    exact hs
  · rw [Pool.socket?_set_other he] at hs'
    exact hr.1 h' s' hs'

theorem Clean.close (hr : Clean r) : Clean { r with pool := (r.pool.close h).2 } := by
  refine ⟨fun h' s' hs' => ?_, hr.2⟩
  by_cases he : h = h'
  · subst he
    rw [Pool.socket?_close_self] at hs'
    cases hs'
  · rw [Pool.socket?_close_other he] at hs'
    exact hr.1 h' s' hs'

theorem Clean.loseSocket (hr : Clean r) :
    Clean ((loseSocket i h).run (Pool.serve (conduct registered)) r).2 := by
  by_cases hcurrent : (netOf r).socketOf i = some h
  · obtain ⟨c, hc, hsocket⟩ := Option.bind_eq_some_iff.1 hcurrent
    rw [run_loseSocket_current hc hsocket]
    exact ⟨hr.close.1, hr.2.append (by simp [FeedFree])⟩
  · rw [run_loseSocket_stale hcurrent]
    exact hr

theorem Clean.heardAll (hr : Clean r) : Clean (heardAll registered r i h) := by
  have hdrained : Clean { r with pool := (r.pool.drain h).2 } ∧
      ∀ line ∈ (r.pool.drain h).1.1, '\n' ∉ line := by
    cases hs : r.pool.socket? h with
    | none =>
      simp only [Pool.drain, hs]
      exact ⟨hr, fun _ hmem => absurd hmem List.not_mem_nil⟩
    | some s =>
      simp only [Pool.drain, hs]
      exact ⟨hr.set (Reader.drain_scanned (hr.1 h s hs)).1, Reader.not_mem_drain (hr.1 h s hs)⟩
  refine ⟨hdrained.1.1, ?_⟩
  exact List.foldlRecOn (motive := fun d : Desk => FeedFree d.events) _ _ hr.2
    fun d hd line hmem => feedFree_hear hd (hdrained.2 line hmem)

theorem Clean.readSocket (hr : Clean r) :
    Clean ((readSocket i h).run (Pool.serve (conduct registered)) r).2 := by
  by_cases hcurrent : (netOf r).socketOf i = some h
  · rw [run_readSocket_current hcurrent]
    split
    · exact hr.heardAll.loseSocket
    · exact hr.heardAll
  · rw [run_readSocket_stale hcurrent]
    exact hr

theorem kept_clean (registered : Nat) : Pool.Kept (conduct registered) Clean where
  set r h s s' hs hreader _ hr := hr.set (hreader ▸ hr.1 h s hs)
  dispatch r h occasion hr := by
    unfold Pool.dispatch
    split
    · exact hr
    · next s hs =>
      split
      · next role hrole =>
        have hcalled : Clean (r.note (.called h occasion)) := hr
        cases role with
        | reader i => exact hcalled.readSocket
        | closer i => exact hcalled.loseSocket
      · split
        · exact hr.close
        · exact hr

/-! ## Steps -/

variable {μ κ γ ν : Type} [DecidableEq κ] {b : Bot μ κ γ}

/-- The events that a pass triggers tell of no line with a line feed. -/
theorem feedFree_pollSockets (hb : b.net.Sane) (report : Pool.Report) :
    FeedFree ((b.entries (.pollSockets report : Step κ γ ν)).filterMap Entry.event?) := by
  have hclean : Clean b.auditOf.run := ⟨fun h s hs => (hb h s hs).1, by simp [FeedFree, auditOf]⟩
  have hpassed := (kept_clean b.settings.registeredNumeric).poll report hclean
  simp only [entries, List.filterMap_map]
  rw [show (Entry.event? ∘ Entry.triggered) = some from rfl, List.filterMap_some]
  exact hpassed.2

theorem mem_received {es : List Entry} {line : Text} (h : line ∈ received (account i es)) :
    .triggered (.occurred i (.rawLineReceived line)) ∈ es := by
  obtain ⟨m, hm, hline⟩ := List.mem_filterMap.1 h
  obtain ⟨e, he, hmoment⟩ := List.mem_filterMap.1 hm
  cases e with
  | attached j h =>
    simp only [moment?] at hmoment
    split at hmoment <;> cases hmoment
    cases hline
  | triggered event =>
    cases event with
    | module => cases hmoment
    | occurred j what =>
      simp only [moment?] at hmoment
      split at hmoment <;> cases hmoment
      next hj =>
        cases what with
        | rawLineReceived line' =>
          cases hline
          exact hj ▸ he
        | _ => cases hline

theorem not_mem_received_step (hn : b.net.Sound) (hb : b.net.Sane) (s : Step κ γ ν) (i : Nat) :
    ∀ line ∈ received (account i (b.entries s)), '\n' ∉ line := by
  by_cases hpass : ∃ report, s = .pollSockets report
  · obtain ⟨report, rfl⟩ := hpass
    intro line hline
    exact feedFree_pollSockets (ν := ν) hb report i line
      (List.mem_filterMap.2 ⟨_, mem_received hline, rfl⟩)
  by_cases hdisturb : ∃ h f, s = .disturb h f
  · obtain ⟨h, f, rfl⟩ := hdisturb
    exact fun _ hline => absurd hline List.not_mem_nil
  simp only [not_exists] at hpass hdisturb
  rw [(still_step hn s hpass hdisturb).received_account i]
  exact fun _ hline => absurd hline List.not_mem_nil

/-- **No line that a connection hears in a run has a line feed in it.** -/
theorem not_mem_received (hn : b.net.Sound) (hb : b.net.Sane) (steps : List (Step κ γ ν)) (i : Nat) :
    ∀ line ∈ received (account i (b.history steps)), '\n' ∉ line := by
  induction steps generalizing b with
  | nil => exact fun _ hline => absurd hline List.not_mem_nil
  | cons s steps ih =>
    rw [history, account_append, received_append]
    exact List.forall_mem_append.2 ⟨not_mem_received_step hn hb s i,
      ih ((moves_step hn s).sound hn) (sane_step hn hb s)⟩

end Bot

end IrcBot
