/-
Sessions and the pool agree between any two steps of any run: a connection is
online exactly while it has a socket, the socket is one of the pool and no other
connection's, and the pool has no further sockets. Of a connection that is
offline nothing is left over.
-/
import IrcBot.Proofs.Bot.Runs

namespace IrcBot.Bot

namespace Net

/-- The connections of the net and its pool agree with each other. -/
structure Agrees (n : Net) : Prop where
  online : ∀ i c, n.connections.get? i = some c →
    ((c.session.phase = .connected ∨ c.session.phase = .registered) ↔
      ∃ h, c.session.socket = some h)
  pooled : ∀ i c h, n.connections.get? i = some c → c.session.socket = some h →
    n.pool.contains h = true
  /-- Nothing leaks from one socket to the next. -/
  forgotten : ∀ i c, n.connections.get? i = some c →
    ¬ (c.session.phase = .connected ∨ c.session.phase = .registered) →
    c.session.isupport = .empty ∧ c.session.tracker.users = .empty ∧
      c.session.tracker.channels = .empty
  distinct : ∀ i j c d h, n.connections.get? i = some c → n.connections.get? j = some d →
    c.session.socket = some h → d.session.socket = some h → i = j
  /-- No socket is left without a connection. -/
  owned : ∀ h, n.pool.contains h = true →
    ∃ i c, n.connections.get? i = some c ∧ c.session.socket = some h

theorem isOnline_iff {p : Phase} : p.isOnline = true ↔ p = .connected ∨ p = .registered := by
  cases p <;> decide

theorem Sound.agrees {n : Net} (hn : n.Sound) : n.Agrees := by
  have honline (i : Nat) (c : Connection) (hc : n.connections.get? i = some c) :
      (c.session.phase = .connected ∨ c.session.phase = .registered) ↔
        ∃ h, c.session.socket = some h := by
    rw [← isOnline_iff, (hn.proper i c hc).online, Option.isSome_iff_exists]
  refine ⟨honline, fun i c h hc hsocket => ?_, fun i c hc hoff => ?_,
    fun i j c d h hc hd hsocket hsocket' => ?_, fun h hin => ?_⟩
  · obtain ⟨s, hs, -⟩ := hn.pooled i h ((socketOf_eq hc).trans hsocket)
    exact Pool.contains_iff.2 ⟨s, hs⟩
  · rw [honline i c hc, ← Option.isSome_iff_exists, Option.not_isSome_iff_eq_none] at hoff
    obtain ⟨-, hisupport, htracker⟩ := (hn.proper i c hc).forgotten hoff
    rw [htracker]
    exact ⟨hisupport, rfl, rfl⟩
  · exact hn.distinct ((socketOf_eq hc).trans hsocket) ((socketOf_eq hd).trans hsocket')
  · obtain ⟨s, hs⟩ := Pool.contains_iff.1 hin
    obtain ⟨i, hi⟩ := hn.owned h s hs
    exact ⟨i, Option.bind_eq_some_iff.1 hi⟩

/-! ## New connections -/

theorem get?_ofNetworks {networks : List Config.Network} {i : Nat} {c : Connection}
    (hc : (ofNetworks networks).connections.get? i = some c) :
    ∃ network, c = .ofSettings network := by
  have hall (l : List (Config.Network × Nat)) (t : Table Nat Connection)
      (ht : ∀ i c, t.get? i = some c → ∃ network, c = .ofSettings network) :
      ∀ i c, (l.foldl (fun t p => t.insert p.2 (.ofSettings p.1)) t).get? i = some c →
        ∃ network, c = .ofSettings network := by
    induction l generalizing t with
    | nil => exact ht
    | cons p l ih =>
      refine ih _ fun i c hc => ?_
      rw [Table.get?_insert] at hc
      split at hc
      · exact ⟨p.1, (Option.some.inj hc).symm⟩
      · exact ht i c hc
  exact hall _ .empty (by simp) i c hc

theorem sound_ofNetworks (networks : List Config.Network) : (ofNetworks networks).Sound := by
  refine ⟨fun i c hc => ?_, fun i h hi => ?_, fun h s hs => ?_, fun h s hs => ?_⟩
  · obtain ⟨network, rfl⟩ := get?_ofNetworks hc
    exact ⟨by simp [Connection.ofSettings, Phase.isOnline], fun _ => ⟨rfl, rfl, rfl⟩⟩
  · obtain ⟨c, hc, hsocket⟩ := Option.bind_eq_some_iff.1 hi
    obtain ⟨network, rfl⟩ := get?_ofNetworks hc
    exact absurd hsocket (by simp [Connection.ofSettings])
  · exact absurd hs (by simp [ofNetworks, Pool.socket?])
  · exact absurd hs (by simp [ofNetworks, Pool.socket?])

end Net

variable {μ κ γ ν : Type} [DecidableEq κ]

theorem sound_run (b : Bot μ κ γ) (networks : List Config.Network) (steps : List (Step κ γ ν)) :
    ({ b with net := .ofNetworks networks }.run steps).net.Sound :=
  have hn := Net.sound_ofNetworks networks
  (moves_run (b := { b with net := .ofNetworks networks }) hn steps).sound hn

/-- **Sessions and the pool agree after every run.** Whatever a bot's settings,
modules and handlers, and whatever steps it takes from when its connections are
new, each connection and the pool tell the same story about its socket. -/
theorem run_agrees (b : Bot μ κ γ) (networks : List Config.Network) (steps : List (Step κ γ ν)) :
    ({ b with net := .ofNetworks networks }.run steps).net.Agrees :=
  (sound_run b networks steps).agrees

end IrcBot.Bot
