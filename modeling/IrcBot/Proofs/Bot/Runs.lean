/-
Runs of a bot, and their histories. A step is an order to a connection, closing
one, something the network does to a stream, a pass over the sockets, a poll of
the bus with any handlers, or anything else done with the bus. Each leaves its
entries in the history: the sockets connections get and the events they trigger.

Every run is a chain of moves with exactly these entries (`moves_run`). From a
bot whose connections are all new, sessions and the pool agree after any steps.
-/
import IrcBot.Proofs.Bot.Carrying
import IrcBot.Proofs.Bot.Passes
import IrcBot.Proofs.Bus.Observed
import IrcBot.Proofs.Stream.Reading

namespace IrcBot.Bot

variable {μ κ γ ν : Type}

/-- Connections to these networks, numbered in order, none of them ever used. -/
def Net.ofNetworks (networks : List Config.Network) : Net where
  connections := networks.zipIdx.foldl (fun t p => t.insert p.2 (.ofSettings p.1)) .empty

inductive Step (κ γ ν : Type) where
  | order (connection : Nat) (o : Circuit.Order)
  | close (connection : Nat)
  /-- The network or the peer does something to the stream of a socket. -/
  | disturb (h : Handle) (f : Stream → Stream)
  | pollSockets (report : Pool.Report)
  /-- A poll with these handlers, nested to some depth at most. -/
  | pollBus (handle : κ → Option γ → Event → Bus.Handler κ γ Event (calls ν)) (depth : Nat)
  /-- Anything else that is done with the bus, such as loading a module. -/
  | useBus (f : Bus κ γ Event → Bus κ γ Event)

/-- Bytes arrive, and the stream may end after them. -/
def arriving (bytes : Bytes) (ended : Bool) (stream : Stream) : Stream :=
  { stream with source := stream.source.extend [.data bytes] ended }

/-- A pass that is told of nothing but that a socket can be read. -/
def reading (h : Handle) : Pool.Report := { ready := [{ handle := h, readable := true }] }

variable [DecidableEq κ]

def step (b : Bot μ κ γ) : Step κ γ ν → Bot μ κ γ
  | .order i o => (b.order i o).2
  | .close i => (b.close i).2
  | .disturb h f => { b with net := { b.net with pool := b.net.pool.adjustStream h f } }
  | .pollSockets report => b.pollSockets report
  | .pollBus handle depth => (b.pollBus handle depth).2.2
  | .useBus f => { b with bus := f b.bus }

def run (b : Bot μ κ γ) (steps : List (Step κ γ ν)) : Bot μ κ γ := steps.foldl step b

/-! ## Histories -/

/-- What a call of a handler leaves in the history. -/
def callEntries : Call ν → World ν → World ν × List Event → List Entry
  | .order i _, w, (w', events) => w.net.entries i (w'.net, events)
  | .close i, w, (w', events) => w.net.entries i (w'.net, events)
  | .look _, _, _ => []
  | .tell _, _, _ => []

/-- What a step leaves in the history. Of a poll of the bus, it is what the calls of its handlers
leave: the log of an observer, who changes nothing in the poll. -/
def entries (b : Bot μ κ γ) : Step κ γ ν → List Entry
  | .order i o => b.net.entries i (b.net.order i o).2
  | .close i => b.net.entries i (b.net.close i).2
  | .pollSockets report =>
    let r := Pool.poll (conduct b.settings.registeredNumeric) report
      { pool := b.net.pool, world := { connections := b.net.connections } }
    r.world.events.map .triggered
  | .pollBus handle depth =>
    let observed := Bus.Conduct.observed ⟨Event.name, handle, perform⟩ callEntries
    (Bus.poll observed depth { bus := b.bus, world := ({ net := b.net }, []) }).2.world.2
  | .disturb .. => []
  | .useBus _ => []

/-- What has happened to the connections in the course of these steps. -/
def history (b : Bot μ κ γ) : List (Step κ γ ν) → List Entry
  | [] => []
  | s :: steps => b.entries s ++ (b.step s).history steps

variable {b : Bot μ κ γ}

theorem settings_step (s : Step κ γ ν) : (b.step s).settings = b.settings := by
  cases s <;> rfl

theorem settings_run (steps : List (Step κ γ ν)) : (b.run steps).settings = b.settings := by
  induction steps generalizing b with
  | nil => rfl
  | cons s steps ih => exact ih.trans (settings_step s)

theorem events_entries {n : Net} {i : Nat} (outcome : Net × List Event) :
    (n.entries i outcome).filterMap Entry.event? = outcome.2 := by
  have hgained : (n.gained i outcome.1).filterMap Entry.event? = [] := by
    unfold Net.gained
    split
    · split <;> rfl
    · rfl
  rw [Net.entries, List.filterMap_append, hgained, List.nil_append, List.filterMap_map]
  exact List.filterMap_some

/-- What orders, closing and passes are said to trigger is what they put on the bus. -/
theorem pending_step {s : Step κ γ ν}
    (h : (∃ i o, s = .order i o) ∨ (∃ i, s = .close i) ∨ ∃ report, s = .pollSockets report) :
    (b.step s).bus.pending = b.bus.pending ++ (b.entries s).filterMap Entry.event? := by
  rcases h with ⟨i, o, rfl⟩ | ⟨i, rfl⟩ | ⟨report, rfl⟩
  · rw [entries, events_entries]
    exact Bus.pending_triggerAll _ _
  · rw [entries, events_entries]
    exact Bus.pending_triggerAll _ _
  · simp only [entries, List.filterMap_map]
    refine (Bus.pending_triggerAll _ _).trans (congrArg _ ?_)
    exact List.filterMap_some.symm

/-! ## Steps are moves -/

theorem moves_disturb {registered : Nat} {n : Net} {h : Handle} {f : Stream → Stream} :
    n.Moves registered [] { n with pool := n.pool.adjustStream h f } := by
  unfold Pool.adjustStream
  split
  · exact .refl n
  · next s hs =>
    exact Net.Move.moves (.touch hs rfl)

theorem moves_perform {registered : Nat} {n : Net} (hn : n.Sound) (q : Call ν) (w : World ν)
    (log : List Entry) (h : n.Moves registered log w.net) :
    n.Moves registered (log ++ callEntries q w (perform q w).2) (perform q w).2.1.net := by
  cases q with
  | order i o => exact h.trans (Net.moves_order (h.sound hn) o)
  | close i => exact h.trans Net.moves_close
  | look i => rwa [callEntries, List.append_nil]
  | tell news => rwa [callEntries, List.append_nil]

/-- A poll of the bus moves the net as the log of its observer says. -/
theorem moves_pollBus (hn : b.net.Sound)
    (handle : κ → Option γ → Event → Bus.Handler κ γ Event (calls ν)) (depth : Nat) :
    b.net.Moves b.settings.registeredNumeric (b.entries (.pollBus handle depth))
      (b.step (.pollBus handle depth)).net := by
  let observed := Bus.Conduct.observed (⟨Event.name, handle, perform⟩ : Bus.Conduct κ γ Event _ _)
    callEntries
  have hkept := Bus.poll_keeps (c := observed)
    (P := fun w => b.net.Moves b.settings.registeredNumeric w.2 w.1.net)
    (fun q w hw => moves_perform hn q w.1 w.2 hw) depth
    { bus := b.bus, world := ({ net := b.net }, []) } (.refl b.net)
  have hsame := (Bus.poll_observed (⟨Event.name, handle, perform⟩ : Bus.Conduct κ γ Event _ _)
    callEntries depth { bus := b.bus, world := ({ net := b.net }, []) }).2
  have hnet := congrArg (fun r => r.world.net) hsame
  simp only [Bus.Run.forget] at hnet
  simp only [step, pollBus, entries]
  rw [← hnet]
  exact hkept

theorem moves_step (hn : b.net.Sound) (s : Step κ γ ν) :
    b.net.Moves b.settings.registeredNumeric (b.entries s) (b.step s).net := by
  cases s with
  | order i o => exact Net.moves_order hn o
  | close i => exact Net.moves_close
  | disturb h f => exact moves_disturb
  | pollSockets report => exact moves_pollSockets b report
  | pollBus handle depth => exact moves_pollBus hn handle depth
  | useBus f => exact .refl b.net

/-- **Every run is a chain of moves**, and its history is what they leave. -/
theorem moves_run (hn : b.net.Sound) (steps : List (Step κ γ ν)) :
    b.net.Moves b.settings.registeredNumeric (b.history steps) (b.run steps).net := by
  induction steps generalizing b with
  | nil => exact .refl b.net
  | cons s steps ih =>
    have hfirst := moves_step hn s
    have hrest := ih (hfirst.sound hn)
    rw [settings_step] at hrest
    exact hfirst.trans hrest

end IrcBot.Bot
