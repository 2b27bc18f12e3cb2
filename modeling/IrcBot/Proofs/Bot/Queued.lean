/-
What is queued for sockets in the course of a run, piece by piece, whoever does it: an
order, a handler on the bus, or a callback in a pass. Of a poll of the bus it is read
off the record of the poll, of a pass off its ledger.
-/
import IrcBot.Proofs.Bot.Buffers
import IrcBot.Proofs.Bot.Receiving
import IrcBot.Proofs.Bus.Recording

namespace IrcBot

/-- The pieces that wait to be written to a socket. -/
def Pool.pieces {κ : Type} (p : Pool κ) (h : Handle) : List Bytes :=
  (p.socket? h).elim [] (·.queue.pieces)

/-- The bytes that a deed has queued. -/
def Pool.Deed.queued? : Pool.Deed → Option Bytes
  | .queued bytes => some bytes
  | _ => none

namespace Bot

variable {h : Handle} {i j : Nat} {n n' : Net} {c : Connection}

namespace Net

/-- What has been queued for a socket from one net to a later one: the pieces behind those that
were there. -/
def queued (h : Handle) (n n' : Net) : List Bytes :=
  (n'.pool.pieces h).drop (n.pool.pieces h).length

theorem queued_same (hsocket : n'.pool.socket? h = n.pool.socket? h) : queued h n n' = [] := by
  simp only [queued, Pool.pieces, hsocket, List.drop_length]

theorem queued_of_none (hnone : n'.pool.socket? h = none) : queued h n n' = [] := by
  simp [queued, Pool.pieces, hnone]

/-- Handles yet to be given have no socket. -/
theorem Sound.socket?_of_le (hn : n.Sound) (hle : n.pool.nextHandle ≤ h) :
    n.pool.socket? h = none := by
  cases hs : n.pool.socket? h with
  | none => rfl
  | some s => exact absurd (hn.fresh h s hs) (Nat.not_lt.2 hle)

/-- What lines queued one after the other add to the pieces of their socket. -/
theorem queued_queuedAll (circuit : Circuit Role) {s : Socket Role} {connections connections'}
    (hs : circuit.pool.socket? h = some s) (lines : List Text) :
    queued h { connections, pool := circuit.pool }
        { connections := connections', pool := (circuit.queuedAll h lines).pool } =
      lines.map Circuit.frame := by
  simp only [queued, Pool.pieces, hs, Circuit.socket?_queuedAll hs, Option.elim_some,
    List.drop_left]

/-- An order to say something queues its lines for the socket of the connection. -/
theorem queued_order_self (hn : n.Sound) (hc : n.connections.get? i = some c)
    (hsocket : c.session.socket = some h) {o : Circuit.Order} (ho : o.speaks = true) :
    queued h n (n.order i o).2.1 = (o.lines c.session.tracker).map Circuit.frame := by
  obtain ⟨s, hs, -⟩ := hn.pooled i h ((socketOf_eq hc).trans hsocket)
  rw [order_online hc ⟨hsocket, s, hs⟩ ho]
  exact queued_queuedAll (n.circuit c) hs _

/-- It queues nothing for any other socket. -/
theorem queued_order_other (hn : n.Sound) (hi : n.socketOf i ≠ some h) {o : Circuit.Order}
    (ho : o.speaks = true) : queued h n (n.order i o).2.1 = [] := by
  cases hc : n.connections.get? i with
  | none => simp only [order, withConnection, hc, queued_same]
  | some c =>
    cases hsocket : c.session.socket with
    | none => rw [order_offline hc hsocket ho, queued_same rfl]
    | some h' =>
      obtain ⟨s, hs, -⟩ := hn.pooled i h' ((socketOf_eq hc).trans hsocket)
      rw [socketOf_eq hc, hsocket] at hi
      have hne : h' ≠ h := fun he => hi (congrArg some he)
      rw [order_online hc ⟨hsocket, s, hs⟩ ho]
      exact queued_same (Circuit.socket?_queuedAll_other (c := n.circuit c) hne hs _)

theorem queued_close : queued h n (n.close i).2.1 = [] := by
  cases hi : n.socketOf i with
  | none => rw [close_offline hi, queued_same rfl]
  | some h' =>
    obtain ⟨c, hc, hsocket⟩ := Option.bind_eq_some_iff.1 hi
    rw [close_online hc hsocket]
    by_cases he : h' = h
    · subst he
      exact queued_of_none Pool.socket?_close_self
    · exact queued_same (Pool.socket?_close_other he)

end Net

variable {μ κ γ ν : Type}

/-! ## Runs -/

/-- What something that a handler has done has queued for a socket. -/
def queuedIn (h : Handle) : Bus.Doing κ Event (World ν) (calls ν) → List Bytes :=
  Bus.Doing.seen fun _ w outcome => Net.queued h w.net outcome.1.net

/-- How these handlers act in a poll of the bus. -/
abbrev handling (handle : κ → Option γ → Event → Bus.Handler κ γ Event (calls ν)) :
    Bus.Conduct κ γ Event (World ν) (calls ν) :=
  ⟨Event.name, handle, perform⟩

variable [DecidableEq κ]

/-- What the handlers do in a poll of the bus, in order. -/
def doings (b : Bot μ κ γ) (handle : κ → Option γ → Event → Bus.Handler κ γ Event (calls ν))
    (depth : Nat) : List (Bus.Doing κ Event (World ν) (calls ν)) :=
  (handling handle).doings depth { bus := b.bus, world := { net := b.net } }

/-- What a step queues for a socket. -/
def queuedBy (b : Bot μ κ γ) (h : Handle) : Step κ γ ν → List Bytes
  | .order i o => Net.queued h b.net (b.net.order i o).2.1
  | .close i => Net.queued h b.net (b.net.close i).2.1
  | .pollSockets report =>
    ((Pool.Audit.poll (conduct b.settings.registeredNumeric) report b.auditOf).deeds h).filterMap
      Pool.Deed.queued?
  | .pollBus handle depth => (b.doings handle depth).flatMap (queuedIn h)
  | .disturb .. | .useBus _ => []

/-- What is queued for a socket in the course of these steps. -/
def enqueued (b : Bot μ κ γ) (h : Handle) : List (Step κ γ ν) → List Bytes
  | [] => []
  | s :: steps => b.queuedBy h s ++ (b.step s).enqueued h steps

variable {b : Bot μ κ γ}

/-- The entries of a poll of the bus can be read off its record. -/
theorem entries_pollBus (handle : κ → Option γ → Event → Bus.Handler κ γ Event (calls ν))
    (depth : Nat) :
    b.entries (.pollBus handle depth) =
      (b.doings handle depth).flatMap (Bus.Doing.seen callEntries) :=
  Bus.observed_log (handling handle) callEntries depth { bus := b.bus, world := { net := b.net } }

end Bot

end IrcBot
