/-
What the callbacks of connections do, in one line each: the closer gives up the
socket if it is the one in use, and the reader hears all lines there are and
gives it up if the stream has stopped. So a pass over the sockets is a chain of
moves, whatever the report says.
-/
import IrcBot.Proofs.Bot.Moves
import IrcBot.Proofs.Program

namespace IrcBot.Bot

open Program

/-- What callbacks of connections do during a pass. -/
abbrev conduct (registered : Nat) : Pool.Conduct Role Desk turns := ⟨behave, takeTurn registered⟩

/-- The desk once a connection has heard a line. -/
def Desk.hear (registered i : Nat) (d : Desk) (line : Text) : Desk :=
  (takeTurn registered (.handle i line) d).2

/-- The connections and the pool in the middle of a pass. -/
def netOf (r : Pool.Run Role Desk) : Net := { connections := r.world.connections, pool := r.pool }

/-- The run once a connection has given up its socket. -/
def gaveUp (r : Pool.Run Role Desk) (i : Nat) (c : Connection) (h : Handle) : Pool.Run Role Desk :=
  { r with
    pool := (r.pool.close h).2
    world := {
      connections := r.world.connections.insert i
        { c with session := { c.session.reset with phase := .disconnected } }
      events := r.world.events ++ [.occurred i .disconnected] } }

variable {registered i : Nat} {h : Handle} {c : Connection} {r r' r'' : Pool.Run Role Desk}

/-! ## Single callbacks -/

theorem takeTurn_lose_current (registered : Nat) {d : Desk} (hc : d.connections.get? i = some c)
    (hsocket : c.session.socket = some h) :
    takeTurn registered (.lose i h) d =
      (true, { d with
        connections := d.connections.insert i
          { c with session := { c.session.reset with phase := .disconnected } } }) := by
  simp only [takeTurn, hc, Session.lose?, hsocket, if_true]
  rfl

theorem takeTurn_lose_stale (registered : Nat) {d : Desk} {p : Pool Role}
    (hstale : Net.socketOf { connections := d.connections, pool := p } i ≠ some h) :
    takeTurn registered (.lose i h) d = (false, d) := by
  simp only [takeTurn]
  split
  · rfl
  · next c hc =>
    rw [Net.socketOf_eq hc] at hstale
    simp only [Session.lose?, hstale, if_false]
    rfl

theorem takeTurn_isCurrent (registered : Nat) {d : Desk} {p : Pool Role} {current : Bool}
    (hcurrent : (Net.socketOf { connections := d.connections, pool := p } i == some h) = current) :
    takeTurn registered (.isCurrent i h) d = (current, d) := by
  rw [← hcurrent]
  simp only [takeTurn, Net.socketOf]
  cases d.connections.get? i <;> rfl

theorem run_loseSocket_current (hc : r.world.connections.get? i = some c)
    (hsocket : c.session.socket = some h) :
    (loseSocket i h).run (Pool.serve (conduct registered)) r = (.done (), gaveUp r i c h) := by
  have hturn := takeTurn_lose_current registered hc hsocket
  show (let turn : Bool × Desk := takeTurn registered (.lose i h) r.world
    Program.run _ (if turn.1 = true then _ else _) { r with world := turn.2 }) = _
  rw [hturn]
  rfl

theorem run_loseSocket_stale (hstale : (netOf r).socketOf i ≠ some h) :
    (loseSocket i h).run (Pool.serve (conduct registered)) r = (.done (), r) := by
  have hturn := takeTurn_lose_stale registered hstale
  show (let turn : Bool × Desk := takeTurn registered (.lose i h) r.world
    Program.run _ (if turn.1 = true then _ else _) { r with world := turn.2 }) = _
  rw [hturn]
  rfl

theorem run_handleAll (lines : List Text) :
    (handleAll i lines).run (Pool.serve (conduct registered)) r =
      (.done (), { r with world := lines.foldl (Desk.hear registered i) r.world }) := by
  induction lines generalizing r with
  | nil => rfl
  | cons line lines ih =>
    exact ih (r := { r with world := Desk.hear registered i r.world line })

/-- The run once a connection has heard all that a socket has received. -/
def heardAll (registered : Nat) (r : Pool.Run Role Desk) (i : Nat) (h : Handle) :
    Pool.Run Role Desk :=
  let r' := { r with pool := (r.pool.drain h).2 }.note (.read h (r.pool.drain h).1.1)
  { r' with world := (r.pool.drain h).1.1.foldl (Desk.hear registered i) r.world }

theorem run_readSocket_current (hcurrent : (netOf r).socketOf i = some h) :
    (readSocket i h).run (Pool.serve (conduct registered)) r =
      if (r.pool.drain h).1.2.isSome then
        (loseSocket i h).run (Pool.serve (conduct registered)) (heardAll registered r i h)
      else (.done (), heardAll registered r i h) := by
  have hturn := takeTurn_isCurrent registered (beq_iff_eq.2 hcurrent)
  show (let turn : Bool × Desk := takeTurn registered (.isCurrent i h) r.world
    Program.run _ (if turn.1 = true then _ else _) { r with world := turn.2 }) = _
  rw [hturn]
  let r' : Pool.Run Role Desk :=
    { r with pool := (r.pool.drain h).2 }.note (.read h (r.pool.drain h).1.1)
  show Program.run _ (handleAll i (r.pool.drain h).1.1 >>= fun _ =>
    if (r.pool.drain h).1.2.isSome then loseSocket i h else pure ()) r' = _
  refine (run_bind _ _ _).trans ?_
  rw [run_handleAll]
  simp only [andThen]
  split
  · rfl
  · rfl

theorem run_readSocket_stale (hstale : (netOf r).socketOf i ≠ some h) :
    (readSocket i h).run (Pool.serve (conduct registered)) r = (.done (), r) := by
  have hturn := takeTurn_isCurrent registered (beq_eq_false_iff_ne.2 hstale)
  show (let turn : Bool × Desk := takeTurn registered (.isCurrent i h) r.world
    Program.run _ (if turn.1 = true then _ else _) { r with world := turn.2 }) = _
  rw [hturn]
  rfl

end IrcBot.Bot
