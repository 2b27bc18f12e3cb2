/-
Programs that act only through requests. A handler of events and a callback
of a socket are such programs: each is a tree of requests with a branch for
every answer, and ends in a result, an error or a panic. So what any of them
may do can be said, and quantified over, without saying what it does.
-/
namespace IrcBot

/-- What may be asked for, and what comes back. -/
structure Requests where
  Ask : Type
  Answer : Ask → Type

/-- Requests that only have something written down. -/
def Requests.writing (ε : Type) : Requests := ⟨ε, fun _ => Unit⟩

inductive Program (R : Requests) (α : Type) where
  | done (a : α)
  /-- Ended with an error. -/
  | failed
  /-- Ended by a panic, which whoever runs the program catches. -/
  | panicked
  | ask (r : R.Ask) (next : R.Answer r → Program R α)

/-- How a program ended. -/
inductive Outcome (α : Type) where
  | done (a : α)
  | failed
  | panicked
  deriving DecidableEq, Repr

namespace Program

variable {R : Requests} {α β σ : Type}

def bind : Program R α → (α → Program R β) → Program R β
  | .done a, f => f a
  | .failed, _ => .failed
  | .panicked, _ => .panicked
  | .ask r next, f => .ask r fun a => (next a).bind f

instance : Monad (Program R) where
  pure := .done
  bind := bind

/-- The program that makes one request. -/
def request (r : R.Ask) : Program R (R.Answer r) := .ask r .done

/-- Runs a program on a state, given what each request does to it. -/
def run (serve : (r : R.Ask) → σ → R.Answer r × σ) : Program R α → σ → Outcome α × σ
  | .done a, s => (.done a, s)
  | .failed, s => (.failed, s)
  | .panicked, s => (.panicked, s)
  | .ask r next, s =>
    let (a, s) := serve r s
    (next a).run serve s

/-- What every request keeps, the whole program keeps. -/
theorem run_keeps {serve : (r : R.Ask) → σ → R.Answer r × σ} {P : σ → Prop}
    (h : ∀ r s, P s → P (serve r s).2) (p : Program R α) (s : σ) (hs : P s) :
    P (p.run serve s).2 := by
  induction p generalizing s with
  | done | failed | panicked => exact hs
  | ask r next ih => exact ih _ _ (h r s hs)

end Program

end IrcBot
