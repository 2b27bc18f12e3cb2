/-
Running programs: one after the other, and the same program on two states side
by side. What a program may ask for at all can be told without running it
(`Asks`); what it does ask for depends on the answers (`asked`).
-/
import IrcBot.Program

namespace IrcBot.Program

variable {R : Requests} {α β σ τ : Type}

/-- What becomes of a run once its program has ended. -/
def andThen (serve : (r : R.Ask) → σ → R.Answer r × σ) (f : α → Program R β) :
    Outcome α × σ → Outcome β × σ
  | (.done a, s) => (f a).run serve s
  | (.failed, s) => (.failed, s)
  | (.panicked, s) => (.panicked, s)

theorem run_bind {serve : (r : R.Ask) → σ → R.Answer r × σ} (p : Program R α)
    (f : α → Program R β) (s : σ) :
    (p >>= f).run serve s = andThen serve f (p.run serve s) := by
  induction p generalizing s with
  | done a => rfl
  | failed => rfl
  | panicked => rfl
  | ask r next ih => exact ih _ _

/-- Every request that the program may come to make, whatever the answers are, is of a kind. -/
def Asks (P : R.Ask → Prop) : Program R α → Prop
  | .done _ | .failed | .panicked => True
  | .ask r next => P r ∧ ∀ answer, (next answer).Asks P

theorem Asks.bind {P : R.Ask → Prop} {p : Program R α} (hp : p.Asks P) {f : α → Program R β}
    (hf : ∀ a, (f a).Asks P) : (p >>= f).Asks P := by
  induction p with
  | done a => exact hf a
  | failed | panicked => trivial
  | ask r next ih => exact ⟨hp.1, fun answer => ih answer (hp.2 answer)⟩

/-- Two states that answer every request alike, and stay related, see the same run. -/
theorem run_sim (Rel : σ → τ → Prop) {serve : (r : R.Ask) → σ → R.Answer r × σ}
    {serve' : (r : R.Ask) → τ → R.Answer r × τ}
    (h : ∀ r s t, Rel s t → (serve r s).1 = (serve' r t).1 ∧ Rel (serve r s).2 (serve' r t).2)
    (p : Program R α) {s : σ} {t : τ} (hst : Rel s t) :
    (p.run serve s).1 = (p.run serve' t).1 ∧ Rel (p.run serve s).2 (p.run serve' t).2 := by
  induction p generalizing s t with
  | done a => exact ⟨rfl, hst⟩
  | failed => exact ⟨rfl, hst⟩
  | panicked => exact ⟨rfl, hst⟩
  | ask r next ih =>
    obtain ⟨hanswer, hnext⟩ := h r s t hst
    have hrest := ih (serve r s).1 hnext
    simp only [run]
    rw [← hanswer]
    exact hrest

/-- The requests that a program makes when it is run on a state. -/
def asked (serve : (r : R.Ask) → σ → R.Answer r × σ) : Program R α → σ → List R.Ask
  | .done _, _ | .failed, _ | .panicked, _ => []
  | .ask r next, s => r :: (next (serve r s).1).asked serve (serve r s).2

/-- What is asked for is of the kind that may be asked for. -/
theorem Asks.of_asked {serve : (r : R.Ask) → σ → R.Answer r × σ} {P : R.Ask → Prop}
    {p : Program R α} (hp : p.Asks P) (s : σ) : ∀ r ∈ p.asked serve s, P r := by
  induction p generalizing s with
  | done | failed | panicked => exact fun r hr => (List.not_mem_nil hr).elim
  | ask r next ih => exact List.forall_mem_cons.2 ⟨hp.1, ih _ (hp.2 _) _⟩

/-- What every request that is made keeps, the whole program keeps. -/
theorem run_keeps_asked {serve : (r : R.Ask) → σ → R.Answer r × σ} {P : σ → Prop}
    {Q : R.Ask → Prop} (h : ∀ r s, Q r → P s → P (serve r s).2) (p : Program R α) (s : σ)
    (hasked : ∀ r ∈ p.asked serve s, Q r) (hs : P s) : P (p.run serve s).2 := by
  induction p generalizing s with
  | done | failed | panicked => exact hs
  | ask r next ih =>
    obtain ⟨hr, hrest⟩ := List.forall_mem_cons.1 hasked
    exact ih _ _ hrest (h r s hr hs)

end IrcBot.Program
