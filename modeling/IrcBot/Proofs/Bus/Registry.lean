/-
The registry keeps the same relation twice, for events and for owners. `Refines`
says that both its tables agree with one list of subscriptions; each operation
keeps this and answers what the list says. Taking pairs away is one kind of step
(`Lacks`), whether one pair goes or all pairs of an owner.
-/
import IrcBot.Proofs.Bus.Subscriptions
import IrcBot.Proofs.Table
import Mathlib.Algebra.BigOperators.Group.List.Lemmas
import Mathlib.Algebra.GroupWithZero.Nat

namespace IrcBot.Bus.Registry

variable {κ γ : Type} {r r' : Registry κ γ} {s : Subscriptions κ γ}
variable {new old : Registration κ γ} {event owner : Text} {handler : κ}

/-! ## Writes to one table -/

theorem getD_nonempty? {α : Type} (l : List α) : (nonempty? l).getD [] = l := by
  cases l <;> rfl

theorem nonempty?_ne {α : Type} (l : List α) : nonempty? l ≠ some [] := by
  cases l <;> simp [nonempty?]

theorem registrations_setRegistrations (l : List (Registration κ γ)) (event' : Text) :
    (r.setRegistrations event l).registrations event' =
      if event = event' then l else r.registrations event' := by
  unfold registrations setRegistrations
  rw [Table.get?_put?]
  split
  · exact getD_nonempty? l
  · rfl

theorem owned_setOwned (l : List (Text × κ)) (owner' : Text) :
    (r.setOwned owner l).owned owner' = if owner = owner' then l else r.owned owner' := by
  unfold owned setOwned
  rw [Table.get?_put?]
  split
  · exact getD_nonempty? l
  · rfl

theorem owned_eraseOwner (owner' : Text) :
    ({ r with owners := r.owners.erase owner } : Registry κ γ).owned owner' =
      if owner = owner' then [] else r.owned owner' := by
  unfold owned
  rw [Table.get?_erase]
  split
  · rfl
  · rfl

/-- Neither table keeps an empty list. -/
structure Pruned (r : Registry κ γ) : Prop where
  handlers : ∀ event, r.handlers.get? event ≠ some []
  owners : ∀ owner, r.owners.get? owner ≠ some []

theorem pruned_empty : Pruned ({} : Registry κ γ) := by
  constructor <;> simp

theorem Pruned.setRegistrations (h : r.Pruned) (l : List (Registration κ γ)) :
    (r.setRegistrations event l).Pruned := by
  refine ⟨fun event' => ?_, h.owners⟩
  rw [Registry.setRegistrations, Table.get?_put?]
  split
  · exact nonempty?_ne l
  · exact h.handlers event'

theorem Pruned.setOwned (h : r.Pruned) (l : List (Text × κ)) : (r.setOwned owner l).Pruned := by
  refine ⟨h.handlers, fun owner' => ?_⟩
  rw [Registry.setOwned, Table.get?_put?]
  split
  · exact nonempty?_ne l
  · exact h.owners owner'

theorem Pruned.eraseOwner (h : r.Pruned) :
    ({ r with owners := r.owners.erase owner } : Registry κ γ).Pruned := by
  refine ⟨h.handlers, fun owner' => ?_⟩
  rw [Table.get?_erase]
  split
  · simp
  · exact h.owners owner'

/-- Registries that keep no empty list are told apart by what they hold. -/
theorem Pruned.ext (h : r.Pruned) (h' : r'.Pruned)
    (hregistrations : ∀ event, r'.registrations event = r.registrations event)
    (howned : ∀ owner, r'.owned owner = r.owned owner) : r' = r := by
  have hget {α : Type} {l l' : Option (List α)} (hl : l ≠ some []) (hl' : l' ≠ some [])
      (heq : l'.getD [] = l.getD []) : l' = l := by
    rcases l with _ | l <;> rcases l' with _ | l' <;> simp_all
  have hhandlers : r'.handlers = r.handlers := Table.ext_get? fun event =>
    hget (h.handlers event) (h'.handlers event) (hregistrations event)
  have howners : r'.owners = r.owners := Table.ext_get? fun owner =>
    hget (h.owners owner) (h'.owners owner) (howned owner)
  exact congrArg₂ Registry.mk hhandlers howners

/-- The registry holds what the subscriptions say: for each event the same registrations in the
same order, and for each owner the pairs that are its own, each once. -/
structure Refines (r : Registry κ γ) (s : Subscriptions κ γ) : Prop where
  registrations : ∀ event, r.registrations event = s.registrations event
  owned : ∀ owner, (r.owned owner).Perm (s.owned owner)
  pruned : r.Pruned

theorem refines_empty : Refines ({} : Registry κ γ) .empty :=
  ⟨fun _ => rfl, fun _ => .nil, pruned_empty⟩

variable [DecidableEq κ]

theorem owned_disown (owner' : Text) :
    (r.disown owner event handler).owned owner' =
      if owner = owner' then (r.owned owner').filter (· != (event, handler))
      else r.owned owner' := by
  rw [disown, owned_setOwned]
  split
  · next h => rw [h]
  · rfl

/-! ## What is registered -/

omit [DecidableEq κ] in
theorem Refines.mem_registrations (h : r.Refines s) :
    old ∈ r.registrations event ↔ (event, old) ∈ s.entries := by
  rw [h.registrations, Subscriptions.mem_registrations]

theorem Refines.find?_eq_some (h : r.Refines s) :
    r.find? event handler = some old ↔ old ∈ r.registrations event ∧ old.handler = handler := by
  unfold find?
  constructor
  · intro hfind
    exact ⟨List.mem_of_find?_eq_some hfind, by simpa using List.find?_some hfind⟩
  · rintro ⟨hold, rfl⟩
    have hsome : ((r.registrations event).find? (·.handler == old.handler)).isSome = true :=
      List.find?_isSome.2 ⟨old, hold, beq_self_eq_true _⟩
    obtain ⟨found, hfound⟩ := Option.isSome_iff_exists.1 hsome
    have hhandler : found.handler = old.handler := by simpa using List.find?_some hfound
    have hmem := h.mem_registrations.1 (List.mem_of_find?_eq_some hfound)
    have hsame := Subscriptions.eq_of_pair_eq hmem (h.mem_registrations.1 hold)
      (Prod.ext rfl hhandler)
    rw [hfound, (Prod.mk.inj hsame).2]

theorem Refines.isSome_find? (h : r.Refines s) :
    (r.find? event handler).isSome = s.contains (event, handler) := by
  rw [Bool.eq_iff_iff, Subscriptions.contains_iff_registrations, ← h.registrations]
  simp [find?]

omit [DecidableEq κ] in
/-- The index holds a pair for the owner of its registration. -/
theorem Refines.mem_owned (h : r.Refines s) :
    (event, handler) ∈ r.owned owner ↔
      ∃ reg ∈ r.registrations event, reg.handler = handler ∧ reg.owner = owner := by
  rw [(h.owned owner).mem_iff, Subscriptions.mem_owned]
  constructor
  · rintro ⟨⟨event', reg⟩, he, howner, hp⟩
    obtain ⟨rfl, rfl⟩ := Prod.mk.inj hp
    exact ⟨reg, h.mem_registrations.2 he, rfl, howner⟩
  · rintro ⟨reg, hreg, rfl, howner⟩
    exact ⟨(event, reg), h.mem_registrations.1 hreg, howner, rfl⟩

omit [DecidableEq κ] in
theorem Refines.nodup_registrations (h : r.Refines s) (event : Text) :
    ((r.registrations event).map (·.handler)).Nodup := by
  rw [h.registrations]
  exact s.nodup_registrations event

omit [DecidableEq κ] in
theorem Refines.nodup_owned (h : r.Refines s) (owner : Text) : (r.owned owner).Nodup :=
  (h.owned owner).nodup_iff.2 (s.nodup_owned owner)

/-- Striking a pair off changes nothing for those who do not own it. -/
theorem Refines.filter_owned (h : r.Refines s)
    (hother : ∀ old, r.find? event handler = some old → old.owner ≠ owner) :
    (r.owned owner).filter (· != (event, handler)) = r.owned owner := by
  refine List.filter_eq_self.2 fun p hp => ?_
  rw [bne_iff_ne]
  rintro rfl
  obtain ⟨old, hold, hhandler, howner⟩ := h.mem_owned.1 hp
  exact hother old (h.find?_eq_some.2 ⟨hold, hhandler⟩) howner

theorem Refines.filter_owned_of_none (h : r.Refines s) (hfind : r.find? event handler = none)
    (owner : Text) : (r.owned owner).filter (· != (event, handler)) = r.owned owner := by
  refine h.filter_owned fun old hold => ?_
  rw [hfind] at hold
  cases hold

/-- Once its owner is struck off, a pair is in no list. -/
theorem Refines.owned_disown (h : r.Refines s) (hfind : r.find? event handler = some old)
    (l : List (Registration κ γ)) (owner : Text) :
    ((r.setRegistrations event l).disown old.owner event handler).owned owner =
      (r.owned owner).filter (· != (event, handler)) := by
  rw [Registry.owned_disown]
  split
  · rfl
  · next hne =>
    refine Eq.symm (h.filter_owned fun old' hold' => ?_)
    rwa [Option.some.inj (hold'.symm.trans hfind)]

/-! ## Registering -/

theorem registrations_register (event' : Text) :
    (r.register event new).registrations event' =
      if event = event' then
        if (r.find? event new.handler).isSome then replaceIn (r.registrations event) new
        else r.registrations event ++ [new]
      else r.registrations event' := by
  have hset (l : List (Registration κ γ)) : (r.setRegistrations event l).registrations event' =
      if event = event' then l else r.registrations event' :=
    registrations_setRegistrations l event'
  unfold register
  cases r.find? event new.handler with
  | none => exact hset _
  | some old => exact hset _

/-- The pair leaves the list of whoever owned it and comes last in the list of the new owner. -/
theorem Refines.owned_register (h : r.Refines s) (owner : Text) :
    (r.register event new).owned owner =
      (r.owned owner).filter (· != (event, new.handler)) ++
        if new.owner = owner then [(event, new.handler)] else [] := by
  -- the registry once the old owner has lost the pair
  have hlast (r₁ : Registry κ γ)
      (h₁ : ∀ o, r₁.owned o = (r.owned o).filter (· != (event, new.handler))) :
      (r₁.setOwned new.owner (r₁.owned new.owner ++ [(event, new.handler)])).owned owner =
        (r.owned owner).filter (· != (event, new.handler)) ++
          if new.owner = owner then [(event, new.handler)] else [] := by
    rw [owned_setOwned]
    split
    · next he => rw [h₁, he]
    · rw [h₁, List.append_nil]
  unfold register
  cases hfind : r.find? event new.handler with
  | none => exact hlast _ fun o => Eq.symm (h.filter_owned_of_none hfind o)
  | some old => exact hlast _ fun o => h.owned_disown hfind _ o

theorem Refines.nodup_owned_register (h : r.Refines s) (owner : Text) :
    ((r.register event new).owned owner).Nodup := by
  rw [h.owned_register]
  refine ((h.nodup_owned owner).filter _).append (by split <;> simp) fun p hp hlast => ?_
  have hne : p ≠ (event, new.handler) := by simpa using (List.mem_filter.1 hp).2
  split at hlast
  · exact hne (List.mem_singleton.1 hlast)
  · exact List.not_mem_nil hlast

theorem Refines.mem_owned_register (h : r.Refines s) {p : Text × κ} :
    p ∈ (r.register event new).owned owner ↔ p ∈ (s.register event new).owned owner := by
  rw [h.owned_register, List.mem_append, List.mem_filter, (h.owned owner).mem_iff,
    Subscriptions.mem_owned, Subscriptions.mem_owned]
  constructor
  · rintro (⟨⟨e, he, howner, rfl⟩, hne⟩ | hlast)
    · exact ⟨e, Subscriptions.mem_register.2 (.inr ⟨he, by simpa using hne⟩), howner, rfl⟩
    · split at hlast
      · next howner =>
        exact ⟨(event, new), Subscriptions.mem_register.2 (.inl rfl), howner,
          (List.mem_singleton.1 hlast).symm⟩
      · exact absurd hlast List.not_mem_nil
  · rintro ⟨e, he, howner, rfl⟩
    obtain rfl | ⟨he, hne⟩ := Subscriptions.mem_register.1 he
    · right
      rw [if_pos howner]
      exact List.mem_singleton.2 rfl
    · exact .inl ⟨⟨e, he, howner, rfl⟩, by simpa using hne⟩

theorem Pruned.register (h : r.Pruned) : (r.register event new).Pruned := by
  unfold Registry.register
  cases r.find? event new.handler with
  | none => exact (h.setRegistrations _).setOwned _
  | some old => exact ((h.setRegistrations _).setOwned _).setOwned _

theorem Refines.register (h : r.Refines s) (event : Text) (new : Registration κ γ) :
    (r.register event new).Refines (s.register event new) where
  registrations event' := by
    rw [registrations_register, h.isSome_find?, h.registrations, h.registrations]
    cases hc : s.contains (event, new.handler) with
    | true => rw [Subscriptions.registrations_register_of_contains hc, if_pos rfl]
    | false =>
      rw [Subscriptions.registrations_register_of_not_contains hc, if_neg Bool.false_ne_true]
  owned owner := by
    have hnodup := Subscriptions.nodup_owned (s.register event new) owner
    rw [List.perm_ext_iff_of_nodup (h.nodup_owned_register owner) hnodup]
    exact fun p => h.mem_owned_register
  pruned := h.pruned.register

/-! ## Taking pairs away -/

/-- `r'` is `r` without the pairs that are gone. -/
structure Lacks (r r' : Registry κ γ) (gone : Text × κ → Bool) : Prop where
  registrations : ∀ event, r'.registrations event =
    (r.registrations event).filter fun reg => !gone (event, reg.handler)
  owned : ∀ owner, r'.owned owner = (r.owned owner).filter (!gone ·)
  pruned : r'.Pruned

omit [DecidableEq κ] in
theorem Lacks.refines {gone : Text × κ → Bool} (hl : Lacks r r' gone) (h : r.Refines s) :
    r'.Refines (s.filter fun e => !gone (pair e)) where
  registrations event := by
    rw [hl.registrations, h.registrations, Subscriptions.registrations_filter]
    rfl
  owned owner := by
    rw [hl.owned]
    refine ((h.owned owner).filter _).trans (.of_eq ?_)
    rw [Subscriptions.owned, Subscriptions.owned, List.filter_map, Subscriptions.filter,
      List.filter_comm]
    rfl
  pruned := hl.pruned

theorem eraseP_eq_filter {l : List (Registration κ γ)} (h : (l.map (·.handler)).Nodup) :
    l.eraseP (·.handler == handler) = l.filter (·.handler != handler) := by
  induction l with
  | nil => rfl
  | cons reg l ih =>
    rw [List.map_cons, List.nodup_cons] at h
    by_cases hreg : reg.handler = handler
    · have hrest : l.filter (·.handler != handler) = l := by
        refine List.filter_eq_self.2 fun other hother => ?_
        rw [bne_iff_ne]
        intro heq
        exact h.1 (List.mem_map.2 ⟨other, hother, heq.trans hreg.symm⟩)
      rw [List.eraseP_cons_of_pos (by simpa using hreg), List.filter_cons_of_neg (by simp [hreg]),
        hrest]
    · rw [List.eraseP_cons_of_neg (by simpa using hreg),
        List.filter_cons_of_pos (by simpa using hreg), ih h.2]

/-- The registrations of an event but for one pair, which may be one of another event. -/
theorem filter_pair (l : List (Registration κ γ)) (event event' : Text) (handler : κ) :
    (l.filter fun reg => !((event', reg.handler) == (event, handler))) =
      if event = event' then l.filter (·.handler != handler) else l := by
  split
  · next he =>
    refine List.filter_congr fun reg _ => ?_
    rw [Bool.eq_iff_iff]
    simp [he]
  · next he => simp [Ne.symm he]

theorem Refines.lacks_unregister (h : r.Refines s) (event : Text) (handler : κ) :
    Lacks r (r.unregister event handler).2 (· == (event, handler)) := by
  cases hfind : r.find? event handler with
  | none =>
    have hsame : (r.unregister event handler).2 = r := by rw [Registry.unregister, hfind]
    have habsent : ∀ reg ∈ r.registrations event, reg.handler ≠ handler := by
      simpa [find?] using hfind
    rw [hsame]
    refine ⟨fun event' => ?_, fun owner => ?_, h.pruned⟩
    · rw [filter_pair]
      split
      · next he =>
        rw [← he]
        exact Eq.symm (List.filter_eq_self.2 fun reg hreg => bne_iff_ne.2 (habsent reg hreg))
      · rfl
    · exact Eq.symm (h.filter_owned_of_none hfind owner)
  | some old =>
    have hrest : (r.unregister event handler).2 =
        (r.setRegistrations event ((r.registrations event).eraseP (·.handler == handler))).disown
          old.owner event handler := by
      rw [Registry.unregister, hfind]
    rw [hrest]
    refine ⟨fun event' => ?_, fun owner => ?_, (h.pruned.setRegistrations _).setOwned _⟩
    · rw [filter_pair]
      show (r.setRegistrations event _).registrations event' = _
      rw [registrations_setRegistrations]
      split
      · next he => rw [← he, eraseP_eq_filter (h.nodup_registrations event)]
      · rfl
    · exact h.owned_disown hfind _ owner

theorem Refines.unregister (h : r.Refines s) (event : Text) (handler : κ) :
    (r.unregister event handler).2.Refines (s.unregister (event, handler)) := by
  have hs : s.unregister (event, handler) = s.filter fun e => !(pair e == (event, handler)) :=
    congrArg s.filter (funext fun e => Bool.eq_iff_iff.2 (by simp))
  rw [hs]
  exact (h.lacks_unregister event handler).refines h

/-- Whether something was removed is whether it was there. -/
theorem Refines.unregister_fst (h : r.Refines s) (event : Text) (handler : κ) :
    (r.unregister event handler).1 = s.contains (event, handler) := by
  rw [← h.isSome_find?]
  unfold Registry.unregister
  cases r.find? event handler <;> rfl

/-- Takes pairs off their events one after the other and counts what goes, whoever owns it. -/
def removePairs (ps : List (Text × κ)) (acc : Nat × Registry κ γ) : Nat × Registry κ γ :=
  ps.foldl (fun acc p => (acc.1 + (acc.2.removePair p).1, (acc.2.removePair p).2)) acc

theorem unregisterAll_eq (r : Registry κ γ) (owner : Text) :
    r.unregisterAll owner =
      removePairs (r.owned owner) (0, { r with owners := r.owners.erase owner }) := rfl

theorem registrations_removePair (p : Text × κ) (event : Text) :
    (r.removePair p).2.registrations event =
      (r.registrations event).filter fun reg => !((event, reg.handler) == p) := by
  show (r.setRegistrations p.1 _).registrations event = _
  rw [registrations_setRegistrations, filter_pair]
  split
  · next he => rw [he]
  · rfl

theorem registrations_removePairs (ps : List (Text × κ)) (acc : Nat × Registry κ γ)
    (event : Text) :
    (removePairs ps acc).2.registrations event =
      (acc.2.registrations event).filter fun reg => !ps.contains (event, reg.handler) := by
  induction ps generalizing acc with
  | nil => simp [removePairs]
  | cons p ps ih =>
    rw [removePairs, List.foldl_cons, ← removePairs, ih, registrations_removePair,
      List.filter_filter]
    refine List.filter_congr fun reg _ => ?_
    rw [List.contains_cons, Bool.not_or, Bool.and_comm]

theorem owners_removePairs (ps : List (Text × κ)) (acc : Nat × Registry κ γ) :
    (removePairs ps acc).2.owners = acc.2.owners := by
  induction ps generalizing acc with
  | nil => rfl
  | cons p ps ih => exact ih _

theorem pruned_removePairs (ps : List (Text × κ)) (acc : Nat × Registry κ γ) (h : acc.2.Pruned) :
    (removePairs ps acc).2.Pruned := by
  induction ps generalizing acc with
  | nil => exact h
  | cons p ps ih => exact ih _ (h.setRegistrations _)

/-- No pair is in the lists of two owners. -/
theorem Refines.owner_unique (h : r.Refines s) {p : Text × κ} {owner' : Text}
    (hp : p ∈ r.owned owner) (hp' : p ∈ r.owned owner') : owner = owner' := by
  obtain ⟨reg, hreg, hhandler, rfl⟩ := h.mem_owned.1 hp
  obtain ⟨reg', hreg', hhandler', rfl⟩ := h.mem_owned.1 hp'
  have hfound := h.find?_eq_some.2 ⟨hreg, hhandler⟩
  rw [Option.some.inj (hfound.symm.trans (h.find?_eq_some.2 ⟨hreg', hhandler'⟩))]

theorem owned_unregisterAll (r : Registry κ γ) (owner owner' : Text) :
    (r.unregisterAll owner).2.owned owner' = if owner = owner' then [] else r.owned owner' := by
  rw [← owned_eraseOwner, unregisterAll_eq]
  unfold Registry.owned
  rw [owners_removePairs]

theorem Refines.lacks_unregisterAll (h : r.Refines s) (owner : Text) :
    Lacks r (r.unregisterAll owner).2 (r.owned owner).contains where
  registrations event := registrations_removePairs _ _ event
  owned owner' := by
    rw [owned_unregisterAll]
    split
    · next he =>
      subst he
      exact Eq.symm (List.filter_eq_nil_iff.2 fun p hp => by simpa using hp)
    · next hne =>
      refine Eq.symm (List.filter_eq_self.2 fun p hp => ?_)
      have hother : p ∉ r.owned owner := fun hp' => hne (h.owner_unique hp' hp)
      simpa using hother
  pruned := pruned_removePairs _ _ h.pruned.eraseOwner

theorem Refines.unregisterAll (h : r.Refines s) (owner : Text) :
    (r.unregisterAll owner).2.Refines (s.unregisterAll owner) := by
  have hs : s.unregisterAll owner = s.filter fun e => !(r.owned owner).contains (pair e) := by
    refine Subscriptions.ext (List.filter_congr fun e he => ?_)
    have howner : pair e ∈ r.owned owner ↔ e.2.owner = owner := by
      rw [(h.owned owner).mem_iff, Subscriptions.mem_owned]
      constructor
      · rintro ⟨e', he', howner, hp⟩
        rwa [Subscriptions.eq_of_pair_eq he he' hp.symm]
      · exact fun howner => ⟨e, he, howner, rfl⟩
    simp [howner]
  rw [hs]
  exact (h.lacks_unregisterAll owner).refines h

/-- Of pairs that are all there, one registration each goes. -/
theorem removePairs_fst (ps : List (Text × κ)) (acc : Nat × Registry κ γ) (hps : ps.Nodup)
    (hnodup : ∀ event, ((acc.2.registrations event).map (·.handler)).Nodup)
    (hthere : ∀ p ∈ ps, ∃ reg ∈ acc.2.registrations p.1, reg.handler = p.2) :
    (removePairs ps acc).1 = acc.1 + ps.length := by
  induction ps generalizing acc with
  | nil => rfl
  | cons p ps ih =>
    obtain ⟨hp, hps⟩ := List.nodup_cons.1 hps
    have hone : (acc.2.removePair p).1 = 1 := by
      obtain ⟨reg, hreg, hhandler⟩ := hthere p List.mem_cons_self
      have hlength := List.length_eraseP_of_mem (p := (·.handler == p.2)) hreg
        (by simpa using hhandler)
      have hpos := List.length_pos_of_mem hreg
      rw [eraseP_eq_filter (hnodup p.1)] at hlength
      rw [removePair]
      omega
    have hrest := ih (acc.1 + (acc.2.removePair p).1, (acc.2.removePair p).2) hps
      (fun event => by
        rw [registrations_removePair]
        exact (hnodup event).sublist (List.filter_sublist.map _))
      (fun p' hp' => by
        obtain ⟨reg, hreg, hhandler⟩ := hthere p' (List.mem_cons_of_mem p hp')
        have hne : (p'.1, reg.handler) ≠ p := by
          rintro rfl
          exact hp (hhandler ▸ hp')
        refine ⟨reg, ?_, hhandler⟩
        rw [registrations_removePair]
        exact List.mem_filter.2 ⟨hreg, by simpa using hne⟩)
    rw [removePairs, List.foldl_cons, ← removePairs, hrest, hone, List.length_cons]
    omega

/-- What is counted is what the owner had. -/
theorem Refines.unregisterAll_fst (h : r.Refines s) (owner : Text) :
    (r.unregisterAll owner).1 = (s.owned owner).length := by
  rw [unregisterAll_eq, removePairs_fst _ _ (h.nodup_owned owner) h.nodup_registrations,
    Nat.zero_add]
  · exact (h.owned owner).length_eq
  · intro p hp
    obtain ⟨reg, hreg, hhandler, -⟩ := h.mem_owned.1 hp
    exact ⟨reg, hreg, hhandler⟩

/-! ## Counting -/

omit [DecidableEq κ] in
theorem Pruned.mem_handlers (h : r.Pruned) :
    event ∈ r.handlers.keys ↔ ∃ reg, reg ∈ r.registrations event := by
  rw [Table.mem_keys, Table.contains_iff, registrations]
  cases hget : r.handlers.get? event with
  | none => simp
  | some l =>
    obtain _ | ⟨reg, l⟩ := l
    · exact absurd hget (h.handlers event)
    · simp

omit [DecidableEq κ] in
theorem Pruned.mem_owners (h : r.Pruned) :
    owner ∈ r.owners.keys ↔ ∃ p, p ∈ r.owned owner := by
  rw [Table.mem_keys, Table.contains_iff, owned]
  cases hget : r.owners.get? owner with
  | none => simp
  | some l =>
    obtain _ | ⟨p, l⟩ := l
    · exact absurd hget (h.owners owner)
    · simp

/-- A list is as long as the stretches with the same key are together. -/
theorem sum_length_filter {α β : Type} [DecidableEq β] (l : List α) (key : α → β) {keys : List β}
    (hnodup : keys.Nodup) (hkeys : ∀ k, k ∈ keys ↔ ∃ a ∈ l, key a = k) :
    (keys.map fun k => (l.filter (key · = k)).length).sum = l.length := by
  have hperm : keys.Perm (l.map key).dedup := by
    refine (List.perm_ext_iff_of_nodup hnodup (List.nodup_dedup _)).2 fun k => ?_
    rw [hkeys, List.mem_dedup, List.mem_map]
  have hcount (k : β) : (l.filter (key · = k)).length = (l.map key).count k := by
    rw [List.count, List.countP_map, List.countP_eq_length_filter]
    rfl
  calc (keys.map fun k => (l.filter (key · = k)).length).sum
      = (keys.map fun k => (l.map key).count k).sum := by simp only [hcount]
    _ = ((l.map key).dedup.map fun k => (l.map key).count k).sum := (hperm.map _).sum_eq
    _ = (l.map key).length := List.sum_map_count_dedup_eq_length _
    _ = l.length := List.length_map _

omit [DecidableEq κ] in
/-- The registrations of all events are the entries. -/
theorem Refines.sum_handlerCount (h : r.Refines s) :
    (r.handlers.keys.map r.handlerCount).sum = s.entries.length := by
  have hcount : r.handlerCount = fun event => (s.entries.filter (·.1 = event)).length := by
    funext event
    rw [handlerCount, h.registrations, Subscriptions.registrations, List.length_map]
  rw [hcount]
  refine sum_length_filter s.entries (·.1) (Table.nodup_keys r.handlers.ascending) fun event => ?_
  rw [h.pruned.mem_handlers, h.registrations]
  constructor
  · rintro ⟨reg, hreg⟩
    exact ⟨(event, reg), Subscriptions.mem_registrations.1 hreg, rfl⟩
  · rintro ⟨e, he, rfl⟩
    exact ⟨e.2, Subscriptions.mem_registrations.2 he⟩

omit [DecidableEq κ] in
/-- What all owners have is the entries. -/
theorem Refines.sum_ownedCount (h : r.Refines s) :
    (r.owners.keys.map r.ownedCount).sum = s.entries.length := by
  have hcount : r.ownedCount = fun owner => (s.entries.filter (·.2.owner = owner)).length := by
    funext owner
    rw [ownedCount, (h.owned owner).length_eq, Subscriptions.owned, List.length_map]
  rw [hcount]
  refine sum_length_filter s.entries (·.2.owner) (Table.nodup_keys r.owners.ascending)
    fun owner => ?_
  simp only [h.pruned.mem_owners, (h.owned owner).mem_iff, Subscriptions.mem_owned]
  constructor
  · rintro ⟨p, e, he, howner, -⟩
    exact ⟨e, he, howner⟩
  · rintro ⟨e, he, howner⟩
    exact ⟨pair e, e, he, howner, rfl⟩

end IrcBot.Bus.Registry
