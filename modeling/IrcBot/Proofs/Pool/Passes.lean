/-
What a whole pass does with queues. A flush that fails is followed, in the same
step, by the drop of the queue; and a pass in which all flushes of a socket drain its
queue leaves nothing of what was queued before the last queues were flushed.
-/
import IrcBot.Proofs.Pool.Outbound

namespace IrcBot.Pool

variable {κ ω : Type} {R : Requests}

/-- A flush has failed, and the queue has not been dropped since. -/
def Owes (deeds : List Deed) : Prop :=
  ∃ front taken e back, deeds = front ++ .flushed taken (.failed e) :: back ∧ .dropped ∉ back

variable {deeds more : List Deed} {s : Socket κ}

/-- What holds no failed flush and leaves a drop owing holds no drop. -/
theorem Owes.of_append (h : Owes (deeds ++ more))
    (hmore : ∀ taken e, .flushed taken (.failed e) ∉ more) : Owes deeds ∧ .dropped ∉ more := by
  obtain ⟨front, taken, e, back, hsplit, hback⟩ := h
  rcases List.append_eq_append_iff.1 hsplit with ⟨rest, -, hrest⟩ | ⟨rest, hfront, hrest⟩
  · exact absurd (hrest ▸ List.mem_append_right rest List.mem_cons_self) (hmore taken e)
  · cases rest with
    | nil =>
      rw [List.nil_append] at hrest
      exact absurd (hrest ▸ List.mem_cons_self) (hmore taken e)
    | cons first rest =>
      rw [List.cons_append] at hrest
      obtain ⟨rfl, htail⟩ := List.cons.inj hrest
      rw [htail, List.mem_append, not_or] at hback
      exact ⟨⟨front, taken, e, rest, hfront, hback.1⟩, hback.2⟩

theorem not_owes_dropped : ¬ Owes (deeds ++ [.dropped]) :=
  fun h => (h.of_append (by simp)).2 List.mem_cons_self

theorem flushing_ne_failed (h : s.flush.1 = none) (taken : Bytes) (e : IoError) :
    flushing s ≠ .flushed taken (.failed e) := by
  intro hflushing
  unfold Socket.flush at h
  unfold flushing at hflushing
  cases hflush : s.queue.flush s.sink with
  | mk flushed rest =>
    rw [hflush] at h hflushing
    obtain ⟨-, rfl⟩ := Deed.flushed.inj hflushing
    simp at h

theorem Owes.of_flushing (h : Owes (deeds ++ [flushing s])) (hs : s.flush.1 = none) : Owes deeds :=
  (h.of_append fun taken e hmem =>
    flushing_ne_failed hs taken e (List.mem_singleton.1 hmem).symm).1

/-- Only a drop takes a socket out of the pool. -/
theorem Life.isSome {start last : Option (Socket κ)} (h : Life start deeds last)
    (hstart : start.isSome) (hdeeds : .dropped ∉ deeds) : last.isSome := by
  cases h with
  | same => exact hstart
  | turn => rfl
  | clear => rfl
  | leave => exact absurd (List.mem_append_right _ List.mem_cons_self) hdeeds

namespace Audit

variable {a a' a'' a₀ : Audit κ ω} {h : Handle} {c : Conduct κ ω R}

/-! ## A failed flush is followed by a drop -/

/-- Nothing has been flushed meanwhile. -/
def Quiet (a a' : Audit κ ω) : Prop :=
  ∃ more, a'.ledger = a.ledger ++ more ∧ ∀ entry ∈ more, ∀ taken how, entry.2 ≠ .flushed taken how

theorem Quiet.trans (hq : Quiet a a') (hq' : Quiet a' a'') : Quiet a a'' := by
  obtain ⟨more, hmore, hnone⟩ := hq
  obtain ⟨more', hmore', hnone'⟩ := hq'
  refine ⟨more ++ more', by rw [hmore', hmore, List.append_assoc], fun entry hentry => ?_⟩
  exact (List.mem_append.1 hentry).elim (hnone entry) (hnone' entry)

theorem quiet_serve (q : Ask κ R.Ask) (a : Audit κ ω) : Quiet a (serve c q a).2 := by
  refine ⟨entries a.run.pool q, rfl, fun entry hentry taken how => ?_⟩
  unfold entries at hentry
  split at hentry
  · exact absurd hentry List.not_mem_nil
  · next h _ =>
    obtain ⟨deed, hdeed, rfl⟩ := List.mem_map.1 hentry
    rintro rfl
    cases hsocket : a.run.pool.socket? h with
    | none => simp [hsocket] at hdeed
    | some s => cases q <;> simp [hsocket, Ask.deeds] at hdeed

theorem quiet_dispatch (a : Audit κ ω) (h : Handle) (occasion : Occasion) :
    Quiet a (dispatch c a h occasion) := by
  have hsame : Quiet a a := ⟨[], (List.append_nil _).symm, by simp⟩
  unfold dispatch
  split
  · exact hsame
  · split
    · next k _ =>
      have hrun : Quiet a ((c.behave k h).run (serve c) (a.note (.called h occasion))).2 :=
        Program.run_keeps (P := Quiet a) (fun q a' hq => hq.trans (quiet_serve q a')) _ _ hsame
      exact hrun
    · split
      · exact ⟨[(h, .dropped)], rfl, by simp⟩
      · exact hsame

/-- A drop is owing only for these sockets, and only while they are in the pool. -/
def Settling (failed : List Handle) (a : Audit κ ω) : Prop :=
  ∀ h, Owes (a.deeds h) → h ∈ failed ∧ (a.socket? h).isSome

/-- Without a flush nothing comes to be owing. -/
theorem Settling.quiet {failed : List Handle} (ha : Settling failed a) (hs : Since a a')
    (hq : Quiet a a') : Settling failed a' := by
  intro h howes
  obtain ⟨more, hmore, hlife⟩ := hs.life h
  obtain ⟨entered, hentered, hnone⟩ := hq
  -- The deeds of the life are what was entered for this socket, and none of that is a flush.
  have hsame : more = (entered.filter fun entry => entry.1 == h).map Prod.snd := by
    refine List.append_cancel_left (hmore.symm.trans ?_)
    rw [deeds, hentered, List.filter_append, List.map_append, deeds]
  have hflush (taken : Bytes) (e : IoError) : .flushed taken (.failed e) ∉ more := by
    rw [hsame]
    intro hmem
    obtain ⟨entry, hentry, hdeed⟩ := List.mem_map.1 hmem
    exact hnone entry (List.mem_of_mem_filter hentry) taken (.failed e) hdeed
  rw [hmore] at howes
  obtain ⟨hbefore, hdropped⟩ := howes.of_append hflush
  obtain ⟨hmem, hsome⟩ := ha h hbefore
  exact ⟨hmem, hlife.isSome hsome hdropped⟩

theorem Settling.dispatch {failed : List Handle} (ha : Settling failed a) (h : Handle)
    (occasion : Occasion) : Settling failed (dispatch c a h occasion) :=
  ha.quiet ((Since.refl a).dispatch h occasion) (quiet_dispatch a h occasion)

theorem Settling.writeFailed {failed : List Handle} (ha : Settling (h :: failed) a) :
    Settling failed (writeFailed c a h) := by
  unfold Audit.writeFailed
  refine Settling.dispatch (fun h' howes => ?_) h .other
  split at howes
  · next s hsocket =>
    by_cases he : h = h'
    · subst he
      rw [deeds_put_self] at howes
      exact absurd howes not_owes_dropped
    · rw [deeds_put_other he] at howes
      obtain ⟨hmem, hsome⟩ := ha h' howes
      rw [socket?_put_other he]
      exact ⟨List.mem_of_ne_of_mem (Ne.symm he) hmem, hsome⟩
  · next hsocket =>
    obtain ⟨hmem, hsome⟩ := ha h' howes
    refine ⟨List.mem_of_ne_of_mem ?_ hmem, hsome⟩
    rintro rfl
    simp [hsocket] at hsome

/-- A flush leaves a drop owing only if it fails. -/
theorem Settling.put {failed : List Handle} {s' : Socket κ} (ha : Settling failed a)
    (entered : s.flush.1 = none ∨ h ∈ failed) : Settling failed (a.put h [flushing s] s') := by
  intro h' howes
  by_cases he : h = h'
  · subst he
    rw [socket?_put_self]
    rw [deeds_put_self] at howes
    refine ⟨?_, rfl⟩
    rcases entered with hnone | hmem
    · exact (ha h (howes.of_flushing hnone)).1
    · exact hmem
  · rw [deeds_put_other he] at howes
    rw [socket?_put_other he]
    exact ha h' howes

theorem Settling.mono {failed failed' : List Handle} (ha : Settling failed a)
    (hsub : failed ⊆ failed') : Settling failed' a :=
  fun h howes => ⟨hsub (ha h howes).1, (ha h howes).2⟩

theorem Settling.flush (ha : Settling [] a) (h : Handle) : Settling [] (flush c a h).2 := by
  unfold Audit.flush
  split
  · exact ha
  · next s hsocket =>
    dsimp only
    split
    · exact ha.quiet ((Since.refl a).put hsocket (.unblock s)) ⟨[], rfl, by simp⟩
    · split
      · next hnone => exact ha.put (.inl hnone)
      · exact ((ha.mono (List.nil_subset [h])).put (.inr List.mem_cons_self)).writeFailed

theorem Settling.flushQueued {acc : List Handle × Audit κ ω} (ha : Settling acc.1 acc.2)
    (h : Handle) : Settling (flushQueued acc h).1 (Audit.flushQueued acc h).2 := by
  rcases flushQueued_cases acc h with ⟨hsame, -⟩ | ⟨s, -, -, hflushed⟩
  · rwa [hsame]
  · rw [hflushed]
    dsimp only
    split
    · exact (ha.mono (List.subset_append_left _ _)).put (.inr (by simp))
    · next hnone => exact ha.put (.inl (by simpa using hnone))

/-- **No pass leaves a drop owing.** -/
theorem Settling.poll (ha : Settling [] a) (report : Report) : Settling [] (poll c report a) := by
  have hdispatch (a : Audit κ ω) (h : Handle) (occasion : Occasion) (ha : Settling [] a) :
      Settling [] (Audit.dispatch c a h occasion) := ha.dispatch h occasion
  have hflushAll (keys : List Handle) (acc : List Handle × Audit κ ω)
      (hacc : Settling acc.1 acc.2) :
      Settling (keys.foldl Audit.flushQueued acc).1 (keys.foldl Audit.flushQueued acc).2 := by
    induction keys generalizing acc with
    | nil => exact hacc
    | cons h keys ih => exact ih _ (hacc.flushQueued h)
  have hwriteFailedAll (failed : List Handle) (a : Audit κ ω) (ha : Settling failed a) :
      Settling [] (failed.foldl (Audit.writeFailed c) a) := by
    induction failed generalizing a with
    | nil => exact ha
    | cons h failed ih => exact ih _ ha.writeFailed
  have hattended : Settling [] (attended c report a).2 :=
    attended_keeps ha fun _ ready _ hacc =>
      attend_keeps (fun a occasion _ => hdispatch a ready.handle occasion)
        (fun _ ha => ha.flush ready.handle) hacc
  exact callAll_keeps (fun a h => hdispatch a h .writable)
    (hwriteFailedAll _ _ (hflushAll _ ([], _) hattended)) _ _

theorem Settling.step (ha : Settling [] a) (s : Step κ R) : Settling [] (a.step c s) := by
  cases s with
  | add stream callbacks =>
    intro h howes
    rw [deeds_add] at howes
    refine absurd (ha h (howes.of_append ?_).1).1 List.not_mem_nil
    split <;> simp
  | ask q => exact ha.quiet ((Since.refl a).serve q) (quiet_serve q a)
  | pass report => exact ha.poll report
  | arrive h arrivals ended =>
    refine ha.quiet (since_step nofun) ⟨_, rfl, ?_⟩
    split <;> simp
  | prepare h answers broken =>
    exact ha.quiet (since_step nofun) ⟨[], (List.append_nil _).symm, by simp⟩

theorem settling_after (c : Conduct κ ω R) (pollTimeout : Nat) (world : ω)
    (steps : List (Step κ R)) : Settling [] (after c pollTimeout world steps) := by
  have hall (a : Audit κ ω) (ha : Settling [] a) : Settling [] (steps.foldl (step c) a) := by
    induction steps generalizing a with
    | nil => exact ha
    | cons s steps ih => exact ih _ (ha.step s)
  refine hall _ fun h howes => ?_
  obtain ⟨front, taken, e, back, hsplit, -⟩ := howes
  exact absurd hsplit (by simp [deeds])

/-! ## A pass that drains a queue -/

end Audit

/-- A deed that leaves the bytes of the account there. -/
def Deed.Keeps : Deed → Prop
  | .added _ | .dropped => False
  | _ => True

/-- A socket that stays in the pool with no flush failing keeps its queue. -/
theorem Life.keeps {start last : Option (Socket κ)} (h : Life start more last)
    (hlast : last.isSome) (hmore : ¬ Failing more) : ∀ deed ∈ more, deed.Keeps := by
  induction h with
  | same => simp
  | turn hlife hturn ih =>
    intro deed hdeed
    rcases List.mem_append.1 hdeed with hbefore | hnow
    · exact ih rfl (fun hf => hmore hf.append_right) deed hbefore
    · cases hturn with
      | drain =>
        obtain ⟨call, -, rfl⟩ := List.mem_map.1 hnow
        trivial
      | update | unblock | prepare => exact absurd hnow List.not_mem_nil
      | arrive | queue | count | flush | read => exact List.mem_singleton.1 hnow ▸ trivial
  | clear _ hfailing => exact absurd hfailing.append_right hmore
  | leave => simp at hlast

theorem account_grows (deeds : List Deed) (hmore : ∀ deed ∈ more, deed.Keeps) :
    (account deeds).queued <+: (account (deeds ++ more)).queued ∧
      (account deeds).taken <+: (account (deeds ++ more)).taken := by
  induction more generalizing deeds with
  | nil => rw [List.append_nil]; exact ⟨List.prefix_rfl, List.prefix_rfl⟩
  | cons deed more ih =>
    obtain ⟨hdeed, hmore⟩ := List.forall_mem_cons.1 hmore
    obtain ⟨hqueued, htaken⟩ := ih (deeds ++ [deed]) hmore
    rw [List.append_cons]
    have hone : (account deeds).queued <+: (account (deeds ++ [deed])).queued ∧
        (account deeds).taken <+: (account (deeds ++ [deed])).taken := by
      rw [account_append]
      cases deed with
      | added | dropped => exact absurd hdeed id
      | queued bytes => exact ⟨List.prefix_append _ _, List.prefix_rfl⟩
      | flushed taken how => exact ⟨List.prefix_rfl, List.prefix_append _ _⟩
      | arrived | counted | asked => exact ⟨List.prefix_rfl, List.prefix_rfl⟩
    exact ⟨hone.1.trans hqueued, hone.2.trans htaken⟩

/-- A deed that, if it is a flush, drains the queue. -/
def Deed.Drains : Deed → Prop
  | .flushed _ how => how = .drained
  | _ => True

namespace Audit

variable {a a' : Audit κ ω} {h : Handle} {c : Conduct κ ω R}

/-- All that is done with a socket from one audit to a later one is of some kind. -/
def Meanwhile (P : Deed → Prop) (a a' : Audit κ ω) (h : Handle) : Prop :=
  ∀ more, a'.deeds h = a.deeds h ++ more → ∀ deed ∈ more, P deed

/-- What holds meanwhile holds of every stretch in between. -/
theorem Meanwhile.within {P : Deed → Prop} {b b' : Audit κ ω} (hm : Meanwhile P a a' h)
    (hbefore : Grows a b) (hafter : Grows b' a') : Meanwhile P b b' h := by
  intro more hmore deed hdeed
  obtain ⟨front, hfront⟩ := hbefore h
  obtain ⟨back, hback⟩ := hafter h
  refine hm (front ++ more ++ back) ?_ deed ?_
  · rw [← hback, hmore, ← hfront, List.append_assoc, List.append_assoc, List.append_assoc]
  · exact List.mem_append_left _ (List.mem_append_right _ hdeed)

theorem Meanwhile.not_failing (hm : Meanwhile Deed.Drains a a' h)
    (hmore : a'.deeds h = a.deeds h ++ more) : ¬ Failing more := by
  rintro ⟨taken, e, hmem⟩
  have hdrained : WriteQueue.Flushed.failed e = .drained := hm more hmore _ hmem
  simp at hdrained

/-- A socket that stays in the pool while its flushes drain its queue keeps the account. -/
theorem Since.meanwhile_keeps (hs : Since a a') (hlast : (a'.socket? h).isSome)
    (hm : Meanwhile Deed.Drains a a' h) : Meanwhile Deed.Keeps a a' h := by
  intro more hmore
  obtain ⟨deeds, hdeeds, hlife⟩ := hs.life h
  obtain rfl := List.append_cancel_left (hdeeds.symm.trans hmore)
  exact hlife.keeps hlast (hm.not_failing hmore)

theorem Meanwhile.account_grows (hm : Meanwhile Deed.Keeps a a' h) (hg : Grows a a') :
    (account (a.deeds h)).queued <+: (account (a'.deeds h)).queued ∧
      (account (a.deeds h)).taken <+: (account (a'.deeds h)).taken := by
  obtain ⟨more, hmore⟩ := hg h
  rw [← hmore]
  exact Pool.account_grows _ (hm more hmore.symm)

/-- Once a socket has been gone to, with its flushes draining its queue, nothing is queued. -/
theorem flushQueued_empties {acc : List Handle × Audit κ ω} (hsome : (acc.2.socket? h).isSome)
    (hm : Meanwhile Deed.Drains acc.2 (flushQueued acc h).2 h) :
    ∃ s, (flushQueued acc h).2.socket? h = some s ∧ s.queue.bytes = [] := by
  obtain ⟨s, hsocket⟩ := Option.isSome_iff_exists.1 hsome
  rcases flushQueued_cases acc h with ⟨hsame, hempty⟩ | ⟨s', -, -, hflushed⟩
  · rw [hsame]
    exact ⟨s, hsocket, WriteQueue.bytes_of_isEmpty (hempty s hsocket)⟩
  · rw [hflushed] at hm ⊢
    obtain ⟨front, hflushing, -, -, hdrained⟩ := flushing_spec s' s'.blocked
    have hdrains := hm [flushing s'] deeds_put_self (flushing s') List.mem_cons_self
    rw [hflushing] at hdrains
    exact ⟨s'.flush.2, socket?_put_self, hdrained hdrains⟩

/-- A socket of which nothing is done but what keeps the account stays in the pool. -/
theorem Since.stays (hs : Since a a') (hsome : (a.socket? h).isSome)
    (hm : Meanwhile Deed.Keeps a a' h) : (a'.socket? h).isSome := by
  obtain ⟨deeds, hdeeds, hlife⟩ := hs.life h
  exact hlife.isSome hsome fun hmem => hm deeds hdeeds .dropped hmem

theorem grows_flushAll (keys : List Handle) (acc : List Handle × Audit κ ω) :
    Grows acc.2 (keys.foldl flushQueued acc).2 := ((Since.refl acc.2).flushAll keys).grows

/-- While all queues are flushed there is a moment when nothing is queued for a socket. -/
theorem flushAll_empties {keys failed : List Handle} (hmem : h ∈ keys)
    (hsome : (a.socket? h).isSome)
    (hdrains : Meanwhile Deed.Drains a (keys.foldl flushQueued (failed, a)).2 h)
    (hkeeps : Meanwhile Deed.Keeps a (keys.foldl flushQueued (failed, a)).2 h) :
    ∃ b : Audit κ ω, Since a b ∧ Grows b (keys.foldl flushQueued (failed, a)).2 ∧
      ∃ s, b.socket? h = some s ∧ s.queue.bytes = [] := by
  obtain ⟨front, back, rfl⟩ := List.append_of_mem hmem
  rw [List.foldl_append, List.foldl_cons] at hdrains hkeeps ⊢
  have hfront : Since a (front.foldl flushQueued (failed, a)).2 := (Since.refl a).flushAll front
  have hhere : Since (front.foldl flushQueued (failed, a)).2
      (flushQueued (front.foldl flushQueued (failed, a)) h).2 := (Since.refl _).flushQueued h
  have hback := grows_flushAll back (flushQueued (front.foldl flushQueued (failed, a)) h)
  have hthere := hfront.stays hsome
    (hkeeps.within (fun h => List.prefix_rfl) (hhere.grows.trans hback))
  exact ⟨_, hfront.trans hhere, hback,
    flushQueued_empties hthere (hdrains.within hfront.grows hback)⟩

theorem grows_finished (wrote : List Handle) (report : Report) (a : Audit κ ω) :
    Grows ((report.arrange a.run.pool.sockets.keys).foldl flushQueued ([], a)).2
      (finished c report (wrote, a)) :=
  (grows_writeFailedAll _ _).trans
    (Since.grows (callAll_keeps (fun _ h hs => hs.dispatch h .writable) (.refl _) _ _))

/-- **A pass in which a socket stays in the pool and its flushes drain its queue** has, in
the end, written all that was queued before it and all that was queued while the ready
sockets were seen to. -/
theorem poll_drains (hstory : Story a h) (report : Report)
    (harrange : ∀ keys, keys ⊆ report.arrange keys)
    (hlast : ((poll c report a).socket? h).isSome)
    (hdrains : Meanwhile Deed.Drains a (poll c report a) h) :
    (account (a.deeds h)).queued <+: (account ((attended c report a).2.deeds h)).queued ∧
      (account ((attended c report a).2.deeds h)).queued <+:
        (account ((poll c report a).deeds h)).taken := by
  have hkeeps := ((Since.refl a).poll report).meanwhile_keeps hlast hdrains
  have hattended : Since a (attended c report a).2 := (Since.refl a).attended report
  have hfinished : Since (attended c report a).2 (poll c report a) :=
    (Since.refl _).finished report
  cases hacc : attended c report a with
  | mk wrote mid =>
    rw [hacc] at hattended hfinished
    have hflushed := grows_finished (c := c) wrote report mid
    rw [show finished c report (wrote, mid) = poll c report a by rw [poll, hacc]] at hflushed
    -- What is out of the pool stays out, so the socket was there when the queues were flushed.
    have hsome : (mid.socket? h).isSome := by
      obtain ⟨_, -, hlife⟩ := hfinished.life h
      by_contra hnone
      rw [Option.not_isSome_iff_eq_none.1 hnone] at hlife
      rw [hlife.of_none.2] at hlast
      simp at hlast
    obtain ⟨b, hb, hrest, s, hsocket, hempty⟩ :=
      flushAll_empties (harrange _ (Table.mem_keys.2 hsome)) hsome
        (hdrains.within hattended.grows hflushed) (hkeeps.within hattended.grows hflushed)
    -- At that moment all that was queued is taken; before it only more is queued, and after it
    -- only more is taken.
    have hend := hrest.trans hflushed
    have hbalanced := ((hstory.since (hattended.trans hb)).balanced.2 s hsocket).queued
    rw [hempty, List.append_nil] at hbalanced
    have hbefore := (hkeeps.within (fun _ => List.prefix_rfl) hfinished.grows).account_grows
      hattended.grows
    have hmeanwhile := (hkeeps.within hattended.grows hend).account_grows hb.grows
    have hafter := (hkeeps.within (hattended.trans hb).grows fun _ => List.prefix_rfl).account_grows
      hend
    refine ⟨hbefore.1, hmeanwhile.1.trans ?_⟩
    rw [hbalanced]
    exact hafter.2

/-! ## Any run -/

/-- A handle that was given out and is not in the pool is done with. -/
theorem gone_step (hlt : h < a.run.pool.nextHandle) (hsocket : a.socket? h = none)
    (s : Step κ R) :
    (a.step c s).deeds h = a.deeds h ∧ h < (a.step c s).run.pool.nextHandle ∧
      (a.step c s).socket? h = none := by
  by_cases hadd : ∃ stream callbacks, s = .add stream callbacks
  · obtain ⟨stream, callbacks, rfl⟩ := hadd
    have hne : a.run.pool.nextHandle ≠ h := Nat.ne_of_gt hlt
    refine ⟨?_, Nat.lt_succ_of_lt hlt, ?_⟩
    · rw [deeds_add, if_neg hne, List.append_nil]
    · rw [socket?_add, if_neg hne, hsocket]
  · have hs : Since a (a.step c s) :=
      since_step fun stream callbacks he => hadd ⟨stream, callbacks, he⟩
    obtain ⟨deeds, hdeeds, hlife⟩ := hs.life h
    rw [hsocket] at hlife
    obtain ⟨rfl, hnone⟩ := hlife.of_none
    exact ⟨hdeeds.trans (List.append_nil _), hs.nextHandle_eq ▸ hlt, hnone⟩

theorem gone_steps (hlt : h < a.run.pool.nextHandle) (hsocket : a.socket? h = none)
    (steps : List (Step κ R)) :
    (steps.foldl (step c) a).deeds h = a.deeds h ∧
      h < (steps.foldl (step c) a).run.pool.nextHandle ∧
      (steps.foldl (step c) a).socket? h = none := by
  induction steps generalizing a with
  | nil => exact ⟨rfl, hlt, hsocket⟩
  | cons s steps ih =>
    obtain ⟨hdeeds, hlt', hsocket'⟩ := gone_step (c := c) hlt hsocket s
    obtain ⟨hrest, hlast⟩ := ih hlt' hsocket'
    exact ⟨hrest.trans hdeeds, hlast⟩

/-- **What a socket takes is what was queued for it, in order.** After any run of a pool,
and for any handle:

- whenever its queue was flushed, what the stream took since the queue was last dropped
  was a front of what was queued since then, and whoever asked how much was waiting was
  told the length of the rest;
- so it is now, if the socket is in the pool, and the stream has taken nothing else;
- every failed flush was followed by a drop of the queue;
- closing or removing the socket takes it out of the pool, and once it has left, nothing is
  ever done with it again;
- in a pass at the end of which the socket is in the pool, and in which all its flushes
  drained its queue, it takes all that was queued before, and all that was queued while the
  ready sockets were seen to. -/
theorem takes_queued (c : Conduct κ ω R) (pollTimeout : Nat) (world : ω)
    (steps : List (Step κ R)) (h : Handle) :
    let a := after c pollTimeout world steps
    a.run = steps.foldl (Run.step c) (.fresh κ pollTimeout world) ∧
      (∀ front deed back, a.deeds h = front ++ deed :: back → Fair (account front) deed) ∧
      (∀ s, a.run.pool.socket? h = some s →
        (account (a.deeds h)).queued = (account (a.deeds h)).taken ++ s.queue.bytes ∧
          a.run.pool.pending? h = some s.queue.bytes.length ∧
          s.sink.taken = (account (a.deeds h)).before ++ (account (a.deeds h)).taken) ∧
      (∀ front taken e back, a.deeds h = front ++ .flushed taken (.failed e) :: back →
        .dropped ∈ back) ∧
      (∀ q : Ask κ R.Ask, q = .close h ∨ q = .remove h →
        (serve c q a).2.run.pool.socket? h = none) ∧
      (h < a.run.pool.nextHandle → a.run.pool.socket? h = none →
        ∀ more, (after c pollTimeout world (steps ++ more)).deeds h = a.deeds h) ∧
      ∀ report : Report, (∀ keys, keys ⊆ report.arrange keys) →
        (poll c report a).run.pool.contains h = true →
        Meanwhile Deed.Drains a (poll c report a) h →
          (account (a.deeds h)).queued <+: (account ((attended c report a).2.deeds h)).queued ∧
            (account ((attended c report a).2.deeds h)).queued <+:
              (account ((poll c report a).deeds h)).taken := by
  intro a
  have hstory := story c pollTimeout world steps h
  obtain ⟨hfair, hbalanced⟩ := hstory.balanced
  refine ⟨after_run c pollTimeout world steps, hfair, ?_, ?_, ?_, ?_, ?_⟩
  · intro s hsocket
    obtain ⟨hqueued, htaken⟩ := hbalanced s hsocket
    refine ⟨hqueued, ?_, htaken⟩
    rw [pending?, show a.run.pool.socket? h = some s from hsocket, Option.map_some,
      WriteQueue.pending_eq]
  · intro front taken e back hsplit
    by_contra hback
    have howes : Owes (a.deeds h) := ⟨front, taken, e, back, hsplit, hback⟩
    exact absurd (settling_after c pollTimeout world steps h howes).1 List.not_mem_nil
  · rintro q (rfl | rfl)
    · exact socket?_close_self
    · exact socket?_remove_self
  · intro hlt hsocket more
    rw [after, List.foldl_append]
    exact (gone_steps hlt hsocket more).1
  · intro report harrange hcontains hdrains
    exact poll_drains hstory report harrange hcontains hdrains

/-- Four bytes of which a first pass writes two, and a fifth byte queued after that. -/
def partlyWritten : List (Step Unit (.writing Unit)) :=
  [.add { sink := { answers := [.accepted 2, .blocked, .accepted 1, .interrupted] } } {},
    .ask (.enqueue 0 [1, 2, 3, 4]), .pass { ready := [] }, .ask (.enqueue 0 [5])]

theorem takes_queued_after_partial_write :
    let a := after idle 5 () partlyWritten
    let a' := poll idle { ready := [] } a
    a'.run.pool.contains 0 = true ∧ Meanwhile Deed.Drains a a' 0 ∧
      (account ((attended idle { ready := [] } a).2.deeds 0)).queued = [1, 2, 3, 4, 5] ∧
      (account ((attended idle { ready := [] } a).2.deeds 0)).queued <+:
        (account (a'.deeds 0)).taken := by
  have hcontains :
      (poll idle { ready := [] } (after idle 5 () partlyWritten)).run.pool.contains 0 = true := by
    decide +kernel
  have hdeeds : (poll idle { ready := [] } (after idle 5 () partlyWritten)).deeds 0 =
      (after idle 5 () partlyWritten).deeds 0 ++ [.flushed [3, 4, 5] .drained] := by decide +kernel
  have hdrains : Meanwhile Deed.Drains (after idle 5 () partlyWritten)
      (poll idle { ready := [] } (after idle 5 () partlyWritten)) 0 := by
    intro more hmore deed hdeed
    obtain rfl := List.append_cancel_left (hdeeds.symm.trans hmore)
    rw [List.mem_singleton.1 hdeed]
    rfl
  have htaken := (takes_queued idle 5 () partlyWritten 0).2.2.2.2.2.2 { ready := [] }
    (fun _ => List.Subset.refl _) hcontains hdrains
  exact ⟨hcontains, hdrains, by decide +kernel, htaken.2⟩

end Audit

end IrcBot.Pool
