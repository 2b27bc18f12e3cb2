/-
The last words of a server. While nobody closes a connection and nothing is wrong with its
socket, the connection hears the lines that arrive, in order and each in full, whatever
else is done meanwhile; it is disconnected when the stream is read to its end, after all of
them, and nothing of the stream comes after that.

Which lines arrive depends on the reads only in one case: a line of just the limit that a
read cuts between its carriage return and its line feed is lost.
-/
import IrcBot.Proofs.Bot.Lifecycle
import IrcBot.Proofs.Bot.Receiving
import IrcBot.Proofs.Pool.Passes
import IrcBot.Proofs.Stream.Completeness

namespace IrcBot.Bot

open LineBuffer (withCuts CutAtReturn dropReturn lineFeed)

variable {μ κ γ ν : Type} [DecidableEq κ]

/-! ## Receiving a stream -/

/-- Steps in which a connection receives a stream on a socket, with the pieces in which reads cut
what arrives meanwhile. No read or write fails, no error is reported, and nobody else
disconnects the connection; once it has lost the socket, anything may be done. -/
inductive Receives (i : Nat) (h : Handle) :
    Bot μ κ γ → List (Step κ γ ν) → List Bytes → Prop where
  | done (b : Bot μ κ γ) : Receives i h b [] []
  | arrive {b : Bot μ κ γ} {steps : List (Step κ γ ν)} {pieces : List Bytes}
    {f : Stream → Stream} (arrivals : List Arrival) (ended : Bool)
    (hon : b.net.socketOf i = some h)
    (hf : ∀ stream, (f stream).source = stream.source.extend arrivals ended)
    (harrivals : ∀ a ∈ arrivals, a.Orderly)
    (rest : Receives i h (b.step (.disturb h f : Step κ γ ν)) steps pieces) :
    Receives i h b (.disturb h f :: steps) (arrivals.flatMap Arrival.pieces ++ pieces)
  | pass {b : Bot μ κ γ} {steps : List (Step κ γ ν)} {pieces : List Bytes} {report : Pool.Report}
    (hon : b.net.socketOf i = some h)
    (hfine : ∀ e ∈ report.ready, e.handle = h → e.error = false)
    (hwritten : ¬ FailsWrite b report h)
    (rest : Receives i h (b.step (.pollSockets report : Step κ γ ν)) steps pieces) :
    Receives i h b (.pollSockets report :: steps) pieces
  | other {b : Bot μ κ γ} {s : Step κ γ ν} {steps : List (Step κ γ ν)} {pieces : List Bytes}
    (hon : b.net.socketOf i = some h) (hpass : ∀ report, s ≠ .pollSockets report)
    (hdisturb : ∀ f, s ≠ .disturb h f)
    (hfine : .occurred .disconnected ∉ account i (b.entries s))
    (rest : Receives i h (b.step s) steps pieces) : Receives i h b (s :: steps) pieces
  | after {b : Bot μ κ γ} (hlost : b.net.socketOf i ≠ some h) (steps : List (Step κ γ ν)) :
    Receives i h b steps []

variable {b : Bot μ κ γ} {i : Nat} {h : Handle} {c : Connection} {s : Socket Role}
  {steps : List (Step κ γ ν)} {pieces : List Bytes} {lines : List Bytes → List Text}
  {ms : List Moment} {report : Pool.Report} {bytes : Bytes}

/-- One more pass in the end. -/
theorem Receives.concat (hr : Receives i h b steps pieces)
    (hon : (b.run steps).net.socketOf i = some h)
    (hfine : ∀ e ∈ report.ready, e.handle = h → e.error = false)
    (hwritten : ¬ FailsWrite (b.run steps) report h) :
    Receives i h b (steps ++ [.pollSockets report]) pieces := by
  induction hr with
  | done b => exact .pass hon hfine hwritten (.done _)
  | arrive arrivals ended hb hf harrivals _ ih =>
    exact .arrive arrivals ended hb hf harrivals (ih hon hwritten)
  | pass hb hb' hb'' _ ih => exact .pass hb hb' hb'' (ih hon hwritten)
  | other hb hpass hdisturb hb' _ ih => exact .other hb hpass hdisturb hb' (ih hon hwritten)
  | after hlost steps => exact .after hlost _

/-- What a connection has heard in the end, if it has lost the socket: all lines, and then that it
is disconnected. -/
def Parted (lines : List Text) (ms : List Moment) : Prop :=
  ∃ said later, ms = said ++ .occurred .disconnected :: later ∧
    .occurred .disconnected ∉ said ∧ received said = lines

/-- Once the stream has ended nothing is received any more. -/
theorem Receives.parted (hr : Receives i h b steps pieces) (he : Ended i lines ms b.net) :
    Parted (lines pieces) (ms ++ account i (b.history steps)) := by
  have hlost : b.net.socketOf i ≠ some h := by simp [he.lost]
  have hnothing : pieces = [] := by
    cases hr with
    | done | after => rfl
    | arrive _ _ hon | pass hon | other hon => exact absurd hon hlost
  obtain ⟨said, hms, hfine, hsaid⟩ := he.heard
  rw [hnothing, hms, List.append_assoc]
  exact ⟨said, _, rfl, hfine, hsaid⟩

/-- A connection that is to hear a stream is told its lines, step after step, until it has been
told all of them. -/
theorem Receives.course (hr : Receives i h b steps pieces) (hn : b.net.Sound)
    (hd : Due i h lines ms b.net s) :
    (∃ s', Due i h (fun more => lines (pieces ++ more)) (ms ++ account i (b.history steps))
        (b.run steps).net s') ∨
      Parted (lines pieces) (ms ++ account i (b.history steps)) := by
  induction hr generalizing lines ms s with
  | done b =>
    refine .inl ⟨s, ?_⟩
    rw [show account i (b.history ([] : List (Step κ γ ν))) = [] from rfl, List.append_nil]
    exact hd
  | @arrive b steps pieces f arrivals ended hon hf harrivals _ ih =>
    obtain ⟨s', -, hd'⟩ := hd.arrive (ν := ν) hf harrivals
    have hrest := ih ((moves_step hn (.disturb h f : Step κ γ ν)).sound hn) hd'
    simp only [List.append_assoc]
    exact hrest
  | @pass b steps pieces report hon hfine hwritten hr ih =>
    have hn' := (moves_step hn (.pollSockets report : Step κ γ ν)).sound hn
    rw [history, account_append, ← List.append_assoc]
    rcases hd.pollSockets (ν := ν) hfine hwritten with ⟨s', hd'⟩ | he
    · exact ih hn' hd'
    · exact .inr (hr.parted he)
  | @other b t steps pieces hon hpass hdisturb hfine _ ih =>
    have hmoves := moves_step hn t
    rw [history, account_append, ← List.append_assoc]
    -- Outside a pass a reader changes only when something arrives on its own socket.
    by_cases hf : ∃ h' f, t = .disturb h' f
    · obtain ⟨h', f, rfl⟩ := hf
      have hne : h' ≠ h := fun he => hdisturb f (he ▸ rfl)
      have hd' := hd.disturb_other (ν := ν) hne f
      rw [show account i (b.entries (.disturb h' f : Step κ γ ν)) = [] from rfl, List.append_nil]
      exact ih (hmoves.sound hn) hd'
    · simp only [not_exists] at hf
      obtain ⟨s', hd'⟩ := hd.still hn hmoves (still_step hn t hpass hf) hfine
      exact ih (hmoves.sound hn) hd'
  | after hlost => exact absurd hd.current hlost

/-! ## Last words -/

/-- What a connection has been told from a session on, when it has lost the socket it had. It has
heard these lines, each of which was handled in full before the next; only then it was
disconnected, once; and what it has been told later, it has been told on some other socket. -/
inductive LastWords (registered : Nat) (h : Handle) (start : Session) (lines : List Text)
    (ms : List Moment) (n : Net) : Prop where
  | intro {said later : List Moment} {last : Session}
    (told : ms = said ++ .occurred .disconnected :: later)
    (talk : Talk registered start lines said last) (heard : received said = lines)
    (undisturbed : .occurred .disconnected ∉ said)
    (afresh : later = [] ∨ ∃ h' rest, later = .attached h' :: rest) (never : .attached h ∉ later)
    (gone : n.pool.socket? h = none)

/-- Without a socket a connection is told nothing before it has got one. -/
theorem path_unattached {registered : Nat} {t : Stage} (hp : Path registered .offline ms t) :
    ms = [] ∨ ∃ h rest, ms = .attached h :: rest := by
  cases hp with
  | nil => exact .inl rfl
  | cons first _ =>
    cases first with
    | attach h => exact .inr ⟨h, _, rfl⟩

/-- A list is split in one way only at the first of its elements that is `a`. -/
theorem first_split {α : Type} {a : α} {front front' back back' : List α}
    (hsplit : front ++ a :: back = front' ++ a :: back') (hfront : a ∉ front)
    (hfront' : a ∉ front') : front = front' ∧ back = back' := by
  induction front generalizing front' with
  | nil =>
    cases front' with
    | nil => exact ⟨rfl, (List.cons.inj hsplit).2⟩
    | cons first front' => exact absurd ((List.cons.inj hsplit).1 ▸ List.mem_cons_self) hfront'
  | cons first front ih =>
    cases front' with
    | nil => exact absurd ((List.cons.inj hsplit).1 ▸ List.mem_cons_self) hfront
    | cons first' front' =>
      obtain ⟨rfl, hrest⟩ := List.cons.inj hsplit
      obtain ⟨rfl, rfl⟩ := ih hrest (List.not_mem_of_not_mem_cons hfront)
        (List.not_mem_of_not_mem_cons hfront')
      exact ⟨rfl, rfl⟩

/-- A connection that has heard all lines, and has fared as connections do. -/
theorem Parted.lastWords {registered : Nat} {start : Session} {heard : List Text} {n : Net}
    (hp : Parted heard ms) (hf : Fared registered i h start ms n) :
    LastWords registered h start heard ms n := by
  obtain ⟨said, later, rfl, hfine, rfl⟩ := hp
  cases hf with
  | on hc hsocket talk =>
    exact absurd (List.mem_append_right _ List.mem_cons_self) talk.undisturbed
  | off hms talk since gone never =>
    -- Both tell of the first loss, so they split the account at the same moment.
    obtain ⟨rfl, rfl⟩ := first_split hms hfine talk.undisturbed
    rw [← talk.received_eq] at talk
    exact .intro rfl talk rfl hfine (path_unattached since) never gone.2

theorem LastWords.lost {registered : Nat} {start : Session} {heard : List Text} {n : Net}
    (hw : LastWords registered h start heard ms n) (hn : n.Sound) : n.socketOf i ≠ some h := by
  intro hi
  obtain ⟨s, hs, -⟩ := hn.pooled i h hi
  cases hw with
  | intro _ _ _ _ _ _ gone => exact absurd (gone.symm.trans hs) (by simp)

/-- A connection that receives a stream hears its lines as long as it is on the socket, and has had
its last words when it has lost it. -/
theorem Receives.told (hr : Receives i h b steps pieces) (hn : b.net.Sound)
    (hc : b.net.connections.get? i = some c) (hd : Due i h lines [] b.net s) :
    ((b.run steps).net.socketOf i = some h ∧
      (∃ last, Talk b.settings.registeredNumeric c.session
        (received (account i (b.history steps))) (account i (b.history steps)) last) ∧
      ∃ s', Due i h (fun more => lines (pieces ++ more)) (account i (b.history steps))
        (b.run steps).net s') ∨
    ((b.run steps).net.socketOf i ≠ some h ∧
      LastWords b.settings.registeredNumeric h c.session (lines pieces)
        (account i (b.history steps)) (b.run steps).net) := by
  have hmoves := moves_run hn steps
  have hbegun : Fared b.settings.registeredNumeric i h c.session [] b.net :=
    .on hc ((Net.socketOf_eq hc).symm.trans hd.current) .silent
  have hfared := hbegun.moves hn hmoves
  rw [List.nil_append] at hfared
  rcases hr.course hn hd with ⟨s', hd'⟩ | hparted
  · rw [List.nil_append] at hd'
    refine .inl ⟨hd'.current, ?_, s', hd'⟩
    cases hfared with
    | on hc' hsocket talk => exact ⟨_, talk.received_eq.symm ▸ talk⟩
    | off hms =>
      exact absurd (hms ▸ List.mem_append_right _ List.mem_cons_self) hd'.undisturbed
  · rw [List.nil_append] at hparted
    have hwords := hparted.lastWords hfared
    exact .inr ⟨hwords.lost (hmoves.sound hn), hwords⟩

/-- A pass that goes through all sockets and reads this one when its stream is at its end costs
the connection the socket. -/
theorem Due.lost {e : Pool.Readiness} (hn : b.net.Sound) (hd : Due i h lines ms b.net s)
    (hall : ∀ l, l ⊆ report.arrange l) (he : e ∈ report.ready) (hhandle : e.handle = h)
    (hreadable : e.readable = true) (hclosing : s.reader.source.Closing) :
    (b.step (.pollSockets report : Step κ γ ν)).net.socketOf i = none := by
  refine socketOf_fatal hn hall hd.current (.stopped he hhandle hreadable ?_)
  simp only [Pool.drain, hd.pooled, Option.isSome_map]
  exact Reader.drain_closing hclosing

theorem run_concat (b : Bot μ κ γ) (steps : List (Step κ γ ν)) (s : Step κ γ ν) :
    b.run (steps ++ [s]) = (b.run steps).step s := List.foldl_concat ..

/-- The lines that are to come from a sane buffer. -/
theorem Due.begin {n : Net} (hn : n.Sound) (hsane : n.Sane) (hi : n.socketOf i = some h)
    (hs : n.pool.socket? h = some s) (horderly : s.reader.source.Orderly) :
    Due i h (fun more => LineBuffer.deliver { limit := 8191 }
      (s.reader.buffer.bytes :: (s.reader.source.pieces ++ more))) [] n s := by
  obtain ⟨t, ht, hhung⟩ := hn.pooled i h hi
  cases hs.symm.trans ht
  obtain ⟨hscanned, hlimit⟩ := hsane h s hs
  refine ⟨hi, hs, hhung, horderly, List.not_mem_nil, fun more => ?_⟩
  rw [Reader.toCome_eq hscanned, hlimit]
  rfl

/-! ## A pass that reads to the end -/

omit [DecidableEq κ] in
/-- A pass that reads a socket to the end of its stream writes nothing to it any more. -/
theorem not_failsWrite_reading (hn : b.net.Sound) (hi : b.net.socketOf i = some h)
    (hs : b.net.pool.socket? h = some s) (hclosing : s.reader.source.Closing) :
    ¬ FailsWrite b (reading h) h := by
  let registered := b.settings.registeredNumeric
  let read := Pool.Audit.dispatch (conduct registered) b.auditOf h .readable
  have hrun : read.run = Pool.dispatch (conduct registered) b.auditOf.run h .readable :=
    Pool.Audit.dispatch_run ..
  obtain ⟨t, ht, hhung⟩ := hn.pooled i h hi
  cases hs.symm.trans ht
  have hopen : Open i h s b.auditOf.run := ⟨hi, hs, hhung⟩
  have hlost := hopen.dispatch_readable registered
  rw [if_pos (Reader.drain_closing hclosing), ← hrun] at hlost
  have hgone : read.socket? h = none := by
    obtain ⟨c, hc, hsocket⟩ := Option.bind_eq_some_iff.1 hi
    have hgoes : Goes registered b.auditOf.run read.run := hrun ▸ goes_dispatch .readable
    obtain ⟨events, -, hmoves⟩ := hgoes
    have hbegun : Fared registered i h c.session [] b.net := .on hc hsocket .silent
    cases hbegun.moves hn hmoves with
    | on hc' hsocket' =>
      exact absurd (hlost.symm.trans ((Net.socketOf_eq hc').trans hsocket')) (by simp)
    | off _ _ _ gone => exact gone.2
  -- What is gone has no more deeds, and reading is no flush.
  obtain ⟨entered, hentered, hquiet⟩ :=
    Pool.Audit.quiet_dispatch (c := conduct registered) b.auditOf h .readable
  rintro ⟨deeds, hdeeds, taken, e, hmem⟩
  have hbegun : Pool.Audit.Since read (([] : List Handle), read).2 := .refl read
  have hfinished : Pool.Audit.Since read
      (Pool.Audit.poll (conduct registered) (reading h) b.auditOf) := hbegun.finished (reading h)
  obtain ⟨more, hmore, hlife⟩ := hfinished.life h
  rw [hgone] at hlife
  obtain ⟨rfl, -⟩ := hlife.of_none
  rw [List.append_nil] at hmore
  have hflush : .flushed taken (.failed e) ∈ read.deeds h := by
    rw [← hmore, hdeeds]
    exact List.mem_append_right _ hmem
  obtain ⟨entry, hentry, hdeed⟩ := List.mem_map.1 hflush
  have hread : entry ∈ entered := by
    have hledger := List.mem_of_mem_filter hentry
    rwa [hentered] at hledger
  exact hquiet entry hread taken (.failed e) hdeed

/-- A stream that arrives on a new socket as a whole, and is read to its end. -/
theorem received_burst (hn : b.net.Sound) (hsane : b.net.Sane) (hi : b.net.socketOf i = some h)
    (hs : b.net.pool.socket? h = some s) (hreader : s.reader = {}) (hbytes : bytes ≠ []) :
    let steps : List (Step κ γ ν) :=
      [.disturb h (arriving bytes true), .pollSockets (reading h)]
    Receives i h b steps (Source.cut bytes) ∧
      received (account i (b.history steps)) =
        LineBuffer.deliver { limit := 8191 } ([] :: Source.cut bytes) := by
  intro steps
  let arrived := b.step (.disturb h (arriving bytes true) : Step κ γ ν)
  have hn' : arrived.net.Sound :=
    (moves_step hn (.disturb h (arriving bytes true) : Step κ γ ν)).sound hn
  have horderly : ∀ a ∈ [Arrival.data bytes], a.Orderly := by
    intro a ha
    rw [List.mem_singleton.1 ha]
    exact hbytes
  have hdue := Due.begin hn hsane hi hs (by rw [hreader]; simp [Source.Orderly])
  obtain ⟨t, hsource, hdue'⟩ :=
    hdue.arrive (f := arriving bytes true) (ν := ν) (fun _ => rfl) horderly
  have hclosing : t.reader.source.Closing := by
    rw [hsource, hreader]
    exact ⟨rfl, by simp [Source.extend]⟩
  have hwritten : ¬ FailsWrite arrived (reading h) h :=
    not_failsWrite_reading hn' hdue'.current hdue'.pooled hclosing
  constructor
  · have hpieces : [Arrival.data bytes].flatMap Arrival.pieces ++ [] = Source.cut bytes := by
      simp [Arrival.pieces]
    rw [← hpieces]
    exact .arrive _ true hi (fun _ => rfl) horderly
      (.pass hdue'.current (by simp [reading]) hwritten (.done _))
  · have hlost : (arrived.step (.pollSockets (reading h) : Step κ γ ν)).net.socketOf i = none :=
      hdue'.lost hn' (fun _ => List.Subset.refl _) List.mem_cons_self rfl rfl hclosing
    rcases hdue'.pollSockets (ν := ν) (by simp [reading]) hwritten with ⟨_, hkept⟩ | hended
    · exact absurd (hlost.symm.trans hkept.current) (by simp)
    · obtain ⟨said, hsaid, -, hheard⟩ := hended.heard
      have hhistory : b.history steps = [] ++ (arrived.entries _ ++ []) := rfl
      rw [List.nil_append] at hsaid
      have haccount : account i (b.history steps) = said ++ [.occurred .disconnected] := by
        rw [hhistory, List.nil_append, List.append_nil, hsaid]
      have hnone : received [.occurred .disconnected] = [] := rfl
      rw [haccount, received_append, hnone, List.append_nil, hheard, hreader]
      simp [Source.pieces, Arrival.pieces]

/-! ## All words, and the last -/

/-- **Last words.** After any run of a bot whose connections were new, let a connection be on a
socket whose stream is orderly, and receive what arrives on it while nobody closes it, no
error is reported for the socket and no write to it fails. The stream is what is buffered
and what arrives, in the pieces in which it is read.

- As long as the connection is on the socket it has heard the first lines of the stream, however
  that goes on.
- If it has lost the socket, it has heard all lines of the stream, one after the other and each
  in full, and was disconnected after that, once; an unterminated rest was not heard, and
  nothing of the stream is heard later.
- It does lose the socket when that is read at the end of its stream.
- The lines heard are all complete lines, if none is above the limit, unless a read cuts a line
  of just the limit between its carriage return and its line feed; and then they are not. -/
theorem run_last_words (b : Bot μ κ γ) (networks : List Config.Network)
    (earlier steps : List (Step κ γ ν)) (i : Nat) (h : Handle) (c : Connection) (s : Socket Role)
    (pieces : List Bytes)
    (hc : ({ b with net := .ofNetworks networks }.run earlier).connection? i = some c)
    (hsocket : c.session.socket = some h)
    (hs : ({ b with net := .ofNetworks networks }.run earlier).net.pool.socket? h = some s)
    (horderly : s.reader.source.Orderly)
    (hr : Receives i h ({ b with net := .ofNetworks networks }.run earlier) steps pieces) :
    let b₀ := { b with net := .ofNetworks networks }.run earlier
    let registered := b.settings.registeredNumeric
    let stream := s.reader.buffer.bytes :: (s.reader.source.pieces ++ pieces)
    let lines := LineBuffer.deliver { limit := 8191 } stream
    ((b₀.run steps).net.socketOf i = some h →
      ∃ last, Talk registered c.session (received (account i (b₀.history steps)))
          (account i (b₀.history steps)) last ∧
        ∀ more, received (account i (b₀.history steps)) <+:
          LineBuffer.deliver { limit := 8191 } (stream ++ more)) ∧
    ((b₀.run steps).net.socketOf i ≠ some h →
      LastWords registered h c.session lines (account i (b₀.history steps)) (b₀.run steps).net) ∧
    (∀ report s', (b₀.run steps).net.socketOf i = some h →
      (b₀.run steps).net.pool.socket? h = some s' → s'.reader.source.Closing →
      (∀ l, l ⊆ report.arrange l) → (∃ e ∈ report.ready, e.handle = h ∧ e.readable = true) →
      (∀ e ∈ report.ready, e.handle = h → e.error = false) →
      ¬ FailsWrite (b₀.run steps) report h →
      (b₀.run (steps ++ [.pollSockets report])).net.socketOf i = none ∧
        LastWords registered h c.session lines
          (account i (b₀.history (steps ++ [.pollSockets report])))
          (b₀.run (steps ++ [.pollSockets report])).net) ∧
    ((∀ line ∈ terminated lineFeed stream.flatten, (dropReturn line).length ≤ 8191) →
      (lines = Reader.linesIn stream.flatten ↔
        ∀ line ∈ terminated (some lineFeed) (withCuts stream), ¬ CutAtReturn 8191 line)) := by
  intro b₀ registered stream lines
  have hn : b₀.net.Sound := sound_run b networks earlier
  have hi : b₀.net.socketOf i = some h := (Net.socketOf_eq hc).trans hsocket
  have hd := Due.begin hn (sane_run b networks earlier) hi hs horderly
  have hregistered : b₀.settings.registeredNumeric = registered := by
    rw [settings_run]
  have htold := hr.told hn hc hd
  rw [hregistered] at htold
  refine ⟨fun hon => ?_, fun hlost => ?_, ?_, LineBuffer.deliver_complete_iff (by simp) stream⟩
  · obtain ⟨-, htalk, s', hd'⟩ := htold.resolve_right fun hlost => hlost.1 hon
    refine ⟨_, htalk.choose_spec, fun more => ?_⟩
    have hrest := hd'.rest more
    rw [← List.append_assoc] at hrest
    exact ⟨_, hrest.symm⟩
  · exact (htold.resolve_left fun hon => hlost hon.1).2
  · rintro report s' hon hs' hclosing hall ⟨e, he, hhandle, hreadable⟩ hfine hwritten
    obtain ⟨-, -, t, hd'⟩ := htold.resolve_right fun hlost => hlost.1 hon
    cases hs'.symm.trans hd'.pooled
    have hlost := hd'.lost (ν := ν) ((moves_run hn steps).sound hn) hall he hhandle hreadable
      hclosing
    rw [← run_concat] at hlost
    have htold := (hr.concat hon hfine hwritten).told hn hc hd
    rw [hregistered] at htold
    exact ⟨hlost, (htold.resolve_left fun hon => absurd (hlost.symm.trans hon.1) (by simp)).2⟩

/-- A connection gets a socket, and says who it is. -/
def greeting : List (Step Unit Unit Unit) :=
  [.order 0 (.connect (.ok {})), .pollSockets { ready := [] }]

/-- A line of which the line end is cut, and a rest that is not terminated, in two bursts. -/
def twoBursts : List (Step Unit Unit Unit) :=
  [.disturb 0 (arriving [97, 13] false), .pollSockets { ready := [] },
    .disturb 0 (arriving [10, 98] true)]

theorem receives_twoBursts :
    Receives 0 0 (onOneNetwork.run greeting) twoBursts [[97, 13], [10, 98]] := by
  let arrived := (onOneNetwork.run greeting).step
    (.disturb 0 (arriving [97, 13] false) : Step Unit Unit Unit)
  have hidle : ¬ FailsWrite arrived { ready := [] } 0 := by
    rintro ⟨deeds, hdeeds, taken, e, hmem⟩
    have hnothing : (Pool.Audit.poll (conduct 1) { ready := [] } arrived.auditOf).deeds 0 = [] :=
      List.eq_nil_of_length_eq_zero (by decide +kernel)
    obtain rfl : deeds = [] := hdeeds.symm.trans hnothing
    exact List.not_mem_nil hmem
  have hpieces : [Arrival.data [97, 13]].flatMap Arrival.pieces ++
      ([Arrival.data [10, 98]].flatMap Arrival.pieces ++ []) = [[97, 13], [10, 98]] := by decide +kernel
  rw [← hpieces]
  exact .arrive _ false (by decide +kernel) (fun _ => rfl) (by simp [Arrival.Orderly])
    (.pass (by decide +kernel) (by simp) hidle
      (.arrive _ true (by decide +kernel) (fun _ => rfl) (by simp [Arrival.Orderly]) (.done _)))

theorem run_last_words_of_two_bursts :
    ∃ c, (onOneNetwork.run greeting).connection? 0 = some c ∧
      LastWords 1 0 c.session ["a".toList]
        (account 0 ((onOneNetwork.run greeting).history
          (twoBursts ++ [.pollSockets (reading 0)])))
        ((onOneNetwork.run greeting).run (twoBursts ++ [.pollSockets (reading 0)])).net := by
  let begun := onOneNetwork.run greeting
  have hopen : begun.net.socketOf 0 = some 0 := by decide +kernel
  have hfresh : (begun.net.pool.socket? 0).map (·.reader) = some {} := by decide +kernel
  have hon : (begun.run twoBursts).net.socketOf 0 = some 0 := by decide +kernel
  have hend : ((begun.run twoBursts).net.pool.socket? 0).map (·.reader.source) =
      some { arrivals := [.data [97, 13], .data [10, 98]], ended := true } := by decide +kernel
  obtain ⟨c, hc, hsocket⟩ := Option.bind_eq_some_iff.1 hopen
  obtain ⟨s, hs, hreader⟩ := Option.map_eq_some_iff.1 hfresh
  obtain ⟨s', hs', hsource⟩ := Option.map_eq_some_iff.1 hend
  have hclosing : s'.reader.source.Closing := by
    rw [hsource]
    exact ⟨rfl, by simp⟩
  have hsound : (begun.run twoBursts).net.Sound :=
    (moves_run (sound_run onOneNetwork oneNetwork greeting) twoBursts).sound
      (sound_run onOneNetwork oneNetwork greeting)
  have hlines : LineBuffer.deliver { limit := 8191 }
      (s.reader.buffer.bytes :: (s.reader.source.pieces ++ [[97, 13], [10, 98]])) =
      ["a".toList] := by
    rw [hreader]
    decide +kernel
  have hwords := (run_last_words onOneNetwork oneNetwork greeting twoBursts 0 0 c s _ hc hsocket
    hs (by rw [hreader]; simp [Source.Orderly]) receives_twoBursts).2.2.1 (reading 0) s' hon hs'
    hclosing (fun _ => List.Subset.refl _) ⟨_, List.mem_cons_self, rfl, rfl⟩ (by simp [reading])
    (not_failsWrite_reading hsound hon hs' hclosing)
  rw [hlines] at hwords
  exact ⟨c, hc, hwords.2⟩

/-- Of a stream that ends after a single line of just the limit, this line is not heard: the last
read finds its line feed alone. -/
theorem longest_line_not_heard :
    let line := List.replicate 8191 120 ++ [13, 10]
    let steps : List (Step Unit Unit Unit) :=
      [.disturb 0 (arriving line true), .pollSockets (reading 0)]
    Receives 0 0 (onOneNetwork.run greeting) steps (Source.cut line) ∧
      (∀ segment ∈ terminated lineFeed line, (dropReturn segment).length ≤ 8191) ∧
      received (account 0 ((onOneNetwork.run greeting).history steps)) ≠ Reader.linesIn line := by
  intro line steps
  have hopen : (onOneNetwork.run greeting).net.socketOf 0 = some 0 := by decide +kernel
  have hfresh : ((onOneNetwork.run greeting).net.pool.socket? 0).map (·.reader) = some {} := by
    decide +kernel
  obtain ⟨s, hs, hreader⟩ := Option.map_eq_some_iff.1 hfresh
  obtain ⟨hreceives, hreceived⟩ := received_burst (ν := Unit)
    (sound_run onOneNetwork oneNetwork greeting) (sane_run onOneNetwork oneNetwork greeting) hopen
    hs hreader (show line ≠ [] from List.append_ne_nil_of_right_ne_nil _ (by simp))
  obtain ⟨hfit, hmissed⟩ := LineBuffer.deliver_line_ne (show 4095 + 1 = Source.chunk from rfl)
    (show (120 : UInt8) ≠ lineFeed by decide)
  exact ⟨hreceives, hfit, fun hall => hmissed (hreceived.symm.trans hall)⟩

end IrcBot.Bot
