/-
Every fault is reported, each as often as it occurs. The rules are told here without the names that
validation gathers on its way: a network is a duplicate if an earlier one has its name, up to the
case of ASCII letters. The list of faults is, part by part, the violations of these rules, so the
share that a network has in it depends on the others by their names alone (`faults_complete`).
-/
import IrcBot.Config.Validation
import Mathlib.Data.List.TakeWhile

namespace IrcBot

theorem Text.trimBlank_eq_nil_iff {t : Text} : trimBlank t = [] ↔ t.all isBlank = true := by
  simp only [trimBlank, trim, dropEndWhile, List.reverse_eq_nil_iff, List.dropWhile_eq_nil_iff,
    List.mem_reverse, List.all_eq_true]
  constructor
  · intro h c hc
    rw [← List.takeWhile_append_dropWhile (p := isBlank) (l := t), List.mem_append] at hc
    rcases hc with hc | hc
    · exact List.all_eq_true.1 List.all_takeWhile c hc
    · exact h c hc
  · intro h c hc
    exact h c ((List.dropWhile_suffix isBlank).subset hc)

namespace Config

/-! ## The rules -/

/-- The rules for the bot, apart from its modules. -/
def Bot.violations (b : Bot) : List Fault :=
  (if b.commandMark = [] then [.emptyCommandMark] else []) ++
    (if 1 ≤ b.registeredNumeric ∧ b.registeredNumeric ≤ 999 then []
      else [.invalidNumeric b.registeredNumeric])

/-- Every module has to be one of those that come with the bot. -/
def Bot.unknownModules (b : Bot) : List Fault :=
  (b.modules.filter (· ∉ Builtin.Kind.all.map Builtin.Kind.name)).map .unknownModule

def Sockets.violations (s : Sockets) : List Fault :=
  (if s.pollTimeout = 0 then [.zeroPollTimeout] else []) ++
    (if s.connectTimeout = 0 then [.zeroConnectTimeout] else [])

/-- The rules for the name of a network, which has to differ from those of the earlier ones. -/
def Network.nameViolations (earlier : List Network) (n : Network) : List Fault :=
  if n.name = [] then [.emptyName]
  else if ∃ e ∈ earlier, Text.sameLetters e.name n.name = true then [.duplicateNetwork n.name]
  else []

/-- The rules for everything else in a network. -/
def Network.violations (n : Network) : List Fault :=
  (if n.host.all Text.isBlank then [.emptyHost n.name] else []) ++
    (if n.port = 0 then [.zeroPort n.name] else []) ++
    (if n.nicks = [] then [.noNicks n.name] else []) ++
    (n.nicks.filter (Nick.isValid · = false)).map (.invalidNick n.name) ++
    (n.channels.filter (ChannelName.isValid ChannelName.defaultTypes · = false)).map
      (.invalidChannel n.name)

/-- The violations of the network in one place of a list. -/
def share (networks : List Network) (i : Nat) : List Fault :=
  networks[i]?.elim [] fun n => n.nameViolations (networks.take i) ++ n.violations

/-- The violations of all rules, in the order in which they are reported. -/
def violations (c : Config) : List Fault :=
  c.bot.violations ++ c.bot.unknownModules ++ c.sockets.violations ++
    (if c.networks = [] then [.noNetworks] else []) ++
    (List.range c.networks.length).flatMap (share c.networks)

def Fault.isDuplicate : Fault → Bool
  | .duplicateNetwork _ => true
  | _ => false

variable {n : Network} {earlier networks : List Network} {seen : List Text} {i : Nat}

/-! ## Each part of the list -/

theorem faults_bot (b : Bot) : b.faults = b.violations ++ b.unknownModules := by
  have hunknown (m : Text) : (Builtin.Kind.ofName? m).isNone =
      decide (m ∉ Builtin.Kind.all.map Builtin.Kind.name) := by
    rw [Bool.eq_iff_iff]
    simp [Builtin.Kind.ofName?]
  have hnumeric : faultIf (!(1 ≤ b.registeredNumeric && b.registeredNumeric ≤ 999))
      (.invalidNumeric b.registeredNumeric) =
      if 1 ≤ b.registeredNumeric ∧ b.registeredNumeric ≤ 999 then []
        else [.invalidNumeric b.registeredNumeric] := by
    simp only [faultIf, ← Bool.decide_and, Bool.not_eq_true', decide_eq_false_iff_not, ite_not]
  rw [Bot.faults, hnumeric]
  simp only [hunknown, Bot.violations, Bot.unknownModules, faultIf, List.isEmpty_iff]

theorem faults_sockets (s : Sockets) : s.faults = s.violations := by
  simp only [Sockets.faults, Sockets.violations, faultIf, beq_iff_eq]

theorem ownFaults_eq : n.ownFaults = n.violations := by
  have hnot (valid : Text → Bool) (l : List Text) :
      (l.filter fun t => !valid t) = l.filter (valid · = false) :=
    List.filter_congr fun t _ => by cases valid t <;> rfl
  simp only [Network.ownFaults, Network.violations, faultIf, List.isEmpty_iff,
    Text.trimBlank_eq_nil_iff, beq_iff_eq, hnot]

/-- The names gathered so far are those of the networks gone through, in lower case. -/
def Gathered (seen : List Text) (earlier : List Network) : Prop :=
  ∀ name, name ∈ seen ↔ ∃ e ∈ earlier, e.name ≠ [] ∧ Text.toLower e.name = name

theorem Gathered.next (h : Gathered seen earlier) (n : Network) :
    Gathered (if n.name.isEmpty then seen else Text.toLower n.name :: seen) (earlier ++ [n]) := by
  intro name
  by_cases hn : n.name = []
  · simp [hn, h name]
  · rw [if_neg (by simpa using hn), List.mem_cons, h name]
    simp only [List.mem_append, List.mem_singleton, or_and_right, exists_or, exists_eq_left]
    grind

theorem nameFaults_eq (h : Gathered seen earlier) :
    n.nameFaults seen = n.nameViolations earlier := by
  unfold Network.nameFaults Network.nameViolations faultIf
  by_cases hn : n.name = []
  · simp [hn]
  · have hseen : seen.contains (Text.toLower n.name) = true ↔
        ∃ e ∈ earlier, Text.sameLetters e.name n.name = true := by
      rw [List.contains_iff_mem, h]
      refine exists_congr fun e => and_congr_right fun _ => ?_
      rw [Text.sameLetters, beq_iff_eq, and_iff_right_iff_imp]
      -- a name with the letters of one that is not empty is not empty either
      rintro hsame hempty
      rw [hempty] at hsame
      exact hn (List.map_eq_nil_iff.1 hsame.symm)
    rw [if_neg (by simpa using hn), if_neg hn]
    simp only [hseen]

/-- Going on after some networks, each has the share of its place in the whole list. -/
theorem networkFaults_eq (h : Gathered seen earlier) :
    networkFaults seen networks = (List.range networks.length).flatMap fun i =>
      share (earlier ++ networks) (earlier.length + i) := by
  induction networks generalizing seen earlier with
  | nil => rfl
  | cons n rest ih =>
    have hfirst : share (earlier ++ n :: rest) (earlier.length + 0) =
        n.nameViolations earlier ++ n.violations := by simp [share]
    have hrest (i : Nat) : share (earlier ++ n :: rest) (earlier.length + (i + 1)) =
        share (earlier ++ [n] ++ rest) ((earlier ++ [n]).length + i) := by
      rw [List.append_assoc, List.singleton_append, List.length_append, List.length_singleton,
        Nat.add_assoc, Nat.add_comm 1 i]
    rw [networkFaults, nameFaults_eq h, ownFaults_eq, ih (h.next n), List.length_cons,
      List.range_succ_eq_map, List.flatMap_cons, List.flatMap_map, hfirst]
    simp only [hrest]

theorem duplicate_mem_nameViolations : .duplicateNetwork n.name ∈ n.nameViolations earlier ↔
    n.name ≠ [] ∧ ∃ e ∈ earlier, Text.sameLetters e.name n.name = true := by
  unfold Network.nameViolations
  split
  · next hempty => simp [hempty]
  · next hne =>
    split
    · next hdup => simp [hne, hdup]
    · next hnew => simp [hne, hnew]

theorem not_isDuplicate_of_mem_violations {fault : Fault} (h : fault ∈ n.violations) :
    fault.isDuplicate = false := by
  simp only [Network.violations, List.mem_append, List.mem_map, List.mem_ite_nil_right,
    List.mem_singleton] at h
  rcases h with (((⟨-, rfl⟩ | ⟨-, rfl⟩) | ⟨-, rfl⟩) | ⟨-, -, rfl⟩) | ⟨-, -, rfl⟩ <;> rfl

/-- What is wrong with the name, but for that it is taken. -/
theorem filter_nameViolations : (n.nameViolations earlier).filter (!·.isDuplicate) =
    if n.name = [] then [.emptyName] else [] := by
  unfold Network.nameViolations
  split
  · rfl
  · split <;> rfl

/-! ## The whole list -/

theorem share_of_getElem? (h : networks[i]? = some n) :
    share networks i = n.nameViolations (networks.take i) ++ n.violations := by
  simp only [share, h, Option.elim_some]

theorem duplicate_mem_share_iff (h : networks[i]? = some n) :
    .duplicateNetwork n.name ∈ share networks i ↔ n.name ≠ [] ∧
      ∃ j < i, ∃ e, networks[j]? = some e ∧ Text.sameLetters e.name n.name = true := by
  have hown : Fault.duplicateNetwork n.name ∉ n.violations := fun hmem => by
    cases not_isDuplicate_of_mem_violations hmem
  rw [share_of_getElem? h, List.mem_append, or_iff_left hown, duplicate_mem_nameViolations]
  refine and_congr_right fun _ => ?_
  constructor
  · rintro ⟨e, he, hsame⟩
    obtain ⟨j, hj⟩ := List.mem_iff_getElem?.1 he
    rw [List.getElem?_take] at hj
    split at hj
    · next hlt => exact ⟨j, hlt, e, hj, hsame⟩
    · cases hj
  · rintro ⟨j, hlt, e, hj, hsame⟩
    refine ⟨e, List.mem_iff_getElem?.2 ⟨j, ?_⟩, hsame⟩
    rw [List.getElem?_take, if_pos hlt, hj]

/-- The part of a network's share that it has wherever it stands. -/
theorem filter_share (h : networks[i]? = some n) : (share networks i).filter (!·.isDuplicate) =
    (if n.name = [] then [.emptyName] else []) ++ n.violations := by
  rw [share_of_getElem? h, List.filter_append, filter_nameViolations,
    List.filter_eq_self.2 fun fault hmem => by rw [not_isDuplicate_of_mem_violations hmem]; rfl]

theorem faults_eq_violations (c : Config) : c.faults = c.violations := by
  have hnone : Gathered [] [] := fun name => by simp
  rw [Config.faults, violations, faults_bot, faults_sockets, networkFaults_eq hnone]
  simp only [faultIf, List.isEmpty_iff, List.nil_append, List.length_nil, Nat.zero_add]

/--
Validation reports the violations of all rules, each as often as it occurs, and accepts exactly
the configurations without any. A network is a duplicate if and only if it has a name and an
earlier one has the same, up to the case of ASCII letters. Whatever else is reported of it, is
reported of it in every configuration and in every place.
-/
theorem validate_complete (c : Config) :
    c.validate = (if c.violations = [] then .ok () else .error c.violations) ∧
      (∀ i n, c.networks[i]? = some n →
        (.duplicateNetwork n.name ∈ share c.networks i ↔ n.name ≠ [] ∧
          ∃ j < i, ∃ e, c.networks[j]? = some e ∧ Text.sameLetters e.name n.name = true)) ∧
      ∀ (other : Config) i j n, c.networks[i]? = some n → other.networks[j]? = some n →
        (share c.networks i).filter (!·.isDuplicate) =
          (share other.networks j).filter (!·.isDuplicate) := by
  refine ⟨?_, fun i n hi => duplicate_mem_share_iff hi, fun other i j n hi hj => ?_⟩
  · rw [Config.validate, faults_eq_violations]
    simp only [List.isEmpty_iff]
  · rw [filter_share hi, filter_share hj]

/-- Two networks of one name, up to case: each has its own faults, the second is a duplicate. -/
theorem validate_complete_of_two :
    let first : Network :=
      { name := ['a'], host := [' '], port := 0, nicks := ["9bad".toList],
        channels := ["nochan".toList] }
    let second : Network := { name := ['A'], host := ['h'], nicks := [] }
    let c : Config := { networks := [first, second] }
    c.validate = .error [.emptyHost ['a'], .zeroPort ['a'], .invalidNick ['a'] "9bad".toList,
        .invalidChannel ['a'] "nochan".toList, .duplicateNetwork ['A'], .noNicks ['A']] ∧
      .duplicateNetwork ['A'] ∈ share c.networks 1 ∧
      (share c.networks 1).filter (!·.isDuplicate) =
        (share [second] 0).filter (!·.isDuplicate) := by
  intro first second c
  obtain ⟨hvalidate, hduplicate, halone⟩ := validate_complete c
  exact ⟨hvalidate.trans (by decide +kernel), (hduplicate 1 second rfl).2 ⟨by decide, 0, by decide,
    first, rfl, by decide⟩, halone { networks := [second] } 1 0 second rfl rfl⟩

/-- The modules are looked at before the sockets: an unknown one is reported ahead of a timeout. -/
theorem modules_before_sockets : ¬ ∀ c : Config, ∀ faults, c.validate = .error faults →
    faults = c.bot.violations ++ c.sockets.violations ++ c.bot.unknownModules ++
      (if c.networks = [] then [.noNetworks] else []) ++
      (List.range c.networks.length).flatMap (share c.networks) := by
  intro h
  let network : Network := { name := "test".toList, host := ['h'], nicks := ["prebot".toList] }
  let c : Config :=
    { bot := { modules := ["nope".toList] }, sockets := { pollTimeout := 0 },
      networks := [network] }
  have hreported : c.validate = .error [.unknownModule "nope".toList, .zeroPollTimeout] := by
    decide +kernel
  exact absurd (h c _ hreported) (by decide +kernel)

end Config

end IrcBot
