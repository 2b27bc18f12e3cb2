/-
Status letters and their symbols. An announcement that is accepted has as many of the one as of the
other, so every symbol has a letter: the one in the place where the symbol stands first. In front of
a nick all symbols are therefore taken off and none is lost on the way (`strip_takes_all`). If no
letter and no symbol is announced twice, each symbol stands for one letter and each letter has one
symbol, so a row of symbols is in the order of the announcement exactly if the row of its letters
is.
-/
import IrcBot.Server.Isupport
import Mathlib.Data.List.Nodup

namespace IrcBot

section Lookup

variable {α β : Type} [DecidableEq α] {a : α} {b : β}

theorem lookup_eq_some_iff_mem {l : List (α × β)} (hl : (l.map Prod.fst).Nodup) :
    l.lookup a = some b ↔ (a, b) ∈ l := by
  induction l with
  | nil => simp
  | cons e l ih =>
    obtain ⟨a', b'⟩ := e
    obtain ⟨hnot, hl⟩ := List.nodup_cons.1 hl
    rw [List.lookup_cons, List.mem_cons, Prod.mk.injEq]
    by_cases he : a = a'
    · subst he
      have hout : (a, b) ∉ l := fun hmem => hnot (List.mem_map.2 ⟨_, hmem, rfl⟩)
      simp [hout, eq_comm]
    · rw [beq_false_of_ne he, ih hl]
      simp [he]

/-- What is looked up is what stands in the place where the key stands first. -/
theorem lookup_zip {as : List α} {bs : List β} (hlength : bs.length ≤ as.length) :
    (as.zip bs).lookup a = bs[as.idxOf a]? := by
  induction as generalizing bs with
  | nil =>
    obtain rfl : bs = [] := List.eq_nil_of_length_eq_zero (Nat.le_zero.1 hlength)
    rfl
  | cons a' as ih =>
    cases bs with
    | nil => simp
    | cons b bs =>
      rw [List.zip_cons_cons, List.lookup_cons, List.idxOf_cons]
      by_cases he : a = a'
      · simp [he]
      · rw [beq_false_of_ne he, beq_false_of_ne (Ne.symm he), ih (Nat.le_of_succ_le_succ hlength)]
        rfl

/-- What is looked up for all that is paired is all that it is paired with. -/
theorem filterMap_lookup_zip {as : List α} {bs : List β} (has : as.Nodup)
    (hlength : as.length = bs.length) : as.filterMap (List.lookup · (as.zip bs)) = bs := by
  induction as generalizing bs with
  | nil => simpa using hlength.symm
  | cons a as ih =>
    cases bs with
    | nil => cases hlength
    | cons b bs =>
      obtain ⟨hnot, has⟩ := List.nodup_cons.1 has
      have hrest : as.filterMap (List.lookup · ((a, b) :: as.zip bs)) =
          as.filterMap (List.lookup · (as.zip bs)) := by
        refine List.filterMap_congr fun x hx => ?_
        have hne : x ≠ a := fun he => hnot (he ▸ hx)
        rw [List.lookup_cons, beq_false_of_ne hne]
      rw [List.zip_cons_cons, List.filterMap_cons, List.lookup_cons_self, hrest,
        ih has (Nat.succ.inj hlength)]

end Lookup

theorem map_some_filterMap {α β : Type} {f : α → Option β} {l : List α}
    (h : ∀ a ∈ l, (f a).isSome) : (l.filterMap f).map some = l.map f := by
  induction l with
  | nil => rfl
  | cons a l ih =>
    obtain ⟨ha, hl⟩ := List.forall_mem_cons.1 h
    obtain ⟨b, hb⟩ := Option.isSome_iff_exists.1 ha
    rw [List.filterMap_cons_some hb, List.map_cons, List.map_cons, hb, ih hl]

namespace Status

/-- Letters and symbols are paired one to one. -/
structure Paired (s : Status) : Prop where
  modes : s.modes.Nodup
  symbols : s.symbols.Nodup
  length_eq : s.modes.length = s.symbols.length

variable {s : Status} {entry t lead : Text} {mode symbol : Char}

/-- An announcement is accepted as just the status it is written for. -/
theorem parse?_eq_some_iff : parse? t = some s ↔
    t = '(' :: s.modes ++ ')' :: s.symbols ∧ ')' ∉ s.modes ∧
      s.modes.length = s.symbols.length := by
  constructor
  · intro h
    unfold parse? at h
    split at h
    · next t =>
      simp only [Option.bind_eq_bind, Option.bind_eq_some_iff] at h
      obtain ⟨⟨modes, symbols⟩, hcut, hsome⟩ := h
      simp only [Option.ite_none_right_eq_some, Option.some.injEq] at hsome
      obtain ⟨hlength, rfl⟩ := hsome
      obtain ⟨rfl, hmodes⟩ := Text.cut?_eq_some_iff.1 hcut
      exact ⟨rfl, hmodes, hlength⟩
    · cases h
  · rintro ⟨rfl, hmodes, hlength⟩
    have hcut : Text.cut? ')' (s.modes ++ ')' :: s.symbols) = some (s.modes, s.symbols) :=
      Text.cut?_eq_some_iff.2 ⟨rfl, hmodes⟩
    simp [parse?, hcut, hlength]

/-! ## Places -/

section Places

variable (hlength : s.modes.length = s.symbols.length)

include hlength

theorem mode?_eq : s.mode? symbol = s.modes[s.symbols.idxOf symbol]? :=
  lookup_zip (Nat.le_of_eq hlength)

theorem symbol?_eq : s.symbol? mode = s.symbols[s.modes.idxOf mode]? :=
  lookup_zip (Nat.le_of_eq hlength.symm)

theorem isSome_mode?_iff : (s.mode? symbol).isSome ↔ symbol ∈ s.symbols := by
  rw [mode?_eq hlength, isSome_getElem?, hlength, List.idxOf_lt_length_iff]

theorem isSome_symbol?_iff : (s.symbol? mode).isSome ↔ mode ∈ s.modes := by
  rw [symbol?_eq hlength, isSome_getElem?, ← hlength, List.idxOf_lt_length_iff]

end Places

theorem isSymbol_iff : s.isSymbol symbol = true ↔ symbol ∈ s.symbols := List.contains_iff_mem

theorem mem_symbols_of_mem_takeWhile (h : symbol ∈ entry.takeWhile s.isSymbol) :
    symbol ∈ s.symbols :=
  isSymbol_iff.1 (List.all_eq_true.1 List.all_takeWhile symbol h)

/-- What is left of an entry does not start with a symbol. -/
theorem not_mem_head?_strip (h : symbol ∈ (s.strip entry).2.head?) : symbol ∉ s.symbols := by
  have hhead := List.head?_dropWhile_not s.isSymbol entry
  rw [show (entry.dropWhile s.isSymbol).head? = some symbol from h] at hhead
  intro hmem
  exact Bool.false_ne_true (hhead.symm.trans (isSymbol_iff.2 hmem))

/-- Symbols in front of an entry are all taken off. -/
theorem prefix_takeWhile (hlead : lead <+: entry) (hsymbols : ∀ c ∈ lead, c ∈ s.symbols) :
    lead <+: entry.takeWhile s.isSymbol := by
  obtain ⟨rest, rfl⟩ := hlead
  rw [List.takeWhile_append_of_pos fun c hc => isSymbol_iff.2 (hsymbols c hc)]
  exact List.prefix_append lead _

/-! ## One letter a symbol, one symbol a letter -/

theorem Paired.lookup_modes (h : s.Paired) :
    s.symbol? mode = some symbol ↔ (mode, symbol) ∈ s.modes.zip s.symbols := by
  refine lookup_eq_some_iff_mem ?_
  rw [List.map_fst_zip (Nat.le_of_eq h.length_eq)]
  exact h.modes

theorem Paired.lookup_symbols (h : s.Paired) :
    s.mode? symbol = some mode ↔ (symbol, mode) ∈ s.symbols.zip s.modes := by
  refine lookup_eq_some_iff_mem ?_
  rw [List.map_fst_zip (Nat.le_of_eq h.length_eq.symm)]
  exact h.symbols

/-- A letter has a symbol exactly if this stands for it. -/
theorem Paired.symbol?_iff (h : s.Paired) :
    s.symbol? mode = some symbol ↔ s.mode? symbol = some mode := by
  rw [h.lookup_modes, h.lookup_symbols]
  simp only [List.mem_iff_getElem?, List.getElem?_zip_eq_some, and_comm]

/-- Symbols are got back from their letters. -/
theorem Paired.symbols_of_modes (h : s.Paired) (hlead : ∀ symbol ∈ lead, symbol ∈ s.symbols) :
    (lead.filterMap s.mode?).filterMap s.symbol? = lead := by
  induction lead with
  | nil => rfl
  | cons symbol lead ih =>
    obtain ⟨hsymbol, hlead⟩ := List.forall_mem_cons.1 hlead
    obtain ⟨mode, hmode⟩ := Option.isSome_iff_exists.1 ((isSome_mode?_iff h.length_eq).2 hsymbol)
    rw [List.filterMap_cons_some hmode, List.filterMap_cons_some (h.symbol?_iff.2 hmode),
      ih hlead]

/-- The letters of an entry are in order exactly if its symbols are. -/
theorem Paired.strip_sublist_iff (h : s.Paired) :
    (s.strip entry).1.Sublist s.modes ↔ (entry.takeWhile s.isSymbol).Sublist s.symbols := by
  have hmodes : s.symbols.filterMap s.mode? = s.modes :=
    filterMap_lookup_zip h.symbols h.length_eq.symm
  have hsymbols : s.modes.filterMap s.symbol? = s.symbols :=
    filterMap_lookup_zip h.modes h.length_eq
  have hback : (s.strip entry).1.filterMap s.symbol? = entry.takeWhile s.isSymbol :=
    h.symbols_of_modes fun _ => mem_symbols_of_mem_takeWhile
  constructor
  · intro hsub
    rw [← hback, ← hsymbols]
    exact hsub.filterMap s.symbol?
  · intro hsub
    rw [← hmodes]
    exact hsub.filterMap s.mode?

/-- **Symbols are taken off completely, and none is lost.** Take any announcement that is accepted
and any entry. The entry is a row of symbols and what is left of it. This row is the longest there
is: what is left starts with no symbol, and every row of symbols in front of the entry is part of
it. It is turned into as many letters, in its order, each of them from the place where its symbol
is announced first. If no letter and no symbol is announced twice, then letters and symbols stand
for each other one to one, and the letters give back the row. -/
theorem strip_takes_all (h : parse? t = some s) (entry : Text) :
    ∃ lead, entry = lead ++ (s.strip entry).2 ∧ (∀ symbol ∈ lead, symbol ∈ s.symbols) ∧
      (∀ symbol ∈ (s.strip entry).2.head?, symbol ∉ s.symbols) ∧
      (∀ row, row <+: entry → (∀ symbol ∈ row, symbol ∈ s.symbols) → row <+: lead) ∧
      (s.strip entry).1.map some = lead.map (fun symbol => s.modes[s.symbols.idxOf symbol]?) ∧
      (s.modes.Nodup → s.symbols.Nodup →
        (∀ mode, (s.symbol? mode).isSome ↔ mode ∈ s.modes) ∧
        (∀ symbol, (s.mode? symbol).isSome ↔ symbol ∈ s.symbols) ∧
        (∀ mode symbol, s.symbol? mode = some symbol ↔ s.mode? symbol = some mode) ∧
        (s.strip entry).1.filterMap s.symbol? = lead) := by
  obtain ⟨-, -, hlength⟩ := parse?_eq_some_iff.1 h
  refine ⟨entry.takeWhile s.isSymbol, List.takeWhile_append_dropWhile.symm,
    fun _ => mem_symbols_of_mem_takeWhile, fun _ => not_mem_head?_strip,
    fun _ => prefix_takeWhile, ?_, fun hmodes hsymbols => ?_⟩
  · have hletters : (s.strip entry).1.map some = (entry.takeWhile s.isSymbol).map s.mode? :=
      map_some_filterMap fun symbol hmem =>
        (isSome_mode?_iff hlength).2 (mem_symbols_of_mem_takeWhile hmem)
    rw [hletters]
    exact List.map_congr_left fun symbol _ => mode?_eq hlength
  · have hpaired : s.Paired := ⟨hmodes, hsymbols, hlength⟩
    exact ⟨fun _ => isSome_symbol?_iff hlength, fun _ => isSome_mode?_iff hlength,
      fun _ _ => hpaired.symbol?_iff,
      hpaired.symbols_of_modes fun _ => mem_symbols_of_mem_takeWhile⟩

/-- Letters and symbols of several bytes, and one symbol twice in front of a nick. -/
theorem strip_takes_all_of_stars :
    let s : Status := ⟨['ö', 'v'], ['★', '+']⟩
    let entry := "★+★älice+".toList
    parse? "(öv)★+".toList = some s ∧
      ∃ lead, entry = lead ++ (s.strip entry).2 ∧ (∀ symbol ∈ lead, symbol ∈ s.symbols) ∧
        (∀ symbol ∈ (s.strip entry).2.head?, symbol ∉ s.symbols) ∧
        (s.strip entry).1.map some = lead.map (fun symbol => s.modes[s.symbols.idxOf symbol]?) ∧
        (s.strip entry).1.filterMap s.symbol? = lead ∧
        s.strip entry = (['ö', 'v', 'ö'], "älice+".toList) := by
  intro s entry
  have hparse : parse? "(öv)★+".toList = some s := by decide
  obtain ⟨lead, hentry, hsymbols, hrest, -, hletters, hpaired⟩ := strip_takes_all hparse entry
  obtain ⟨-, -, -, hback⟩ := hpaired (by decide) (by decide)
  exact ⟨hparse, lead, hentry, hsymbols, hrest, hletters, hback, by decide⟩

end Status

/-- As many letters are announced as symbols. -/
theorem Isupport.length_status (s : Isupport) :
    s.status.modes.length = s.status.symbols.length := by
  unfold status
  cases hstatus : (s.value? "PREFIX".toList).bind Status.parse? with
  | none => rfl
  | some status =>
    obtain ⟨t, -, hparse⟩ := Option.bind_eq_some_iff.1 hstatus
    exact (Status.parse?_eq_some_iff.1 hparse).2.2

end IrcBot
