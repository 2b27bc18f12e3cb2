/-
The grammar of a line, and what reading takes from it. `Carries` relates a line
to a message by the grammar alone: an opening with the source, the command, and
the parameters with spaces before each. Reading a line whose command is followed
by a space, or by nothing, is exactly that relation (`parse_followed_iff`).
Where anything else follows the command directly, the line is read all the same
and what follows is lost.
-/
import IrcBot.Wire.Message
import Mathlib.Data.List.TakeWhile

namespace IrcBot.Message

/-! ## Words, gaps and parameters -/

/-- What may stand before a command, and nowhere else but in a trailing parameter. -/
def isGap (c : Char) : Bool := c == ' ' || c == '\t'

/-- A word that can be the source of a message. -/
def IsSource (t : Text) : Prop := t ≠ [] ∧ ' ' ∉ t

/-- A word of ASCII letters, or three digits. -/
def IsCommand (t : Text) : Prop :=
  (t ≠ [] ∧ ∀ c ∈ t, c.isAlpha = true) ∨ (t.length = 3 ∧ ∀ c ∈ t, c.isDigit = true)

/-- A word that can be a parameter without a colon before it. -/
def IsMiddle (t : Text) : Prop := t ≠ [] ∧ ' ' ∉ t ∧ t.head? ≠ some ':'

def spaces (n : Nat) : Text := List.replicate n ' '

/-- What stands before the command: blanks alone, or the source and a space and blanks. -/
inductive Opening : Option Text → Text → Prop where
  | none (gap : Text) (hgap : ∀ c ∈ gap, isGap c = true) : Opening none gap
  | source (s gap : Text) (hs : IsSource s) (hgap : ∀ c ∈ gap, isGap c = true) :
    Opening (some s) (':' :: s ++ ' ' :: gap)

/-- The parameters of a message and the text that holds them. -/
inductive Params : List Text → Option Text → Text → Prop where
  /-- No parameter is left, but there may be spaces. -/
  | done (n : Nat) : Params [] none (spaces n)
  /-- A colon after spaces makes all the rest one parameter. -/
  | trailing (n : Nat) (t : Text) : Params [] (some t) (spaces (n + 1) ++ ':' :: t)
  | middle (n : Nat) {word : Text} {words : List Text} {last : Option Text} {rest : Text}
    (hword : IsMiddle word) (hrest : Params words last rest) :
    Params (word :: words) last (spaces (n + 1) ++ word ++ rest)

/-- The line is made of the parts of the message, in order, and of separators. -/
def Carries (line : Text) (m : Message) : Prop :=
  ∃ opening params, Opening m.source opening ∧ IsCommand m.command ∧
    Params m.middle m.trailing params ∧ line = opening ++ m.command ++ params

/-- Where the command of a line starts, and all from there on. -/
def commandStart (line : Text) : Text := (splitSource line).2.dropWhile isGap

/-- What follows the command of a line. -/
def afterCommand (line : Text) : Text := (commandStart line).dropWhile Char.isAlphanum

/-- A space comes first, if anything does. -/
def StartsApart (t : Text) : Prop := ∀ c ∈ t.head?, c = ' '

/-! ## Character classes -/

theorem isCommandWord_iff {t : Text} : isCommandWord t = true ↔ IsCommand t := by
  simp [isCommandWord, isThreeDigits, IsCommand]

theorem IsCommand.ne_nil {t : Text} (h : IsCommand t) : t ≠ [] := by
  rcases h with ⟨hne, -⟩ | ⟨hlen, -⟩
  · exact hne
  · rintro rfl
    simp at hlen

theorem IsCommand.isAlphanum {t : Text} (h : IsCommand t) : ∀ c ∈ t, c.isAlphanum = true := by
  intro c hc
  rw [Char.isAlphanum, Bool.or_eq_true]
  rcases h with ⟨-, hall⟩ | ⟨-, hall⟩
  · exact .inl (hall c hc)
  · exact .inr (hall c hc)

/-- A letter or digit is no separator and no white space. -/
theorem not_blank_of_isAlphanum {c : Char} (h : c.isAlphanum = true) :
    Text.isBlank c = false ∧ isGap c = false ∧ c ≠ ':' := by
  unfold Char.isAlphanum Char.isAlpha Char.isUpper Char.isLower Char.isDigit at h
  simp only [Bool.or_eq_true, Bool.and_eq_true, decide_eq_true_eq, UInt32.le_iff_toNat_le,
    ge_iff_le] at h
  change (((65 ≤ c.toNat ∧ c.toNat ≤ 90) ∨ (97 ≤ c.toNat ∧ c.toNat ≤ 122)) ∨
    (48 ≤ c.toNat ∧ c.toNat ≤ 57)) at h
  have hne (d : Char) (hd : d.toNat < 48 ∨ d.toNat = 58) : c ≠ d := by
    rintro rfl
    omega
  have hblank : Text.isBlank c = false := by
    have hspace : c ≠ ' ' := hne ' ' (.inl (by decide))
    simp only [Text.isBlank, Text.inRanges, Text.wideBlanks, List.any_cons, List.any_nil,
      Bool.or_eq_false_iff, Bool.and_eq_false_iff, decide_eq_false_iff_not, hspace,
      not_false_eq_true, true_and, and_true]
    omega
  have hgap : isGap c = false := by
    simp only [isGap, Bool.or_eq_false_iff, beq_eq_false_iff_ne]
    exact ⟨hne ' ' (.inl (by decide)), hne '\t' (.inl (by decide))⟩
  exact ⟨hblank, hgap, hne ':' (.inr (by decide))⟩

/-! ## Runs of characters -/

/-- A run ends before the first character outside of it. -/
theorem takeWhile_run {p : Char → Bool} {run rest : Text} (hrun : ∀ c ∈ run, p c = true)
    (hrest : ∀ c ∈ rest.head?, p c = false) : (run ++ rest).takeWhile p = run := by
  rw [List.takeWhile_append_of_pos hrun]
  cases rest with
  | nil => simp
  | cons c rest => simp [hrest c rfl]

theorem dropWhile_run {p : Char → Bool} {run rest : Text} (hrun : ∀ c ∈ run, p c = true)
    (hrest : ∀ c ∈ rest.head?, p c = false) : (run ++ rest).dropWhile p = rest := by
  rw [List.dropWhile_append_of_pos hrun]
  cases rest with
  | nil => rfl
  | cons c rest => simp [hrest c rfl]

/-- What is left after a run does not go on with it. -/
theorem head_dropWhile {p : Char → Bool} {t : Text} : ∀ c ∈ (t.dropWhile p).head?, p c = false := by
  intro c hc
  have h := List.head?_dropWhile_not p t
  rw [Option.mem_def.1 hc] at h
  exact h

/-! ## Parameters -/

theorem Params.startsApart {words : List Text} {last : Option Text} {t : Text}
    (h : Params words last t) : StartsApart t := by
  cases h with
  | done n => cases n <;> simp [StartsApart, spaces, List.replicate_succ]
  | trailing n t => simp [StartsApart, spaces, List.replicate_succ]
  | middle n hword hrest => simp [StartsApart, spaces, List.replicate_succ]

theorem dropWhile_spaces {t : Text} (n : Nat) (h : t.head? ≠ some ' ') :
    (spaces n ++ t).dropWhile (· == ' ') = t := by
  refine dropWhile_run (fun c hc => ?_) fun c hc => ?_
  · simp [List.eq_of_mem_replicate hc]
  · rw [beq_eq_false_iff_ne]
    rintro rfl
    exact h hc

/-- The run of spaces at the front of a text, as a number. -/
theorem takeWhile_eq_spaces (t : Text) :
    t.takeWhile (· == ' ') = spaces (t.takeWhile (· == ' ')).length := by
  refine List.eq_replicate_of_mem fun c hc => ?_
  simpa using List.mem_takeWhile_imp hc

/-- Reading the parameters of a text that starts with a space, or is empty, follows the grammar. -/
theorem params_splitParams {t : Text} (h : StartsApart t) :
    Params (splitParams t).1 (splitParams t).2 t := by
  fun_induction splitParams t with
  | case1 t hrest =>
    -- nothing but spaces
    have ht : t = spaces t.length := by
      refine List.eq_replicate_of_mem fun c hc => ?_
      simpa using List.dropWhile_eq_nil_iff.1 hrest c hc
    rw [ht]
    exact .done (t.length + 1)
  | case2 t last hrest =>
    have ht := List.takeWhile_append_dropWhile (p := (· == ' ')) (l := t)
    rw [hrest, takeWhile_eq_spaces] at ht
    rw [← ht]
    exact .trailing _ last
  | case3 t c word hcolon hrest words last hsplit ih =>
    have ht := List.takeWhile_append_dropWhile (p := (· == ' ')) (l := t)
    rw [hrest, takeWhile_eq_spaces] at ht
    have hc : (c == ' ') = false :=
      head_dropWhile (p := (· == ' ')) (t := t) c (by rw [hrest]; rfl)
    have hword : IsMiddle ((c :: word).takeWhile (· != ' ')) := by
      refine ⟨by simp [bne, hc], fun hmem => by simpa using List.mem_takeWhile_imp hmem, ?_⟩
      simp only [bne, hc, Bool.not_false, List.takeWhile_cons_of_pos, List.head?_cons, ne_eq,
        Option.some.injEq]
      exact hcolon
    have hapart : StartsApart ((c :: word).dropWhile (· != ' ')) := fun d hd => by
      simpa using head_dropWhile d hd
    have hparams := Params.middle (t.takeWhile (· == ' ')).length hword (ih hapart)
    rw [hsplit, List.append_assoc, List.takeWhile_append_dropWhile] at hparams
    rwa [← ht]
  | case4 t hspace =>
    cases t with
    | nil => exact .done 0
    | cons c t => exact absurd (h c rfl) fun hc => hspace t (by rw [hc])

theorem params_of_splitParams {words : List Text} {last : Option Text} {t : Text}
    (hsplit : splitParams t = (words, last)) (h : StartsApart t) : Params words last t := by
  have hparams := params_splitParams h
  rw [hsplit] at hparams
  exact hparams

/-- What starts with anything but a space holds no parameters. -/
theorem splitParams_of_not_startsApart {t : Text} (h : ¬ StartsApart t) :
    splitParams t = ([], none) := by
  cases t with
  | nil => exact absurd (fun c hc => by simp at hc) h
  | cons c t =>
    rw [splitParams]
    intro t' ht
    refine h fun d hd => ?_
    rw [List.head?_cons, Option.mem_some] at hd
    rw [← hd, (List.cons.inj ht).1]

theorem splitParams_blank {t : Text} (h : t.dropWhile (· == ' ') = []) :
    splitParams (' ' :: t) = ([], none) := by
  rw [splitParams]
  split <;> simp_all

theorem splitParams_colon {t last : Text} (h : t.dropWhile (· == ' ') = ':' :: last) :
    splitParams (' ' :: t) = ([], some last) := by
  rw [splitParams]
  split <;> simp_all

theorem splitParams_word {c : Char} {t word : Text} (h : t.dropWhile (· == ' ') = c :: word)
    (hc : c ≠ ':') :
    splitParams (' ' :: t) =
      ((c :: word).takeWhile (· != ' ') :: (splitParams ((c :: word).dropWhile (· != ' '))).1,
        (splitParams ((c :: word).dropWhile (· != ' '))).2) := by
  rw [splitParams]
  split
  · next h' => simp [h'] at h
  · next h' => simp [h', eq_comm, hc] at h
  · next h' =>
    rw [h'] at h
    cases h
    rfl

/-- The grammar leaves no choice: parameters are read as the grammar has them. -/
theorem splitParams_eq {words : List Text} {last : Option Text} {t : Text}
    (h : Params words last t) : splitParams t = (words, last) := by
  induction h with
  | done n =>
    cases n with
    | zero => exact splitParams.eq_2 [] (by simp)
    | succ n =>
      have hdrop := dropWhile_spaces (t := []) n (by simp)
      rw [List.append_nil] at hdrop
      exact splitParams_blank hdrop
  | trailing n last => exact splitParams_colon (dropWhile_spaces n (by simp))
  | @middle n word words last rest hword hrest ih =>
    obtain ⟨hne, hspace, hcolon⟩ := hword
    have hrun : ∀ c ∈ word, (c != ' ') = true := fun c hc => by
      rw [bne_iff_ne]
      rintro rfl
      exact hspace hc
    have hend : ∀ c ∈ rest.head?, (c != ' ') = false := fun c hc => by
      simp [hrest.startsApart c hc]
    obtain ⟨c, tail, rfl⟩ := List.exists_cons_of_ne_nil hne
    have hdrop := dropWhile_spaces (t := c :: (tail ++ rest)) n (by simpa using hrun c (by simp))
    have hword := splitParams_word hdrop (by simpa using hcolon)
    have hcons : c :: (tail ++ rest) = (c :: tail) ++ rest := rfl
    rw [hcons, takeWhile_run hrun hend, dropWhile_run hrun hend, ih] at hword
    rw [List.append_assoc]
    exact hword

/-! ## Source and command -/

/-- A line has no source, or a colon, the source, and then a space or nothing. -/
theorem splitSource_cases (line : Text) :
    splitSource line = (none, line) ∨
      ∃ s rest, IsSource s ∧ StartsApart rest ∧ line = ':' :: s ++ rest ∧
        splitSource line = (some s, rest) := by
  unfold splitSource
  split
  · next t =>
    split
    · exact .inl rfl
    · next hne =>
      refine .inr ⟨_, t.dropWhile (· != ' '), ⟨hne, fun hmem => ?_⟩, fun c hc => ?_, ?_, rfl⟩
      · simpa using List.mem_takeWhile_imp hmem
      · simpa using head_dropWhile c hc
      · rw [List.cons_append, List.takeWhile_append_dropWhile]
  · exact .inl rfl

theorem splitSource_source {s rest : Text} (hs : IsSource s) (hrest : StartsApart rest) :
    splitSource (':' :: s ++ rest) = (some s, rest) := by
  have hrun : ∀ c ∈ s, (c != ' ') = true := fun c hc => by
    rw [bne_iff_ne]
    rintro rfl
    exact hs.2 hc
  have hend : ∀ c ∈ rest.head?, (c != ' ') = false := fun c hc => by simp [hrest c hc]
  simp only [splitSource, List.cons_append, takeWhile_run hrun hend, dropWhile_run hrun hend]
  split
  · exact absurd rfl hs.1
  · rfl

theorem splitSource_plain {line : Text} (h : line.head? ≠ some ':') :
    splitSource line = (none, line) := by
  unfold splitSource
  split
  · exact absurd rfl h
  · rfl

/-- The opening of a line ends where its first word that is no source starts. -/
theorem opening_splitSource {line : Text} (h : commandStart line ≠ []) :
    ∃ opening, Opening (splitSource line).1 opening ∧ line = opening ++ commandStart line := by
  unfold commandStart at h ⊢
  rcases splitSource_cases line with hplain | ⟨s, rest, hs, hrest, rfl, hsource⟩
  · rw [hplain]
    exact ⟨_, .none (line.takeWhile isGap) fun c hc => List.mem_takeWhile_imp hc,
      List.takeWhile_append_dropWhile.symm⟩
  · rw [hsource] at h ⊢
    cases rest with
    | nil => exact absurd rfl h
    | cons c rest =>
      obtain rfl := hrest c rfl
      refine ⟨_, .source s (rest.takeWhile isGap) hs fun c hc => List.mem_takeWhile_imp hc, ?_⟩
      have hgap : rest.takeWhile isGap ++ rest.dropWhile isGap = rest :=
        List.takeWhile_append_dropWhile
      simp [List.dropWhile_cons_of_pos (p := isGap) (a := ' ') rfl, hgap]

/-- An opening is read as it is written, whatever word comes after it. -/
theorem splitSource_opening {source : Option Text} {opening t : Text} (h : Opening source opening)
    (ht : ∀ c ∈ t.head?, isGap c = false ∧ c ≠ ':') :
    (splitSource (opening ++ t)).1 = source ∧ commandStart (opening ++ t) = t := by
  unfold commandStart
  have hend : ∀ c ∈ t.head?, isGap c = false := fun c hc => (ht c hc).1
  cases h with
  | none gap hgap =>
    have hhead : (opening ++ t).head? ≠ some ':' := by
      intro hc
      cases opening with
      | nil => exact (ht _ hc).2 rfl
      | cons d gap =>
        cases hc
        exact absurd (hgap ':' (by simp)) (by decide)
    rw [splitSource_plain hhead]
    exact ⟨rfl, dropWhile_run hgap hend⟩
  | source s gap hs hgap =>
    have hapart : StartsApart (' ' :: gap ++ t) := fun c hc => by cases hc; rfl
    rw [List.append_assoc, splitSource_source hs hapart]
    refine ⟨rfl, ?_⟩
    rw [List.cons_append, List.dropWhile_cons_of_pos (by decide), dropWhile_run hgap hend]

/-! ## Lines -/

theorem parseLine_eq (line : Text) :
    parseLine line =
      if isCommandWord ((commandStart line).takeWhile Char.isAlphanum) then
        .ok
          { source := (splitSource line).1
            command := (commandStart line).takeWhile Char.isAlphanum
            middle := (splitParams (afterCommand line)).1
            trailing := (splitParams (afterCommand line)).2 }
      else
        .error (.invalidCommand line (Text.byteSize line - Text.byteSize (commandStart line))) :=
  rfl

/-- Where the parts of an assembled line are found again. -/
theorem parts_assembled {source : Option Text} {opening command rest : Text}
    (hopening : Opening source opening) (hcommand : IsCommand command)
    (hrest : ∀ c ∈ rest.head?, c.isAlphanum = false) :
    (splitSource (opening ++ command ++ rest)).1 = source ∧
      commandStart (opening ++ command ++ rest) = command ++ rest ∧
      afterCommand (opening ++ command ++ rest) = rest := by
  have hhead : ∀ c ∈ (command ++ rest).head?, isGap c = false ∧ c ≠ ':' := by
    intro c hc
    obtain ⟨d, tail, rfl⟩ := List.exists_cons_of_ne_nil hcommand.ne_nil
    cases hc
    exact (not_blank_of_isAlphanum (hcommand.isAlphanum c (by simp))).2
  obtain ⟨hsource, hstart⟩ := splitSource_opening hopening hhead
  rw [List.append_assoc, afterCommand, hstart]
  exact ⟨hsource, rfl, dropWhile_run hcommand.isAlphanum hrest⟩

/-- Reading a line that has no line end: its opening, its command as far as letters and digits
go, and the parameters of what follows. -/
theorem parseLine_eq_ok_iff {line : Text} {m : Message} :
    parseLine line = .ok m ↔
      ∃ opening, Opening m.source opening ∧ IsCommand m.command ∧
        splitParams (afterCommand line) = (m.middle, m.trailing) ∧
        line = opening ++ m.command ++ afterCommand line := by
  constructor
  · intro h
    rw [parseLine_eq] at h
    split at h
    · next hword =>
      cases h
      have hcommand := isCommandWord_iff.1 hword
      have hstart : commandStart line ≠ [] := fun hnil => hcommand.ne_nil (by rw [hnil]; rfl)
      obtain ⟨opening, hopening, hline⟩ := opening_splitSource hstart
      refine ⟨opening, hopening, hcommand, rfl, ?_⟩
      rw [List.append_assoc, afterCommand, List.takeWhile_append_dropWhile]
      exact hline
    · cases h
  · rintro ⟨opening, hopening, hcommand, hparams, hline⟩
    have hrest : ∀ c ∈ (afterCommand line).head?, c.isAlphanum = false := head_dropWhile
    obtain ⟨hsource, hstart, -⟩ := parts_assembled hopening hcommand hrest
    rw [← hline] at hsource hstart
    rw [parseLine_eq, hstart, takeWhile_run hcommand.isAlphanum hrest,
      if_pos (isCommandWord_iff.2 hcommand), hsource, hparams]

/-- A line with a command is not blank. -/
theorem not_all_isBlank {line opening command rest : Text} (h : IsCommand command)
    (hline : line = opening ++ command ++ rest) : line.all Text.isBlank = false := by
  subst hline
  obtain ⟨c, hc⟩ := List.exists_mem_of_ne_nil command h.ne_nil
  rw [List.all_eq_false]
  refine ⟨c, by simp [hc], ?_⟩
  rw [(not_blank_of_isAlphanum (h.isAlphanum c hc)).1]
  exact Bool.false_ne_true

theorem parse_eq_ok_iff {line : Text} {m : Message} :
    parse line = .ok m ↔ parseLine (chomp line) = .ok m := by
  simp only [parse]
  constructor
  · intro h
    split at h
    · cases h
    · exact h
  · intro h
    obtain ⟨opening, -, hcommand, -, hline⟩ := parseLine_eq_ok_iff.1 h
    rw [not_all_isBlank hcommand hline]
    exact h

/-- A line is read as a message, and a space or nothing follows its command, exactly when the
line, less its line end, is made of the parts of that message with separators between them. -/
theorem parse_followed_iff {line : Text} {m : Message} :
    parse line = .ok m ∧ StartsApart (afterCommand (chomp line)) ↔ Carries (chomp line) m := by
  rw [parse_eq_ok_iff, parseLine_eq_ok_iff]
  constructor
  · rintro ⟨⟨opening, hopening, hcommand, hparams, hline⟩, hapart⟩
    exact ⟨opening, _, hopening, hcommand, params_of_splitParams hparams hapart, hline⟩
  · rintro ⟨opening, params, hopening, hcommand, hparams, hline⟩
    have hrest : ∀ c ∈ params.head?, c.isAlphanum = false := fun c hc => by
      rw [hparams.startsApart c hc]
      decide
    obtain ⟨-, -, hafter⟩ := parts_assembled hopening hcommand hrest
    rw [hline, hafter]
    exact ⟨⟨opening, hopening, hcommand, splitParams_eq hparams, rfl⟩, hparams.startsApart⟩

/-- Where anything but a space follows the command directly, it is lost with all after it. -/
theorem parse_drops_rest {line : Text} {m : Message} (h : parse line = .ok m)
    (hrest : ¬ StartsApart (afterCommand (chomp line))) : m.middle = [] ∧ m.trailing = none := by
  obtain ⟨-, -, -, hparams, -⟩ := parseLine_eq_ok_iff.1 (parse_eq_ok_iff.1 h)
  rw [splitParams_of_not_startsApart hrest, Prod.mk.injEq] at hparams
  exact ⟨hparams.1.symm, hparams.2.symm⟩

/-! ## Nothing is lost -/

/-- The characters of a text that separate nothing, wherever they stand. -/
def solid (t : Text) : Text := t.filter fun c => !isGap c && c != ':'

@[simp] theorem solid_nil : solid [] = [] := rfl

@[simp] theorem solid_append (s t : Text) : solid (s ++ t) = solid s ++ solid t :=
  List.filter_append ..

@[simp] theorem solid_cons_space (t : Text) : solid (' ' :: t) = solid t := rfl

@[simp] theorem solid_cons_colon (t : Text) : solid (':' :: t) = solid t := rfl

theorem solid_gap {gap : Text} (h : ∀ c ∈ gap, isGap c = true) : solid gap = [] := by
  refine List.filter_eq_nil_iff.2 fun c hc => ?_
  simp [h c hc]

@[simp] theorem solid_spaces (n : Nat) : solid (spaces n) = [] := by
  refine solid_gap fun c hc => ?_
  rw [List.eq_of_mem_replicate hc]
  rfl

/-- All the text a message holds, in the order of the line. -/
def content (m : Message) : Text :=
  m.source.getD [] ++ m.command ++ m.middle.flatten ++ m.trailing.getD []

theorem Opening.solid_eq {source : Option Text} {opening : Text} (h : Opening source opening) :
    solid opening = solid (source.getD []) := by
  cases h with
  | none gap hgap => simp [solid_gap hgap]
  | source s gap hs hgap => simp [solid_gap hgap]

theorem Params.solid_eq {words : List Text} {last : Option Text} {t : Text}
    (h : Params words last t) : solid t = solid (words.flatten ++ last.getD []) := by
  induction h with
  | done n => simp
  | trailing n last => simp
  | middle n hword hrest ih => simp [ih]

theorem Carries.solid_eq {line : Text} {m : Message} (h : Carries line m) :
    solid line = solid m.content := by
  obtain ⟨opening, params, hopening, -, hparams, rfl⟩ := h
  simp [content, hopening.solid_eq, hparams.solid_eq]

/-- **A line that is read follows the grammar and loses nothing, if its command is a word.** Take
any line that is read as a message. A space or nothing follows its command exactly when the line,
less its line end, is made of the parts of the message in order and of separators between them,
and every character that cannot separate is found again, in order, in those parts. -/
theorem accepted_line_follows_grammar_iff {line : Text} {m : Message} (h : parse line = .ok m) :
    StartsApart (afterCommand (chomp line)) ↔
      Carries (chomp line) m ∧ solid (chomp line) = solid m.content := by
  constructor
  · intro hapart
    have hcarries := parse_followed_iff.1 ⟨h, hapart⟩
    exact ⟨hcarries, hcarries.solid_eq⟩
  · rintro ⟨hcarries, -⟩
    exact (parse_followed_iff.2 hcarries).2

/-- A text to a channel, with spaces to spare. -/
def spacedLine : Text := ":alice!a@h PRIVMSG   #chan :hi  there :) \r\n".toList

def spacedMessage : Message :=
  { source := some "alice!a@h".toList, command := "PRIVMSG".toList,
    middle := ["#chan".toList], trailing := some "hi  there :) ".toList }

theorem accepted_spaced_line_follows_grammar :
    parse spacedLine = .ok spacedMessage ∧ Carries (chomp spacedLine) spacedMessage ∧
      solid (chomp spacedLine) = solid spacedMessage.content := by
  have hread : parse spacedLine = .ok spacedMessage := by decide +kernel
  have hspace : (afterCommand (chomp spacedLine)).head? = some ' ' := by decide +kernel
  refine ⟨hread, (accepted_line_follows_grammar_iff hread).1 fun c hc => ?_⟩
  rw [hspace] at hc
  exact (Option.some.inj hc).symm

/-- A text to a channel with a tab where a space should be. -/
def tabbedLine : Text := "PRIVMSG\t#chan :hello".toList

/-- The line with the tab is read, but its parameters are lost. -/
theorem accepted_tabbed_line_loses_rest :
    parse tabbedLine = .ok { command := "PRIVMSG".toList } ∧
      ¬ Carries (chomp tabbedLine) { command := "PRIVMSG".toList } := by
  refine ⟨by decide +kernel, fun hcarries => ?_⟩
  have hsolid := hcarries.solid_eq
  revert hsolid
  decide +kernel

end IrcBot.Message
