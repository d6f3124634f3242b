import ImportAtlas.Command.Arguments
import ImportAtlas.FileSystem.Basic
import Mathlib.Data.List.TakeWhile

/-!
# Proofs/Verbosity — which flags a command line sets

What is written is read off the words alone: `splitAtCommand?` parts them at the command, and
`Level.flags` lists the flags among those of one side, long or by their letters.  The reader of the
program keeps what is given instead, one `Given` for each side, and each of its steps gives just the
flags that the step's word writes (`Given.takeDashed?_ok`).  So a line that it accepts sets the flags
that are written on either side (`flags_of_parse`).

The two flags for more and for less output exclude each other on one side only.  A line with one of
them before the command and the other behind it sets both.
-/

namespace ImportAtlas.Arguments

variable {level : Level} {g g' : Given} {words : List String} {word : String}

/-! ## What is written -/

namespace Level

/-- The flags among the letters of a word: those before the first option, which takes the rest. -/
def letterFlags (level : Level) : List Char → List Flag
  | [] => []
  | letter :: rest =>
    match level.ofLetter? letter with
    | some (.flag f) => f :: level.letterFlags rest
    | _ => []

/-- Whether the last letter of a word is an option, whose value is the next word. -/
def letterAwaits (level : Level) : List Char → Bool
  | [] => false
  | letter :: rest =>
    match level.ofLetter? letter with
    | some (.flag _) => level.letterAwaits rest
    | some (.option _) => rest.isEmpty
    | none => false

/-- The flag with a long name. -/
def nameFlags (level : Level) (name : List Char) : List Flag :=
  match level.ofName? name with
  | some (.flag f) => [f]
  | _ => []

/-- Whether a long name is that of an option. -/
def nameAwaits (level : Level) (name : List Char) : Bool :=
  match level.ofName? name with
  | some (.option _) => true
  | _ => false

/-- **The flags that a word writes**: one by its name behind two dashes, or some by their letters
behind one. -/
def wordFlags (level : Level) (word : String) : List Flag :=
  match word.toList with
  | '-' :: '-' :: name => level.nameFlags name
  | '-' :: letters => level.letterFlags letters
  | _ => []

/-- Whether a word ends with an option whose value is the next word. -/
def wordAwaits (level : Level) (word : String) : Bool :=
  match word.toList with
  | '-' :: '-' :: name => level.nameAwaits name
  | '-' :: letters => level.letterAwaits letters
  | _ => false

/-- **The flags that the words of one side write.**  Behind a word of two dashes alone there are none. -/
def flags (level : Level) (words : List String) : List Flag :=
  (words.takeWhile (· != "--")).flatMap level.wordFlags

/-- **Words of one side that write both** the flag for more output and the one for less. -/
def Clashes (level : Level) (words : List String) : Prop :=
  Flag.verbose ∈ level.flags words ∧ Flag.quiet ∈ level.flags words

theorem flags_cons (h : word ≠ "--") :
    level.flags (word :: words) = level.wordFlags word ++ level.flags words := by
  simp [flags, h]

@[simp] theorem flags_dashes : level.flags ("--" :: words) = [] := by
  simp [flags]

/-- A long name has no equals sign in it. -/
theorem not_mem_of_ofName? {name : List Char} {a : Argument} (h : level.ofName? name = some a) :
    '=' ∉ name := by
  unfold ofName? at h
  split at h
  case h_9 => cases h
  all_goals
    rename_i hname
    have htext := congrArg String.toList hname
    rw [String.toList_ofList] at htext
    rw [htext]
    decide

end Level

/-- **The words before the command, the command, and the words behind it.**  The command is the first
word that names one and is not the value of an option; `awaited` says whether the first word is one. -/
def splitAtCommand? (awaited : Bool) : List String → Option (List String × Command × List String)
  | [] => none
  | word :: rest =>
    match awaited, Command.ofWord? word with
    | false, some command => some ([], command, rest)
    | _, _ => (splitAtCommand? (Level.top.wordAwaits word) rest).map fun (outer, command, inner) =>
      (word :: outer, command, inner)

/-! ## One step gives what its word writes -/

namespace Given

/-- Both the flag for more output and the one for less are given. -/
def Clashes (g : Given) : Prop := Flag.verbose ∈ g.flags ∧ Flag.quiet ∈ g.flags

theorem settle_ok (h : g.settle = .ok g') : g'.flags = g.flags ∧ g'.pending = none := by
  unfold settle at h
  split at h
  case h_1 hpending =>
    cases h
    exact ⟨rfl, hpending⟩
  case h_2 => cases h
  case h_3 =>
    split at h
    · cases h
    · split at h
      · cases h
      · cases h
        exact ⟨rfl, rfl⟩

theorem isWaiting_of_pending (h : g.pending = none) : g.isWaiting = false := by
  rw [isWaiting, h]
  rfl

theorem takeFlag_ok {f : Flag} (h : g.takeFlag f = .ok g') :
    g'.flags = f :: g.flags ∧ g'.isWaiting = false := by
  obtain ⟨g₁, hsettle, h⟩ := exists_ok_of_bind h
  obtain ⟨hflags, hpending⟩ := settle_ok hsettle
  split at h
  case h_1 => cases h
  case h_2 => cases h
  case h_3 =>
    split at h
    · cases h
    · cases h
      exact ⟨congrArg _ hflags, isWaiting_of_pending hpending⟩

theorem takeOption_ok {s : Slot} (h : g.takeOption s = .ok g') :
    g'.flags = g.flags ∧ g'.isWaiting = true := by
  obtain ⟨g₁, hsettle, h⟩ := exists_ok_of_bind h
  cases h
  exact ⟨(settle_ok hsettle).1, rfl⟩

theorem takeAttached_ok {s : Slot} {text : List Char} (h : g.takeAttached s text = .ok g') :
    g'.flags = g.flags ∧ g'.isWaiting = false := by
  obtain ⟨g₁, hsettle, h⟩ := exists_ok_of_bind h
  obtain ⟨hflags, hpending⟩ := settle_ok h
  exact ⟨hflags.trans (settle_ok hsettle).1, isWaiting_of_pending hpending⟩

theorem takePath_ok {text : String} (h : g.takePath text = .ok g') :
    g'.flags = g.flags ∧ g'.isWaiting = false := by
  simp only [takePath] at h
  split at h
  · cases h
  · obtain ⟨g₁, hsettle, h⟩ := exists_ok_of_bind h
    cases h
    exact ⟨(settle_ok hsettle).1, rfl⟩

theorem isWaiting_takeValue (g : Given) (text : String) : (g.takeValue text).isWaiting = false := by
  cases hpending : g.pending <;> simp [isWaiting, takeValue, hpending]

/-- **Letters give the flags among them**, the last one first. -/
theorem takeLetters_ok {letters : List Char} (h : takeLetters level letters g = .ok g') :
    g'.flags = (level.letterFlags letters).reverse ++ g.flags ∧
      g'.isWaiting = (level.letterAwaits letters || (letters.isEmpty && g.isWaiting)) := by
  induction letters generalizing g with
  | nil =>
    cases h
    exact ⟨rfl, rfl⟩
  | cons letter rest ih =>
    rw [takeLetters.eq_def] at h
    dsimp only at h
    split at h
    case h_1 f _ hletter =>
      obtain ⟨g₁, hflag, h⟩ := exists_ok_of_bind h
      obtain ⟨hflags, hwaiting⟩ := takeFlag_ok hflag
      obtain ⟨hrest, hlast⟩ := ih h
      simp [Level.letterFlags, Level.letterAwaits, hletter, hrest, hlast, hflags, hwaiting]
    case h_2 s hletter =>
      simp [Level.letterFlags, Level.letterAwaits, hletter, takeOption_ok h]
    case h_3 s text hletter =>
      simp [Level.letterFlags, Level.letterAwaits, hletter, takeAttached_ok h]
    case h_4 s hletter hrest _ =>
      have hsome := mt List.isEmpty_iff.mp hrest
      simp [Level.letterFlags, Level.letterAwaits, hletter, hsome, takeAttached_ok h]
    case h_5 => cases h

/-- A long name gives its flag. -/
theorem takeLong_ok {text : List Char} (h : takeLong level text g = .ok g') :
    g'.flags = (level.nameFlags text).reverse ++ g.flags ∧ g'.isWaiting = level.nameAwaits text := by
  have hwhole : text.drop (text.takeWhile (· != '=')).length = []
      ↔ text.takeWhile (· != '=') = text :=
    List.drop_eq_nil_iff.trans
      ⟨(List.takeWhile_prefix _).eq_of_length_le,
        fun hsame => Nat.le_of_eq (congrArg List.length hsame.symm)⟩
  rw [takeLong] at h
  split at h
  case h_1 f hname hvalue =>
    rw [hwhole.mp hvalue] at hname
    simp [Level.nameFlags, Level.nameAwaits, hname, takeFlag_ok h]
  case h_2 => cases h
  case h_3 s hname hvalue =>
    rw [hwhole.mp hvalue] at hname
    simp [Level.nameFlags, Level.nameAwaits, hname, takeOption_ok h]
  case h_4 s c value _ hvalue =>
    -- The text goes on behind its name, with an equals sign, and so it is no name as a whole.
    have hname : level.ofName? text = none := by
      refine Option.eq_none_iff_forall_ne_some.mpr fun a ha => ?_
      have hall : ∀ c ∈ text, (c != '=') = true := fun c hc =>
        bne_iff_ne.mpr fun heq => Level.not_mem_of_ofName? ha (heq ▸ hc)
      rw [hwhole.mpr (List.takeWhile_eq_self_iff.mpr hall)] at hvalue
      cases hvalue
    simp [Level.nameFlags, Level.nameAwaits, hname, takeAttached_ok h]
  case h_5 => cases h

/-- **A word gives the flags that it writes**, the last one first. -/
theorem takeDashed?_ok (h : g.takeDashed? level word = some (.ok g')) :
    g'.flags = (level.wordFlags word).reverse ++ g.flags ∧ g'.isWaiting = level.wordAwaits word := by
  rw [takeDashed?] at h
  rw [Level.wordFlags, Level.wordAwaits]
  split at h
  case h_1 c rest hword =>
    rw [hword]
    exact takeLong_ok (Option.some.inj h)
  case h_2 => cases h
  case h_3 c rest hlong hdashes hword =>
    rw [hword]
    -- The reader asks for long names first, so that letters do not start with a dash.
    have hc : c ≠ '-' := by
      rintro rfl
      cases rest with
      | nil => exact hdashes rfl rfl
      | cons c rest => exact hlong _ _ rfl rfl
    simpa [hc] using takeLetters_ok (Option.some.inj h)
  case h_4 => cases h

/-- A word that is no option writes no flag. -/
theorem takeDashed?_none (h : g.takeDashed? level word = none) :
    level.wordFlags word = [] ∧ level.wordAwaits word = false := by
  rw [takeDashed?] at h
  rw [Level.wordFlags, Level.wordAwaits]
  split at h
  case h_1 => cases h
  case h_2 hword =>
    rw [hword]
    exact ⟨rfl, rfl⟩
  case h_3 => cases h
  case h_4 hlong hdashes hletters =>
    split
    case h_1 name hword =>
      cases name with
      | nil => exact absurd hword hdashes
      | cons c rest => exact absurd hword (hlong c rest)
    case h_2 letters _ hword =>
      cases letters with
      | nil => exact ⟨rfl, rfl⟩
      | cons c rest => exact absurd hword (hletters c rest)
    case h_3 => exact ⟨rfl, rfl⟩

/-- At the end of a side, only one of the two flags is given. -/
theorem finish_ok (h : g.finish = .ok g') : g'.flags = g.flags ∧ ¬ g'.Clashes := by
  obtain ⟨g₁, hsettle, h⟩ := exists_ok_of_bind h
  split at h
  case isTrue => cases h
  case isFalse hclash =>
    cases h
    exact ⟨(settle_ok hsettle).1, by simpa [has, Clashes] using hclash⟩

end Given

/-! ## What is read is what is written -/

variable {rest : List String}

theorem behindCommand_nil_ok {plain : Bool} (h : behindCommand plain g [] = .ok g') :
    g'.flags = g.flags ∧ ¬ g'.Clashes := by
  obtain ⟨g₁, hfinish, h⟩ := exists_ok_of_bind h
  split at h
  · cases h
  · cases h
    exact Given.finish_ok hfinish

/-- Behind two dashes there are only paths. -/
theorem behindCommand_plain_ok (h : behindCommand true g words = .ok g') :
    g'.flags = g.flags ∧ ¬ g'.Clashes := by
  induction words generalizing g with
  | nil => exact behindCommand_nil_ok h
  | cons word rest ih =>
    obtain ⟨g₁, hpath, h⟩ := exists_ok_of_bind h
    obtain ⟨hflags, hclash⟩ := ih h
    exact ⟨hflags.trans (Given.takePath_ok hpath).1, hclash⟩

/-- One word behind the command. -/
theorem behindCommand_cons_ok (hword : word ≠ "--")
    (h : behindCommand false g (word :: rest) = .ok g') :
    ∃ g₁, g₁.flags = (Level.command.wordFlags word).reverse ++ g.flags ∧
      behindCommand false g₁ rest = .ok g' := by
  simp only [behindCommand, Bool.false_eq_true, ↓reduceIte, beq_iff_eq, hword] at h
  split at h
  case h_1 r hdashed =>
    obtain ⟨g₁, rfl, h⟩ := exists_ok_of_bind h
    exact ⟨g₁, (Given.takeDashed?_ok hdashed).1, h⟩
  case h_2 hdashed =>
    rw [(Given.takeDashed?_none hdashed).1]
    split at h
    · exact ⟨g.takeValue word, rfl, h⟩
    · obtain ⟨g₁, hpath, h⟩ := exists_ok_of_bind h
      exact ⟨g₁, (Given.takePath_ok hpath).1, h⟩

/-- **Behind the command, the flags are those that the words write**, and not both of the two. -/
theorem behindCommand_ok (h : behindCommand false g words = .ok g') :
    g'.flags = (Level.command.flags words).reverse ++ g.flags ∧ ¬ g'.Clashes := by
  induction words generalizing g with
  | nil => exact behindCommand_nil_ok h
  | cons word rest ih =>
    by_cases hword : word = "--"
    · subst hword
      simpa using behindCommand_plain_ok h
    · obtain ⟨g₁, hfirst, h⟩ := behindCommand_cons_ok hword h
      obtain ⟨hrest, hclash⟩ := ih h
      exact ⟨by simp [hrest, hfirst, Level.flags_cons hword], hclash⟩

theorem beforeCommand_plain {r : Given × Command × Given} : beforeCommand true g words ≠ .ok r := by
  intro h
  cases words with
  | nil =>
    obtain ⟨g₁, _, h⟩ := exists_ok_of_bind h
    cases h
  | cons word rest => cases h

/-- One word before the command. -/
theorem beforeCommand_cons_ok {r : Given × Command × Given}
    (hcommand : ∀ command, g.isWaiting = false → Command.ofWord? word ≠ some command)
    (h : beforeCommand false g (word :: rest) = .ok r) :
    word ≠ "--" ∧ ∃ g₁, g₁.flags = (Level.top.wordFlags word).reverse ++ g.flags ∧
      g₁.isWaiting = Level.top.wordAwaits word ∧ beforeCommand false g₁ rest = .ok r := by
  simp only [beforeCommand, Bool.false_eq_true, ↓reduceIte] at h
  split at h
  · cases h
  · split at h
    · exact absurd h beforeCommand_plain
    · rename_i hword
      refine ⟨by simpa using hword, ?_⟩
      split at h
      case h_1 _ hdashed =>
        obtain ⟨g₁, rfl, h⟩ := exists_ok_of_bind h
        obtain ⟨hflags, hwaiting⟩ := Given.takeDashed?_ok hdashed
        exact ⟨g₁, hflags, hwaiting, h⟩
      case h_2 hdashed =>
        obtain ⟨hflags, hawaits⟩ := Given.takeDashed?_none hdashed
        rw [hflags, hawaits]
        split at h
        · exact ⟨g.takeValue word, rfl, g.isWaiting_takeValue word, h⟩
        · cases h

/-- **Before the command, the flags are those that the words write**, and not both of the two; and the
command is where the words are split. -/
theorem beforeCommand_ok {command : Command} {outer inner : Given}
    (h : beforeCommand false g words = .ok (outer, command, inner)) :
    ∃ before behind, splitAtCommand? g.isWaiting words = some (before, command, behind) ∧
      outer.flags = (Level.top.flags before).reverse ++ g.flags ∧
      ¬ outer.Clashes ∧ behindCommand false {} behind = .ok inner := by
  -- The split and the reader go through the words together: what the one awaits, the other waits for.
  induction words generalizing g with
  | nil =>
    obtain ⟨g₁, _, h⟩ := exists_ok_of_bind h
    cases h
  | cons word rest ih =>
    rw [splitAtCommand?.eq_def]
    dsimp only
    split
    case h_1 command' hwaiting hcommand =>
      simp only [beforeCommand, Bool.false_eq_true, ↓reduceIte, hwaiting, hcommand] at h
      obtain ⟨inner', hinner, h⟩ := exists_ok_of_bind h
      obtain ⟨outer', houter, h⟩ := exists_ok_of_bind h
      cases h
      obtain ⟨hflags, hclash⟩ := Given.finish_ok houter
      exact ⟨[], rest, rfl, hflags, hclash, hinner⟩
    case h_2 hcommand =>
      obtain ⟨hword, g₁, hfirst, hwaiting, h⟩ := beforeCommand_cons_ok hcommand h
      obtain ⟨before, behind, hsplit, hflags, hclash, hinner⟩ := ih h
      refine ⟨word :: before, behind, ?_, ?_, hclash, hinner⟩
      · rw [← hwaiting, hsplit]
        rfl
      · simp [hflags, hfirst, Level.flags_cons hword]

/-- **A line that is accepted sets the flags that are written on either side**, and on neither side both
of the two are written. -/
theorem flags_of_parse {inv : Invocation} (h : Invocation.parse words = .ok inv) :
    ∃ before behind, splitAtCommand? false words = some (before, inv.command, behind) ∧
      ¬ Level.top.Clashes before ∧ ¬ Level.command.Clashes behind ∧
      (inv.verbose = true ↔
        Flag.verbose ∈ Level.top.flags before ∨ Flag.verbose ∈ Level.command.flags behind) ∧
      (inv.quiet = true ↔
        Flag.quiet ∈ Level.top.flags before ∨ Flag.quiet ∈ Level.command.flags behind) := by
  obtain ⟨⟨outer, command, inner⟩, hwords, h⟩ := exists_ok_of_bind h
  cases h
  obtain ⟨before, behind, hsplit, houter, hbefore, hrest⟩ := beforeCommand_ok hwords
  obtain ⟨hinner, hbehind⟩ := behindCommand_ok hrest
  simp only [Given.Clashes, houter, hinner, List.append_nil, List.mem_reverse] at hbefore hbehind
  refine ⟨before, behind, hsplit, hbefore, hbehind, ?_, ?_⟩
  all_goals simp [Given.has, houter, hinner]

/-- **More and less output exclude each other on each side of the command, and not across it.**  A line
that writes both flags before the command, or both behind it, is rejected, be they long, letters or
clustered.  A line that is accepted sets a flag if and only if it is written on either side; so it sets
both if and only if one of them is written before the command and the other behind it. -/
theorem verbose_and_quiet_of_parse (words : List String) :
    (∀ before command behind, splitAtCommand? false words = some (before, command, behind) →
      Level.top.Clashes before ∨ Level.command.Clashes behind →
        ∃ e, Invocation.parse words = .error e) ∧
    ∀ inv, Invocation.parse words = .ok inv → ∃ before behind,
      splitAtCommand? false words = some (before, inv.command, behind) ∧
      (inv.verbose = true ↔
        Flag.verbose ∈ Level.top.flags before ∨ Flag.verbose ∈ Level.command.flags behind) ∧
      (inv.quiet = true ↔
        Flag.quiet ∈ Level.top.flags before ∨ Flag.quiet ∈ Level.command.flags behind) ∧
      (inv.verbose = true ∧ inv.quiet = true ↔
        (Flag.verbose ∈ Level.top.flags before ∧ Flag.quiet ∈ Level.command.flags behind) ∨
        (Flag.quiet ∈ Level.top.flags before ∧ Flag.verbose ∈ Level.command.flags behind)) := by
  constructor
  · intro before command behind hsplit hclash
    cases hparse : Invocation.parse words with
    | error e => exact ⟨e, rfl⟩
    | ok inv =>
      obtain ⟨before', behind', hsplit', hbefore, hbehind, _⟩ := flags_of_parse hparse
      obtain ⟨rfl, _, rfl⟩ : before = before' ∧ command = inv.command ∧ behind = behind' := by
        simpa using hsplit.symm.trans hsplit'
      exact absurd hclash (not_or.mpr ⟨hbefore, hbehind⟩)
  · intro inv hparse
    obtain ⟨before, behind, hsplit, hbefore, hbehind, hverbose, hquiet⟩ := flags_of_parse hparse
    refine ⟨before, behind, hsplit, hverbose, hquiet, ?_⟩
    rw [hverbose, hquiet]
    constructor
    · rintro ⟨hv | hv, hq | hq⟩
      · exact absurd ⟨hv, hq⟩ hbefore
      · exact .inl ⟨hv, hq⟩
      · exact .inr ⟨hq, hv⟩
      · exact absurd ⟨hv, hq⟩ hbehind
    · rintro (⟨hv, hq⟩ | ⟨hq, hv⟩)
      · exact ⟨.inl hv, .inr hq⟩
      · exact ⟨.inr hv, .inl hq⟩

/-- A line with one flag on each side sets both, and one with both flags in a cluster is rejected. -/
theorem verbose_and_quiet_of_parse_placements :
    (∃ inv, Invocation.parse ["-v", "tree", ".", "-q"] = .ok inv ∧
      inv.verbose = true ∧ inv.quiet = true) ∧
    ∃ e, Invocation.parse ["graph", "-vq", "main.ts"] = .error e := by
  constructor
  · refine ⟨_, rfl, ?_⟩
    obtain ⟨before, behind, hsplit, _, _, hboth⟩ :=
      (verbose_and_quiet_of_parse ["-v", "tree", ".", "-q"]).2 _ rfl
    obtain ⟨rfl, rfl⟩ : ["-v"] = before ∧ [".", "-q"] = behind := by
      simpa using (show some (["-v"], Command.tree, [".", "-q"]) = _ from rfl).trans hsplit
    exact hboth.mpr (.inl ⟨by decide, by decide⟩)
  · exact (verbose_and_quiet_of_parse ["graph", "-vq", "main.ts"]).1 [] .graph ["-vq", "main.ts"] rfl
      (.inr ⟨by decide, by decide⟩)

/-- **Both flags can be set at once**: one is written before the command, the other behind it. -/
theorem both_set_across_command :
    ∃ inv, Invocation.parse ["-v", "tree", ".", "-q"] = .ok inv ∧
      inv.verbose = true ∧ inv.quiet = true :=
  ⟨_, by rfl, by rfl, by rfl⟩

end ImportAtlas.Arguments
