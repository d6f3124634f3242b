import ImportAtlas.Config.Load
import ImportAtlas.FileSystem.Directory
import ImportAtlas.FileSystem.Memory
import ImportAtlas.OrderedMap
import ImportAtlas.Proofs.TomlKeys

/-!
# Proofs/Layering — each field has the value of the highest layer that gives it

The settings of a file and of variables are put behind each other, and the last one for a field
counts.  Here each layer speaks for itself: what wins is the last variable for the field
(`Environment.setting?`), else the one setting of the file for it (`Config.winner?`), and it has to be
of the field's kind (`Config.IsChosen`).  Both say the same since a file gives each key once
(`Toml.nodup_keys_of_parse`).  `load_layers` lists all that loading can come to.
-/

namespace ImportAtlas

/-- The later settings come before the earlier ones. -/
theorem Config.lastSetting?_append (settings later : List (String × Setting)) (field : String) :
    lastSetting? (settings ++ later) field
      = (lastSetting? later field).or (lastSetting? settings field) := by
  rw [lastSetting?, List.reverse_append, List.lookup_append]
  rfl

/-! ## Variables -/

namespace Environment

variable {stem field name key : String} {environment : List (String × String)}

/-- **A variable is for a field** if its name is the stem and then the name of the field, in any case
and with or without white space around either. -/
def IsFor (stem field name : String) : Prop :=
  ∃ rest, (trim name.toList).map Char.toLower = stem.toList.map Char.toLower ++ rest ∧
    trim rest = field.toList

instance (stem field name : String) : Decidable (IsFor stem field name) :=
  decidable_of_iff (((stem.toList.map Char.toLower).isPrefixOf?
      ((trim name.toList).map Char.toLower)).any fun rest => trim rest == field.toList) <| by
    simp only [Option.any_eq_true, beq_iff_eq, IsFor]
    refine exists_congr fun rest => and_congr_left fun _ => ⟨eq_append_of_isPrefixOf?, fun h => ?_⟩
    rw [h, isPrefixOf?_append]

/-- Whether a variable belongs to the program at all. -/
def HasStem (stem name : String) : Prop :=
  stem.toList.map Char.toLower <+: (trim name.toList).map Char.toLower

/-- **What the variables give a field**: the value of the last one for it. -/
def setting? (stem : String) (environment : List (String × String)) (field : String) :
    Option Setting :=
  (environment.reverse.find? fun v => decide (IsFor stem field v.1)).map fun v => parse v.2

theorem isFor_iff_of_stem {text : List Char}
    (h : (trim name.toList).map Char.toLower = stem.toList.map Char.toLower ++ text) :
    IsFor stem field name ↔ trim text = field.toList := by
  constructor
  · rintro ⟨rest, hrest, hfield⟩
    rwa [List.append_cancel_left (h.symm.trans hrest)]
  · exact fun hfield => ⟨text, h, hfield⟩

theorem mem_of_mem_trim {c : Char} {text : List Char} (h : c ∈ trim text) : c ∈ text := by
  have hdropped := List.mem_reverse.mp ((List.dropWhile_sublist _).subset (List.mem_reverse.mp h))
  exact (List.dropWhile_sublist _).subset hdropped

theorem toLower_eq_dot {c : Char} (h : c.toLower = '.') : c = '.' := by
  unfold Char.toLower at h
  split at h
  case isTrue hupper =>
    have hval : (c.val + ('a'.val - 'A'.val)).toNat = 46 := congrArg (fun c => c.val.toNat) h
    have hlow : 65 ≤ c.val.toNat := UInt32.le_iff_toNat_le.mp hupper.1
    have hhigh : c.val.toNat ≤ 90 := UInt32.le_iff_toNat_le.mp hupper.2
    have hshift : ('a'.val - 'A'.val).toNat = 32 := rfl
    rw [UInt32.toNat_add, hshift] at hval
    omega
  case isFalse => exact h

/-- **A variable without dots in its name is for one key**, which is no path into tables. -/
theorem keyOf?_eq_some_iff {path : List String} (hdots : HasStem stem name → '.' ∉ name.toList) :
    keyOf? stem name = some (key :: path) ↔ IsFor stem key name ∧ key ≠ "" ∧ path = [] := by
  rw [keyOf?]
  dsimp only
  cases hprefix : (stem.toList.map Char.toLower).isPrefixOf? ((trim name.toList).map Char.toLower) with
  | none =>
    refine ⟨fun h => (nomatch h), ?_⟩
    rintro ⟨⟨text, htext, _⟩, _⟩
    rw [htext, isPrefixOf?_append] at hprefix
    cases hprefix
  | some text =>
    have htext := eq_append_of_isPrefixOf? hprefix
    -- Only a dot has a dot for its lower case, and `trim` adds no characters.
    have hdot : '.' ∉ trim text := by
      intro hmem
      have hlower : '.' ∈ (trim name.toList).map Char.toLower :=
        htext ▸ List.mem_append_right _ (mem_of_mem_trim hmem)
      obtain ⟨c, hc, heq⟩ := List.mem_map.mp hlower
      exact hdots ⟨text, htext.symm⟩ (toLower_eq_dot heq ▸ mem_of_mem_trim hc)
    rw [isFor_iff_of_stem htext]
    simp only [List.splitOn_eq_singleton hdot]
    cases trim text with
    | nil => simpa using fun h hne => absurd h hne
    | cons c rest =>
      constructor
      · intro h
        cases h
        exact ⟨String.toList_ofList.symm, by simp, rfl⟩
      · rintro ⟨h, hne, rfl⟩
        simp [h, hne]

theorem setting?_cons (v : String × String) :
    setting? stem (v :: environment) field = (setting? stem environment field).or
      (if IsFor stem field v.1 then some (parse v.2) else none) := by
  rw [setting?, setting?, List.reverse_cons, List.find?_append, Option.map_or]
  by_cases hv : IsFor stem field v.1 <;> simp [hv]

/-- What one variable sets. -/
theorem lastSetting?_settings_one {v : String × String} (hfield : field ≠ "")
    (hdots : HasStem stem v.1 → '.' ∉ v.1.toList) :
    Config.lastSetting? (settings stem [v]) field
      = if IsFor stem field v.1 then some (parse v.2) else none := by
  by_cases hfor : IsFor stem field v.1
  · have hkey : keyOf? stem v.1 = some [field] := (keyOf?_eq_some_iff hdots).mpr ⟨hfor, hfield, rfl⟩
    simp [settings, Config.lastSetting?, hkey, hfor, nest]
  · -- The variable may be for another key.
    rw [if_neg hfor, settings, Config.lastSetting?]
    cases hkey : keyOf? stem v.1 with
    | none => simp [hkey]
    | some parts =>
      cases parts with
      | nil => simp [hkey]
      | cons key path =>
        have hkeyFor := ((keyOf?_eq_some_iff hdots).mp hkey).1
        have hne : (field == key) = false := beq_false_of_ne fun heq => hfor (heq ▸ hkeyFor)
        simp [hkey, hne, List.lookup_cons]

/-- **The last setting among those of variables is what the last variable for the field gives.** -/
theorem lastSetting?_settings (hfield : field ≠ "")
    (hdots : ∀ v ∈ environment, HasStem stem v.1 → '.' ∉ v.1.toList) :
    Config.lastSetting? (settings stem environment) field = setting? stem environment field := by
  induction environment with
  | nil => rfl
  | cons v environment ih =>
    obtain ⟨hv, hrest⟩ := List.forall_mem_cons.mp hdots
    have hsplit : settings stem (v :: environment) = settings stem [v] ++ settings stem environment :=
      List.filterMap_append (l := [v])
    rw [hsplit, Config.lastSetting?_append, ih hrest, lastSetting?_settings_one hfield hv,
      setting?_cons]

end Environment

/-! ## Files -/

namespace FileSystem

variable {fs : FileSystem} {file : Option Path} {source : Path}
  {settings : List (String × Setting)}

/-- **A file holds settings** if its bytes are a text, and this is a valid text of these settings. -/
def HoldsSettings (fs : FileSystem) (source : Path) (settings : List (String × Setting)) : Prop :=
  ∃ bytes text, fs.contents source = .ok bytes ∧ String.fromUTF8? bytes = some text ∧
    Toml.parse text = some settings

/-- **The file that is read**: where the path leads that is named, or else the default one, if there is
anything.  A relative path is looked for in the working directory first, then above it. -/
def configFile? (fs : FileSystem) (file : Option Path) : Option Path :=
  if fs.isPresent (file.getD Config.defaultFile) then
    (Config.places fs.workingDir.toOption (file.getD Config.defaultFile)).find? fs.isFile
  else none

/-- **What comes from a file**: the settings of the file that is read, and none if none is read. -/
def GivesSettings (fs : FileSystem) (file : Option Path) (settings : List (String × Setting)) : Prop :=
  match fs.configFile? file with
  | some source => fs.HoldsSettings source settings
  | none => settings = []

/-- The settings that a file holds, if it holds any. -/
def settingsIn? (fs : FileSystem) (source : Path) : Option (List (String × Setting)) :=
  (fs.contents source).toOption.bind fun bytes => (String.fromUTF8? bytes).bind Toml.parse

theorem settingsIn?_eq_some_iff :
    fs.settingsIn? source = some settings ↔ fs.HoldsSettings source settings := by
  rw [settingsIn?, HoldsSettings]
  cases fs.contents source with
  | error e => simp [Except.toOption]
  | ok bytes => simp [Except.toOption, Option.bind_eq_some_iff]

theorem settingsIn?_eq_none_iff :
    fs.settingsIn? source = none ↔ ∀ settings, ¬ fs.HoldsSettings source settings := by
  simp only [← settingsIn?_eq_some_iff, Option.eq_none_iff_forall_ne_some, ne_eq]

theorem GivesSettings.nodup_keys (h : fs.GivesSettings file settings) :
    (settings.map Prod.fst).Nodup := by
  unfold GivesSettings at h
  split at h
  · obtain ⟨_, _, _, _, hparse⟩ := h
    exact Toml.nodup_keys_of_parse hparse
  · subst h
    exact List.nodup_nil

/-- **A regular file is read where the path leads from the working directory.** -/
theorem configFile?_of_isFile {dir p : Path} (hdir : fs.workingDir = .ok dir)
    (hp : file.getD Config.defaultFile = p) (hpresent : fs.isPresent p = true)
    (hfile : fs.isFile (dir.join p) = true) : fs.configFile? file = some (dir.join p) := by
  have hworking : fs.workingDir.toOption = some dir := congrArg Except.toOption hdir
  rw [configFile?, hp, if_pos hpresent, hworking, Config.places]
  split
  case isTrue habsolute =>
    have hjoin : dir.join p = p := by rw [Path.join, if_pos habsolute]
    rw [hjoin] at hfile ⊢
    exact List.find?_cons_of_pos hfile
  case isFalse =>
    rw [Option.elim_some, List.reverse_append, List.reverse_singleton, List.singleton_append,
      List.map_cons]
    exact List.find?_cons_of_pos hfile

end FileSystem

namespace Config

variable {fs : FileSystem} {environment : List (String × String)} {file : Option Path}
  {settings : List (String × Setting)} {config : Config}

/-- The settings of a file, unless it is named and missing. -/
theorem fileSettings_eq (hfound : ∀ p, file = some p → fs.isPresent p = true) :
    fileSettings fs file = match fs.configFile? file with
      | none => .ok []
      | some source => (fs.settingsIn? source).elim (.error .invalid) .ok := by
  have hat (p : Path) : settingsAt fs p =
      match (places fs.workingDir.toOption p).find? fs.isFile with
      | none => .ok []
      | some source => (fs.settingsIn? source).elim (.error .invalid) .ok := by
    rw [settingsAt]
    cases (places fs.workingDir.toOption p).find? fs.isFile with
    | none => rfl
    | some source =>
      dsimp only
      rw [← FileSystem.settingsIn?]
      cases fs.settingsIn? source <;> rfl
  cases file with
  | none =>
    rw [fileSettings, FileSystem.configFile?, Option.getD_none, hat]
    split <;> rfl
  | some p =>
    rw [fileSettings, FileSystem.configFile?, Option.getD_some, if_pos (hfound p rfl),
      if_pos (hfound p rfl), hat]

theorem fileSettings_eq_ok_iff (hfound : ∀ p, file = some p → fs.isPresent p = true) :
    fileSettings fs file = .ok settings ↔ fs.GivesSettings file settings := by
  rw [fileSettings_eq hfound, FileSystem.GivesSettings]
  cases fs.configFile? file with
  | none => simp [eq_comm]
  | some source =>
    simp only [← FileSystem.settingsIn?_eq_some_iff]
    cases fs.settingsIn? source <;> simp

theorem fileSettings_eq_error_iff (hfound : ∀ p, file = some p → fs.isPresent p = true)
    {e : ConfigError} : fileSettings fs file = .error e ↔ e = .invalid ∧
      ∃ source, fs.configFile? file = some source ∧ ∀ settings, ¬ fs.HoldsSettings source settings := by
  rw [fileSettings_eq hfound]
  cases fs.configFile? file with
  | none => simp
  | some source =>
    simp only [Option.some.injEq, exists_eq_left', ← FileSystem.settingsIn?_eq_none_iff]
    cases fs.settingsIn? source <;> simp [eq_comm]

/-! ## Fields -/

/-- **The value that wins for a field**: that of the variables if they give one, else that of the
file if it gives one. -/
def winner? (settings : List (String × Setting)) (environment : List (String × String))
    (field : String) : Option Setting :=
  (Environment.setting? variableStem environment field).or (settings.lookup field)

/-- **What is chosen for a field**: what the winner is, and the default if there is none. -/
def IsChosen {α : Type} (kind : Setting → α → Prop) (default : α) : Option Setting → α → Prop
  | none, a => a = default
  | some s, a => kind s a

/-- **The winner is not of the kind** that the field wants. -/
def IsIllTyped {α : Type} (kind : Setting → α → Prop) (winner : Option Setting) : Prop :=
  ∃ s, winner = some s ∧ ∀ a, ¬ kind s a

/-- A list of texts. -/
def IsTexts (s : Setting) (texts : List String) : Prop := s = .list (texts.map .text)

/-- A number of at most 64 bits without a sign. -/
def IsWord (s : Setting) (n : Nat) : Prop := s = .integer n ∧ n < Nat.pow 2 64

theorem text?_eq_some_iff {s : Setting} {text : String} : s.text? = some text ↔ s = .text text := by
  cases s <;> simp [Setting.text?]

theorem texts?_eq_some_iff {s : Setting} {texts : List String} :
    s.texts? = some texts ↔ IsTexts s texts := by
  cases s with
  | list items =>
    rw [Setting.texts?, IsTexts, Setting.list.injEq]
    induction items generalizing texts with
    | nil => cases texts <;> simp
    | cons item items ih =>
      rw [List.mapM_cons]
      cases texts with
      | nil => simp [Option.bind_eq_some_iff]
      | cons text texts => simp [Option.bind_eq_some_iff, text?_eq_some_iff, ih]
  | _ => simp [Setting.texts?, IsTexts]

theorem word?_eq_some_iff {s : Setting} {n : Nat} : s.word? = some n ↔ IsWord s n := by
  cases s with
  | integer value =>
    rw [Setting.word?, IsWord, Setting.integer.injEq]
    split
    case isTrue h =>
      rw [Option.some.injEq]
      omega
    case isFalse h =>
      refine ⟨fun h => (nomatch h), fun ⟨hvalue, hn⟩ => absurd ⟨?_, ?_⟩ h⟩
      all_goals omega
  | _ => simp [Setting.word?, IsWord]

/-- The last one of settings that give each key once is the only one. -/
theorem lastSetting?_of_nodup (h : (settings.map Prod.fst).Nodup) (field : String) :
    lastSetting? settings field = settings.lookup field := by
  have hreverse : (settings.reverse.map Prod.fst).Nodup :=
    ((List.reverse_perm settings).map Prod.fst).nodup_iff.mpr h
  have hlookup {es : List (String × Setting)} (h : (es.map Prod.fst).Nodup) (s : Setting) :
      es.lookup field = some s ↔ (field, s) ∈ es := OrderedMap.get?_eq_some_iff (m := ⟨es, h⟩)
  refine Option.ext fun s => ?_
  rw [lastSetting?, hlookup hreverse, hlookup h, List.mem_reverse]

section Field

variable {α : Type} {read : Setting → Option α} {kind : Setting → α → Prop} {field : String}
  {default : α}

/-- **A field is read from its winner.** -/
theorem field?_layers (hnodup : (settings.map Prod.fst).Nodup) (hfield : field ≠ "")
    (hdots : ∀ v ∈ environment, Environment.HasStem variableStem v.1 → '.' ∉ v.1.toList) :
    field? (settings ++ Environment.settings variableStem environment) field read default
      = (winner? settings environment field).elim (some default) read := by
  rw [field?, lastSetting?_append, Environment.lastSetting?_settings hfield hdots,
    lastSetting?_of_nodup hnodup, ← winner?]
  cases winner? settings environment field <;> rfl

theorem elim_eq_some_iff (hread : ∀ s a, read s = some a ↔ kind s a) {winner : Option Setting} {a : α} :
    winner.elim (some default) read = some a ↔ IsChosen kind default winner a := by
  cases winner with
  | none => simp [IsChosen, eq_comm]
  | some s => exact hread s a

theorem elim_eq_none_iff (hread : ∀ s a, read s = some a ↔ kind s a) {winner : Option Setting} :
    winner.elim (some default) read = none ↔ IsIllTyped kind winner := by
  cases winner with
  | none => simp [IsIllTyped]
  | some s => simp [IsIllTyped, Option.eq_none_iff_forall_ne_some, hread]

end Field

section Fields

variable {given : List (String × Setting)}

theorem ofSettings?_eq_some_iff : ofSettings? given = some config ↔
    field? given "vendor_dirs" Setting.texts? ["node_modules"] = some config.vendorDirs ∧
    field? given "max_file_size" Setting.word? 10485760 = some config.maxFileSize := by
  obtain ⟨vendorDirs, maxFileSize⟩ := config
  rw [ofSettings?]
  dsimp only
  split <;> simp_all

theorem ofSettings?_eq_none_iff : ofSettings? given = none ↔
    field? given "vendor_dirs" Setting.texts? ["node_modules"] = none ∨
    field? given "max_file_size" Setting.word? 10485760 = none := by
  rw [ofSettings?]
  dsimp only
  cases field? given "vendor_dirs" Setting.texts? ["node_modules"] <;>
    cases field? given "max_file_size" Setting.word? 10485760 <;> simp

end Fields

/-! ## Loading -/

theorem load_eq_ok_iff : load fs environment file = .ok config ↔
    ∃ settings, fileSettings fs file = .ok settings ∧
      ofSettings? (settings ++ Environment.settings variableStem environment) = some config := by
  rw [load]
  cases fileSettings fs file with
  | error e => simp
  | ok settings =>
    dsimp only
    split <;> simp_all

theorem load_eq_error_iff {e : ConfigError} : load fs environment file = .error e ↔
    fileSettings fs file = .error e ∨ (e = .invalid ∧ ∃ settings, fileSettings fs file = .ok settings ∧
      ofSettings? (settings ++ Environment.settings variableStem environment) = none) := by
  rw [load]
  cases fileSettings fs file with
  | error e => simp
  | ok settings =>
    dsimp only
    cases hof : ofSettings? (settings ++ Environment.settings variableStem environment)
    all_goals simp [hof, eq_comm]

theorem load_eq_notFound_iff {p : Path} : load fs environment file = .error (.notFound p) ↔
    file = some p ∧ fs.isPresent p = false := by
  -- Unless the file is named and missing, there is only one kind of failure.
  have hinvalid (hfound : ∀ q, file = some q → fs.isPresent q = true) :
      load fs environment file ≠ .error (.notFound p) := by
    simp [load_eq_error_iff, fileSettings_eq_error_iff hfound]
  cases file with
  | none => exact ⟨fun h => absurd h (hinvalid fun q hq => nomatch hq), fun h => nomatch h.1⟩
  | some q =>
    by_cases hq : fs.isPresent q = true
    · refine ⟨fun h => absurd h (hinvalid fun _ heq => Option.some.inj heq ▸ hq), ?_⟩
      rintro ⟨heq, hmissing⟩
      rw [← Option.some.inj heq, hq] at hmissing
      cases hmissing
    · rw [load, fileSettings, if_neg hq]
      simp only [Except.error.injEq, ConfigError.notFound.injEq, Option.some.injEq]
      refine (and_iff_left_of_imp fun heq => ?_).symm
      rwa [← heq, ← Bool.not_eq_true]

/-- **The configuration is chosen field by field.**  Loading fails with a file that is not found if and
only if one is named that is not there.  Otherwise each of the two fields has the value of the
variables if they give one, else that of the file if it gives one, else its default; and loading fails
with an invalid configuration if and only if the file that is read is not valid, or the winner for one
of the fields is not of its kind. -/
theorem load_layers (fs : FileSystem) (environment : List (String × String)) (file : Option Path)
    (hdots : ∀ v ∈ environment, Environment.HasStem variableStem v.1 → '.' ∉ v.1.toList) :
    (∀ p, load fs environment file = .error (.notFound p) ↔
      file = some p ∧ fs.isPresent p = false) ∧
    ((∀ p, file = some p → fs.isPresent p = true) →
      (∀ config, load fs environment file = .ok config ↔ ∃ settings, fs.GivesSettings file settings ∧
        IsChosen IsTexts ["node_modules"] (winner? settings environment "vendor_dirs")
          config.vendorDirs ∧
        IsChosen IsWord 10485760 (winner? settings environment "max_file_size")
          config.maxFileSize) ∧
      (load fs environment file = .error .invalid ↔
        (∃ source, fs.configFile? file = some source ∧
          ∀ settings, ¬ fs.HoldsSettings source settings) ∨
        ∃ settings, fs.GivesSettings file settings ∧
          (IsIllTyped IsTexts (winner? settings environment "vendor_dirs") ∨
            IsIllTyped IsWord (winner? settings environment "max_file_size")))) := by
  refine ⟨fun p => load_eq_notFound_iff, fun hfound => ⟨fun config => ?_, ?_⟩⟩
  · rw [load_eq_ok_iff]
    refine exists_congr fun settings => ?_
    rw [fileSettings_eq_ok_iff hfound]
    refine and_congr_right fun hgives => ?_
    rw [ofSettings?_eq_some_iff, field?_layers hgives.nodup_keys (by decide) hdots,
      field?_layers hgives.nodup_keys (by decide) hdots,
      elim_eq_some_iff fun _ _ => texts?_eq_some_iff, elim_eq_some_iff fun _ _ => word?_eq_some_iff]
  · rw [load_eq_error_iff, fileSettings_eq_error_iff hfound]
    refine or_congr (and_iff_right rfl) ((and_iff_right rfl).trans (exists_congr fun settings => ?_))
    rw [fileSettings_eq_ok_iff hfound]
    refine and_congr_right fun hgives => ?_
    rw [ofSettings?_eq_none_iff, field?_layers hgives.nodup_keys (by decide) hdots,
      field?_layers hgives.nodup_keys (by decide) hdots,
      elim_eq_none_iff fun _ _ => texts?_eq_some_iff, elim_eq_none_iff fun _ _ => word?_eq_some_iff]

/-- A disk with a file of settings, of which the one for the directories is of the wrong kind. -/
def mixedDisk : Memory :=
  (Memory.bare (some ⟨"/p"⟩)).put ⟨"/p/custom.toml"⟩
    { kind := .file "vendor_dirs = 5\nmax_file_size = 10\n".toUTF8 }

/-- A variable with a setting of the right kind for the directories. -/
def libVariable : List (String × String) := [("MODTREE_VENDOR_DIRS", "[\"lib\"]")]

/-- A value of the wrong kind does no harm in a file if a variable wins over it; a file that is named
and missing does. -/
theorem load_layers_overridden :
    load mixedDisk.toFileSystem libVariable (some ⟨"/p/custom.toml"⟩) = .ok ⟨["lib"], 10⟩ ∧
    load mixedDisk.toFileSystem libVariable (some ⟨"/p/modtree.toml"⟩)
      = .error (.notFound ⟨"/p/modtree.toml"⟩) := by
  have hdots : ∀ v ∈ libVariable, Environment.HasStem variableStem v.1 → '.' ∉ v.1.toList := by
    intro v hv _
    obtain rfl := List.mem_singleton.mp hv
    decide
  refine ⟨?_, ((load_layers _ _ _ hdots).1 _).mpr ⟨rfl, by decide +kernel⟩⟩
  have hfound : ∀ p, some (⟨"/p/custom.toml"⟩ : Path) = some p →
      mixedDisk.toFileSystem.isPresent p = true := by
    intro p hp
    obtain rfl := Option.some.inj hp
    decide +kernel
  have hsource : mixedDisk.toFileSystem.configFile? (some ⟨"/p/custom.toml"⟩)
      = some (Path.join ⟨"/p"⟩ ⟨"/p/custom.toml"⟩) :=
    FileSystem.configFile?_of_isFile rfl rfl (by decide +kernel) (by decide +kernel)
  have hsize : ((mixedDisk.toFileSystem.settingsIn? (Path.join ⟨"/p"⟩ ⟨"/p/custom.toml"⟩)).bind
      fun settings => (winner? settings libVariable "max_file_size").bind Setting.word?) = some 10 := by
    decide +kernel
  have hdirs : (Environment.setting? variableStem libVariable "vendor_dirs").bind Setting.texts?
      = some ["lib"] := by
    decide +kernel
  obtain ⟨settings, hsettings, hsize⟩ := Option.bind_eq_some_iff.mp hsize
  obtain ⟨size, hwinner, hsize⟩ := Option.bind_eq_some_iff.mp hsize
  obtain ⟨dirs, hvariable, hdirs⟩ := Option.bind_eq_some_iff.mp hdirs
  refine (((load_layers _ _ _ hdots).2 hfound).1 ⟨["lib"], 10⟩).mpr ⟨settings, ?_, ?_, ?_⟩
  · rw [FileSystem.GivesSettings, hsource]
    exact FileSystem.settingsIn?_eq_some_iff.mp hsettings
  · rw [winner?, hvariable]
    exact texts?_eq_some_iff.mp hdirs
  · rw [hwinner]
    exact word?_eq_some_iff.mp hsize

end Config

end ImportAtlas
