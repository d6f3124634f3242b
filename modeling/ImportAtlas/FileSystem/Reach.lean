import ImportAtlas.FileSystem.Basic

/-!
# FileSystem/Reach — how much there is to read

All files that can be read are in one finite list, whatever the disk is.  This is what an
exploration uses up.
-/

namespace ImportAtlas

/-- All characters are in a list. -/
theorem exists_list_char : ∃ cs : List Char, ∀ c, c ∈ cs :=
  ⟨(List.range 0x110000).map Char.ofNat, fun c =>
    List.mem_map.2 ⟨c.toNat, by
      have h : c.toNat < 0xD800 ∨ 0xDFFF < c.toNat ∧ c.toNat < 0x110000 := c.valid
      exact List.mem_range.2 (by omega), Char.ofNat_toNat c⟩⟩

/-- All texts up to a length are in a list. -/
theorem exists_list_text (n : Nat) :
    ∃ texts : List (List Char), ∀ text, text.length ≤ n → text ∈ texts := by
  obtain ⟨cs, hcs⟩ := exists_list_char
  induction n with
  | zero => exact ⟨[[]], fun text h => by simpa using h⟩
  | succ n ih =>
    obtain ⟨texts, htexts⟩ := ih
    refine ⟨[] :: cs.flatMap fun c => texts.map (c :: ·), fun text h => ?_⟩
    cases text with
    | nil => simp
    | cons c rest =>
      refine List.mem_cons_of_mem _ (List.mem_flatMap.2 ⟨c, hcs c, List.mem_map.2 ⟨rest, ?_, rfl⟩⟩)
      exact htexts rest (by simpa using h)

namespace FileSystem

/-- All files that can be read are in a list. -/
theorem exists_files (fs : FileSystem) :
    ∃ ps : List Path, ∀ p bytes, p.clean = p → fs.contents p = .ok bytes → p ∈ ps := by
  obtain ⟨n, hn⟩ := fs.files_bounded
  obtain ⟨texts, htexts⟩ := exists_list_text n
  refine ⟨texts.map fun text => ⟨String.ofList text⟩, fun p bytes hp h => ?_⟩
  exact List.mem_map.2 ⟨p.text.toList, htexts _ (hn p bytes hp h), by simp⟩

/-- A list with all files that can be read. -/
noncomputable def files (fs : FileSystem) : List Path := fs.exists_files.choose

theorem mem_files {fs : FileSystem} {p : Path} {bytes : ByteArray} (hp : p.clean = p)
    (h : fs.contents p = .ok bytes) : p ∈ fs.files :=
  fs.exists_files.choose_spec p bytes hp h

/-- A depth below which no directory can be listed. -/
noncomputable def maxDepth (fs : FileSystem) : Nat := fs.dirs_bounded.choose

theorem depth_le_maxDepth {fs : FileSystem} {p : Path} {names : List String}
    (h : fs.names p = .ok names) : p.depth ≤ fs.maxDepth :=
  fs.dirs_bounded.choose_spec p names h

end FileSystem

end ImportAtlas
