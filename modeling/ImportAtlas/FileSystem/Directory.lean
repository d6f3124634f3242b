import ImportAtlas.OrderedMap
import ImportAtlas.Path.Lemmas

/-!
# FileSystem/Directory — directories in a map from paths

What lies on a disk is a map from clean paths.  The names in a directory are read off the keys; they
are plain, and no name comes twice.
-/

namespace ImportAtlas

variable {α : Type}

/-- The map with directories where the given paths lead to nothing. -/
def addDirs (directory : α) (m : OrderedMap Path α) (ps : List Path) : OrderedMap Path α :=
  ps.foldl (fun m p => m.update p fun known => known.getD directory) m

/-- The map with something at a clean path, and with directories above it where there is nothing. -/
def putAt (directory : α) (m : OrderedMap Path α) (p : Path) (a : α) : OrderedMap Path α :=
  (addDirs directory m p.ancestors).insert p a

/-- Whether a clean path is another one or lies below it. -/
def isAtOrBelow (top p : Path) : Bool :=
  p == top || (top.child "").text.toList.isPrefixOf p.text.toList

/-- The map without what lies at a clean path and below it. -/
def removeAt (m : OrderedMap Path α) (p : Path) : OrderedMap Path α :=
  m.filterKeys fun q => !isAtOrBelow p q

/-- The name of what lies at a clean path if it lies directly in the given directory. -/
def nameIn? (dir p : Path) : Option String :=
  ((dir.child "").text.toList.isPrefixOf? p.text.toList).bind fun rest =>
    let name := String.ofList rest
    if Path.isPlainName name then some name else none

/-- The names directly in a clean directory, among clean paths. -/
def namesIn (ps : List Path) (dir : Path) : List String := ps.filterMap (nameIn? dir)

/-! ## Names are plain and distinct -/

theorem eq_append_of_isPrefixOf? {front l rest : List Char}
    (h : front.isPrefixOf? l = some rest) : l = front ++ rest := by
  induction front generalizing l with
  | nil => exact Option.some.inj h
  | cons c cs ih =>
    cases l with
    | nil => nomatch h
    | cons d ds =>
      change (if c == d then cs.isPrefixOf? ds else none) = some rest at h
      split at h
      · rename_i e
        rw [ih h, beq_iff_eq.1 e, List.cons_append]
      · simp at h

theorem text_of_nameIn? {dir p : Path} {name : String} (h : nameIn? dir p = some name) :
    p.text.toList = (dir.child "").text.toList ++ name.toList ∧ Path.isPlainName name = true := by
  simp only [nameIn?, Option.bind_eq_some_iff] at h
  obtain ⟨rest, hrest, h⟩ := h
  split at h
  · obtain rfl := Option.some.inj h
    exact ⟨by simpa using eq_append_of_isPrefixOf? hrest, ‹_›⟩
  · simp at h

theorem text_child {dir : Path} {name : String} (h : Path.isPlainName name = true) :
    (dir.child name).text.toList = (dir.child "").text.toList ++ name.toList := by
  have hrel := Path.isRelative_of_isPlainName h
  have hempty : (Path.mk "").isAbsolute = false := rfl
  simp only [Path.child, Path.join, hrel, hempty, Bool.false_eq_true, if_false]
  split <;> simp

theorem isPrefixOf?_append (front rest : List Char) :
    front.isPrefixOf? (front ++ rest) = some rest := by
  induction front with
  | nil => rfl
  | cons c cs ih =>
    change (if c == c then cs.isPrefixOf? (cs ++ rest) else none) = some rest
    rw [if_pos (beq_self_eq_true c), ih]

/-- The names in a directory are those of its entries among the paths. -/
theorem mem_namesIn {ps : List Path} {dir : Path} {name : String} :
    name ∈ namesIn ps dir ↔ Path.isPlainName name = true ∧ dir.child name ∈ ps := by
  rw [namesIn, List.mem_filterMap]
  constructor
  · rintro ⟨p, hp, hname⟩
    obtain ⟨htext, hplain⟩ := text_of_nameIn? hname
    rw [← text_child hplain] at htext
    obtain rfl : p = dir.child name := congrArg Path.mk (String.toList_inj.mp htext)
    exact ⟨hplain, hp⟩
  · rintro ⟨hplain, hp⟩
    refine ⟨_, hp, ?_⟩
    rw [nameIn?, text_child hplain, isPrefixOf?_append]
    simp [hplain]

theorem isPlainName_of_mem_namesIn {ps : List Path} {dir : Path} {name : String}
    (h : name ∈ namesIn ps dir) : Path.isPlainName name = true := (mem_namesIn.mp h).1

theorem nodup_namesIn {ps : List Path} (hps : ps.Nodup) (dir : Path) : (namesIn ps dir).Nodup := by
  unfold namesIn
  rw [List.nodup_iff_pairwise_ne, List.pairwise_filterMap]
  refine List.Pairwise.imp ?_ hps
  intro p q hne name hp name' hq e
  subst e
  have h := (text_of_nameIn? hp).1.trans (text_of_nameIn? hq).1.symm
  obtain ⟨p⟩ := p
  obtain ⟨q⟩ := q
  exact hne (congrArg Path.mk (String.toList_inj.1 h))

/-- A member of a list is at most the largest one. -/
theorem le_foldr_max (f : α → Nat) {l : List α} {a : α} (h : a ∈ l) :
    f a ≤ l.foldr (fun x n => max (f x) n) 0 := by
  induction l with
  | nil => simp at h
  | cons x xs ih =>
    rcases List.mem_cons.1 h with rfl | h
    · exact Nat.le_max_left ..
    · exact Nat.le_trans (ih h) (Nat.le_max_right ..)

end ImportAtlas
