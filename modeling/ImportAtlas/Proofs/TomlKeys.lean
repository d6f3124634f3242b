import ImportAtlas.Toml.Document

/-!
# Proofs/TomlKeys — a TOML text gives each of its keys once

Nothing is ever added to a table except by `Table.set`, which puts an entry in the place of those with
its key.  So whatever a line does to the table of all that was found, the keys of that table stay
apart (`Table.modifyAt_keysApart`), and so do those of the settings that are read (`nodup_keys_of_parse`).
-/

namespace ImportAtlas

/-! ## What a reading gives -/

namespace Scan

variable {α β : Type} {x : Scan α} {p : α → Prop} {q : β → Prop}

/-- **Whatever is read has a property.** -/
def Ensures (x : Scan α) (p : α → Prop) : Prop :=
  ∀ text a rest, x text = some (a, rest) → p a

theorem ensures_pure {a : α} (h : p a) : Ensures (pure a) p := by
  intro text b rest hb
  cases hb
  exact h

theorem ensures_failure : Ensures (failure : Scan α) p :=
  fun _ _ _ h => nomatch h

theorem Ensures.bind {f : α → Scan β} (hx : Ensures x p) (hf : ∀ a, p a → Ensures (f a) q) :
    Ensures (x >>= f) q := by
  intro text b rest h
  obtain ⟨⟨a, middle⟩, ha, hb⟩ := Option.bind_eq_some_iff.mp h
  exact hf a (hx text a middle ha) middle b rest hb

/-- What is read first need not be known. -/
theorem ensures_bind {f : α → Scan β} (hf : ∀ a, Ensures (f a) q) : Ensures (x >>= f) q :=
  Ensures.bind (p := fun _ => True) (fun _ _ _ _ => trivial) fun a _ => hf a

theorem ensures_ite {c : Prop} [Decidable c] {y : Scan α} (hx : Ensures x p) (hy : Ensures y p) :
    Ensures (if c then x else y) p := by
  split
  · exact hx
  · exact hy

/-- What is there is read, and nothing else. -/
theorem ensures_found (found : Option α) :
    Ensures (match found with | some a => pure a | none => failure : Scan α) fun a => found = some a := by
  cases found with
  | none => exact ensures_failure
  | some a => exact ensures_pure rfl

theorem Ensures.of_whole? {text : List Char} {a : α} (hx : Ensures x p)
    (h : whole? x text = some a) : p a := by
  unfold whole? at h
  split at h
  · rename_i ha
    cases h
    exact hx _ _ _ ha
  · cases h

end Scan

open Scan

namespace Toml

/-! ## Tables -/

namespace Table

variable {t u : Table} {dotted : Bool} {path : List String} {change : Table → Option Table}

/-- No key of the table comes twice. -/
def KeysApart (t : Table) : Prop := (t.entries.map Prod.fst).Nodup

theorem keysApart_empty : empty.KeysApart := List.nodup_nil

theorem KeysApart.set (h : t.KeysApart) (key : String) (item : Item) : (t.set key item).KeysApart := by
  rw [KeysApart, Table.set, entries, List.map_append, List.nodup_append]
  refine ⟨h.sublist (List.filter_sublist.map _), by simp, fun k hk k' hk' => ?_⟩
  obtain ⟨e, he, rfl⟩ := List.mem_map.mp hk
  obtain rfl : k' = key := by simpa using hk'
  simpa using (List.mem_filter.mp he).2

/-- **A change that leaves keys apart does so at the end of any path.** -/
theorem modifyAt_keysApart (hchange : ∀ {t u}, t.KeysApart → change t = some u → u.KeysApart)
    (ht : t.KeysApart) (h : modifyAt dotted change path t = some u) : u.KeysApart := by
  cases path with
  | nil => exact hchange ht h
  | cons key rest =>
    -- The rest of the path is followed in another table, and this one gets the result by `set`.
    rw [modifyAt] at h
    split at h
    case h_1 =>
      obtain ⟨_, _, rfl⟩ := Option.map_eq_some_iff.mp h
      exact ht.set key _
    case h_2 => cases h
    case h_3 =>
      obtain ⟨_, _, rfl⟩ := Option.map_eq_some_iff.mp h
      exact ht.set key _
    case h_4 =>
      split at h
      · cases h
      · obtain ⟨_, _, rfl⟩ := Option.map_eq_some_iff.mp h
        exact ht.set key _

theorem insert_keysApart {value : Setting} (ht : t.KeysApart)
    (h : t.insert path value = some u) : u.KeysApart := by
  unfold insert at h
  split at h
  · cases h
  · refine modifyAt_keysApart (fun ht h => ?_) ht h
    split at h
    · cases h
    · cases h
      exact ht.set _ _

theorem openTable_keysApart (ht : t.KeysApart) (h : t.openTable path = some u) : u.KeysApart := by
  unfold openTable at h
  split at h
  · cases h
  · refine modifyAt_keysApart (fun ht h => ?_) ht h
    split at h
    · cases h
      exact ht.set _ _
    · split at h
      · cases h
      · cases h
        exact ht.set _ _
    · cases h

theorem openElement_keysApart (ht : t.KeysApart) (h : t.openElement path = some u) :
    u.KeysApart := by
  unfold openElement at h
  split at h
  · cases h
  · refine modifyAt_keysApart (fun ht h => ?_) ht h
    split at h
    · cases h
      exact ht.set _ _
    · cases h
      exact ht.set _ _
    · cases h

end Table

/-! ## Lines -/

variable {p : Progress}

theorem line_ensures (hp : p.root.KeysApart) : Ensures (line p) fun p' => p'.root.KeysApart := by
  unfold line
  refine ensures_bind fun c => ?_
  split
  case h_1 | h_2 | h_3 | h_4 => exact ensures_pure hp
  case h_5 =>
    refine ensures_bind fun isElement => ensures_ite ?_ ?_
    · refine ensures_bind fun path => ensures_bind fun _ => (ensures_found _).bind fun t ht => ?_
      exact ensures_pure (Table.openElement_keysApart hp ht)
    · refine ensures_bind fun _ => ensures_bind fun path => ensures_bind fun _ => ?_
      refine (ensures_found _).bind fun t ht => ?_
      exact ensures_pure (Table.openTable_keysApart hp ht)
  case h_6 =>
    refine ensures_bind fun path => ensures_bind fun _ => ensures_bind fun _ => ?_
    refine ensures_bind fun _ => ensures_bind fun v => (ensures_found _).bind fun t ht => ?_
    exact ensures_pure (Table.modifyAt_keysApart Table.insert_keysApart hp ht)

theorem lines_ensures (rounds : Nat) (hp : p.root.KeysApart) :
    Ensures (lines rounds p) fun p' => p'.root.KeysApart := by
  induction rounds generalizing p with
  | zero => exact ensures_failure
  | succ rounds ih =>
    refine ensures_bind fun _ => (line_ensures hp).bind fun p' hp' => ?_
    refine ensures_bind fun _ => ensures_bind fun _ => ensures_bind fun atEnd => ?_
    refine ensures_ite (ensures_pure hp') (ensures_bind fun lineEnd => ?_)
    exact ensures_ite (ih hp') ensures_failure

theorem map_fst_entrySettings (entries : List (String × Item)) :
    (entrySettings entries).map Prod.fst = entries.map Prod.fst := by
  induction entries with
  | nil => rfl
  | cons e rest ih => rw [entrySettings, List.map_cons, List.map_cons, ih]

/-- **The settings of a text have one value for each key.** -/
theorem nodup_keys_of_parse {text : String} {settings : List (String × Setting)}
    (h : parse text = some settings) : (settings.map Prod.fst).Nodup := by
  obtain ⟨p, hp, rfl⟩ := Option.map_eq_some_iff.mp h
  rw [map_fst_entrySettings]
  exact (lines_ensures _ Table.keysApart_empty).of_whole? hp

end Toml

end ImportAtlas
