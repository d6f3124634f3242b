/-!
# OrderedMap — finite maps that remember the order of their keys

A map is a list of pairs whose keys differ.  A new key goes to the end; the value of a key that is
there already changes in its place.  `keys_update` and `get?_update` say so, and `ext_get?` that
nothing else is in a map.
-/

namespace ImportAtlas

/-- A finite map with its keys in the order they came in. -/
structure OrderedMap (κ α : Type) where
  entries : List (κ × α)
  nodup_keys : (entries.map Prod.fst).Nodup := by simp
deriving Repr

namespace OrderedMap

variable {κ α β : Type}

theorem ext {m n : OrderedMap κ α} (h : m.entries = n.entries) : m = n := by
  cases m; cases n; cases h; rfl

instance [DecidableEq κ] [DecidableEq α] : DecidableEq (OrderedMap κ α) := fun m n =>
  decidable_of_iff (m.entries = n.entries) ⟨ext, fun h => h ▸ rfl⟩

/-- The map without keys. -/
def empty : OrderedMap κ α := ⟨[], by simp⟩

instance : Inhabited (OrderedMap κ α) := ⟨empty⟩

/-- The keys, in order. -/
def keys (m : OrderedMap κ α) : List κ := m.entries.map Prod.fst

/-- The values, in the order of their keys. -/
def values (m : OrderedMap κ α) : List α := m.entries.map Prod.snd

/-- The number of keys. -/
def size (m : OrderedMap κ α) : Nat := m.entries.length

/-- A map of a different kind of values on the same keys. -/
def mapValues (f : κ → α → β) (m : OrderedMap κ α) : OrderedMap κ β where
  entries := m.entries.map fun e => (e.1, f e.1 e.2)
  nodup_keys := by simpa [Function.comp_def] using m.nodup_keys

variable [DecidableEq κ]

/-- The value of a key. -/
def get? (m : OrderedMap κ α) (key : κ) : Option α := m.entries.lookup key

/-- Whether the key is there. -/
def contains (m : OrderedMap κ α) (key : κ) : Bool := (m.get? key).isSome

/-- Entries with the value of one key changed in its place, or put at the end. -/
def updateEntries (key : κ) (f : Option α → α) : List (κ × α) → List (κ × α)
  | [] => [(key, f none)]
  | e :: r => if e.1 = key then (key, f (some e.2)) :: r else e :: updateEntries key f r

theorem map_fst_updateEntries (key : κ) (f : Option α → α) (es : List (κ × α)) :
    (updateEntries key f es).map Prod.fst
      = if key ∈ es.map Prod.fst then es.map Prod.fst else es.map Prod.fst ++ [key] := by
  induction es with
  | nil => simp [updateEntries]
  | cons e r ih =>
    unfold updateEntries
    split
    · rename_i h
      simp [h]
    · rename_i h
      have h' : ¬ key = e.1 := fun h' => h h'.symm
      simp only [List.map_cons, ih, List.mem_cons, h', false_or]
      split <;> simp

/-- The map with the value of a key computed from what it was. -/
def update (m : OrderedMap κ α) (key : κ) (f : Option α → α) : OrderedMap κ α where
  entries := updateEntries key f m.entries
  nodup_keys := by
    rw [map_fst_updateEntries]
    split
    · exact m.nodup_keys
    · rename_i h
      rw [List.nodup_append]
      refine ⟨m.nodup_keys, by simp, fun a ha b hb e => h ?_⟩
      simp only [List.mem_singleton] at hb
      exact hb ▸ e ▸ ha

/-- The map with a key set to a value. -/
def insert (m : OrderedMap κ α) (key : κ) (value : α) : OrderedMap κ α :=
  m.update key fun _ => value

/-- The map with the value of a key changed, if the key is there. -/
def modify (m : OrderedMap κ α) (key : κ) (f : α → α) : OrderedMap κ α :=
  m.mapValues fun k a => if k = key then f a else a

/-- The map without some keys. -/
def filterKeys (m : OrderedMap κ α) (keep : κ → Bool) : OrderedMap κ α where
  entries := m.entries.filter fun e => keep e.1
  nodup_keys := (List.filter_sublist.map Prod.fst).nodup m.nodup_keys

/-- The map of a list of pairs; of several pairs with one key, the first gives the place and the
last the value. -/
def ofList (es : List (κ × α)) : OrderedMap κ α := es.foldl (fun m e => m.insert e.1 e.2) empty

/-! ## Looking up -/

theorem lookup_cons_eq (key : κ) (e : κ × α) (es : List (κ × α)) :
    (e :: es).lookup key = if key = e.1 then some e.2 else es.lookup key := by
  obtain ⟨k, a⟩ := e
  by_cases h : key = k
  · simp [h]
  · have h' : (key == k) = false := by simpa using h
    simp [List.lookup_cons, h, h']

theorem lookup_updateEntries (key key' : κ) (f : Option α → α) (es : List (κ × α)) :
    (updateEntries key f es).lookup key'
      = if key' = key then some (f (es.lookup key)) else es.lookup key' := by
  induction es with
  | nil => simp [updateEntries, lookup_cons_eq]
  | cons e r ih =>
    unfold updateEntries
    by_cases hk : e.1 = key
    · by_cases h : key' = key <;> simp [lookup_cons_eq, h, hk]
    · have hk' : ¬ key = e.1 := fun h => hk h.symm
      simp only [hk, if_false, lookup_cons_eq, ih, hk']
      by_cases h : key' = key <;> simp [h, hk']

@[simp] theorem get?_update (m : OrderedMap κ α) (key key' : κ) (f : Option α → α) :
    (m.update key f).get? key' = if key' = key then some (f (m.get? key)) else m.get? key' :=
  lookup_updateEntries key key' f m.entries

@[simp] theorem keys_update (m : OrderedMap κ α) (key : κ) (f : Option α → α) :
    (m.update key f).keys = if key ∈ m.keys then m.keys else m.keys ++ [key] :=
  map_fst_updateEntries key f m.entries

@[simp] theorem get?_empty (key : κ) : (empty : OrderedMap κ α).get? key = none := rfl

omit [DecidableEq κ] in
@[simp] theorem keys_empty : (empty : OrderedMap κ α).keys = [] := rfl

theorem get?_eq_some_iff {m : OrderedMap κ α} {key : κ} {value : α} :
    m.get? key = some value ↔ (key, value) ∈ m.entries := by
  obtain ⟨es, nodup⟩ := m
  simp only [get?]
  induction es with
  | nil => simp
  | cons e r ih =>
    obtain ⟨k, a⟩ := e
    simp only [List.map_cons, List.nodup_cons] at nodup
    simp only [lookup_cons_eq, List.mem_cons, Prod.mk.injEq]
    by_cases h : key = k
    · subst h
      have : (key, value) ∉ r := fun hm => nodup.1 (List.mem_map_of_mem (f := Prod.fst) hm)
      simp [this, eq_comm]
    · simp [h, ih nodup.2]

theorem isSome_get?_iff {m : OrderedMap κ α} {key : κ} : (m.get? key).isSome ↔ key ∈ m.keys := by
  simp only [Option.isSome_iff_exists, get?_eq_some_iff, keys, List.mem_map, Prod.exists,
    exists_and_right, exists_eq_right]

@[simp] theorem contains_eq_true {m : OrderedMap κ α} {key : κ} :
    m.contains key = true ↔ key ∈ m.keys := isSome_get?_iff

theorem get?_eq_none_iff {m : OrderedMap κ α} {key : κ} : m.get? key = none ↔ key ∉ m.keys := by
  rw [← isSome_get?_iff, Option.not_isSome_iff_eq_none]

omit [DecidableEq κ] in
@[simp] theorem keys_mapValues (f : κ → α → β) (m : OrderedMap κ α) :
    (m.mapValues f).keys = m.keys := by
  simp [keys, mapValues, Function.comp_def]

@[simp] theorem get?_mapValues (f : κ → α → β) (m : OrderedMap κ α) (key : κ) :
    (m.mapValues f).get? key = (m.get? key).map (f key) := by
  obtain ⟨es, nodup⟩ := m
  simp only [get?, mapValues]
  clear nodup
  induction es with
  | nil => simp
  | cons e r ih =>
    rw [List.map_cons, lookup_cons_eq, lookup_cons_eq, ih]
    split
    · rename_i h
      simp_all
    · rfl

@[simp] theorem keys_modify (m : OrderedMap κ α) (key : κ) (f : α → α) :
    (m.modify key f).keys = m.keys := keys_mapValues _ m

@[simp] theorem get?_modify (m : OrderedMap κ α) (key key' : κ) (f : α → α) :
    (m.modify key f).get? key' = if key' = key then (m.get? key').map f else m.get? key' := by
  rw [modify, get?_mapValues]
  by_cases h : key' = key <;> simp [h]

theorem entries_eq_of_lookup : ∀ {es fs : List (κ × α)}, (es.map Prod.fst).Nodup →
    es.map Prod.fst = fs.map Prod.fst →
    (∀ key ∈ es.map Prod.fst, es.lookup key = fs.lookup key) → es = fs
  | [], [], _, _, _ => rfl
  | [], _ :: _, _, h, _ => by simp at h
  | _ :: _, [], _, h, _ => by simp at h
  | (k, a) :: es, (k', b) :: fs, hn, hk, hl => by
    simp only [List.map_cons, List.cons.injEq, List.nodup_cons] at hk hn
    obtain ⟨rfl, hk⟩ := hk
    have hab : a = b := by
      have := hl k (by simp)
      simpa [lookup_cons_eq] using this
    subst hab
    rw [entries_eq_of_lookup hn.2 hk fun key h => ?_]
    have hne : ¬ key = k := fun e => hn.1 (e ▸ h)
    have := hl key (List.mem_cons_of_mem _ h)
    simpa [lookup_cons_eq, hne] using this

/-- **A map is its keys, in order, and what they are mapped to.** -/
theorem ext_get? {m n : OrderedMap κ α} (hk : m.keys = n.keys)
    (hg : ∀ key ∈ m.keys, m.get? key = n.get? key) : m = n :=
  ext (entries_eq_of_lookup m.nodup_keys hk hg)

theorem mem_keys_of_get? {m : OrderedMap κ α} {key : κ} {value : α} (h : m.get? key = some value) :
    key ∈ m.keys := isSome_get?_iff.mp (Option.isSome_of_eq_some h)

theorem exists_get?_of_mem {m : OrderedMap κ α} {key : κ} (h : key ∈ m.keys) :
    ∃ value, m.get? key = some value := Option.isSome_iff_exists.mp (isSome_get?_iff.mpr h)

/-- The values are what the keys are mapped to. -/
theorem filterMap_get?_keys (m : OrderedMap κ α) : m.keys.filterMap m.get? = m.values := by
  have hget : ∀ e ∈ m.entries, (m.get? ∘ Prod.fst) e = some e.2 := fun e he =>
    get?_eq_some_iff.mpr he
  rw [keys, List.filterMap_map, values]
  generalize m.entries = es at hget ⊢
  induction es with
  | nil => rfl
  | cons e es ih =>
    obtain ⟨he, hes⟩ := List.forall_mem_cons.mp hget
    rw [List.filterMap_cons_some he, ih hes, List.map_cons]

omit [DecidableEq κ] in
theorem mapValues_self (m : OrderedMap κ α) : (m.mapValues fun _ value => value) = m :=
  ext (List.map_id' ..)

omit [DecidableEq κ] in
theorem mapValues_mapValues {γ : Type} (f : κ → α → β) (g : κ → β → γ) (m : OrderedMap κ α) :
    (m.mapValues f).mapValues g = m.mapValues fun key value => g key (f key value) :=
  ext (List.map_map ..)

theorem mapValues_congr {f g : κ → α → β} {m : OrderedMap κ α}
    (h : ∀ key ∈ m.keys, ∀ value, f key value = g key value) : m.mapValues f = m.mapValues g := by
  refine ext_get? (by rw [keys_mapValues, keys_mapValues]) fun key hkey => ?_
  rw [keys_mapValues] at hkey
  rw [get?_mapValues, get?_mapValues, funext (h key hkey)]

/-! ## Maps of pairs -/

theorem updateEntries_of_notMem {key : κ} {u : Option α → α} {es : List (κ × α)}
    (h : key ∉ es.map Prod.fst) :
    updateEntries key u es = es ++ [(key, u none)] := by
  induction es with
  | nil => rfl
  | cons e es ih =>
    rw [List.map_cons] at h
    have hne : e.1 ≠ key := (List.ne_of_not_mem_cons h).symm
    rw [updateEntries, if_neg hne, ih (List.not_mem_of_not_mem_cons h), List.cons_append]

theorem entries_foldl_insert {m : OrderedMap κ α} {es : List (κ × α)}
    (h : ((m.entries ++ es).map Prod.fst).Nodup) :
    (es.foldl (fun m e => m.insert e.1 e.2) m).entries = m.entries ++ es := by
  induction es generalizing m with
  | nil => rw [List.foldl_nil, List.append_nil]
  | cons e es ih =>
    have hnew : e.1 ∉ m.entries.map Prod.fst := fun hmem => by
      rw [List.map_append, List.map_cons, List.nodup_append] at h
      exact h.2.2 _ hmem _ List.mem_cons_self rfl
    have hinsert : (m.insert e.1 e.2).entries = m.entries ++ [e] := updateEntries_of_notMem hnew
    rw [← List.singleton_append, ← List.append_assoc] at h ⊢
    rw [List.singleton_append, List.foldl_cons, ih (hinsert ▸ h), hinsert]

/-- A list of pairs whose keys differ is the map that is made of it. -/
theorem entries_ofList {es : List (κ × α)} (h : (es.map Prod.fst).Nodup) :
    (ofList es).entries = es :=
  entries_foldl_insert (m := empty) h

/-- A map is what is made of its pairs. -/
theorem ofList_entries (m : OrderedMap κ α) : ofList m.entries = m :=
  ext (entries_ofList m.nodup_keys)

end OrderedMap

end ImportAtlas
