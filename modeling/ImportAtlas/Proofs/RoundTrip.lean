import ImportAtlas.Document.Decoder
import ImportAtlas.Document.Writer
import ImportAtlas.Proofs.Components
import ImportAtlas.Proofs.Linking
import ImportAtlas.Proofs.Reading
import Mathlib.Data.List.Nodup

/-!
# Proofs/RoundTrip — what is written of a module is read as that module

Writing a value as a text and reading the text again gives the value back, in each of the two layouts
(`data_roundTrips`).  A text that is read as a value need not be what is written of it: its fields may
stand in another order, or carry what nobody asks for.  Once it has been read and written, doing so
again changes nothing.

The documents that are written are plain, so that their texts are read as themselves
(`Json.parse_render`); what is left is that each decoder undoes its encoder.  A structure is read by
the names of its fields, wherever they stand (`Json.members?_object`).  In a map two spellings of one
path are one key; the imports of a module never spell a path twice, neither those that are read
(`OrderedMap.isSpelledOnce_ofSpellings`) nor those of a build (`FileSystem.Assembled.fits`).
-/

namespace ImportAtlas

namespace Json

variable {α : Type}

/-- The two layouts that documents are printed in. -/
def layouts : List Style := [.compact, .pretty]

theorem addsBlanks_of_mem_layouts {style : Style} (h : style ∈ layouts) : style.AddsBlanks := by
  rcases List.mem_cons.mp h with rfl | h
  · exact Style.addsBlanks_compact
  · exact List.mem_singleton.mp h ▸ Style.addsBlanks_pretty

/-- The value that a text is read as. -/
def decode? (ofJson? : Json → Option α) (text : String) : Option α := (parse text).bind ofJson?

/-- What a text comes to when it is read and written. -/
def rewrite? (toJson : α → Json) (ofJson? : Json → Option α) (style : Style) (text : String) :
    Option String :=
  (decode? ofJson? text).map fun a => (toJson a).render style

/-- **Values are written and read without loss**, as far as they fit. -/
structure RoundTrips (toJson : α → Json) (ofJson? : Json → Option α) (fits : α → Prop) : Prop where
  /-- A value is what its text is read as. -/
  decode_render : ∀ style ∈ layouts, ∀ a, fits a →
    decode? ofJson? ((toJson a).render style) = some a
  /-- What is read of any text fits. -/
  fits_of_decode : ∀ text a, decode? ofJson? text = some a → fits a
  /-- What is read of any text is read again of what is written of it. -/
  decode_again : ∀ style ∈ layouts, ∀ text a, decode? ofJson? text = some a →
    decode? ofJson? ((toJson a).render style) = some a
  /-- A text that has been read and written stays as it is. -/
  rewrite_again : ∀ style ∈ layouts, ∀ text written,
    rewrite? toJson ofJson? style text = some written →
      rewrite? toJson ofJson? style written = some written

/-- It is enough to look at documents. -/
theorem RoundTrips.of_documents {toJson : α → Json} {ofJson? : Json → Option α} {fits : α → Prop}
    (hplain : ∀ a, fits a → (toJson a).IsPlain) (hread : ∀ a, fits a → ofJson? (toJson a) = some a)
    (hfits : ∀ document a, ofJson? document = some a → fits a) :
    RoundTrips toJson ofJson? fits := by
  have hdecode : ∀ style ∈ layouts, ∀ a, fits a →
      decode? ofJson? ((toJson a).render style) = some a := fun style hstyle a ha => by
    rw [decode?, parse_render (addsBlanks_of_mem_layouts hstyle) (hplain a ha), Option.bind_some,
      hread a ha]
  have hfound : ∀ text a, decode? ofJson? text = some a → fits a := fun text a h => by
    obtain ⟨document, _, ha⟩ := Option.bind_eq_some_iff.mp h
    exact hfits document a ha
  refine ⟨hdecode, hfound, fun style hstyle text a h => hdecode style hstyle a (hfound text a h),
    fun style hstyle text written h => ?_⟩
  obtain ⟨a, ha, rfl⟩ := Option.map_eq_some_iff.mp h
  rw [rewrite?, hdecode style hstyle a (hfound text a ha), Option.map_some]

/-! ## Fields -/

section Fields

variable {names : List String} {fields : List (String × Json)} {f : String × Json}

theorem filter_eq_of_nodup (h : (fields.map Prod.fst).Nodup) (hf : f ∈ fields) :
    fields.filter (fun g => g.1 == f.1) = [f] := by
  induction fields with
  | nil => nomatch hf
  | cons g fields ih =>
    rw [List.map_cons, List.nodup_cons] at h
    rcases List.mem_cons.mp hf with rfl | hf
    · have hrest : fields.filter (fun g => g.1 == f.1) = [] :=
        List.filter_eq_nil_iff.mpr fun g hg heq =>
          h.1 (beq_iff_eq.mp heq ▸ List.mem_map_of_mem hg)
      rw [List.filter_cons, if_pos (beq_self_eq_true f.1), hrest]
    · have hne : ¬ (g.1 == f.1) = true := fun heq =>
        h.1 (beq_iff_eq.mp heq ▸ List.mem_map_of_mem hf)
      rw [List.filter_cons, if_neg hne, ih h.2 hf]

/-- A field that does not repeat is found by its name. -/
theorem field?_of_mem (h : (fields.map Prod.fst).Nodup) (hf : f ∈ fields) :
    field? fields f.1 = some (some f.2) := by
  rw [field?, filter_eq_of_nodup h hf]

theorem mapM_map_of_forall {β γ : Type} {encode : α → β} {decode : β → Option γ} {g : α → γ}
    {items : List α} (h : ∀ a ∈ items, decode (encode a) = some (g a)) :
    (items.map encode).mapM decode = some (items.map g) := by
  induction items with
  | nil => rfl
  | cons a items ih =>
    obtain ⟨ha, hitems⟩ := List.forall_mem_cons.mp h
    rw [List.map_cons, List.mapM_cons, ha, ih hitems]
    rfl

/-- **The fields of a structure are found by their names.** -/
theorem members?_object (hnames : fields.map Prod.fst = names) (h : names.Nodup) :
    members? names (object fields) = some (fields.map fun f => some f.2) := by
  subst hnames
  exact mapM_map_of_forall fun f hf => field?_of_mem h hf

end Fields

/-! ## Lists, texts and what may be left out -/

/-- **A list is read back** if its items are. -/
theorem list?_map {encode : α → Json} {decode : Json → Option α} {items : List α}
    (h : ∀ a ∈ items, decode (encode a) = some a) :
    list? decode (array (items.map encode)) = some items := by
  rw [list?, mapM_map_of_forall h, List.map_id']

theorem list?_strings (texts : List String) : list? text? (strings texts) = some texts :=
  list?_map fun _ _ => rfl

theorem nullable?_optional (text : Option String) :
    nullable? text? (optional text) = some text := by
  cases text <;> rfl

theorem isPlain_strings (texts : List String) : (strings texts).IsPlain :=
  .array (List.forall_mem_map.mpr fun text _ => .string text)

theorem isPlain_optional (text : Option String) : (optional text).IsPlain := by
  cases text with
  | none => exact .null
  | some text => exact .string text

end Json

open Json

/-! ## Maps -/

theorem ModuleId.keyAmong_of_notMem {keys : List ModuleId} {id : ModuleId}
    (h : id.place ∉ keys.map place) : id.keyAmong keys = id := by
  have hnone : keys.find? (fun key => key.place == id.place) = none :=
    List.find?_eq_none.mpr fun key hkey heq => h (beq_iff_eq.mp heq ▸ List.mem_map_of_mem hkey)
  rw [keyAmong, hnone, Option.getD_none]

theorem ModuleId.keyAmong_mem {keys : List ModuleId} {id : ModuleId} (h : id.place ∈ keys.map place) :
    id.keyAmong keys ∈ keys := by
  obtain ⟨key, hkey, hplace⟩ := List.mem_map.mp h
  have hsome : (keys.find? fun key => key.place == id.place).isSome = true :=
    List.find?_isSome.mpr ⟨key, hkey, beq_iff_eq.mpr hplace⟩
  obtain ⟨found, hfound⟩ := Option.isSome_iff_exists.mp hsome
  rw [keyAmong, hfound, Option.getD_some]
  exact List.mem_of_find?_eq_some hfound

namespace OrderedMap

variable {α : Type} {m : OrderedMap ModuleId α} {encode : α → Json} {decode : Json → Option α}

/-- **No two keys of the map are spellings of one path.** -/
def IsSpelledOnce (m : OrderedMap ModuleId α) : Prop := (m.keys.map ModuleId.place).Nodup

theorem IsSpelledOnce.insert (h : m.IsSpelledOnce) (id : ModuleId) (value : α) :
    (m.insert (id.keyAmong m.keys) value).IsSpelledOnce := by
  rw [IsSpelledOnce, OrderedMap.insert, keys_update]
  by_cases hplace : id.place ∈ m.keys.map ModuleId.place
  · rwa [if_pos (ModuleId.keyAmong_mem hplace)]
  · have hnew : id ∉ m.keys := fun hmem => hplace (List.mem_map_of_mem hmem)
    rw [ModuleId.keyAmong_of_notMem hplace, if_neg hnew, List.map_append, List.map_singleton,
      ← List.concat_eq_append]
    exact List.Nodup.concat hplace h

/-- Of what is read into a map no path is spelled twice. -/
theorem isSpelledOnce_ofSpellings (es : List (ModuleId × α)) : (ofSpellings es).IsSpelledOnce :=
  List.foldlRecOn es _ List.nodup_nil fun _ hm e _ => hm.insert e.1 e.2

/-- A key that spells a new path is put into the map as it stands. -/
theorem foldl_insert_keyAmong {es : List (ModuleId × α)} {m : OrderedMap ModuleId α}
    (h : ((m.keys ++ es.map Prod.fst).map ModuleId.place).Nodup) :
    es.foldl (fun m e => m.insert (e.1.keyAmong m.keys) e.2) m
      = es.foldl (fun m e => m.insert e.1 e.2) m := by
  induction es generalizing m with
  | nil => rfl
  | cons e es ih =>
    have hnew : e.1.place ∉ m.keys.map ModuleId.place := fun hmem => by
      rw [List.map_append, List.nodup_append] at h
      exact h.2.2 _ hmem _ List.mem_cons_self rfl
    have hkeys : (m.insert e.1 e.2).keys = m.keys ++ [e.1] := by
      rw [OrderedMap.insert, keys_update, if_neg fun hmem => hnew (List.mem_map_of_mem hmem)]
    rw [List.foldl_cons, List.foldl_cons, ModuleId.keyAmong_of_notMem hnew]
    refine ih ?_
    rwa [hkeys, List.append_assoc]

/-- **Where no path is spelled twice, spellings do not matter.** -/
theorem ofSpellings_entries (h : m.IsSpelledOnce) : ofSpellings m.entries = m := by
  rw [ofSpellings, foldl_insert_keyAmong (m := empty) h, ← ofList, ofList_entries]

/-- The first spelling of a path stays where it is, with the last value. -/
example : (ofSpellings [(⟨⟨"/a/b"⟩⟩, 1), (⟨⟨"/c"⟩⟩, 2), (⟨⟨"/a//./b"⟩⟩, 3)]).entries
    = [(⟨⟨"/a/b"⟩⟩, 3), (⟨⟨"/c"⟩⟩, 2)] := by
  decide +kernel

/-- **A map is read back**, in its order, if its values are and no path is spelled twice. -/
theorem ofJson?_toJson (hm : m.IsSpelledOnce)
    (h : ∀ e ∈ m.entries, decode (encode e.2) = some e.2) :
    ofJson? decode (m.toJson encode) = some m := by
  have hentries : (m.entries.map fun e => (e.1.path.text, encode e.2)).mapM
      (fun f => (decode f.2).map fun value => (ModuleId.mk ⟨f.1⟩, value)) = some m.entries := by
    rw [mapM_map_of_forall (g := id) fun e he => by rw [h e he, Option.map_some]; rfl, List.map_id]
  rw [toJson, ofJson?, hentries, Option.map_some, ofSpellings_entries hm]

theorem isSpelledOnce_of_ofJson? {document : Json} (h : ofJson? decode document = some m) :
    m.IsSpelledOnce := by
  cases document with
  | object fields =>
    obtain ⟨es, _, rfl⟩ := Option.map_eq_some_iff.mp h
    exact isSpelledOnce_ofSpellings es
  | _ => nomatch h

theorem isPlain_toJson (h : ∀ e ∈ m.entries, (encode e.2).IsPlain) : (m.toJson encode).IsPlain :=
  .object (List.forall_mem_map.mpr h)

end OrderedMap

/-! ## Parts of a module -/

namespace Binding

theorem isPlain_toJson (b : Binding) : b.toJson.IsPlain := by
  cases b <;> exact .object (by simp [IsPlain.string])

theorem ofHeld?_toJson (b : Binding) : ofHeld? b.toJson = some b := by
  cases b <;> rfl

/-- An import clause is read back as long as there is room for one more level. -/
theorem ofInner?_toJson {outer : Nat} (h : outer < levelLimit) (b : Binding) :
    ofInner? outer b.toJson = some b := by
  have hlevels : b.toJson.levels? = some 1 := by cases b <;> rfl
  have hheld : b.toJson.isHeld outer = true := by
    rw [isHeld, hlevels]
    exact decide_eq_true h
  rw [ofInner?, if_pos hheld, ofHeld?_toJson]

end Binding

theorem ExportKind.choice?_name (kind : ExportKind) :
    choice? ExportKind.ofName? (string kind.name) = some kind := by
  cases kind <;> decide

theorem Dialect.ofJson?_toJson (d : Dialect) : Dialect.ofJson? d.toJson = some d := by
  cases d <;> decide

theorem ModuleId.ofJson?_toJson (id : ModuleId) : ModuleId.ofJson? id.toJson = some id := rfl

theorem nullable?_resolved (id : Option ModuleId) :
    nullable? ModuleId.ofJson? (id.elim null ModuleId.toJson) = some id := by
  cases id <;> rfl

namespace ImportRecord

theorem isPlain_toJson (r : ImportRecord) : r.toJson.IsPlain := by
  have hresolved : (r.resolved.elim null ModuleId.toJson).IsPlain := by
    cases r.resolved with
    | none => exact .null
    | some id => exact .string _
  have hbindings : (array (r.bindings.map Binding.toJson)).IsPlain :=
    .array (List.forall_mem_map.mpr fun b _ => b.isPlain_toJson)
  exact .object (by simp [isPlain_strings, IsPlain.bool, hresolved, hbindings])

/-- An import record is read back as long as there is room for its clauses. -/
theorem ofInner?_toJson {outer : Nat} (h : outer + 2 < levelLimit) (r : ImportRecord) :
    ofInner? outer r.toJson = some r := by
  have hbindings : list? (Binding.ofInner? (outer + 2)) (array (r.bindings.map Binding.toJson))
      = some r.bindings := list?_map fun b _ => Binding.ofInner?_toJson h b
  rw [ofInner?, toJson, members?_object (by rfl) (by decide)]
  simp [list?_strings, hbindings, nullable?_resolved, bool?]

end ImportRecord

namespace ExportRecord

theorem isPlain_toJson (r : ExportRecord) : r.toJson.IsPlain :=
  .object (by simp [isPlain_optional, IsPlain.string])

theorem ofJson?_toJson (r : ExportRecord) : ofJson? r.toJson = some r := by
  rw [ofJson?, toJson, members?_object (by rfl) (by decide)]
  simp [ExportKind.choice?_name, nullable?_optional, text?]

end ExportRecord

/-! ## Modules and configurations -/

namespace Leaf

theorem isPlain_toJson (leaf : Leaf) : leaf.toJson.IsPlain := by
  have himports : (leaf.imports.toJson ImportRecord.toJson).IsPlain :=
    OrderedMap.isPlain_toJson fun e _ => e.2.isPlain_toJson
  have hexports : (array (leaf.exports.map ExportRecord.toJson)).IsPlain :=
    .array (List.forall_mem_map.mpr fun r _ => r.isPlain_toJson)
  exact .object (by
    simp [ModuleId.toJson, Path.toJson, Dialect.toJson, IsPlain.string, himports, hexports])

/-- **The imports of a module are of different files**, however their paths are spelled. -/
def Fits (leaf : Leaf) : Prop := leaf.imports.IsSpelledOnce

variable {leaf : Leaf}

/-- **A module is read back**, with its imports in their order. -/
theorem ofJson?_toJson (h : leaf.Fits) : ofJson? leaf.toJson = some leaf := by
  have himports : OrderedMap.ofJson? (ImportRecord.ofInner? 2)
      (leaf.imports.toJson ImportRecord.toJson) = some leaf.imports :=
    OrderedMap.ofJson?_toJson h fun e _ => ImportRecord.ofInner?_toJson (by decide) e.2
  have hexports : list? ExportRecord.ofJson? (array (leaf.exports.map ExportRecord.toJson))
      = some leaf.exports := list?_map fun r _ => r.ofJson?_toJson
  rw [ofJson?, toJson, members?_object (by rfl) (by decide)]
  simp [ModuleId.ofJson?_toJson, Dialect.ofJson?_toJson, himports, hexports]

/-- What is read of a module fits. -/
theorem fits_of_ofJson? {document : Json} (h : ofJson? document = some leaf) : leaf.Fits := by
  simp only [ofJson?] at h
  split at h
  · simp only [Option.bind_eq_bind, Option.bind_eq_some_iff, Option.pure_def,
      Option.some.injEq] at h
    obtain ⟨_, _, _, _, imports, himports, _, _, rfl⟩ := h
    exact OrderedMap.isSpelledOnce_of_ofJson? himports
  · nomatch h

end Leaf

/-- **The modules of a build fit**: what they import is known by clean paths. -/
theorem FileSystem.Assembled.fits {fs : FileSystem} {config : Config}
    {modules : OrderedMap ModuleId Leaf} {id : ModuleId} {leaf : Leaf}
    (h : fs.Assembled config modules) (hleaf : modules.get? id = some leaf) : leaf.Fits := by
  have hclean : ∀ target ∈ leaf.imports.keys, target.path.clean = target.path := by
    intro target htarget
    rw [h.keys_imports hleaf] at htarget
    exact congrArg ModuleId.path (ofPath_of_mem_importsOf htarget)
  refine List.Nodup.map_on (fun a ha b hb hplace => ?_) leaf.imports.nodup_keys
  have hpath : a.path = b.path := Path.eq_of_components (hclean a ha) (hclean b hb) hplace
  exact congrArg ModuleId.mk hpath

namespace Config

/-- The size that a configuration allows is a number of 64 bits. -/
def Fits (config : Config) : Prop := config.maxFileSize < Nat.pow 2 64

variable {config : Config}

theorem isPlain_toJson (h : config.Fits) : config.toJson.IsPlain :=
  .object (by simp [isPlain_strings, IsPlain.natural h])

theorem ofJson?_toJson (h : config.Fits) : ofJson? config.toJson = some config := by
  have hsize : word? (natural config.maxFileSize) = some config.maxFileSize := if_pos h
  have hmembers : members? ["vendor_dirs", "max_file_size"] config.toJson
      = some [some (strings config.vendorDirs), some (natural config.maxFileSize)] :=
    members?_object rfl (by decide)
  rw [toJson] at hmembers
  simp [ofJson?, toJson, hmembers, list?_strings, hsize]

theorem fits_of_word? {document : Json} {size : Nat} (h : word? document = some size) :
    size < Nat.pow 2 64 := by
  unfold word? at h
  split at h
  · rename_i value
    by_cases hvalue : value < Nat.pow 2 64
    · rw [if_pos hvalue] at h
      exact Option.some.inj h ▸ hvalue
    · rw [if_neg hvalue] at h
      nomatch h
  · nomatch h

/-- What is read of a configuration fits, whichever of its fields are left out. -/
theorem fits_of_ofJson? {document : Json} (h : ofJson? document = some config) : config.Fits := by
  have hdefault : ∀ dirs, Fits { vendorDirs := dirs } := fun _ =>
    show 10485760 < Nat.pow 2 64 by decide
  simp only [ofJson?] at h
  split at h
  · rename_i vendorDirs maxFileSize _
    cases vendorDirs <;> cases maxFileSize <;>
      simp only [Option.bind_eq_bind, Option.bind_eq_some_iff, Option.bind_some, Option.pure_def,
        Option.some.injEq] at h
    · exact h ▸ hdefault _
    · obtain ⟨size, hsize, rfl⟩ := h
      exact fits_of_word? hsize
    · obtain ⟨dirs, _, rfl⟩ := h
      exact hdefault dirs
    · obtain ⟨dirs, _, size, hsize, rfl⟩ := h
      exact fits_of_word? hsize
  · nomatch h

end Config

/-- **What is written of a module, of a part of one or of a configuration is read as that value**, in
both layouts.  Only a module whose imports spell a path twice would not be; none is read, and none
comes of a build. -/
theorem data_roundTrips :
    RoundTrips Leaf.toJson Leaf.ofJson? Leaf.Fits ∧
      RoundTrips ImportRecord.toJson ImportRecord.ofJson? (fun _ => True) ∧
      RoundTrips Binding.toJson Binding.ofJson? (fun _ => True) ∧
      RoundTrips ExportRecord.toJson ExportRecord.ofJson? (fun _ => True) ∧
      RoundTrips Config.toJson Config.ofJson? Config.Fits ∧
      ∀ fs config modules, FileSystem.Builds fs config modules →
        ∀ id leaf, modules.get? id = some leaf → leaf.Fits :=
  ⟨.of_documents (fun leaf _ => leaf.isPlain_toJson) (fun _ h => Leaf.ofJson?_toJson h)
      fun _ _ h => Leaf.fits_of_ofJson? h,
    .of_documents (fun r _ => r.isPlain_toJson)
      (fun r _ => ImportRecord.ofInner?_toJson (by decide) r) fun _ _ _ => trivial,
    .of_documents (fun b _ => b.isPlain_toJson)
      (fun b _ => Binding.ofInner?_toJson (by decide) b) fun _ _ _ => trivial,
    .of_documents (fun r _ => r.isPlain_toJson) (fun r _ => r.ofJson?_toJson) fun _ _ _ => trivial,
    .of_documents (fun _ h => Config.isPlain_toJson h) (fun _ h => Config.ofJson?_toJson h)
      fun _ _ h => Config.fits_of_ofJson? h,
    fun _ _ _ h _ _ hleaf => h.assembled.fits hleaf⟩

end ImportAtlas
