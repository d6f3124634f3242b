import ImportAtlas.Proofs.ExportedNames
import Mathlib.Data.List.Forall2

/-!
# Proofs/Extraction — imports and exports are collected statement by statement

What a module imports and exports is put together from what its items give one by one, in the order
they are written (`ModuleStructure.ofItems_append`).  `Source.Item.Gives` lists what an item gives,
with one case for each kind of item; from it follows the shape that every export has, and that it is
passed on from another module exactly if its item names one (`Source.Item.Gives.shape`).
-/

namespace ImportAtlas

open Source

/-! ## What one item gives -/

namespace Source

/-- What a clause of an import statement binds, by the way it is written. -/
inductive ImportClause.Binds : ImportClause → Binding → Prop
  | listed (imported localName : String) :
    Binds (.listed imported localName) (.named imported localName)
  | leading (localName : String) : Binds (.leading localName) (.default localName)
  | starred (localName : String) : Binds (.starred localName) (.namespace localName)

/-- The module that an item passes exports on from, as it is written. -/
def Item.reexportSource? : Item → Option String
  | .exportNames _ source => source
  | .exportAll _ source => some source
  | .exportDeclared _ | .exportDefault _ | .importFrom _ _ | .other => none

/-- **What an item of a text gives**: an import one statement, whose bindings are those of its
clauses one by one; an export its records; any other item nothing. -/
inductive Item.Gives (text : List Char) : Item → ModuleStructure → Prop
  | importFrom {source : String} {clauses : List ImportClause} {bindings : List Binding}
    (h : List.Forall₂ ImportClause.Binds clauses bindings) :
    Gives text (.importFrom source clauses) ⟨[⟨source, bindings⟩], []⟩
  | exportNames (specifiers : List ExportSpecifier) (source : Option String) :
    Gives text (.exportNames specifiers source)
      ⟨[], specifiers.map fun s => ⟨.named, s.exported, some s.localName, source⟩⟩
  | exportDeclared (d : Declaration) :
    Gives text (.exportDeclared d)
      ⟨[], (d.introductions.filter (·.origin.isCollected)).map fun i =>
        ⟨.named, i.name, some i.name, none⟩⟩
  | exportDefault (value : DefaultValue) :
    Gives text (.exportDefault value) ⟨[], [⟨.default, defaultLabel text value, none, none⟩]⟩
  | exportAllAs (name source : String) :
    Gives text (.exportAll (some name) source) ⟨[], [⟨.named, name, some "*", some source⟩]⟩
  | exportAll (source : String) :
    Gives text (.exportAll none source) ⟨[], [⟨.reexportAll, "*", none, some source⟩]⟩
  | other : Gives text .other ⟨[], []⟩

end Source

/-- The shape of an export, by the module that it is passed on from. -/
inductive ExportRecord.Shape : Option String → ExportRecord → Prop
  | own (exported localName : String) : Shape none ⟨.named, exported, some localName, none⟩
  | passedOn (exported localName source : String) :
    Shape (some source) ⟨.named, exported, some localName, some source⟩
  | default (label : String) : Shape none ⟨.default, label, none, none⟩
  | all (source : String) : Shape (some source) ⟨.reexportAll, "*", none, some source⟩

namespace ExportRecord

variable {source : Option String} {r : ExportRecord}

theorem Shape.isReexport_eq (h : r.Shape source) : r.isReexport = source.isSome := by
  cases h <;> rfl

/-- A named export of a statement. -/
theorem shape_named (exported localName : String) (source : Option String) :
    Shape source ⟨.named, exported, some localName, source⟩ := by
  cases source with
  | none => exact .own exported localName
  | some source => exact .passedOn exported localName source

end ExportRecord

/-- Every export that an item gives has a shape that goes with the item. -/
theorem Source.Item.Gives.shape {text : List Char} {item : Item} {contents : ModuleStructure}
    {r : ExportRecord} (h : item.Gives text contents) (hr : r ∈ contents.exports) :
    r.Shape item.reexportSource? := by
  cases h with
  | importFrom | other => nomatch hr
  | exportNames specifiers source =>
    obtain ⟨s, -, rfl⟩ := List.mem_map.mp hr
    exact ExportRecord.shape_named s.exported s.localName source
  | exportDeclared d =>
    obtain ⟨i, -, rfl⟩ := List.mem_map.mp hr
    exact .own i.name i.name
  | exportDefault value =>
    obtain rfl := List.mem_singleton.mp hr
    exact .default _
  | exportAllAs name source =>
    obtain rfl := List.mem_singleton.mp hr
    exact .passedOn name "*" source
  | exportAll source =>
    obtain rfl := List.mem_singleton.mp hr
    exact .all source

theorem binds_bindingOf (clause : ImportClause) : clause.Binds (bindingOf clause) := by
  cases clause with
  | listed imported localName => exact .listed imported localName
  | leading localName => exact .leading localName
  | starred localName => exact .starred localName

/-! ## What a list of items gives -/

namespace ModuleStructure

/-- The contents of one text followed by those of another. -/
instance : Append ModuleStructure where
  append a b := ⟨a.imports ++ b.imports, a.exports ++ b.exports⟩

/-- **The contents of items are put together** in the order of the items. -/
theorem ofItems_append (text : List Char) (P Q : List Item) :
    ofItems text (P ++ Q) = ofItems text P ++ ofItems text Q := by
  simp only [ofItems, List.filterMap_append, List.flatMap_append]
  rfl

theorem ofItems_singleton (text : List Char) (item : Item) :
    ofItems text [item] = ⟨(importOf? item).toList, exportsOf text item⟩ := by
  cases h : importOf? item <;> simp [ofItems, h]

/-- **What one item gives** is what the collector finds in it. -/
theorem gives_ofItems (text : List Char) (item : Item) :
    item.Gives text (ofItems text [item]) := by
  rw [ofItems_singleton]
  cases item with
  | importFrom source clauses =>
    exact .importFrom (List.forall₂_map_right_iff.mpr
      (List.forall₂_same.mpr fun clause _ => binds_bindingOf clause))
  | exportNames specifiers source => exact .exportNames specifiers source
  | exportDeclared d =>
    rw [exportsOf, declaredExports_eq]
    exact .exportDeclared d
  | exportDefault value => exact .exportDefault value
  | exportAll name source =>
    cases name with
    | none => exact .exportAll source
    | some name => exact .exportAllAs name source
  | other => exact .other

/-- **The contents of a list of items** are what the items give, one after the other. -/
theorem exists_parts (text : List Char) (items : List Item) :
    ∃ parts, List.Forall₂ (Item.Gives text) items parts ∧
      ofItems text items = ⟨parts.flatMap (·.imports), parts.flatMap (·.exports)⟩ := by
  induction items with
  | nil => exact ⟨[], .nil, rfl⟩
  | cons item items ih =>
    obtain ⟨parts, hparts, hitems⟩ := ih
    refine ⟨ofItems text [item] :: parts, .cons (gives_ofItems text item) hparts, ?_⟩
    calc ofItems text (item :: items)
        = ofItems text [item] ++ ofItems text items := ofItems_append text [item] items
      _ = ofItems text [item] ++ ⟨parts.flatMap (·.imports), parts.flatMap (·.exports)⟩ := by
        rw [hitems]

/-- A statement that neither imports nor exports leaves no trace, wherever it stands. -/
theorem ofItems_append_other (text : List Char) (P Q : List Item) :
    ofItems text (P ++ .other :: Q) = ofItems text (P ++ Q) := by
  rw [ofItems_append, ofItems_append text P Q]
  rfl

/-- Every export comes from an item that gives it. -/
theorem exists_item_of_mem_exports {text : List Char} {items : List Item} {r : ExportRecord}
    (hr : r ∈ (ofItems text items).exports) : ∃ item ∈ items, r ∈ (ofItems text [item]).exports := by
  obtain ⟨item, hitem, hr⟩ := List.mem_flatMap.mp hr
  refine ⟨item, hitem, ?_⟩
  rwa [ofItems_singleton]

/-- **Extraction goes statement by statement.**  The contents of two lists of items are those of the
first followed by those of the second; a statement that neither imports nor exports adds nothing;
an import adds one statement, with one binding for each clause; the contents of any list are what
its items give; and each export has the shape that goes with its item, and is passed on from another
module exactly if the item names one. -/
theorem ofItems_extraction (text : List Char) :
    (∀ P Q, ofItems text (P ++ Q) = ofItems text P ++ ofItems text Q) ∧
      (∀ P Q, ofItems text (P ++ .other :: Q) = ofItems text (P ++ Q)) ∧
      (∀ source clauses, ∃ bindings, List.Forall₂ ImportClause.Binds clauses bindings ∧
        ofItems text [.importFrom source clauses] = ⟨[⟨source, bindings⟩], []⟩) ∧
      (∀ items, ∃ parts, List.Forall₂ (Item.Gives text) items parts ∧
        ofItems text items = ⟨parts.flatMap (·.imports), parts.flatMap (·.exports)⟩) ∧
      ∀ items, ∀ r ∈ (ofItems text items).exports, ∃ item ∈ items,
        r ∈ (ofItems text [item]).exports ∧ r.Shape item.reexportSource? ∧
          r.isReexport = item.reexportSource?.isSome := by
  refine ⟨ofItems_append text, ofItems_append_other text, fun source clauses => ?_,
    exists_parts text, fun items r hr => ?_⟩
  · cases gives_ofItems text (.importFrom source clauses) with
    | importFrom h => exact ⟨_, h, rfl⟩
  · obtain ⟨item, hitem, hr⟩ := exists_item_of_mem_exports hr
    have hshape := (gives_ofItems text item).shape hr
    exact ⟨item, hitem, hr, hshape, hshape.isReexport_eq⟩

end ModuleStructure

end ImportAtlas
