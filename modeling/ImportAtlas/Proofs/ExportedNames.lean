import ImportAtlas.ModuleStructure
import Mathlib.Data.List.Basic

/-!
# Proofs/ExportedNames — which of the names that a module exports are collected

The statements of a module introduce exported names in several ways (`Source.Origin`), and the
collector passes over three of them: the parts of a pattern, namespaces and aliases.  Of the names
that are introduced the named exports are those that are left, in their order and as often as they
are introduced (`ModuleStructure.namedExports_eq`), so all of them are collected exactly when the
module exports nothing in one of the three ways (`ModuleStructure.namedExports_of_parse`).
-/

namespace ImportAtlas

open Source

namespace Source

/-! ## Names and where they come from -/

/-- The way in which a statement introduces an exported name. -/
inductive Origin
  /-- A name of an export list. -/
  | listed
  /-- A name for everything that another module exports. -/
  | starred
  /-- A variable that is declared by its name alone. -/
  | variable
  /-- A variable inside a destructuring pattern, at any depth. -/
  | part
  | function
  | «class»
  | typeAlias
  | interface
  | enumeration
  | «namespace»
  | importAlias
deriving DecidableEq, Repr

/-- Whether the collector keeps the names that come about in this way. -/
def Origin.isCollected : Origin → Bool
  | .part | .namespace | .importAlias => false
  | _ => true

/-- A name that a statement exports, other than the default export. -/
structure Introduction where
  name : String
  origin : Origin
deriving DecidableEq, Repr

/-- The names that are introduced where a pattern is exported. -/
def Pattern.introductions : Pattern → List Introduction
  | .name text => [⟨text, .variable⟩]
  | .group parts => (Pattern.namesOfAll parts).map (⟨·, .part⟩)

/-- The names that are introduced where a declaration is exported. -/
def Declaration.introductions : Declaration → List Introduction
  | .values patterns => patterns.flatMap Pattern.introductions
  | .function name => name.toList.map (⟨·, .function⟩)
  | .class name => name.toList.map (⟨·, .class⟩)
  | .typeAlias name => [⟨name, .typeAlias⟩]
  | .interface name => [⟨name, .interface⟩]
  | .enumeration name => [⟨name, .enumeration⟩]
  | .namespace name => name.toList.map (⟨·, .namespace⟩)
  | .importAlias name => [⟨name, .importAlias⟩]

/-- The names that an item introduces. -/
def Item.introductions : Item → List Introduction
  | .exportNames specifiers _ => specifiers.map fun s => ⟨s.exported, .listed⟩
  | .exportDeclared declaration => declaration.introductions
  | .exportAll name _ => name.toList.map (⟨·, .starred⟩)
  | .exportDefault _ | .importFrom _ _ | .other => []

/-- The names that an item exports, other than the default export. -/
def Item.introducedNames : Item → List String
  | .exportDefault _ => []
  | item => item.exportedNames

/-! ## Every introduced name has an origin -/

theorem Pattern.map_name_introductions (p : Pattern) :
    p.introductions.map (·.name) = p.names := by
  cases p with
  | name text => rfl
  | group parts => exact List.map_map.trans (List.map_id _)

theorem Pattern.namesOfAll_eq (patterns : List Pattern) :
    Pattern.namesOfAll patterns = patterns.flatMap Pattern.names := by
  induction patterns with
  | nil => rfl
  | cons p patterns ih => rw [Pattern.namesOfAll, ih, List.flatMap_cons]

theorem Declaration.map_name_introductions (d : Declaration) :
    d.introductions.map (·.name) = d.names := by
  cases d with
  | values patterns =>
    simp only [introductions, names, List.map_flatMap, Pattern.map_name_introductions,
      Pattern.namesOfAll_eq]
  | function name | «class» name | «namespace» name => exact List.map_map.trans (List.map_id _)
  | typeAlias name | interface name | enumeration name | importAlias name => rfl

theorem Item.map_name_introductions (item : Item) :
    item.introductions.map (·.name) = item.introducedNames := by
  cases item with
  | exportNames specifiers source => exact List.map_map
  | exportDeclared d => exact d.map_name_introductions
  | exportAll name source => exact List.map_map.trans (List.map_id _)
  | exportDefault value | importFrom source clauses | other => rfl

/-- The introductions of items account for all names that the items export. -/
theorem map_name_flatMap_introductions (items : List Item) :
    (items.flatMap Item.introductions).map (·.name) = items.flatMap Item.introducedNames := by
  simp only [List.map_flatMap, Item.map_name_introductions]

/-! ## What the collector keeps -/

/-- Of a pattern only a name by itself is collected. -/
theorem Pattern.filter_introductions (p : Pattern) :
    p.introductions.filter (·.origin.isCollected) = p.single?.toList.map (⟨·, .variable⟩) := by
  cases p with
  | name text => rfl
  | group parts =>
    refine List.filter_eq_nil_iff.mpr fun i hi => ?_
    obtain ⟨n, -, rfl⟩ := List.mem_map.mp hi
    exact Bool.false_ne_true

end Source

/-- **The exports of a declaration**, each under the name by which it is declared. -/
theorem declaredExports_eq (d : Declaration) :
    declaredExports d = (d.introductions.filter (·.origin.isCollected)).map fun i =>
      ExportRecord.named i.name i.name := by
  cases d with
  | values patterns =>
    simp only [declaredExports, Declaration.introductions, List.filter_flatMap,
      Pattern.filter_introductions, List.filterMap_eq_flatMap_toList, List.map_flatMap,
      List.map_map, Function.comp_def]
  | function name | «class» name | «namespace» name => cases name <;> rfl
  | typeAlias name | interface name | enumeration name | importAlias name => rfl

namespace ModuleStructure

variable {dialect : Dialect} {source : String} {contents : ModuleStructure}

/-- The names of the named exports. -/
def namedExports (contents : ModuleStructure) : List String :=
  (contents.exports.filter (·.kind == .named)).map (·.exportedName)

/-- What one item contributes to the named exports. -/
theorem map_exportedName_exportsOf (text : List Char) (item : Item) :
    ((exportsOf text item).filter (·.kind == .named)).map (·.exportedName)
      = (item.introductions.filter (·.origin.isCollected)).map (·.name) := by
  cases item with
  | exportNames specifiers source =>
    simp only [exportsOf, Item.introductions, List.filter_map, List.map_map]
    rfl
  | exportDeclared d =>
    -- A declaration has no export of another kind, so the filter by kind is no restriction.
    have hnamed : (declaredExports d).filter (·.kind == .named) = declaredExports d := by
      rw [declaredExports_eq, List.filter_map]
      exact congrArg _ (List.filter_eq_self.mpr fun _ _ => rfl)
    rw [exportsOf, hnamed, declaredExports_eq, List.map_map]
    rfl
  | exportAll name source => cases name <;> rfl
  | exportDefault value | importFrom source clauses | other => rfl

/-- **The named exports of items**: the names that they introduce and that are collected. -/
theorem namedExports_ofItems (text : List Char) (items : List Item) :
    (ofItems text items).namedExports
      = ((items.flatMap Item.introductions).filter (·.origin.isCollected)).map (·.name) := by
  simp only [namedExports, ofItems, List.filter_flatMap, List.map_flatMap,
    map_exportedName_exportsOf]

/-- **All introduced names are collected** exactly when none is passed over. -/
theorem namedExports_ofItems_eq_iff {text : List Char} {items : List Item} :
    (ofItems text items).namedExports = items.flatMap Item.introducedNames
      ↔ ∀ i ∈ items.flatMap Item.introductions, i.origin.isCollected := by
  rw [namedExports_ofItems, ← map_name_flatMap_introductions, ← List.filter_eq_self]
  constructor
  · intro h
    refine List.filter_sublist.eq_of_length ?_
    simpa only [List.length_map] using congrArg List.length h
  · intro h
    rw [h]

/-- **Which names a module exports.**  The named exports of a text are the names that its items
introduce, in their order and as often as they are introduced, other than the parts of patterns,
namespaces and aliases; so they are all names exactly if the text has none of those three. -/
theorem namedExports_of_parse (h : ModuleStructure.parse dialect source = some contents) :
    ∃ items, Source.parse dialect source.toList = some items ∧
      (items.flatMap Item.introductions).map (·.name) = items.flatMap Item.introducedNames ∧
      contents.namedExports
        = ((items.flatMap Item.introductions).filter (·.origin.isCollected)).map (·.name) ∧
      (contents.namedExports = items.flatMap Item.introducedNames
        ↔ ∀ i ∈ items.flatMap Item.introductions, i.origin.isCollected) := by
  obtain ⟨items, hitems, rfl⟩ := Option.map_eq_some_iff.mp h
  exact ⟨items, hitems, map_name_flatMap_introductions items, namedExports_ofItems _ items,
    namedExports_ofItems_eq_iff⟩

/-- A text that exports variables by a pattern and by name, a namespace, an alias, and a name from a
list. -/
def veiled : String :=
  "export const \x7b a \x7d = x, b = a; export namespace N \x7b\x7d export import M = N; " ++
    "export \x7b a as b \x7d;"

theorem namedExports_of_parse_veiled :
    ∃ items, Source.parse .typeScript veiled.toList = some items ∧
      ["b", "b"]
        = ((items.flatMap Item.introductions).filter (·.origin.isCollected)).map (·.name) := by
  have h : ModuleStructure.parse .typeScript veiled
      = some ⟨[], [.named "b" "b", .named "b" "a"]⟩ := by
    decide +kernel
  obtain ⟨items, hitems, -, hnames, -⟩ := namedExports_of_parse h
  exact ⟨items, hitems, hnames⟩

/-- Not every introduced name is collected. -/
theorem namedExports_ne_introducedNames :
    (ModuleStructure.parse .typeScript veiled).map namedExports = some ["b", "b"] ∧
      (Source.parse .typeScript veiled.toList).map (·.flatMap Item.introducedNames)
        = some ["a", "b", "N", "M", "b"] := by
  constructor <;> decide +kernel

end ModuleStructure

end ImportAtlas
