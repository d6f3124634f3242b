import ImportAtlas.ModuleStructure
import ImportAtlas.Proofs.Spelling
import Mathlib.Data.List.Forall2

/-!
# Proofs/Labels — what a default export is labelled by
-/

namespace ImportAtlas

open Source

variable {text : List Char} {v : DefaultValue}

/-! ## Where labels stand -/

/-- Whether a default export is an assignment to the target, in one pair of parentheses for each of
the places inside them. -/
def Source.DefaultValue.Assigns (v : DefaultValue) (insides : List Span) (target : Span) : Prop :=
  ∃ span plain, v = .expression span (.enclosed insides (.assignment target plain))

theorem labelSpan_enclosed (whole : Span) (insides : List Span) (target : Span) (plain : Bool) :
    labelSpan whole (.enclosed insides (.assignment target plain)) = target := by
  induction insides with
  | nil => rfl
  | cons inside insides ih => exact ih

theorem labelSpan_eq_whole {whole : Span} {form : Form}
    (h : ∀ insides target plain, form ≠ .enclosed insides (.assignment target plain)) :
    labelSpan whole form = whole := by
  induction form with
  | paren inside inner ih =>
    exact ih fun insides target plain hinner => h (inside :: insides) target plain (hinner ▸ rfl)
  | assignment target plain => exact absurd rfl (h [] target plain)
  | _ => rfl

theorem trim_cut_isInfix (span : Span) (text : List Char) : trim (span.cut text) <:+: text :=
  (trim_isInfix _).trans ((List.take_prefix ..).isInfix.trans (List.drop_suffix ..).isInfix)

/-! ## Labels -/

/-- **What the label of a default export is**: a stretch of the text without white space at its
ends.  It is the left side of an assignment, however many parentheses enclose the assignment, and
all that is exported otherwise. -/
structure Source.DefaultValue.IsLabel (text : List Char) (v : DefaultValue) (label : String) :
    Prop where
  isInfix : label.toList <:+: text
  isTight : IsTight label.toList
  assigned : ∀ {insides target}, v.Assigns insides target → label.toList = target.cut text ∧
    ∃ assignment, Enclosed assignment insides.length (v.span.cut text) ∧
      IsAssignment label.toList assignment
  whole : (∀ insides target, ¬ v.Assigns insides target) → label.toList = v.span.cut text

theorem isLabel_of_covers (h : v.Covers text) : v.IsLabel text (defaultLabel text v) where
  isInfix := by
    rw [defaultLabel.eq_def, String.toList_ofList]
    exact trim_cut_isInfix _ _
  isTight := by
    rw [defaultLabel.eq_def, String.toList_ofList]
    exact isTight_trim _
  assigned := by
    rintro insides target ⟨span, plain, rfl⟩
    obtain ⟨htight, henclosed⟩ := (h.form rfl).exists_enclosed
    have hlabel : (defaultLabel text
        (.expression span (.enclosed insides (.assignment target plain)))).toList
          = target.cut text := by
      rw [defaultLabel, String.toList_ofList, labelSpan_enclosed, htight.trim_eq]
    exact ⟨hlabel, hlabel ▸ henclosed⟩
  whole hnone := by
    have hspan : defaultLabel text v = String.ofList (trim (v.span.cut text)) := by
      cases v with
      | declaration span => rfl
      | expression span form =>
        rw [defaultLabel, labelSpan_eq_whole fun insides target plain hform =>
          hnone insides target ⟨span, plain, hform ▸ rfl⟩]
        rfl
    rw [hspan, String.toList_ofList, h.isTight.trim_eq]

/-! ## The labels of a module -/

namespace Source

/-- What an item exports by default. -/
def Item.default? : Item → Option DefaultValue
  | .exportDefault value => some value
  | _ => none

end Source

namespace ModuleStructure

theorem filter_isDefault_exportsOf (text : List Char) (item : Item) :
    (exportsOf text item).filter ExportRecord.isDefault
      = (item.default?.map fun v => ExportRecord.default (defaultLabel text v)).toList := by
  cases item with
  | exportDeclared d =>
    have hnamed (names : List String) :
        (names.map fun n => ExportRecord.named n n).filter ExportRecord.isDefault = [] :=
      List.filter_eq_nil_iff.mpr (by simp [ExportRecord.isDefault, ExportRecord.named])
    cases d <;> first | exact hnamed _ | rfl
  | exportAll name _ =>
    cases name <;> rfl
  | exportNames => simp [exportsOf, Item.default?, ExportRecord.isDefault, ExportRecord.named]
  | _ => rfl

/-- The default exports of the items of a text are recorded one by one. -/
theorem filter_isDefault_ofItems (text : List Char) (items : List Item) :
    (ofItems text items).exports.filter ExportRecord.isDefault
      = (items.filterMap Item.default?).map fun v => ExportRecord.default (defaultLabel text v) := by
  rw [ofItems, List.filter_flatMap]
  simp only [filter_isDefault_exportsOf]
  rw [List.map_filterMap, List.filterMap_eq_flatMap_toList]

variable {dialect : Dialect} {source : String} {items : List Item}

/-- **Default exports are labelled by the left side of an assignment, or by all that is exported**,
if the spans that the parser finds cover exactly the text of their parts. -/
theorem default_labels (hitems : Source.parse dialect source.toList = some items)
    (hcovers : ∀ v ∈ items.filterMap Item.default?, v.Covers source.toList) :
    ∃ contents, ModuleStructure.parse dialect source = some contents ∧
      List.Forall₂ (fun v r => v.IsLabel source.toList r.exportedName)
        (items.filterMap Item.default?) (contents.exports.filter ExportRecord.isDefault) := by
  refine ⟨ofItems source.toList items, by rw [parse, hitems, Option.map_some], ?_⟩
  rw [filter_isDefault_ofItems, List.forall₂_map_right_iff, List.forall₂_same]
  intro v hv
  exact isLabel_of_covers (hcovers v hv)

/-- A text that exports an assignment in two pairs of parentheses, with a comment between them. -/
def enclosedAssignment : String := "let x, y; export default ( /**/ ((x) = y = 1));"

/-- What the parser finds there. -/
def enclosedValue : DefaultValue :=
  .expression ⟨25, 46⟩ (.enclosed [⟨32, 45⟩, ⟨33, 44⟩] (.assignment ⟨34, 35⟩ true))

theorem covers_enclosedValue : enclosedValue.Covers enclosedAssignment.toList := by
  have hblank : IsGap [' '] := .blank (.inr rfl) .nil
  have hcomment : IsGap [' ', '/', '*', '*', '/', ' '] :=
    .blank (.inr rfl) (.blockComment (show ¬ ['*', '/'] <:+: [] by decide) hblank)
  have hassignment : IsAssignment ['x'] "(x) = y = 1".toList :=
    ⟨1, "(x)".toList, [' '], "=", [' '], "y = 1".toList, .paren .nil .nil .bare, hblank, by decide,
      hblank, by decide, by decide⟩
  refine ⟨⟨by decide, by decide +kernel⟩, fun hv => ?_⟩
  obtain ⟨rfl, rfl⟩ := DefaultValue.expression.inj hv
  exact ⟨⟨_, [], hcomment, .nil, by decide +kernel⟩, ⟨[], [], .nil, .nil, by decide +kernel⟩,
    ⟨by decide +kernel, by decide +kernel⟩, hassignment⟩

theorem default_labels_enclosed :
    ∃ contents, ModuleStructure.parse .typeScript enclosedAssignment = some contents ∧
      List.Forall₂ (fun v r => v.IsLabel enclosedAssignment.toList r.exportedName)
        [enclosedValue] (contents.exports.filter ExportRecord.isDefault) := by
  have hvalues : (Source.parse .typeScript enclosedAssignment.toList).map
      (·.filterMap Item.default?) = some [enclosedValue] := by
    decide +kernel
  obtain ⟨items, hitems, hvalues⟩ := Option.map_eq_some_iff.mp hvalues
  rw [← hvalues]
  refine default_labels hitems ?_
  rw [hvalues, List.forall_mem_singleton]
  exact covers_enclosedValue

end ModuleStructure

end ImportAtlas
