import ImportAtlas.Binding
import ImportAtlas.ExportRecord
import ImportAtlas.Source.Grammar
import ImportAtlas.Trim

/-!
# ModuleStructure — what a module text imports and exports

`ModuleStructure.parse` reads a text; `ofItems` collects the imports and exports of its items in
the order they are written.  Only statements on the outermost level count.
-/

namespace ImportAtlas

open Source

/-- An import statement: where it imports from, as it is written, and what it binds. -/
structure ImportStatement where
  source : String
  bindings : List Binding
deriving DecidableEq, Repr, Inhabited

/-- The imports and exports of a module, each in the order they are written. -/
structure ModuleStructure where
  imports : List ImportStatement
  exports : List ExportRecord
deriving DecidableEq, Repr, Inhabited

/-! ## Labels of default exports -/

/-- Where the label of an expression stands: the target of an assignment, once the parentheses
around it are removed; of any other expression, all of it with its parentheses. -/
def labelSpan (whole : Span) : Form → Span
  | .paren _ inner => labelSpan whole inner
  | .assignment target _ => target
  | _ => whole

/-- The label of a default export. -/
def defaultLabel (text : List Char) (value : DefaultValue) : String :=
  let span := match value with
    | .declaration span => span
    | .expression span form => labelSpan span form
  String.ofList (trim (span.cut text))

/-! ## Collecting -/

/-- What a clause of an import statement binds. -/
def bindingOf : ImportClause → Binding
  | .listed imported localName => .named imported localName
  | .leading localName => .default localName
  | .starred localName => .namespace localName

/-- The import statement that an item is, if it is one. -/
def importOf? : Item → Option ImportStatement
  | .importFrom source clauses => some ⟨source, clauses.map bindingOf⟩
  | _ => none

/-- The exports of a declaration: the names it introduces one by one.  The names inside patterns
are not among them, nor are namespaces and aliases. -/
def declaredExports : Declaration → List ExportRecord
  | .values patterns =>
    (patterns.filterMap Pattern.single?).map fun n => ExportRecord.named n n
  | .function name | .class name => name.toList.map fun n => ExportRecord.named n n
  | .typeAlias name | .interface name | .enumeration name => [ExportRecord.named name name]
  | .namespace _ | .importAlias _ => []

/-- The exports of an item. -/
def exportsOf (text : List Char) : Item → List ExportRecord
  | .exportNames specifiers source =>
    specifiers.map fun s => { ExportRecord.named s.exported s.localName with source := source }
  | .exportDeclared declaration => declaredExports declaration
  | .exportDefault value => [ExportRecord.default (defaultLabel text value)]
  | .exportAll (some name) source => [ExportRecord.reexported name "*" source]
  | .exportAll none source => [ExportRecord.reexportAll source]
  | .importFrom _ _ | .other => []

namespace ModuleStructure

/-- The imports and exports of the items of a text. -/
def ofItems (text : List Char) (items : List Item) : ModuleStructure :=
  ⟨items.filterMap importOf?, items.flatMap (exportsOf text)⟩

/-- **The imports and exports of a module text**; nothing if the text is not well formed. -/
def parse (dialect : Dialect) (source : String) : Option ModuleStructure :=
  let text := source.toList
  (Source.parse dialect text).map (ofItems text)

end ModuleStructure

end ImportAtlas
