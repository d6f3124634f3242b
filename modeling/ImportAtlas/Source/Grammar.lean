import ImportAtlas.Source.Grammar.Statement
import ImportAtlas.Dialect

/-!
# Source/Grammar — the grammar of a module text

`rules` ties the rules of the grammar together: `rules n` may go `n` symbols deep, and a text is
never deeper than a multiple of its length.  `Module.parse` is the whole: the items of a module, if
its text is well formed.
-/

namespace ImportAtlas.Source

/-- The rules of the grammar, down to a depth of `n` symbols. -/
def rules : Nat → Grammar
  | 0, _ => Rule.reject
  | n + 1, s =>
    let g : Grammar := rules n
    match s with
    | .statement place => Rule.statement g place
    | .expression => Rule.expression g
    | .assignment resultType => Rule.assignment g resultType
    | .binary level => Rule.binary g level
    | .unary => Rule.unary g
    | .leftHand => Rule.leftHand g
    | .callee => Rule.callee g
    | .type => Rule.typeExpression g
    | .typeOperator => Rule.typeOperator g
    | .pattern => Rule.pattern g
    | .markup => Rule.markupElement g

/-- The statements of a module, up to the end of its text. -/
def Rule.module (g : Grammar) : Rule (List Item) :=
  iterate (fun acc => do
    if ← atEnd then return .done acc.reverse
    else return .again ((← g (.statement .list)) :: acc)) []

/-! ## Names that are exported twice -/

/-- The names under which an item exports something. -/
def Item.exportedNames : Item → List String
  | .exportNames specifiers _ => specifiers.map ExportSpecifier.exported
  | .exportDeclared declaration => declaration.names
  | .exportDefault _ => ["default"]
  | .exportAll name _ => name.toList
  | .importFrom _ _ | .other => []

/-- Whether no name is exported twice. -/
def exportsDistinct (items : List Item) : Bool :=
  let names := items.flatMap Item.exportedNames
  names.eraseDups.length == names.length

/-! ## Modules -/

/-- **The items of a module**, in the order they are written; nothing if its text is not well
formed.  Without types, no name may be exported twice. -/
def parse (dialect : Dialect) (text : List Char) : Option (List Item) :=
  let size := text.length
  let setting : Setting :=
    { types := dialect.hasTypes, markup := dialect.hasMarkup, size := size }
  let first := lexFirst text
  let start : Stream := ⟨first.token, first.rest, 0, !first.sound, [], []⟩
  match Rule.module (rules (64 * (size + 2))) setting start with
  | .ok (items, s) =>
    if s.flawed || !s.defaults.isEmpty || (!dialect.hasTypes && !exportsDistinct items) then none
    else some items
  | .error _ => none

end ImportAtlas.Source
