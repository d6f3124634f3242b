import ImportAtlas.Source.Token

/-!
# Source/Tree — what the grammar keeps of a module

A module text is a list of items.  Of an item that imports or exports something the tree keeps the
names and where the exported text stands; every other statement is only known to be there.  Of an
expression it keeps what the construct around it has to know.
-/

namespace ImportAtlas.Source

/-! ## Patterns -/

/-- What a declaration binds: one name, or a destructuring pattern of further patterns. -/
inductive Pattern
  | name (text : String)
  | group (parts : List Pattern)
deriving Repr, Inhabited

mutual

/-- The names that a pattern binds, at any depth, in the order they are written. -/
def Pattern.names : Pattern → List String
  | .name text => [text]
  | .group parts => Pattern.namesOfAll parts

/-- The names that a list of patterns binds. -/
def Pattern.namesOfAll : List Pattern → List String
  | [] => []
  | p :: ps => p.names ++ Pattern.namesOfAll ps

end

/-- The name of a pattern that is a single name. -/
def Pattern.single? : Pattern → Option String
  | .name text => some text
  | .group _ => none

/-! ## Expressions -/

/-- The shape of an expression, as far as the grammar around it depends on it. -/
inductive Form
  | name (text : String)
  /-- A property of another value. -/
  | member
  /-- A property or a call behind an optional property or call. -/
  | chain
  | array
  | object
  /-- An expression in parentheses, and where that expression stands. -/
  | paren (inside : Span) (inner : Form)
  /-- An expression with a type written to it. -/
  | typed (inner : Form)
  /-- An assignment: where its target stands, and whether the operator is the plain one. -/
  | assignment (target : Span) (plain : Bool)
  /-- An operand joined by `&&` or `||`. -/
  | logical
  /-- A unary operator or `await` before its operand. -/
  | unary
  /-- A test for a private name. -/
  | privateTest
  /-- A dynamic import. -/
  | importCall
  | other
deriving DecidableEq, Repr, Inhabited

/-- An expression in its place. -/
structure Expr where
  span : Span
  form : Form
  /-- The expression is an array or object literal that could be read as a pattern. -/
  isPattern : Bool
  /-- Where shorthand properties with a default value stand in the literal; they are allowed only
  if it is read as a pattern. -/
  defaults : List Nat
deriving Repr, Inhabited

namespace Form

/-- The form without types and parentheses around it. -/
def core : Form → Form
  | paren _ inner => inner.core
  | typed inner => inner.core
  | f => f

/-- Whether the form is a name or a property. -/
def isPlace : Form → Bool
  | name _ | member => true
  | _ => false

/-- Whether a value can be assigned to the form, patterns apart: a name or a property, possibly in
parentheses, or one with a type written to it. -/
def isTarget : Form → Bool
  | paren _ inner => inner.isTarget
  | typed inner => inner.core.isPlace
  | f => f.isPlace

end Form

namespace Expr

/-- Whether the expression may stand on the left of a plain assignment. -/
def isTarget (e : Expr) : Bool := e.form.isTarget || e.isPattern

/-- Whether the expression may stand inside a pattern: a target, possibly with a default value. -/
def isElement (e : Expr) : Bool :=
  match e.form with
  | .assignment _ plain => plain
  | _ => e.isTarget

end Expr

/-- Where an expression stands once the parentheses directly around it are removed. -/
def Form.bareSpan (outer : Span) : Form → Span
  | .paren inside inner => inner.bareSpan inside
  | _ => outer

/-! ## Types -/

/-- The shape of a type, as far as the grammar around it depends on it. -/
inductive TypeForm
  /-- An array type or a tuple type. -/
  | sequence
  /-- A type with a question mark behind it. -/
  | nullable
  | other
deriving DecidableEq, Repr, Inhabited

/-! ## Items -/

/-- A declaration and the names it introduces. -/
inductive Declaration
  | values (patterns : List Pattern)
  | function (name : Option String)
  | «class» (name : Option String)
  | typeAlias (name : String)
  | interface (name : String)
  | enumeration (name : String)
  /-- A namespace; one that is named by a string introduces no name. -/
  | «namespace» (name : Option String)
  /-- A name for an entity of another namespace or module. -/
  | importAlias (name : String)
deriving Repr, Inhabited

/-- The names that a declaration introduces. -/
def Declaration.names : Declaration → List String
  | values patterns => Pattern.namesOfAll patterns
  | function name | «class» name | «namespace» name => name.toList
  | typeAlias name | interface name | enumeration name | importAlias name => [name]

/-- One clause of an import statement, by the way it is written. -/
inductive ImportClause
  /-- A name of a list: what it is called in the other module, and what it is called here. -/
  | listed (imported localName : String)
  /-- A name that stands by itself, before all else. -/
  | leading (localName : String)
  /-- A name behind an asterisk. -/
  | starred (localName : String)
deriving DecidableEq, Repr, Inhabited

/-- One name of an export list. -/
structure ExportSpecifier where
  exported : String
  localName : String
deriving DecidableEq, Repr, Inhabited

/-- What a default export exports. -/
inductive DefaultValue
  | declaration (span : Span)
  | expression (span : Span) (form : Form)
deriving Repr, Inhabited

/-- One statement of a module, as far as it concerns other modules. -/
inductive Item
  | importFrom (source : String) (clauses : List ImportClause)
  | exportNames (specifiers : List ExportSpecifier) (source : Option String)
  | exportDeclared (declaration : Declaration)
  | exportDefault (value : DefaultValue)
  | exportAll (name : Option String) (source : String)
  | other
deriving Repr, Inhabited

end ImportAtlas.Source
