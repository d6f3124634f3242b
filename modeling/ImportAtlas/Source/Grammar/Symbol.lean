import ImportAtlas.Source.Stream

/-!
# Source/Grammar/Symbol — the symbols that the rules refer to

The rules of the grammar refer to each other in cycles.  Each rule is therefore written over a
`Grammar`: whatever it finds for the symbols below.  `Source.Grammar.rules` ties the knot.
-/

namespace ImportAtlas.Source

/-- Where a statement stands. -/
inductive Place
  /-- In a list of statements. -/
  | list
  /-- Alone: as the body of a loop or a branch, or behind a label. -/
  | alone
deriving DecidableEq

/-- The symbols of the grammar that occur in their own definition. -/
inductive Symbol
  | statement (place : Place)
  /-- Expressions with commas between them. -/
  | expression
  /-- One expression; whether an arrow function in it may declare its result type. -/
  | assignment (resultType : Bool)
  /-- Operands joined by operators that bind tighter than the given level. -/
  | binary (level : Nat)
  /-- An operand of an operator. -/
  | unary
  /-- Calls and property accesses. -/
  | leftHand
  /-- What `new` is applied to. -/
  | callee
  | type
  | typeOperator
  | pattern
  | markup
deriving DecidableEq

/-- What a rule for the symbol answers. -/
abbrev Symbol.Result : Symbol → Type
  | statement _ => Item
  | expression | assignment _ | binary _ | unary | leftHand | callee | markup => Expr
  | type | typeOperator => TypeForm
  | pattern => Pattern

/-- A rule for every symbol. -/
abbrev Grammar := (s : Symbol) → Rule s.Result

end ImportAtlas.Source
