/-!
# Config/Setting — values that a configuration may be given
-/

namespace ImportAtlas

/-- A value as it is found in a file or in a variable. -/
inductive Setting
  | text (value : String)
  | integer (value : Int)
  | truth (value : Bool)
  /-- A number with a fraction or an exponent. -/
  | fraction (literal : String)
  /-- A date or a time. -/
  | moment (literal : String)
  | list (items : List Setting)
  | table (entries : List (String × Setting))
deriving Inhabited, Repr

namespace Setting

/-- The text that the value is. -/
def text? : Setting → Option String
  | text value => some value
  | _ => none

/-- The texts of a list of texts. -/
def texts? : Setting → Option (List String)
  | list items => items.mapM text?
  | _ => none

/-- The number that the value is, if it has at most 64 bits and no sign. -/
def word? : Setting → Option Nat
  | integer value => if 0 ≤ value ∧ value < Nat.pow 2 64 then some value.toNat else none
  | _ => none

end Setting

end ImportAtlas
