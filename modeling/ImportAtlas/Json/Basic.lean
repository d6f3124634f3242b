/-!
# Json/Basic — documents
-/

namespace ImportAtlas

/-- A document.  Keys of an object may repeat, and their order counts. -/
inductive Json
  | null
  | bool (value : Bool)
  /-- A number that is written with nothing but digits. -/
  | natural (value : Nat)
  /-- Any other number, as it is written. -/
  | decimal (literal : String)
  | string (text : String)
  /-- What is well formed but cannot be held, as it is written: a text with half of a surrogate
  pair, an object with such a key, or a number that is too large. -/
  | void (literal : String)
  | array (items : List Json)
  | object (fields : List (String × Json))
deriving Inhabited, Repr

namespace Json

/-- An optional text. -/
def optional : Option String → Json
  | some text => string text
  | none => null

/-- A list of texts. -/
def strings (texts : List String) : Json := array (texts.map string)

end Json

end ImportAtlas
