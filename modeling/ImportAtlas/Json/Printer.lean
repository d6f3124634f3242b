import ImportAtlas.Decimal
import ImportAtlas.Json.Basic

/-!
# Json/Printer — documents as text

A document is written on one line, or with one item a line and two blanks more for each level.
-/

namespace ImportAtlas.Json

/-- The blanks that are written between the parts of a document. -/
structure Style where
  /-- What stands before an item on the given level. -/
  gap : Nat → List Char
  /-- What stands between a key and its value. -/
  colon : List Char

/-- Everything on one line, without blanks. -/
def Style.compact : Style := ⟨fun _ => [], [':']⟩

/-- Each item on a line of its own. -/
def Style.pretty : Style := ⟨fun level => '\n' :: List.replicate (2 * level) ' ', [':', ' ']⟩

/-- The lower-case hexadecimal digit of a number below sixteen. -/
def hexDigit (n : Nat) : Char := if n < 10 then Char.ofNat (48 + n) else Char.ofNat (87 + n)

/-- A character of a text as it is written. -/
def escapeChar (c : Char) : List Char :=
  if c = '"' then ['\\', '"']
  else if c = '\\' then ['\\', '\\']
  else if c = '\x08' then ['\\', 'b']
  else if c = '\x0c' then ['\\', 'f']
  else if c = '\n' then ['\\', 'n']
  else if c = '\r' then ['\\', 'r']
  else if c = '\t' then ['\\', 't']
  else if c.toNat < 0x20 then ['\\', 'u', '0', '0', hexDigit (c.toNat / 16), hexDigit (c.toNat % 16)]
  else [c]

/-- A text as it is written, in quotes. -/
def printText (text : String) : List Char := '"' :: (text.toList.flatMap escapeChar ++ ['"'])

mutual

/-- A document on a level as it is written. -/
def print (style : Style) (level : Nat) : Json → List Char
  | null => ['n', 'u', 'l', 'l']
  | bool true => ['t', 'r', 'u', 'e']
  | bool false => ['f', 'a', 'l', 's', 'e']
  | natural value => Decimal.digits value
  | decimal literal => literal.toList
  | string text => printText text
  | void literal => literal.toList
  | array [] => ['[', ']']
  | array (item :: items) =>
    '[' :: (style.gap (level + 1) ++ print style (level + 1) item ++
      printItems style level items)
  | object [] => ['\x7b', '\x7d']
  | object ((key, value) :: fields) =>
    '\x7b' :: (style.gap (level + 1) ++ printText key ++ style.colon ++
      print style (level + 1) value ++ printFields style level fields)

/-- The items of an array behind the first, with the end of the array. -/
def printItems (style : Style) (level : Nat) : List Json → List Char
  | [] => style.gap level ++ [']']
  | item :: items =>
    ',' :: (style.gap (level + 1) ++ print style (level + 1) item ++
      printItems style level items)

/-- The fields of an object behind the first, with the end of the object. -/
def printFields (style : Style) (level : Nat) : List (String × Json) → List Char
  | [] => style.gap level ++ ['\x7d']
  | (key, value) :: fields =>
    ',' :: (style.gap (level + 1) ++ printText key ++ style.colon ++
      print style (level + 1) value ++ printFields style level fields)

end

/-- The text of a document. -/
def render (style : Style) (document : Json) : String := String.ofList (print style 0 document)

/-- The text of a document on one line. -/
def compact (document : Json) : String := document.render .compact

/-- The text of a document with one item a line. -/
def pretty (document : Json) : String := document.render .pretty

end ImportAtlas.Json
