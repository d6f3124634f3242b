import ImportAtlas.Decimal
import ImportAtlas.Json.Basic
import ImportAtlas.Json.Magnitude

/-!
# Json/Reader — documents from text

`Json.parse` reads a whole text.  The functions below take what they read off the front of a list of
characters and return the rest; a count that is larger than the text bounds the nesting.
-/

namespace ImportAtlas.Json

/-- The blanks that may stand between the parts of a document. -/
def isBlank (c : Char) : Bool := c == ' ' || c == '\n' || c == '\t' || c == '\r'

/-- The text without blanks at its front. -/
def skipBlanks (cs : List Char) : List Char := cs.dropWhile isBlank

/-! ## Texts -/

/-- The value of a hexadecimal digit. -/
def hexValue? (c : Char) : Option Nat :=
  if '0' ≤ c ∧ c ≤ '9' then some (c.toNat - 48)
  else if 'a' ≤ c ∧ c ≤ 'f' then some (c.toNat - 87)
  else if 'A' ≤ c ∧ c ≤ 'F' then some (c.toNat - 55)
  else none

/-- The value of four hexadecimal digits. -/
def hexUnit? (a b c d : Char) : Option Nat := do
  return ((← hexValue? a) * 16 + (← hexValue? b)) * 256 + (← hexValue? c) * 16 + (← hexValue? d)

/-- The character that a letter behind a backslash stands for. -/
def unescape? : Char → Option Char
  | '"' => some '"'
  | '\\' => some '\\'
  | '/' => some '/'
  | 'b' => some '\x08'
  | 'f' => some '\x0c'
  | 'n' => some '\n'
  | 'r' => some '\r'
  | 't' => some '\t'
  | _ => none

/-- The character of two units, if they are a surrogate pair. -/
def pair? (high low : Nat) : Option Char :=
  if 0xD800 ≤ high ∧ high < 0xDC00 ∧ 0xDC00 ≤ low ∧ low < 0xE000 then
    some (Char.ofNat (0x10000 + (high - 0xD800) * 0x400 + (low - 0xDC00)))
  else none

/-- The unit that an escape at the front of a text stands for. -/
def escapedUnit? : List Char → Option Nat
  | '\\' :: 'u' :: a :: b :: c :: d :: _ => hexUnit? a b c d
  | _ => none

/-- Puts a character in front of what is read. -/
def consChar (c : Char) (r : Option (Option (List Char) × List Char)) :
    Option (Option (List Char) × List Char) :=
  r.map fun (text, rest) => (text.map (c :: ·), rest)

/-- Drops what is read. -/
def spoil (r : Option (Option (List Char) × List Char)) :
    Option (Option (List Char) × List Char) :=
  r.map fun (_, rest) => (none, rest)

/-- Reads a text up to the quote at its end.  There is no text if half of a surrogate pair stands in
it alone. -/
def readText : List Char → Option (Option (List Char) × List Char)
  | [] => none
  | '"' :: rest => some (some [], rest)
  | '\\' :: 'u' :: a :: b :: c :: d :: rest =>
    match hexUnit? a b c d with
    | none => none
    | some unit =>
      if 0xD800 ≤ unit ∧ unit < 0xE000 then
        match (escapedUnit? rest).bind (pair? unit) with
        | none => spoil (readText rest)
        | some c =>
          match rest with
          | _ :: _ :: _ :: _ :: _ :: _ :: behind => consChar c (readText behind)
          | _ => none
      else consChar (Char.ofNat unit) (readText rest)
  | '\\' :: c :: rest =>
    match unescape? c with
    | some c => consChar c (readText rest)
    | none => none
  | c :: rest => if c.toNat < 0x20 then none else consChar c (readText rest)

/-! ## Numbers -/

/-- Reads digits, at least one. -/
def readDigits (cs : List Char) : Option (List Char × List Char) :=
  match cs.takeWhile Decimal.isDigit with
  | [] => none
  | ds => some (ds, cs.dropWhile Decimal.isDigit)

/-- Reads the digits before the point: a zero stands alone. -/
def readWhole (cs : List Char) : Option (List Char × List Char) :=
  match readDigits cs with
  | some ('0' :: _ :: _, _) => none
  | r => r

/-- Reads a point with digits behind it, if there is one. -/
def readFraction : List Char → Option (List Char × List Char)
  | '.' :: rest => (readDigits rest).map fun (ds, rest) => ('.' :: ds, rest)
  | cs => some ([], cs)

/-- Reads an exponent, if there is one. -/
def readExponent : List Char → Option (List Char × List Char)
  | c :: rest =>
    if c = 'e' ∨ c = 'E' then
      match rest with
      | '+' :: rest => (readDigits rest).map fun (ds, rest) => (c :: '+' :: ds, rest)
      | '-' :: rest => (readDigits rest).map fun (ds, rest) => (c :: '-' :: ds, rest)
      | rest => (readDigits rest).map fun (ds, rest) => (c :: ds, rest)
    else some ([], c :: rest)
  | [] => some ([], [])

/-- The power of ten that an exponent stands for. -/
def powerOf : List Char → Int
  | [] => 0
  | _ :: '+' :: ds => Decimal.value ds
  | _ :: '-' :: ds => -Decimal.value ds
  | _ :: ds => Decimal.value ds

/-- Reads a number. -/
def readNumber (cs : List Char) : Option (Json × List Char) := do
  let (sign, rest) := match cs with
    | '-' :: rest => (['-'], rest)
    | rest => ([], rest)
  let (whole, rest) ← readWhole rest
  let (fraction, rest) ← readFraction rest
  let (exponent, rest) ← readExponent rest
  let literal := String.ofList (sign ++ whole ++ fraction ++ exponent)
  if !isHeldNumber whole (fraction.drop 1) (powerOf exponent) then return (void literal, rest)
  else if sign = [] ∧ fraction = [] ∧ exponent = [] then
    return (natural (Decimal.value whole), rest)
  else return (decimal literal, rest)

/-! ## Documents -/

/-- What a text starts with, up to what is left of it. -/
def before (text rest : List Char) : String :=
  String.ofList (text.take (text.length - rest.length))

mutual

/-- Reads a document. -/
def readValue : Nat → List Char → Option (Json × List Char)
  | 0, _ => none
  | fuel + 1, cs =>
    match skipBlanks cs with
    | 'n' :: 'u' :: 'l' :: 'l' :: rest => some (null, rest)
    | 't' :: 'r' :: 'u' :: 'e' :: rest => some (bool true, rest)
    | 'f' :: 'a' :: 'l' :: 's' :: 'e' :: rest => some (bool false, rest)
    | '"' :: inside =>
      (readText inside).map fun (text, rest) =>
        (match text with
          | some text => string (String.ofList text)
          | none => void (before ('"' :: inside) rest), rest)
    | '[' :: rest =>
      match skipBlanks rest with
      | ']' :: rest => some (array [], rest)
      | rest => (readItems fuel rest).map fun (items, rest) => (array items, rest)
    | '\x7b' :: inside =>
      match skipBlanks inside with
      | '\x7d' :: rest => some (object [], rest)
      | first =>
        (readFields fuel first).map fun (fields, rest) =>
          (match fields with
            | some fields => object fields
            | none => void (before ('\x7b' :: inside) rest), rest)
    | rest => readNumber rest

/-- Reads the items of an array, at least one, and its end. -/
def readItems : Nat → List Char → Option (List Json × List Char)
  | 0, _ => none
  | fuel + 1, cs =>
    match readValue fuel cs with
    | none => none
    | some (item, rest) =>
      match skipBlanks rest with
      | ',' :: rest => (readItems fuel rest).map fun (items, rest) => (item :: items, rest)
      | ']' :: rest => some ([item], rest)
      | _ => none

/-- Reads the fields of an object, at least one, and its end.  There are no fields if one of the
keys is no text. -/
def readFields : Nat → List Char → Option (Option (List (String × Json)) × List Char)
  | 0, _ => none
  | fuel + 1, cs =>
    match skipBlanks cs with
    | '"' :: rest =>
      match readText rest with
      | none => none
      | some (key, rest) =>
        match skipBlanks rest with
        | ':' :: rest =>
          match readValue fuel rest with
          | none => none
          | some (value, rest) =>
            let field := key.map fun key => (String.ofList key, value)
            match skipBlanks rest with
            | ',' :: rest =>
              (readFields fuel rest).map fun (fields, rest) =>
                (field.bind fun field => fields.map (field :: ·), rest)
            | '\x7d' :: rest => some (field.map ([·]), rest)
            | _ => none
        | _ => none
    | _ => none

end

/-- **The document that a text is**, if it is one. -/
def parse (text : String) : Option Json :=
  let cs := text.toList
  match readValue (2 * cs.length + 2) cs with
  | some (document, rest) => if skipBlanks rest = [] then some document else none
  | none => none

end ImportAtlas.Json
