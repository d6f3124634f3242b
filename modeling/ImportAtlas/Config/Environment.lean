import ImportAtlas.Config.Setting
import ImportAtlas.Decimal
import ImportAtlas.Toml.Text
import ImportAtlas.Trim

/-!
# Config/Environment — settings that variables hold

A variable counts if its name starts with a prefix; the rest of the name is the key, with dots that
lead into tables.  What it holds is a value in a loose notation, or else a plain text.
-/

namespace ImportAtlas.Environment

open Scan

/-! ## Words -/

/-- A blank between the parts of a value. -/
def isBlank (c : Char) : Bool := [' ', '\t', '\n', '\x0c', '\r'].contains c

/-- Whether the character ends a word. -/
def isDelimiter (c : Char) : Bool := [',', '\x7b', '\x7d', '[', ']'].contains c

/-- Whether the text is a number with a point, such as `1.5`, `.5`, `5.` or `1.5e3`. -/
def isFraction (text : List Char) : Bool :=
  let unsigned := match text with
    | '+' :: rest | '-' :: rest => rest
    | rest => rest
  let isMark (c : Char) : Bool := c == 'e' || c == 'E'
  let mantissa := unsigned.takeWhile fun c => !isMark c
  let digits := mantissa.filter (· != '.')
  let exponent := match unsigned.dropWhile fun c => !isMark c with
    | [] => true
    | _ :: exponent =>
      let ds := match exponent with
        | '+' :: rest | '-' :: rest => rest
        | rest => rest
      !ds.isEmpty && ds.all Decimal.isDigit
  mantissa.count '.' == 1 && !digits.isEmpty && digits.all Decimal.isDigit && exponent

/-- The whole number that a text is, if it has at most 64 bits. -/
def integer? (text : List Char) : Option Int :=
  let (negative, ds) := match text with
    | '+' :: rest => (false, rest)
    | '-' :: rest => (true, rest)
    | rest => (false, rest)
  let n := Decimal.value ds
  if ds.isEmpty || !ds.all Decimal.isDigit then none
  else if negative then if n ≤ Nat.pow 2 63 then some (-n) else none
  else if n < Nat.pow 2 64 then some n
  else none

/-- The value of a word without quotes. -/
def word (text : List Char) : Setting :=
  let text := trim text
  if isFraction text then .fraction (String.ofList text)
  else match integer? text with
    | some n => .integer n
    | none => .text (String.ofList text)

/-! ## Texts in quotes -/

/-- Takes what stands between double quotes, with its escapes. -/
def quotedCharacters : Nat → Scan (List Char)
  | 0 => failure
  | rounds + 1 => do
    match ← next with
    | '"' => return []
    | '\\' =>
      let c ← next
      return '\\' :: c :: (← quotedCharacters rounds)
    | c => return c :: (← quotedCharacters rounds)

/-- The first characters of a text that take up at most so many bytes. -/
def takeBytes : Nat → List Char → List Char
  | _, [] => []
  | size, c :: rest => if c.utf8Size ≤ size then c :: takeBytes (size - c.utf8Size) rest else []

/-- Takes the rest of a text behind its first escape, and what the escapes in it stand for. -/
def unescape : Nat → Scan (List Char)
  | 0 => failure
  | rounds + 1 => do
    match ← get with
    | [] => return []
    | _ =>
      match ← next with
      | '\\' =>
        let c ← Toml.escaped
        return c :: (← unescape rounds)
      | c => if Toml.isPrintable c then return c :: (← unescape rounds) else failure

/-- **What a text in quotes stands for.**  Of the characters before its first escape as many bytes
are kept as there are characters. -/
def unquote? (text : List Char) : Option (List Char) :=
  let plain := text.takeWhile (· != '\\')
  if !plain.all Toml.isPrintable then none
  else if plain.length = text.length then some text
  else (whole? (unescape (text.length + 1)) (text.drop plain.length)).map
    (takeBytes plain.length plain ++ ·)

/-- Takes a text in double quotes. -/
def quotedText : Scan String := do
  expect ['"']
  match unquote? (← quotedCharacters ((← get).length + 1)) with
  | some text => return String.ofList text
  | none => failure

/-! ## Values -/

mutual

/-- Takes a value. -/
def value : Nat → Scan Setting
  | 0 => failure
  | fuel + 1 => do
    discard <| takeWhile isBlank
    let v ← bareValue fuel
    discard <| takeWhile isBlank
    return v

/-- Takes a value without blanks at its ends. -/
def bareValue : Nat → Scan Setting
  | 0 => failure
  | fuel + 1 => do
    if ← accept "true".toList then return .truth true
    if ← accept "false".toList then return .truth false
    match ← peek with
    | some '\x7b' =>
      expect ['\x7b']
      return .table (← entries fuel)
    | some '[' =>
      expect ['[']
      return .list (← items fuel)
    | some '"' => return .text (← quotedText)
    | some '\'' =>
      expect ['\'']
      let c ← next
      expect ['\'']
      return .text (String.ofList [c])
    | _ => return word (← takeWhile fun c => !isDelimiter c)

/-- Takes the values of a list and its end.  A comma may stand before the end. -/
def items : Nat → Scan (List Setting)
  | 0 => failure
  | fuel + 1 => do
    if ← accept [']'] then return []
    let v ← value fuel
    if ← accept [','] then return v :: (← items fuel)
    expect [']']
    return [v]

/-- Takes the entries of a table and its end.  A comma may stand before the end. -/
def entries : Nat → Scan (List (String × Setting))
  | 0 => failure
  | fuel + 1 => do
    if ← accept ['\x7d'] then return []
    discard <| takeWhile isBlank
    let key ← if (← peek) == some '"' then quotedText else do
      let key ← takeWhile Toml.isKeyChar
      if key.isEmpty then failure else pure (String.ofList key)
    discard <| takeWhile isBlank
    expect ['=']
    let v ← value fuel
    if ← accept [','] then return (key, v) :: (← entries fuel)
    expect ['\x7d']
    return [(key, v)]

end

/-- The value of a text; a text that is no value stands for itself. -/
def parse (text : String) : Setting :=
  let cs := text.toList
  (whole? (value (3 * cs.length + 3)) cs).getD (.text text)

/-! ## Names -/

/-- The key that a variable stands for: the parts of the rest of its name behind the prefix, in
lower case.  The prefix may be written in any case.  None of the parts may be empty. -/
def keyOf? (front name : String) : Option (List String) :=
  let lower (s : List Char) : List Char := s.map Char.toLower
  match (lower front.toList).isPrefixOf? (lower (trim name.toList)) with
  | none => none
  | some rest =>
    let parts := (trim rest).splitOn '.'
    if parts.any List.isEmpty then none else some (parts.map String.ofList)

/-- The value of a key with several parts: a table in a table. -/
def nest : List String → Setting → Setting
  | [], v => v
  | key :: rest, v => .table [(key, nest rest v)]

/-- The settings of variables, in the order of the variables. -/
def settings (front : String) (environment : List (String × String)) : List (String × Setting) :=
  environment.filterMap fun (name, text) =>
    match keyOf? front name with
    | some (key :: rest) => some (key, nest rest (parse text))
    | _ => none

end ImportAtlas.Environment
