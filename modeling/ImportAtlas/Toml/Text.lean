import ImportAtlas.Json.Reader
import ImportAtlas.Scan

/-!
# Toml/Text — blanks, comments, keys and quoted texts of TOML
-/

namespace ImportAtlas.Toml

open Scan

/-- A blank within a line. -/
def isBlank (c : Char) : Bool := c == ' ' || c == '\t'

/-- Whether the character may stand in comments and texts of one line. -/
def isPrintable (c : Char) : Bool := c == '\t' || (0x20 ≤ c.toNat && c.toNat != 0x7f)

/-- Takes blanks within a line. -/
def blanks : Scan Unit := do discard <| takeWhile isBlank

/-- Takes an end of line, if there is one. -/
def acceptLineEnd : Scan Bool := do
  if ← accept ['\n'] then return true
  accept ['\r', '\n']

/-- Takes a comment, if there is one. -/
def comment : Scan Unit := do
  if ← accept ['#'] then discard <| takeWhile isPrintable

/-- Takes blanks, comments and ends of lines; each round takes at least a character. -/
def spaceLines : Nat → Scan Unit
  | 0 => failure
  | rounds + 1 => do
    blanks
    comment
    if ← acceptLineEnd then spaceLines rounds

/-! ## Texts -/

/-- Takes so many hexadecimal digits. -/
def hexDigits : Nat → Nat → Scan Nat
  | 0, value => return value
  | count + 1, value => do
    match Json.hexValue? (← next) with
    | some digit => hexDigits count (16 * value + digit)
    | none => failure

/-- The character of a code point, if it is one. -/
def charOf (code : Nat) : Scan Char :=
  if code < 0xD800 ∨ (0xDFFF < code ∧ code < 0x110000) then return Char.ofNat code else failure

/-- Takes what stands behind a backslash, other than the end of a line. -/
def escaped : Scan Char := do
  match ← next with
  | 'b' => return '\x08'
  | 't' => return '\t'
  | 'n' => return '\n'
  | 'f' => return '\x0c'
  | 'r' => return '\r'
  | '"' => return '"'
  | '\\' => return '\\'
  | 'u' => charOf (← hexDigits 4 0)
  | 'U' => charOf (← hexDigits 8 0)
  | _ => failure

/-- Takes a text of one line up to the quote at its end. -/
def basicText : Nat → Scan (List Char)
  | 0 => failure
  | rounds + 1 => do
    match ← next with
    | '"' => return []
    | '\\' =>
      let c ← escaped
      return c :: (← basicText rounds)
    | c => if isPrintable c then return c :: (← basicText rounds) else failure

/-- Takes a text of one line without escapes up to the quote at its end. -/
def literalText : Scan (List Char) := do
  let text ← takeWhile fun c => isPrintable c && c != '\''
  expect ['\'']
  return text

/-- Takes blanks and ends of lines, at least one end, as they may stand behind a backslash. -/
def lineContinuation (rounds : Nat) : Scan Unit := do
  blanks
  if ← acceptLineEnd then skip rounds else failure
where
  /-- Takes blanks and ends of lines. -/
  skip : Nat → Scan Unit
    | 0 => failure
    | rounds + 1 => do
      blanks
      if ← acceptLineEnd then skip rounds

/-- Takes the quotes at the end of a text of several lines.  Up to two more belong to the text. -/
def closing (quote : Char) : Scan (Option (List Char)) := do
  let more ← takeWhile (· == quote)
  match more.length with
  | 3 => return some []
  | 4 => return some [quote]
  | 5 => return some [quote, quote]
  | n =>
    if 5 < n then failure
    set (more ++ (← get))
    return none

/-- Takes a text of several lines up to the quotes at its end. -/
def multiLine (quote : Char) (escapes : Bool) : Nat → Scan (List Char)
  | 0 => failure
  | rounds + 1 => do
    if (← peek) == some quote then
      match ← closing quote with
      | some rest => return rest
      | none =>
        let c ← next
        return c :: (← multiLine quote escapes rounds)
    else if ← acceptLineEnd then
      return '\n' :: (← multiLine quote escapes rounds)
    else
      let c ← next
      if escapes && c == '\\' then
        (do lineContinuation (rounds + 1)
            multiLine quote escapes rounds) <|>
        (do let c ← escaped
            return c :: (← multiLine quote escapes rounds))
      else if isPrintable c then return c :: (← multiLine quote escapes rounds)
      else failure

/-- Takes a text in any of its four forms. -/
def quoted : Scan String := do
  let rounds := (← get).length + 1
  if ← accept ['"', '"', '"'] then
    discard acceptLineEnd
    return String.ofList (← multiLine '"' true rounds)
  else if ← accept ['\'', '\'', '\''] then
    discard acceptLineEnd
    return String.ofList (← multiLine '\'' false rounds)
  else if ← accept ['"'] then return String.ofList (← basicText rounds)
  else
    expect ['\'']
    return String.ofList (← literalText)

/-! ## Keys -/

/-- Whether the character may stand in a key without quotes. -/
def isKeyChar (c : Char) : Bool := c.isAlphanum || c == '_' || c == '-'

/-- Takes a key without dots. -/
def simpleKey : Scan String := do
  if ← accept ['"'] then return String.ofList (← basicText ((← get).length + 1))
  else if ← accept ['\''] then return String.ofList (← literalText)
  else
    let key ← takeWhile isKeyChar
    if key.isEmpty then failure else return String.ofList key

/-- Takes a key with dots, at least one part. -/
def dottedKey : Nat → Scan (List String)
  | 0 => failure
  | rounds + 1 => do
    blanks
    let key ← simpleKey
    blanks
    if ← accept ['.'] then return key :: (← dottedKey rounds) else return [key]

/-- How deep values may be nested, and into how many parts a key may be divided: less than this. -/
def nestingLimit : Nat := 80

/-- Takes a key. -/
def keyPath : Scan (List String) := do
  let path ← dottedKey ((← get).length + 1)
  if path.length < nestingLimit then return path else failure

end ImportAtlas.Toml
