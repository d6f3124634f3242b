/-!
# Scan — taking what is read off the front of a text
-/

namespace ImportAtlas

/-- Reads something off the front of a text, or fails; what is left of the text is the state. -/
abbrev Scan := StateT (List Char) Option

namespace Scan

/-- The next character, which stays in the text. -/
def peek : Scan (Option Char) := do return (← get).head?

/-- Takes the next character. -/
def next : Scan Char := do
  match ← get with
  | c :: rest =>
    set rest
    return c
  | [] => failure

/-- Takes the given characters if the text starts with them. -/
def accept (word : List Char) : Scan Bool := do
  match word.isPrefixOf? (← get) with
  | some rest =>
    set rest
    return true
  | none => return false

/-- Takes the given characters, with which the text has to start. -/
def expect (word : List Char) : Scan Unit := do
  unless ← accept word do failure

/-- Takes characters as long as they are of a kind. -/
def takeWhile (kind : Char → Bool) : Scan (List Char) := do
  let text ← get
  set (text.dropWhile kind)
  return text.takeWhile kind

/-- Whether all of the text is taken. -/
def atEnd : Scan Bool := do return (← get).isEmpty

/-- The result of a reading that takes the whole text. -/
def whole? {α : Type} (scan : Scan α) (text : List Char) : Option α :=
  match scan text with
  | some (a, []) => some a
  | _ => none

end Scan

end ImportAtlas
