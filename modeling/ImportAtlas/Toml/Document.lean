import ImportAtlas.Toml.Scalar
import ImportAtlas.Toml.Table
import ImportAtlas.Toml.Text

/-!
# Toml/Document — the settings of a TOML text
-/

namespace ImportAtlas.Toml

open Scan

/-- The characters of scalars. -/
def isScalarChar (c : Char) : Bool :=
  c.isAlphanum || c == '_' || c == '+' || c == '-' || c == '.' || c == ':'

/-- Takes a scalar.  A time may stand behind a date and a blank. -/
def scalar : Scan Setting := do
  let text ← takeWhile isScalarChar
  let joined : Scan Setting := do
    if !isDate text then failure
    expect [' ']
    let time ← takeWhile isScalarChar
    if isZonedTime time then return .moment (String.ofList (text ++ ' ' :: time)) else failure
  joined <|> (match scalar? text with
    | some setting => pure setting
    | none => failure)

mutual

/-- Takes a value in `depth` lists and tables in braces. -/
def value : Nat → Nat → Scan Setting
  | 0, _ => failure
  | fuel + 1, depth => do
    match ← peek with
    | some '"' | some '\'' => return .text (← quoted)
    | some '[' =>
      if nestingLimit ≤ depth + 1 then failure
      expect ['[']
      return .list (← listItems fuel (depth + 1))
    | some '\x7b' =>
      if nestingLimit ≤ depth + 1 then failure
      expect ['\x7b']
      blanks
      if ← accept ['\x7d'] then return .table []
      return (← inlineEntries fuel (depth + 1) (.mk true false [])).setting
    | _ => scalar

/-- Takes the values of a list and its end. -/
def listItems : Nat → Nat → Scan (List Setting)
  | 0, _ => failure
  | fuel + 1, depth => do
    spaceLines ((← get).length + 1)
    if ← accept [']'] then return []
    let item ← value fuel depth
    spaceLines ((← get).length + 1)
    if ← accept [','] then return item :: (← listItems fuel depth)
    expect [']']
    return [item]

/-- Takes the entries of a table in braces, at least one, and its end. -/
def inlineEntries : Nat → Nat → Table → Scan Table
  | 0, _, _ => failure
  | fuel + 1, depth, t => do
    let path ← keyPath
    expect ['=']
    blanks
    let v ← value fuel depth
    blanks
    match t.insert path v with
    | none => failure
    | some t =>
      if ← accept [','] then inlineEntries fuel depth t
      else
        expect ['\x7d']
        return t

end

/-- A text while it is read: all that was found, and the path of the last header. -/
structure Progress where
  root : Table
  header : List String

/-- Takes a header or an entry, if the line holds one. -/
def line (p : Progress) : Scan Progress := do
  let found {α : Type} (a : Option α) : Scan α := match a with
    | some a => pure a
    | none => failure
  match ← peek with
  | none | some '#' | some '\n' | some '\r' => return p
  | some '[' =>
    if ← accept ['[', '['] then
      let path ← keyPath
      expect [']', ']']
      return ⟨← found (p.root.openElement path), path⟩
    else
      expect ['[']
      let path ← keyPath
      expect [']']
      return ⟨← found (p.root.openTable path), path⟩
  | some _ =>
    let path ← keyPath
    expect ['=']
    blanks
    let v ← value (2 * (← get).length + 2) 0
    return ⟨← found (p.root.modifyAt false (fun t => t.insert path v) p.header), p.header⟩

/-- Takes all lines. -/
def lines : Nat → Progress → Scan Progress
  | 0, _ => failure
  | rounds + 1, p => do
    blanks
    let p ← line p
    blanks
    comment
    if ← atEnd then return p
    if ← acceptLineEnd then lines rounds p else failure

/-- **The settings of a text by their keys**, if it is well formed. -/
def parse (text : String) : Option (List (String × Setting)) :=
  let cs := match text.toList with
    | '\ufeff' :: rest => rest
    | cs => cs
  (whole? (lines (cs.length + 1) ⟨.empty, []⟩) cs).map fun p => entrySettings p.root.entries

end ImportAtlas.Toml
