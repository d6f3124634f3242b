/-!
# Dialect — the four flavours of module text

The extension of a file says which one its text is written in.  The table below is the only place
that knows the extensions: a file is a module exactly if its extension is listed.
-/

namespace ImportAtlas

/-- A flavour of module text. -/
inductive Dialect
  | javaScript
  | jsx
  | typeScript
  | tsx
deriving DecidableEq, Repr, Inhabited

namespace Dialect

/-- Whether types may be written. -/
def hasTypes : Dialect → Bool
  | typeScript | tsx => true
  | javaScript | jsx => false

/-- Whether markup elements are expressions. -/
def hasMarkup : Dialect → Bool
  | jsx | tsx => true
  | javaScript | typeScript => false

/-- The name of the dialect. -/
def name : Dialect → String
  | javaScript => "javascript"
  | jsx => "jsx"
  | typeScript => "typescript"
  | tsx => "tsx"

/-- All dialects. -/
def all : List Dialect := [javaScript, jsx, typeScript, tsx]

/-- The dialect with the given name. -/
def ofName? (s : String) : Option Dialect := all.find? fun d => d.name == s

/-- The extensions of module files, in lower case, and the dialect of each. -/
def table : List (String × Dialect) :=
  [("tsx", tsx), ("ts", typeScript), ("mts", typeScript), ("cts", typeScript), ("jsx", jsx),
    ("js", javaScript), ("mjs", javaScript), ("cjs", javaScript)]

/-- The lower-case form of the ASCII letters of a text. -/
def lowerCase (s : String) : String := String.ofList (s.toList.map Char.toLower)

/-- The dialect that an extension stands for; the case of its letters does not matter. -/
def ofExtension? (extension : String) : Option Dialect := table.lookup (lowerCase extension)

end Dialect

/-- The extensions that are tried, in this order, for a path that has none. -/
def probeExtensions : List String := ["tsx", "ts", "jsx", "js"]

end ImportAtlas
