/-!
# Source/Token — the tokens of a module text

A token says what it is, where it stands, and whether a line ended before it; the characters from
its first one onwards come along, so that a grammar rule can read the same place differently
(a slash as a regular expression, a brace as the next piece of a template).
-/

namespace ImportAtlas.Source

/-- A stretch of the text: offsets in characters, the second one excluded. -/
structure Span where
  start : Nat
  stop : Nat
deriving DecidableEq, Repr, Inhabited

/-- The characters of `text` that the span covers. -/
def Span.cut (s : Span) (text : List Char) : List Char :=
  (text.drop s.start).take (s.stop - s.start)

/-- What a token is. -/
inductive TokenKind
  /-- An identifier or a reserved word, with its escapes resolved. -/
  | name (text : String) (escaped : Bool)
  /-- A name behind a number sign. -/
  | privateName (text : String)
  | number
  | bigint
  /-- A string literal: its value, and whether an escape in it was half of a surrogate pair. -/
  | string (value : String) (lone : Bool)
  | regex
  /-- A piece of a template: whether a substitution follows, and whether its escapes are well
  formed. -/
  | template (continues : Bool) (cooked : Bool)
  /-- A punctuator. -/
  | mark (text : String)
  /-- Characters between the tags of a markup element. -/
  | markupText
  | endOfText
  /-- A character that starts no token. -/
  | stray
deriving DecidableEq, Repr, Inhabited

/-- A token in its place. -/
structure Token where
  kind : TokenKind
  span : Span
  /-- Whether a line ends between the token before and this one. -/
  newline : Bool
  /-- The text from the first character of the token. -/
  here : List Char
deriving Inhabited

/-- The words that are never identifiers (`await` and `yield` depend on where they stand). -/
def reservedWords : List String :=
  ["break", "case", "catch", "class", "const", "continue", "debugger", "default", "delete", "do",
    "else", "enum", "export", "extends", "false", "finally", "for", "function", "if", "import",
    "in", "instanceof", "new", "null", "return", "super", "switch", "this", "throw", "true", "try",
    "typeof", "var", "void", "while", "with"]

/-- The words with a meaning in some places only; an escape takes that meaning away. -/
def contextualWords : List String :=
  ["await", "yield", "async", "abstract", "accessor", "any", "as", "assert", "asserts", "bigint",
    "boolean", "constructor", "declare", "from", "get", "global", "implements", "infer",
    "interface", "intrinsic", "is", "keyof", "let", "meta", "module", "namespace", "never",
    "number", "object", "of", "out", "override", "package", "private", "protected", "public",
    "readonly", "require", "set", "static", "string", "symbol", "target", "type", "undefined",
    "unique", "using", "unknown", "satisfies", "defer", "source"]

namespace TokenKind

/-- The word, where the token is an identifier or a reserved word. -/
def word? : TokenKind → Option String
  | name text _ => some text
  | _ => none

/-- Whether the token is the given word, however it is spelled. -/
def isWord (k : TokenKind) (w : String) : Bool := k.word? == some w

/-- Whether the token is the given punctuator. -/
def isMark (k : TokenKind) (m : String) : Bool := k == .mark m

/-- Whether the token is a word of either kind. -/
def isName : TokenKind → Bool
  | name _ _ => true
  | _ => false

/-- Whether the token is an identifier wherever it stands. -/
def isIdentifier : TokenKind → Bool
  | name text _ => !reservedWords.contains text && text != "await" && text != "yield"
  | _ => false

/-- Whether the token may name a binding; `await` and `yield` are judged by the rule itself. -/
def isBinding : TokenKind → Bool
  | name text _ => !reservedWords.contains text
  | _ => false

/-- Whether the token is a template piece. -/
def isTemplate : TokenKind → Bool
  | template _ _ => true
  | _ => false

/-- Whether the token is a string literal. -/
def isString : TokenKind → Bool
  | string _ _ => true
  | _ => false

/-- Whether the token is a number of either kind. -/
def isNumeric : TokenKind → Bool
  | number | bigint => true
  | _ => false

/-- Whether the token is a literal. -/
def isLiteral (k : TokenKind) : Bool :=
  k.isString || k.isNumeric || k == .regex || k.isWord "true" || k.isWord "false" || k.isWord "null"

/-- Whether the token is one of the given punctuators. -/
def isOneOf (k : TokenKind) (marks : List String) : Bool := marks.any k.isMark

/-- Whether the token is one of the given words. -/
def isWordOf (k : TokenKind) (words : List String) : Bool := words.any k.isWord

/-- Whether the token can name a property. -/
def isPropertyName (k : TokenKind) : Bool := k.isName || k.isString || k.isNumeric

end TokenKind

end ImportAtlas.Source
