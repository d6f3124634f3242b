import ImportAtlas.Source.Lexer
import ImportAtlas.Source.Tree

/-!
# Source/Stream — rules over the tokens of a text

A rule reads tokens from a stream, one token ahead.  It ends in one of three ways: it succeeds; it
succeeds on a text that is not quite well formed, which the stream remembers (`flaw`); or it fails,
and the rule that tried it may start over somewhere else (`attempt`).  A module is well formed if
its rule succeeds without a flaw.
-/

namespace ImportAtlas.Source

/-- What the place of a rule allows. -/
structure Setting where
  /-- Types may be written. -/
  types : Bool
  /-- Markup elements are expressions. -/
  markup : Bool
  /-- The number of characters of the text. -/
  size : Nat
  /-- `in` is an operator. -/
  allowIn : Bool := true
  /-- `yield` is an operator. -/
  yields : Bool := false
  /-- `await` is an operator. -/
  awaits : Bool := true
  /-- A `return` may stand here. -/
  returns : Bool := false
  /-- Declarations describe something that exists elsewhere. -/
  ambient : Bool := false
  /-- The expression is a decorator, which ends before a bracket. -/
  decorator : Bool := false
  /-- A type may not be conditional. -/
  noConditional : Bool := false
deriving Inhabited

/-- Where a rule stands in the text. -/
structure Stream where
  /-- The next token. -/
  token : Token
  /-- The text behind it. -/
  rest : List Char
  /-- Where the token before it ended. -/
  lastStop : Nat
  /-- Something read so far was not well formed. -/
  flawed : Bool
  /-- Shorthand properties with a default value whose literal was not read as a pattern so far. -/
  defaults : List Nat
  /-- Places where no parameters of an arrow function start, although it looked like it. -/
  notArrows : List Nat
deriving Inhabited

/-- A rule of the grammar.  A failure keeps the places where no arrow function starts, so that no
rule looks at one of them twice. -/
abbrev Rule (α : Type) := ReaderT Setting (StateT Stream (Except (List Nat))) α

namespace Rule

variable {α β : Type}

/-! ## Tokens -/

/-- The next token. -/
def token : Rule Token := do return (← get).token

/-- The kind of the next token. -/
def kind : Rule TokenKind := do return (← get).token.kind

/-- Fails: the next token has no place here. -/
def reject : Rule α := fun _ s => .error s.notArrows

/-- Notes that the text is not well formed and goes on. -/
def flaw : Rule Unit := modify fun s => { s with flawed := true }

/-- Notes a flaw if the condition holds. -/
def flawIf (b : Bool) : Rule Unit := if b then flaw else pure ()

/-- Puts a token that was read from the current place in front of the stream. -/
def replaceToken (l : Lexed) : Rule Unit := modify fun s =>
  { s with token := l.token, rest := l.rest, flawed := s.flawed || !l.sound }

/-- Moves on, and lets the given reader find the token behind the present one. -/
def advanceWith (read : List Char → Nat → Lexed) : Rule Unit := modify fun s =>
  let l := read s.rest s.token.span.stop
  { s with
    token := l.token, rest := l.rest, lastStop := s.token.span.stop
    flawed := s.flawed || !l.sound }

/-- Moves past a token that stands for an identifier here. -/
def advanceName : Rule Unit := advanceWith lex

/-- Whether the token is a word with a meaning of its own that is spelled with an escape. -/
def isEscapedWord : TokenKind → Bool
  | .name text escaped => escaped && (reservedWords.contains text || contextualWords.contains text)
  | _ => false

/-- Moves past the token.  A word with a meaning of its own may not be spelled with an escape. -/
def advance : Rule Unit := do
  flawIf (isEscapedWord (← kind))
  advanceWith lex

/-- Whether the next token is the punctuator. -/
def atMark (m : String) : Rule Bool := do return (← kind).isMark m

/-- Whether the next token is one of the punctuators. -/
def atOneOf (marks : List String) : Rule Bool := do return (← kind).isOneOf marks

/-- Whether the next token is the word. -/
def atWord (w : String) : Rule Bool := do return (← kind).isWord w

/-- Whether the text ends here. -/
def atEnd : Rule Bool := do return (← kind) == .endOfText

/-- Whether a line ended before the next token. -/
def onNewLine : Rule Bool := do return (← token).newline

/-- Moves past the punctuator, if it is next. -/
def eatMark (m : String) : Rule Bool := do
  if ← atMark m then advance; return true
  else return false

/-- Moves past the word, if it is next. -/
def eatWord (w : String) : Rule Bool := do
  if ← atWord w then advance; return true
  else return false

/-- Moves past the punctuator, which has to be next. -/
def expectMark (m : String) : Rule Unit := do unless ← eatMark m do reject

/-- Moves past the word, which has to be next. -/
def expectWord (w : String) : Rule Unit := do unless ← eatWord w do reject

/-- Where the next token starts. -/
def here : Rule Nat := do return (← token).span.start

/-- The stretch from a place to the end of the token just read. -/
def since (start : Nat) : Rule Span := do return ⟨start, (← get).lastStop⟩

/-- The opening brace. -/
def openBrace : String := "\x7b"

/-- The closing brace. -/
def closeBrace : String := "\x7d"

/-! ## Looking ahead -/

/-- Tries a rule; where it fails, nothing has been read. -/
def attempt (r : Rule α) : Rule (Option α) := fun c s =>
  match r c s with
  | .ok (a, s') => .ok (some a, s')
  | .error seen => .ok (none, { s with notArrows := seen })

/-- Answers a question about the tokens ahead and stays here; a failure is the default answer. -/
def ahead (fallback : α) (r : Rule α) : Rule α := fun c s =>
  match r c s with
  | .ok (a, _) => .ok (a, s)
  | .error _ => .ok (fallback, s)

/-- Answers a question about the token behind the next one. -/
def behind (r : Rule Bool) : Rule Bool := ahead false do advance; r

/-- The kind of the token behind the next one. -/
def kindBehind : Rule TokenKind := ahead .stray do advance; kind

/-! ## Repetition -/

/-- One round of a loop. -/
inductive Round (σ α : Type)
  | again (state : σ)
  | done (result : α)

/-- Repeats a step at most `n` times. -/
def repeatAtMost {σ : Type} (step : σ → Rule (Round σ α)) : Nat → σ → Rule α
  | 0, _ => reject
  | n + 1, s => do
    match ← step s with
    | .again s' => repeatAtMost step n s'
    | .done a => return a

/-- Repeats a step until it is done.  No loop runs longer than the text has characters. -/
def iterate {σ : Type} (step : σ → Rule (Round σ α)) (s : σ) : Rule α := do
  repeatAtMost step ((← read).size + 8) s

/-- Reads items up to the closing punctuator, which is not consumed. -/
def untilMark (close : String) (item : Rule α) : Rule (List α) :=
  iterate (fun acc => do
    if ← atMark close then return .done acc.reverse
    else return .again ((← item) :: acc)) []

/-- Reads items with commas between them up to the closing punctuator, which is not consumed; the
answer tells whether a comma stands before it. -/
def separated (close : String) (item : Rule α) : Rule (List α × Bool) := do
  iterate (fun (acc, first, comma) => do
    if ← atMark close then return .done (List.reverse acc, comma)
    else if first then return .again ([← item], false, false)
    else
      expectMark ","
      if ← atMark close then return .done (List.reverse acc, true)
      else return .again ((← item) :: acc, false, false)) ([], true, false)

/-! ## The setting -/

/-- Runs a rule with `in` as an operator. -/
def withIn (r : Rule α) : Rule α :=
  withReader (fun c => { c with allowIn := true, decorator := false }) r

/-- Runs a rule without `in` as an operator. -/
def withoutIn (r : Rule α) : Rule α := withReader (fun c => { c with allowIn := false }) r

/-- Runs a rule inside a function. -/
def insideFunction (isAsync isGenerator : Bool) (r : Rule α) : Rule α :=
  withReader (fun c => { c with allowIn := true, awaits := isAsync, yields := isGenerator }) r

/-- Whether types may be written. -/
def typed : Rule Bool := do return (← read).types

/-! ## The end of a statement -/

/-- Whether a semicolon may be left out here. -/
def canEndStatement : Rule Bool := do
  let t ← token
  return t.newline || t.kind.isOneOf [";", closeBrace] || t.kind == .endOfText

/-- Ends a statement: by a semicolon, or where one may be left out. -/
def endStatement : Rule Unit := do
  if ← eatMark ";" then return
  unless ← canEndStatement do reject

/-! ## Names -/

/-- Notes a flaw if the word is `await` or `yield` where that is an operator. -/
def checkOperatorWord (isAsync isGenerator : Bool) : Rule Unit := do
  let k ← kind
  flawIf ((isAsync && k.isWord "await") || (isGenerator && k.isWord "yield"))

/-- Reads the name of a binding. -/
def bindingName : Rule String := do
  let k ← kind
  match k with
  | .name text _ =>
    if !k.isBinding then reject
    else
      checkOperatorWord (← read).awaits (← read).yields
      advanceName
      return text
  | _ => reject

/-- Reads any word as a name. -/
def anyName : Rule String := do
  match ← kind with
  | .name text _ => advanceName; return text
  | _ => reject

/-- Whether the next token is an identifier in this place. -/
def atIdentifier : Rule Bool := do
  let k ← kind
  return k.isIdentifier || (k.isWord "yield" && !(← read).yields)
    || (k.isWord "await" && !(← read).awaits)

/-! ## Reading the place differently -/

/-- Takes the longest operator where a greater-than sign is next. -/
def joinGreater : Rule Unit := do
  if ← atMark ">" then replaceToken (lexGreater (← token))

/-- Takes a single angle where an operator that starts with one is next. -/
def splitAngle : Rule Unit := do
  let t ← token
  if t.kind.isOneOf ["<<", "<=", "<<="] then replaceToken (lexOne t "<")
  else if t.kind.isOneOf (greaterMarks.filter (· != ">")) then replaceToken (lexOne t ">")

end Rule

end ImportAtlas.Source
