import ImportAtlas.Source.Grammar.Symbol

/-!
# Source/Grammar/Modifier — the words before a declaration or a member

A modifier is an ordinary word unless something that it can modify follows it.
-/

namespace ImportAtlas.Source.Rule

/-- The words that can be modifiers. -/
def modifierWords : List String :=
  ["abstract", "accessor", "async", "const", "declare", "default", "export", "in", "public",
    "private", "protected", "readonly", "static", "out", "override"]

/-- The modifiers that say who can see a member. -/
def accessWords : List String := ["public", "private", "protected"]

/-- Whether the token can stand behind `get` or `set` where that announces an accessor. -/
def canFollowAccessorWord (k : TokenKind) : Bool :=
  k.isPropertyName || k.isMark "[" ||
    match k with
    | .privateName _ => true
    | _ => false

/-- Whether the token can stand behind a modifier. -/
def canFollowModifier (k : TokenKind) : Bool :=
  canFollowAccessorWord k || k.isOneOf [openBrace, "*", "..."]

/-- Whether the next token, a word, is used as a modifier here. -/
def isModifier (word : String) (constAllowed : Bool) : Rule Bool := behind do
  let t ← token
  if word == "const" then return constAllowed && !t.newline && canFollowModifier t.kind
  else if word == "static" then return canFollowModifier t.kind
  else return !t.newline && canFollowModifier t.kind

/-- Whether the modifier may not follow those already read: none is repeated, and only one says who
can see a member. -/
def clashes (seen : List String) (word : String) : Bool :=
  seen.contains word || (accessWords.contains word && seen.any accessWords.contains)

/-- Reads modifiers.  In a class, `static` before a brace starts a block and is no modifier. -/
def modifiers (constAllowed inClass : Bool) : Rule (List String) :=
  iterate (fun seen => do
    match ← kind with
    | .name word _ =>
      if !modifierWords.contains word then return .done seen.reverse
      else if word == "static" && (seen.contains "static" ||
          (inClass && (← behind (atMark openBrace)))) then return .done seen.reverse
      else if ← isModifier word constAllowed then
        flawIf (clashes seen word)
        advance
        return .again (word :: seen)
      else return .done seen.reverse
    | _ => return .done seen.reverse) []

/-- Notes a flaw unless all modifiers are among the allowed ones. -/
def allowModifiers (found allowed : List String) : Rule Unit :=
  flawIf (found.any fun w => !allowed.contains w)

/-- Moves past `get` or `set` if it announces an accessor. -/
def eatAccessorWord (word : String) : Rule Bool := do
  if (← atWord word) && (← behind do return canFollowAccessorWord (← kind)) then
    advance
    return true
  else return false

end ImportAtlas.Source.Rule
