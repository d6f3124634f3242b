import ImportAtlas.Source.Grammar.TypeExpression

/-!
# Source/Grammar/Function — parameters, results and bodies
-/

namespace ImportAtlas.Source.Rule

variable (g : Grammar)

/-- Statements in braces. -/
def block : Rule Unit := do
  expectMark openBrace
  let _ ← untilMark closeBrace (g (.statement .list))
  expectMark closeBrace

/-- The body of a function. -/
def functionBody : Rule Unit := withReader (fun c => { c with returns := true }) (block g)

/-- What stands before the body of a function, and whether there is one. -/
structure Signature extends Parameters where
  /-- There are type parameters. -/
  isGeneric : Bool
  /-- There is a type for the result. -/
  hasResult : Bool
  hasBody : Bool

/-- **A function from its type parameters on.**  Only where types may be written the body may be
missing: such a function is a signature and ends like a statement. -/
def functionRest (isAsync isGenerator : Bool) (owner : Owner) : Rule Signature := do
  let f : Signature ← insideFunction isAsync isGenerator do
    let isGeneric ← typeParameters g
    let params ← parameters g owner
    let hasResult ← resultType g
    let hasBody ← atMark openBrace
    if hasBody then functionBody g
    return ⟨params, isGeneric, hasResult, hasBody⟩
  unless f.hasBody do
    unless ← typed do reject
    endStatement
  return f

/-- A function that is a value, from its type parameters on: it needs a body. -/
def functionValue (isAsync isGenerator : Bool) : Rule Signature := do
  let f ← functionRest g isAsync isGenerator .function
  flawIf !f.hasBody
  return f

/-- Whether a function starts here, with or without `async`. -/
def startsFunction : Rule Bool := do
  let k ← kind
  if k.isWord "function" then return true
  else if k.isWord "async" then behind do
    let t ← token
    return t.kind.isWord "function" && !t.newline
  else return false

/-- A function declaration; one that is only declared has no body.  A name is required unless it is
the default export; but one with type parameters may lack it.  The word `async` may have been read as
one of the modifiers. -/
def functionDeclaration (nameRequired : Bool) (found : List String) (place : Place) :
    Rule (Option String) := do
  let isAsync ← do pure ((← eatWord "async") || found.contains "async")
  expectWord "function"
  let isGenerator ← eatMark "*"
  let name ←
    if (← kind).isBinding then pure (some (← bindingName))
    else do
      flawIf (nameRequired && !(← atMark "<"))
      pure none
  let f ← functionRest g isAsync isGenerator .function
  flawIf (found.contains "declare" && f.hasBody)
  flawIf (place == .alone && (isAsync || isGenerator))
  return name

/-- A function expression. -/
def functionExpression : Rule Unit := do
  let isAsync ← eatWord "async"
  expectWord "function"
  let isGenerator ← eatMark "*"
  if (← kind).isBinding then
    checkOperatorWord isAsync isGenerator
    advanceName
  let _ ← functionValue g isAsync isGenerator

end ImportAtlas.Source.Rule
