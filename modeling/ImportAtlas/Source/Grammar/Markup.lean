import ImportAtlas.Source.Grammar.TypeExpression

/-!
# Source/Grammar/Markup — elements written as tags
-/

namespace ImportAtlas.Source.Rule

variable (g : Grammar)

/-- A name inside a tag, which may hold dashes. -/
def markupName : Rule String := do
  unless (← kind).isName do reject
  let s ← get
  replaceToken (lexMarkupName s.token s.rest)
  let t ← token
  advanceName
  return String.ofList (t.here.take (t.span.stop - t.span.start))

/-- The name of an element: one with a namespace, or one with properties, which hold no dashes. -/
def elementName : Rule (List String) := do
  let first ← markupName
  if ← eatMark ":" then return [first, ":", ← markupName]
  else
    iterate (fun acc => do
      if ← eatMark "." then
        let next ← markupName
        flawIf (next.contains '-')
        return .again (next :: "." :: acc)
      else return .done acc.reverse) [first]

/-- The value of an attribute. -/
def attributeValue : Rule Unit := do
  match ← kind with
  | .string _ _ => advance
  | .mark "\x7b" =>
    advance
    if ← atMark closeBrace then flaw
    else let _ ← g .expression
    expectMark closeBrace
  | .mark "<" => let _ ← g .markup
  | _ => reject

/-- An attribute of an element, or a value whose properties are attributes. -/
def markupAttribute : Rule Unit := do
  if ← eatMark openBrace then
    expectMark "..."
    let _ ← g .expression
    expectMark closeBrace
  else
    let _ ← markupName
    if ← eatMark ":" then let _ ← markupName
    if ← atMark "=" then
      advanceWith lexMarkupValue
      attributeValue g

/-- The attributes of an element, up to the end of its tag. -/
def attributes : Rule Unit :=
  iterate (fun _ => do
    if ← atOneOf [">", "/"] then return .done ()
    else
      markupAttribute g
      return .again ()) ()

/-- Moves past the last token of a tag or a child: between tags the text is read differently. -/
def closeTag (m : String) (inChild : Bool) : Rule Unit := do
  unless ← atMark m do reject
  if inChild then advanceWith lexMarkupChild else advance

/-- Moves past a token behind which the children of an element stand. -/
def openChildren (m : String) : Rule Unit := closeTag m true

mutual

/-- The children of an element up to its closing tag, of which the angle and the slash are
consumed; `fuel` bounds their number and depth. -/
def children : Nat → Rule Unit
  | 0 => reject
  | fuel + 1 => do
    match ← kind with
    | .markupText =>
      advanceWith lexMarkupChild
      children fuel
    | .mark "\x7b" =>
      advance
      if ← eatMark "..." then let _ ← g .expression
      else unless ← atMark closeBrace do
        let _ ← g .expression
      openChildren closeBrace
      children fuel
    | .mark "<" =>
      advance
      if ← eatMark "/" then return
      else
        elementRest fuel true
        children fuel
    | _ => reject

/-- An element behind the angle that opens it. -/
def elementRest : Nat → Bool → Rule Unit
  | 0, _ => reject
  | fuel + 1, inChild => do
    if ← atMark ">" then
      openChildren ">"
      children fuel
      closeTag ">" inChild
    else
      let name ← elementName
      if ← typed then plainTypeArguments g
      attributes g
      if ← eatMark "/" then closeTag ">" inChild
      else
        openChildren ">"
        children fuel
        let closing ← elementName
        flawIf (closing != name)
        closeTag ">" inChild

end

/-- An element. -/
def markupElement : Rule Expr := do
  let start ← here
  expectMark "<"
  elementRest g ((← read).size + 8) false
  return ⟨← since start, .other, false, []⟩

end ImportAtlas.Source.Rule
