import ImportAtlas.Source.Grammar.Modifier

/-!
# Source/Grammar/Pattern — what declarations and parameters bind
-/

namespace ImportAtlas.Source.Rule

variable (g : Grammar)

/-- One expression, with `in` as an operator. -/
def assigned : Rule Expr := withIn (g (.assignment true))

/-- A type behind a colon, where types may be written; answers whether there is one. -/
def typeAnnotation : Rule Bool := do
  let found ← if ← typed then eatMark ":" else pure false
  if found then let _ ← g .type
  return found

/-- A default value, if there is one; answers whether there is. -/
def initializer : Rule Bool := do
  let found ← eatMark "="
  if found then let _ ← assigned g
  return found

/-- The name of a property. -/
structure PropertyName where
  /-- The name, where it is written as a word. -/
  word : Option String
  /-- The name, where it is known without running the program. -/
  text : Option String

/-- Reads the name of a property: a word, a literal, or an expression in brackets. -/
def propertyName : Rule PropertyName := do
  match ← kind with
  | .name text _ => advanceName; return ⟨some text, some text⟩
  | .string value _ => advance; return ⟨none, some value⟩
  | .number | .bigint => advance; return ⟨none, none⟩
  | .mark "[" =>
    advance
    let _ ← assigned g
    expectMark "]"
    return ⟨none, none⟩
  | _ => reject

/-- Reads decorators.  None of them ends with an optional property or call. -/
def decorators : Rule Bool :=
  iterate (fun any => do
    if ← eatMark "@" then
      let e ← withReader (fun c => { c with decorator := true }) (g .leftHand)
      flawIf (e.form == .chain)
      return .again true
    else return .done any) false

/-! ## Elements -/

/-- What one element of a pattern or a list of parameters binds. -/
structure Element where
  pattern : Pattern
  hasDefault : Bool

/-- A pattern with its type and a default value. -/
def bindingElement : Rule Element := do
  let p ← g .pattern
  if ← typed then let _ ← eatMark "?"
  let _ ← typeAnnotation g
  return ⟨p, ← initializer g⟩

/-- What is left over, behind three dots: the last element of a pattern, or, with a type, the last
parameter. -/
def restElement (isParameter : Bool) : Rule Element := do
  expectMark "..."
  let p ← g .pattern
  if ← typed then flawIf (← eatMark "?")
  if isParameter then let _ ← typeAnnotation g
  flawIf (← initializer g)
  return ⟨p, false⟩

/-- Reads items with commas between them, the last of which may be a rest element.  Behind that,
only something that is described may have a comma. -/
def withRest (close : String) (isParameter : Bool) (item : Rule (Option Element)) :
    Rule (List Element × Option Element) :=
  iterate (fun (acc, rest, first) => do
    if ← atMark close then return .done (List.reverse acc, rest)
    else
      unless first do expectMark ","
      if !first && (← atMark close) then
        flawIf (rest.isSome && !(← read).ambient)
        return .done (List.reverse acc, rest)
      else
        flawIf rest.isSome
        if ← atMark "..." then
          let r ← restElement g isParameter
          return .again (acc, some r, false)
        else
          let e ← item
          return .again (e.toList ++ acc, rest, false)) ([], none, true)

/-! ## Patterns -/

/-- A property of an object pattern. -/
def bindingProperty : Rule (Option Element) := do
  let k ← kind
  let name ← propertyName g
  match name.word with
  | some word =>
    if k.isBinding && !(← atMark ":") then
      let c ← read
      flawIf ((c.awaits && word == "await") || (c.yields && word == "yield"))
      return some ⟨.name word, ← initializer g⟩
    else
      expectMark ":"
      return some (← bindingElement g)
  | none =>
    expectMark ":"
    return some (← bindingElement g)

/-- The pattern of elements and a rest element. -/
def groupPattern (parts : List Element) (rest : Option Element) : Pattern :=
  .group ((parts ++ rest.toList).map Element.pattern)

/-- A pattern: a name, or an object or array pattern. -/
def pattern : Rule Pattern := do
  match ← kind with
  | .mark "[" =>
    advance
    let (parts, rest) ← withRest g "]" false do
      if ← atMark "," then return none else return some (← bindingElement g)
    expectMark "]"
    return groupPattern parts rest
  | .mark "\x7b" =>
    advance
    let (parts, rest) ← withRest g closeBrace false (bindingProperty g)
    expectMark closeBrace
    flawIf (rest.any fun e => e.pattern.single?.isNone)
    return groupPattern parts rest
  | _ => return .name (← bindingName)

/-! ## Parameters -/

/-- A list of parameters. -/
structure Parameters where
  count : Nat
  hasRest : Bool
  /-- The list starts with a type for `this`. -/
  hasThis : Bool
  /-- A parameter has a default value. -/
  hasDefault : Bool

/-- What parameters belong to. -/
inductive Owner
  /-- A function that is no member of a class. -/
  | function
  | method
  | constructor
deriving DecidableEq

/-- One parameter.  Where types may be written, the members of a class have parameters with
decorators, and a constructor has parameters with modifiers: such a parameter is a member of the
class too, and has a single name. -/
def parameter (owner : Owner) : Rule Element := do
  let typed ← typed
  let decorated ← decorators g
  flawIf (decorated && !(typed && owner != .function))
  let found ← modifiers false false
  let isMember := typed && owner == .constructor
  allowModifiers found (if isMember then "readonly" :: "override" :: accessWords else [])
  let e ← bindingElement g
  flawIf (!found.isEmpty && e.pattern.single?.isNone)
  return e

/-- The parameters of a function, in parentheses. -/
def parameters (owner : Owner) : Rule Parameters := do
  expectMark "("
  let mut hasThis := false
  if (← typed) && (← atWord "this") then
    advance
    let _ ← typeAnnotation g
    unless ← atMark ")" do let _ ← eatMark ","
    hasThis := true
  let (list, rest) ← withRest g ")" true do return some (← parameter g owner)
  expectMark ")"
  return ⟨list.length, rest.isSome, hasThis, list.any Element.hasDefault⟩

end ImportAtlas.Source.Rule
