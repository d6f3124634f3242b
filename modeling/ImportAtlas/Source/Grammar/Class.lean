import ImportAtlas.Source.Grammar.Function

/-!
# Source/Grammar/Class — classes and their members

The words that say something about a member, and marks such as `?` behind its name, may be written
in every dialect; the types of members only where types may be written.
-/

namespace ImportAtlas.Source.Rule

variable (g : Grammar)

/-! ## Members -/

/-- The modifiers that a class member may have. -/
def memberModifiers : List String :=
  ["declare", "readonly", "abstract", "override", "static", "accessor", "async", "default"]
    ++ accessWords

/-- The name of a class member behind its modifiers.  Where types may be written, a private name
says itself who can see the member. -/
def memberName (found : List String) : Rule PropertyName := do
  match ← kind with
  | .privateName text =>
    flawIf (text == "constructor" || ((← typed) && found.any accessWords.contains))
    advance
    return ⟨none, none⟩
  | _ => propertyName g

/-- No static member is called `prototype`, unless it is only described. -/
def checkStaticName (found : List String) (name : PropertyName) : Rule Unit := do
  let isDescribed ← do pure ((← read).ambient || found.contains "declare")
  flawIf (found.contains "static" && name.text == some "prototype" && !isDescribed)

/-- A block that runs when the class is defined. -/
def staticBlock : Rule Unit := do
  expectWord "static"
  withReader (fun c => { c with awaits := true, yields := false, returns := false }) (block g)

/-- A getter or a setter behind its word. -/
def accessorMember (found : List String) (check : Signature → Rule Unit) : Rule Unit := do
  flawIf (found.any ["async", "declare"].contains)
  let name ← memberName g found
  checkStaticName found name
  flawIf (!found.contains "static" && name.text == some "constructor")
  check (← functionRest g false false .method)

/-- Whether the next token is the name of the constructor. -/
def atConstructorName : Rule Bool := do
  match ← kind with
  | .name text _ => return text == "constructor"
  | .string value _ => return value == "constructor"
  | _ => return false

/-- The constructor behind its modifiers.  It has no decorators. -/
def constructorMember (decorated : Bool) (found : List String) : Rule Unit := do
  flawIf (decorated || found.contains "async")
  advance
  let f ← functionRest g false false .constructor
  flawIf (f.isGeneric || f.hasThis)

/-- The rest of a field that keeps its value behind a getter and a setter. -/
def accessorField (found : List String) (optional : Bool) : Rule Unit := do
  flawIf optional
  allowModifiers found ("accessor" :: "static" :: "abstract" :: "override" :: accessWords)
  let _ ← typeAnnotation g
  if ← eatMark "=" then let _ ← g (.assignment true)
  endStatement

/-- The rest of an ordinary field. -/
def field (isConstructor : Bool) : Rule Unit := do
  flawIf isConstructor
  let _ ← typeAnnotation g
  if ← eatMark "=" then
    let _ ← withReader (fun c => { c with allowIn := true, awaits := false, yields := false })
      (g (.assignment true))
  endStatement

/-- A method or a field behind its modifiers.  A method with decorators needs a body. -/
def methodOrField (decorated : Bool) (found : List String) : Rule Unit := do
  let isGenerator ← eatMark "*"
  let isConstructor ← atConstructorName
  let name ← memberName g found
  let optional ← eatMark "?"
  if isGenerator || (← atOneOf ["(", "<"]) then
    flawIf (found.any ["readonly", "declare", "accessor"].contains)
    flawIf (!found.contains "static" && isConstructor)
    checkStaticName found name
    let f ← functionRest g (found.contains "async") isGenerator .method
    flawIf (decorated && !f.hasBody)
  else
    if !optional && !(← onNewLine) then let _ ← eatMark "!"
    if found.contains "accessor" then accessorField g found optional
    else
      checkStaticName found name
      field g isConstructor

/-- A member of a class. -/
def classMember : Rule Unit := do
  if ← eatMark ";" then return
  let decorated ← decorators g
  let found ← modifiers true true
  if (← atWord "static") && (← behind (atMark openBrace)) then
    flawIf (decorated || !found.isEmpty)
    staticBlock g
  else
    allowModifiers found memberModifiers
    if ← eatAccessorWord "get" then
      accessorMember g found fun f => checkGetter f.toParameters
    else if ← eatAccessorWord "set" then
      accessorMember g found fun f => checkSetter f.toParameters f.hasResult
    else if !found.contains "static" && (← atConstructorName)
        && (← behind (atOneOf ["(", "<"])) then
      constructorMember g decorated found
    else if ← opensIndexSignature then
      flawIf decorated
      allowModifiers found ["readonly", "static"]
      indexSignature g
    else methodOrField g decorated found

/-! ## Classes -/

/-- The classes and interfaces that a class is built on. -/
def heritage : Rule Unit := do
  let _ ← iterate (fun (hasBase, hasInterfaces) => do
    if ← eatWord "extends" then
      flawIf (hasBase || hasInterfaces)
      iterate (fun _ => do
        let _ ← g .leftHand
        plainTypeArguments g
        if ← eatMark "," then return .again () else return .done ()) ()
      return .again (true, hasInterfaces)
    else if ← eatWord "implements" then
      flawIf hasInterfaces
      iterate (fun _ => do
        namedType g
        if ← eatMark "," then return .again () else return .done ()) ()
      return .again (hasBase, true)
    else return .done ()) (false, false)

/-- A class behind its first word; answers its name. -/
def classRest : Rule (Option String) := do
  let k ← kind
  let name ←
    if k.isBinding && !k.isWord "implements" then pure (some (← bindingName))
    else pure none
  let _ ← typeParameters g
  heritage g
  expectMark openBrace
  let _ ← untilMark closeBrace (classMember g)
  expectMark closeBrace
  return name

/-- A class; answers its name. -/
def wholeClass : Rule (Option String) := do
  expectWord "class"
  classRest g

/-- The modifiers of a class that stand behind its decorators. -/
def classModifiers : Rule Unit := do
  allowModifiers (← modifiers false false) ["declare", "abstract"]

end ImportAtlas.Source.Rule
