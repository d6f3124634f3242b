import ImportAtlas.Source.Grammar.Pattern

/-!
# Source/Grammar/TypeExpression — types

Types leave nothing in the tree of a module; a rule only finds where a type ends, and answers its
shape.
-/

namespace ImportAtlas.Source.Rule

variable (g : Grammar)

/-- Runs a rule where a type may be conditional. -/
def allowConditional {α : Type} (r : Rule α) : Rule α :=
  withReader (fun c => { c with noConditional := false }) r

/-- Runs a rule where a type may not be conditional. -/
def denyConditional {α : Type} (r : Rule α) : Rule α :=
  withReader (fun c => { c with noConditional := true }) r

/-- Reads a type. -/
def anyType : Rule Unit := do let _ ← g .type

/-! ## Arguments and parameters of types -/

/-- The types between angles. -/
def typeArgumentList : Rule Unit := do
  expectMark "<"
  let (types, _) ← separated ">" (do anyType g; splitAngle)
  flawIf types.isEmpty
  splitAngle
  expectMark ">"

/-- The types between angles behind something that is no type itself, if any. -/
def plainTypeArguments : Rule Unit := do
  if ← atMark "<" then typeArgumentList g

/-- The type arguments of a named type, if any; an operator that starts with an angle may open
them. -/
def typeArguments : Rule Unit := do
  splitAngle
  plainTypeArguments g

/-- A parameter of a type. -/
def typeParameter : Rule Unit := do
  let found ← modifiers true false
  allowModifiers found ["const", "in", "out"]
  let _ ← bindingName
  if ← eatWord "extends" then anyType g
  if ← eatMark "=" then anyType g
  splitAngle

/-- The parameters of a type, if any; answers whether there are. -/
def typeParameters : Rule Bool := do
  if (← typed) && (← atMark "<") then
    advance
    let (params, _) ← separated ">" (typeParameter g)
    flawIf params.isEmpty
    expectMark ">"
    return true
  else return false

/-! ## Results -/

/-- The words of a type guard before its type: a parameter and `is`. -/
def guardPrefix : Rule Unit := do
  let _ ← anyName
  if (← atWord "is") && !(← onNewLine) then advance else reject

/-- A type, or a guard that gives a parameter a type. -/
def typeOrGuard : Rule Unit := do
  if (← kind).isName then let _ ← attempt guardPrefix
  anyType g

/-- The type of a result behind a colon, where types may be written; answers whether there is
one. -/
def resultType : Rule Bool := do
  let found ← if ← typed then eatMark ":" else pure false
  if found then typeOrGuard g
  return found

/-! ## Function types -/

/-- Skips the start of a parameter; answers whether it could be one. -/
def skipParameterStart : Rule Bool := do
  let _ ← modifiers false false
  let k ← kind
  if k.isBinding || k.isWord "this" then
    advance
    return true
  else if k.isOneOf ["[", openBrace] then
    let before := (← get).flawed
    let _ ← g .pattern
    return (← get).flawed == before
  else return false

/-- Whether a parenthesis opens the parameters of a function type. -/
def opensFunctionType : Rule Bool := ahead false do
  advance
  if ← atOneOf [")", "..."] then return true
  else if ← skipParameterStart g then
    if ← atOneOf [":", ",", "?", "="] then return true
    else if ← eatMark ")" then atMark "=>"
    else return false
  else return false

/-- Whether a function type or a constructor type starts here. -/
def startsFunctionType : Rule Bool := do
  let k ← kind
  if k.isMark "<" || k.isWord "new" then return true
  else if k.isMark "(" then opensFunctionType g
  else if k.isWord "abstract" then behind (atWord "new")
  else return false

/-- A function type or a constructor type.  Its beginning has told what it is, so that any token
may stand for the arrow.  Its result may always be a conditional type. -/
def functionType : Rule Unit := do
  let _ ← eatWord "abstract"
  let isConstructor ← eatWord "new"
  let _ ← typeParameters g
  let p ← parameters g .function
  flawIf (isConstructor && p.hasThis)
  advance
  allowConditional (typeOrGuard g)

/-! ## Members of object types -/

/-- Whether a bracket opens an index signature. -/
def opensIndexSignature : Rule Bool := ahead false do
  unless ← eatMark "[" do return false
  if ← atOneOf ["...", "["] then return true
  let k ← kind
  if modifierWords.any k.isWord then
    advance
    if (← kind).isBinding then return true
  else if !k.isBinding then return false
  else advance
  if ← atOneOf [":", ","] then return true
  if !(← eatMark "?") then return false
  atOneOf [":", ",", "]"]

/-- The end of a member of an object type: a comma, a semicolon, or nothing. -/
def endMember : Rule Unit := do
  unless ← eatMark "," do let _ ← eatMark ";"

/-- An index signature: exactly one parameter with its type, and the type of the members. -/
def indexSignature : Rule Unit := do
  expectMark "["
  let (names, _) ← separated "]" do
    let name ← anyName
    unless ← typeAnnotation g do reject
    return name
  expectMark "]"
  flawIf (names.length != 1)
  unless ← typeAnnotation g do reject
  endMember

/-- The parameters and the result of a signature. -/
def signature : Rule Parameters := do
  let _ ← typeParameters g
  let p ← parameters g .function
  let _ ← resultType g
  return p

/-- A getter takes no parameter; one for the rest of them may stand there. -/
def checkGetter (p : Parameters) : Rule Unit := flawIf (p.count != 0)

/-- A setter takes exactly one parameter and has no result.  Where types may be written, the
parameter has no default value. -/
def checkSetter (p : Parameters) (hasResult : Bool) : Rule Unit := do
  flawIf (p.count != 1 || p.hasRest || hasResult || (p.hasDefault && (← typed)))

/-- The signature of an accessor behind its word; answers whether it has a result. -/
def accessorSignature (found : List String) : Rule Bool := do
  flawIf !found.isEmpty
  let _ ← propertyName g
  let _ ← parameters g .function
  resultType g

/-- A member of an object type. -/
def typeMember : Rule Unit := do
  let k ← kind
  if k.isOneOf ["(", "<"] then
    let _ ← signature g
    endMember
  else if k.isWord "new" && (← behind (atOneOf ["(", "<"])) then
    advance
    let p ← signature g
    flawIf p.hasThis
    endMember
  else
    let found ← modifiers false false
    if ← eatAccessorWord "get" then
      let _ ← accessorSignature g found
      endMember
    else if ← eatAccessorWord "set" then
      flawIf (← accessorSignature g found)
      endMember
    else if ← opensIndexSignature then
      allowModifiers found ["readonly"]
      indexSignature g
    else
      allowModifiers found ["readonly"]
      let _ ← propertyName g
      let _ ← eatMark "?"
      if ← atOneOf ["(", "<"] then
        let _ ← signature g
      else
        let _ ← typeAnnotation g
      endMember

/-- The members of an object type or an interface, in braces. -/
def typeMembers : Rule Unit := do
  expectMark openBrace
  let _ ← untilMark closeBrace (typeMember g)
  expectMark closeBrace

/-- Whether a brace opens a mapped type. -/
def opensMappedType : Rule Bool := ahead false do
  advance
  if ← atOneOf ["+", "-"] then
    advance
    unless ← eatWord "readonly" do return false
  else let _ ← eatWord "readonly"
  unless ← eatMark "[" do return false
  advance
  atWord "in"

/-- A type with one member for each name of another type. -/
def mappedType : Rule Unit := do
  expectMark openBrace
  if ← atOneOf ["+", "-"] then advance; expectWord "readonly"
  else let _ ← eatWord "readonly"
  expectMark "["
  let _ ← bindingName
  expectWord "in"
  anyType g
  if ← eatWord "as" then anyType g
  expectMark "]"
  if ← atOneOf ["+", "-"] then advance; expectMark "?"
  else let _ ← eatMark "?"
  let _ ← typeAnnotation g
  let _ ← eatMark ";"
  expectMark closeBrace

/-! ## The other types -/

/-- Whether the token can start a type. -/
def startsType : Rule Bool := do
  let k ← kind
  match k with
  | .name text _ =>
    return !reservedWords.contains text ||
      ["void", "null", "true", "false", "this", "typeof", "new", "import", "function"].contains text
  | .mark "-" => behind do return (← kind).isNumeric
  | .mark "(" => behind do
    return (← kind).isMark ")" || (← kind).isOneOf ["...", openBrace, "[", "<", "("]
      || (← kind).isName || (← kind).isLiteral || (← kind).isTemplate
  | .mark m => return [openBrace, "[", "<", "|", "&", "?", "..."].contains m
  | .string _ _ | .number | .bigint | .template _ _ => return true
  | _ => return false

/-- The pieces of a template; answers whether every escape in them is well formed.  What stands in
the place of a substitution is read until a brace closes it. -/
def templatePieces (substitution : Rule Unit) : Rule Bool := do
  let first ← kind
  match first with
  | .template continues ok =>
    advance
    if !continues then return ok
    else iterate (fun cooked => do
      substitution
      if ← atMark closeBrace then
        replaceToken (lexTemplatePiece (← token))
        match ← kind with
        | .template more ok =>
          advance
          return if more then .again (cooked && ok) else .done (cooked && ok)
        | _ => reject
      else return .again cooked) ok
  | _ => reject

/-- The rest of a dotted name. -/
def dottedRest : Rule Unit :=
  iterate (fun _ => do
    if ← eatMark "." then
      let _ ← anyName
      return .again ()
    else return .done ()) ()

/-- Type arguments of a named type, unless they stand on a line of their own. -/
def sameLineTypeArguments : Rule Unit := do
  unless ← onNewLine do typeArguments g

/-- A named type. -/
def namedType : Rule Unit := do
  let _ ← anyName
  dottedRest
  sameLineTypeArguments g

/-- A type that is imported in place from a source, with options in braces or without. -/
def importType : Rule Unit := do
  expectWord "import"
  expectMark "("
  unless (← kind).isString do reject
  advance
  if ← eatMark "," then
    unless ← atMark openBrace do reject
    let options ← g .leftHand
    flawIf (options.form != .object)
  expectMark ")"
  dottedRest
  sameLineTypeArguments g

/-- Whether a tuple element with a name starts here. -/
def startsNamedElement : Rule Bool := ahead false do
  let _ ← eatMark "..."
  unless (← kind).isName do return false
  advance
  if ← atMark ":" then return true
  if ← eatMark "?" then atMark ":" else return false

/-- An element of a tuple type.  Behind a name, nothing marks the type itself as optional or as the
rest. -/
def tupleElement : Rule Unit := do
  if ← startsNamedElement then
    let isRest ← eatMark "..."
    let _ ← anyName
    flawIf ((← eatMark "?") && isRest)
    expectMark ":"
    flawIf (← eatMark "...")
    flawIf ((← g .type) == .nullable)
  else
    let _ ← eatMark "..."
    anyType g

/-- The words that are types of their own, unless a point follows. -/
def typeWords : List String :=
  ["any", "unknown", "string", "number", "bigint", "symbol", "boolean", "undefined", "never",
    "object", "null"]

/-- The type behind `is`, if the word is next. -/
def guardedType : Rule Unit := do
  if ← eatWord "is" then anyType g

/-- A type that starts with a word. -/
def wordType (word : String) : Rule Unit := do
  if ["true", "false", "void"].contains word then advance
  else if typeWords.contains word && !(← behind (atMark ".")) then advance
  else if word == "this" then
    advance
    unless ← onNewLine do guardedType g
  else if word == "typeof" then
    advance
    if ← atWord "import" then importType g
    else
      let _ ← anyName
      dottedRest
      unless ← onNewLine do plainTypeArguments g
  else if word == "import" then importType g
  else if word == "asserts" && (← behind do
      let t ← token
      return !t.newline && (t.kind.isBinding || t.kind.isWord "this")) then
    advance
    let _ ← anyName
    guardedType g
  else namedType g

/-- A type without operators; exclamation marks may stand before it. -/
def plainType : Rule TypeForm := do
  iterate (fun _ => do
    if ← eatMark "!" then return .again () else return .done ()) ()
  match ← kind with
  | .string _ _ | .number | .bigint => advance; return .other
  | .template _ _ => flawIf !(← templatePieces (anyType g)); return .other
  | .mark "-" =>
    advance
    if (← kind).isNumeric then advance else reject
    return .other
  | .mark "(" =>
    advance
    anyType g
    expectMark ")"
    return .other
  | .mark "[" =>
    advance
    let _ ← separated "]" (tupleElement g)
    expectMark "]"
    return .sequence
  | .mark "\x7b" =>
    if ← opensMappedType then mappedType g else typeMembers g
    return .other
  | .mark "?" =>
    advance
    unless ← atOneOf [",", closeBrace, ")", ">", "=", "|"] do anyType g
    return .other
  | .name word _ => wordType g word; return .other
  | _ => reject

/-- A type with brackets or marks behind it. -/
def postfixType : Rule TypeForm := do
  let first ← plainType g
  iterate (fun form => do
    if ← onNewLine then return .done form
    match ← kind with
    | .mark "!" => advance; return .again .other
    | .mark "?" =>
      if ← behind startsType then return .done form
      else
        advance
        return .again .nullable
    | .mark "[" =>
      advance
      let isArray ← atMark "]"
      unless isArray do anyType g
      expectMark "]"
      return .again (if isArray then .sequence else .other)
    | _ => return .done form) first

/-- The bound of an inferred type, unless it belongs to a conditional type around it. -/
def inferredBound : Rule Unit := do
  expectWord "extends"
  denyConditional (anyType g)
  if !(← read).noConditional && (← atMark "?") then reject

/-- A type with an operator before it.  Only an array or a tuple is `readonly`. -/
def typeOperator : Rule TypeForm := do
  let k ← kind
  if k.isWordOf ["keyof", "unique", "readonly"] then
    advance
    let form ← g .typeOperator
    flawIf (k.isWord "readonly" && form != .sequence)
    return .other
  else if k.isWord "infer" then
    advance
    let _ ← bindingName
    let _ ← attempt (inferredBound g)
    return .other
  else allowConditional (postfixType g)

/-- Types joined by an operator, which may also stand before the first. -/
def joined (op : String) (part : Rule TypeForm) : Rule TypeForm := do
  let leads ← eatMark op
  let first ← part
  iterate (fun form => do
    if ← eatMark op then
      let _ ← part
      return .again .other
    else return .done form) (if leads then .other else first)

/-- The rest of a conditional type behind the type that is looked at; answers whether there is
one. -/
def conditionalType : Rule Bool := do
  let c ← read
  if c.noConditional || (← onNewLine) then return false
  let found ← eatWord "extends"
  if found then
    denyConditional (anyType g)
    expectMark "?"
    allowConditional (anyType g)
    expectMark ":"
    allowConditional (anyType g)
  return found

/-- A type. -/
def typeExpression : Rule TypeForm := do
  if ← startsFunctionType g then
    functionType g
    return .other
  else
    let form ← joined "|" (joined "&" (g .typeOperator))
    return if ← conditionalType g then .other else form

end ImportAtlas.Source.Rule
