import ImportAtlas.Source.Grammar.Expression

/-!
# Source/Grammar/Declaration — what introduces names

Every declaration answers the names it introduces.
-/

namespace ImportAtlas.Source.Rule

variable (g : Grammar)

/-! ## Variables -/

/-- One variable with its type; answers whether it has a value.  An exclamation mark says that a
variable will have one: then there is a type and no value. -/
def declarator : Rule (Pattern × Bool) := do
  let p ← g .pattern
  let isDefinite ← do
    if (← typed) && p.single?.isSome && !(← onNewLine) then eatMark "!" else pure false
  if ← typed then flawIf (← eatMark "?")
  let hasType ← typeAnnotation g
  let hasValue ← eatMark "="
  if hasValue then let _ ← g (.assignment true)
  flawIf (isDefinite && (!hasType || hasValue))
  return (p, hasValue)

/-- The variables of a declaration. -/
structure Variables where
  patterns : List Pattern
  /-- A pattern or a constant has no value. -/
  lacksValue : Bool

/-- Variables with commas between them. -/
def declarators (isConstant : Bool) : Rule Variables :=
  iterate (fun (found : Variables) => do
    let (p, hasValue) ← declarator g
    let lacks := found.lacksValue || (!hasValue && (isConstant || p.single?.isNone))
    if ← eatMark "," then return .again ⟨p :: found.patterns, lacks⟩
    else return .done ⟨(p :: found.patterns).reverse, lacks⟩) ⟨[], false⟩

/-- Variables with the word that declares them. -/
def variableList : Rule Variables := do
  let isConstant ← atWord "const"
  advance
  declarators g isConstant

/-- A declaration of variables as a statement. -/
def variableDeclaration : Rule Declaration := do
  let found ← variableList g
  flawIf (found.lacksValue && !(← read).ambient)
  endStatement
  return .values found.patterns

/-- Whether a resource declaration starts here: `using` and a name on the same line. -/
def startsUsing : Rule Bool := do
  let usingName (isAwaited : Bool) : Rule Bool := do
    if ← atWord "using" then behind do
      let t ← token
      return t.kind.isBinding && !t.newline && (isAwaited || !t.kind.isWord "of")
    else return false
  if ← atWord "await" then behind do
    if ← onNewLine then return false else usingName true
  else usingName false

/-- Resources, each with a name of its own. -/
def usingList : Rule Variables := do
  let _ ← eatWord "await"
  expectWord "using"
  let found ← declarators g true
  flawIf (found.patterns.any fun p => p.single?.isNone)
  return found

/-- A declaration of resources as a statement. -/
def usingDeclaration : Rule Declaration := do
  let found ← usingList g
  flawIf found.lacksValue
  endStatement
  return .values found.patterns

/-- Whether `let` starts the declaration of a loop here. -/
def startsLoopLet : Rule Bool := behind do
  let k ← kind
  return k.isOneOf ["[", openBrace] || (k.isName && !k.isWordOf ["in", "instanceof"])

/-! ## Declarations of types and namespaces -/

/-- A name for a type, which may be one that only the compiler knows. -/
def typeAlias : Rule Declaration := do
  expectWord "type"
  let name ← bindingName
  let _ ← typeParameters g
  expectMark "="
  if (← atWord "intrinsic") && !(← behind (atMark ".")) then advance else anyType g
  endStatement
  return .typeAlias name

/-- An interface; each of those it extends is a name, or a name in a namespace. -/
def interface : Rule Declaration := do
  expectWord "interface"
  let name ← bindingName
  let _ ← typeParameters g
  if ← eatWord "extends" then
    iterate (fun _ => do
      let _ ← bindingName
      dottedRest
      plainTypeArguments g
      if ← eatMark "," then return .again () else return .done ()) ()
  typeMembers g
  return .interface name

/-- A member of an enumeration. -/
def enumMember : Rule Unit := do
  match ← kind with
  | .name _ _ => advanceName
  | .string _ _ => advance
  | .mark "[" =>
    advance
    match ← kind with
    | .string _ _ | .template false _ => advance
    | _ => reject
    expectMark "]"
  | _ => reject
  if ← eatMark "=" then let _ ← assigned g

/-- An enumeration. -/
def enumeration : Rule Declaration := do
  expectWord "enum"
  let name ← bindingName
  expectMark openBrace
  let _ ← separated closeBrace (enumMember g)
  expectMark closeBrace
  return .enumeration name

/-- The statements of a namespace. -/
def namespaceBody : Rule Unit :=
  withReader (fun c => { c with returns := false }) (block g)

/-- A namespace, or a description of another module. -/
def namespaceDeclaration : Rule Declaration := do
  if ← eatWord "global" then
    namespaceBody g
    return .namespace none
  let isModule ← atWord "module"
  advance
  match ← kind with
  | .string _ _ =>
    unless isModule do reject
    advance
    if ← atMark openBrace then namespaceBody g else endStatement
    return .namespace none
  | _ =>
    let name ← bindingName
    iterate (fun _ => do
      if ← eatMark "." then
        let _ ← bindingName
        return .again ()
      else return .done ()) ()
    namespaceBody g
    return .namespace (some name)

/-- What stands behind the equals sign of an alias: another module, or an entity of a namespace. -/
def aliasTarget : Rule Unit := do
  expectMark "="
  if ← eatWord "require" then
    expectMark "("
    unless (← kind).isString do reject
    advance
    expectMark ")"
  else
    let _ ← anyName
    dottedRest
  endStatement

/-! ## Declarations in general -/

/-- The modifiers before a declaration.  The word `async` directly before a function belongs to
it. -/
def declarationModifiers : Rule (List String) :=
  iterate (fun found => do
    match ← kind with
    | .name word _ =>
      if ["declare", "abstract", "async"].contains word && !(← startsFunction)
          && (← isModifier word false) then
        flawIf (clashes found word)
        advance
        return .again (word :: found)
      else return .done found.reverse
    | _ => return .done found.reverse) []

/-- The modifiers that a declaration may have, by the word behind them. -/
def modifiersOf (k : TokenKind) : List String :=
  if k.isWord "class" then ["declare", "abstract"]
  else if k.isWordOf ["function", "async"] then ["declare", "async"]
  else ["declare"]

/-- The words that can start a declaration that concerns types. -/
def declarationWords : List String :=
  ["interface", "type", "module", "namespace", "declare", "enum", "private", "protected", "public",
    "abstract", "accessor", "async", "static", "readonly", "global"]

/-- Whether the token is a word without any meaning of its own. -/
def isPlainName : TokenKind → Bool
  | .name text _ => !(reservedWords.contains text || contextualWords.contains text)
  | _ => false

/-- Whether a declaration that concerns types starts here. -/
def startsTypedDeclaration : Rule Bool := ahead false do
  unless (← kind).isWordOf declarationWords do return false
  iterate (fun _ => do
    let k ← kind
    match k with
    | .name word _ =>
      if ["var", "let", "const", "function", "class", "enum"].contains word then
        return .done true
      else
        advance
        let t ← token
        if ["interface", "type"].contains word then
          return .done (t.kind.isBinding && !t.newline)
        else if ["module", "namespace"].contains word then
          return .done (!t.newline && (t.kind.isBinding || t.kind.isString))
        else if ["abstract", "accessor", "async", "declare", "private", "protected", "public",
            "readonly"].contains word then
          if t.newline then return .done false else return .again ()
        else if word == "global" then
          return .done (t.kind.isMark openBrace || t.kind.isWord "export" || isPlainName t.kind)
        else if word == "import" then
          return .done (t.kind.isString || t.kind.isOneOf ["*", openBrace] || t.kind.isName)
        else if word == "static" then return .again ()
        else return .done false
    | _ => return .done false) ()

/-- A declaration behind its modifiers. -/
def declaration (found : List String) : Rule Declaration := do
  let k ← kind
  allowModifiers found (modifiersOf k)
  let body : Rule Declaration := do
    match k with
    | .name word _ =>
      if ["var", "let", "const"].contains word then
        if word == "const" && (← typed) && (← behind (atWord "enum")) then
          advance
          enumeration g
        else variableDeclaration g
      else if ← startsFunction then
        return .function (← functionDeclaration g true found .list)
      else if word == "class" then return .class (← wholeClass g)
      else if !(← typed) then reject
      else if word == "type" then typeAlias g
      else if word == "interface" then interface g
      else if word == "enum" then enumeration g
      else if ["module", "namespace", "global"].contains word then namespaceDeclaration g
      else if word == "import" then
        advance
        if (← atWord "type") && (← behind do return (← kind).isBinding) then advance
        let name ← bindingName
        aliasTarget
        return .importAlias name
      else reject
    | _ => reject
  if found.contains "declare" then withReader (fun c => { c with ambient := true }) body else body

/-- A declaration that concerns types, as a statement of its own.  `await` is no operator in it. -/
def typedDeclaration : Rule Declaration := do
  let found ← declarationModifiers
  withReader (fun c => { c with awaits := found.contains "async" }) (declaration g found)

end ImportAtlas.Source.Rule
