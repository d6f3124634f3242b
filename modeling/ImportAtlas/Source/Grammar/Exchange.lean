import ImportAtlas.Source.Grammar.Declaration

/-!
# Source/Grammar/Exchange — import and export statements
-/

namespace ImportAtlas.Source.Rule

variable (g : Grammar)

/-- A name that is exchanged between modules: a word or a string. -/
structure ExchangedName where
  text : String
  isString : Bool

/-- Whether a name that is exchanged between modules is next. -/
def atExchangedName : Rule Bool := do
  let k ← kind
  return k.isName || k.isString

/-- Reads a name that is exchanged between modules.  A string must not hold half of a surrogate
pair. -/
def exchangedName : Rule ExchangedName := do
  match ← kind with
  | .name text _ =>
    advanceName
    return ⟨text, false⟩
  | .string value lone =>
    flawIf lone
    advance
    return ⟨value, true⟩
  | _ => reject

/-- The source of an import or a re-export. -/
def moduleSource : Rule String := do
  match ← kind with
  | .string value _ =>
    advance
    return value
  | _ => reject

/-- The attributes of an import, each under a key of its own. -/
def importAttributes : Rule Unit := do
  let t ← token
  if t.kind.isWord "with" || (t.kind.isWord "assert" && !t.newline) then
    advance
    expectMark openBrace
    let (keys, _) ← separated closeBrace do
      let key ← match ← kind with
        | .name text _ => advanceName; pure text
        | .string value _ => advance; pure value
        | _ => reject
      expectMark ":"
      let _ ← moduleSource
      return key
    flawIf (keys.eraseDups.length != keys.length)
    expectMark closeBrace

/-- One name of an import or export list: the name on the far side, the name on the near side, and
whether only its type is meant. -/
structure NamePair where
  first : ExchangedName
  second : ExchangedName
  typeOnly : Bool

/-- **Reads one name of a list.**  A first word `type` is a modifier where types may be written,
unless the words behind it use it as a name. -/
def namePair : Rule NamePair := do
  let plain (first : ExchangedName) (typeOnly : Bool) : Rule NamePair := do
    if ← eatWord "as" then return ⟨first, ← exchangedName, typeOnly⟩
    else return ⟨first, first, typeOnly⟩
  let isType ← do pure ((← typed) && (← atWord "type"))
  flawIf (isType && isEscapedWord (← kind))
  let first ← exchangedName
  if !isType then plain first false
  else if ← atWord "as" then
    let firstAs ← exchangedName
    if ← atWord "as" then
      let secondAs ← exchangedName
      if ← atExchangedName then return ⟨firstAs, ← exchangedName, true⟩
      else return ⟨first, secondAs, false⟩
    else if ← atExchangedName then return ⟨first, ← exchangedName, false⟩
    else return ⟨firstAs, firstAs, true⟩
  else if ← atExchangedName then plain (← exchangedName) true
  else plain first false

/-! ## Imports -/

/-- Notes a flaw unless the name can name a binding here. -/
def checkLocalName (n : ExchangedName) : Rule Unit := do
  let c ← read
  flawIf (n.isString || reservedWords.contains n.text || (c.awaits && n.text == "await")
    || (c.yields && n.text == "yield"))

/-- The names in braces of an import. -/
def namedImports (typeOnly : Bool) : Rule (List ImportClause) := do
  expectMark openBrace
  let (pairs, _) ← separated closeBrace do
    let p ← namePair
    flawIf (typeOnly && p.typeOnly)
    checkLocalName p.second
    return ImportClause.listed p.first.text p.second.text
  expectMark closeBrace
  return pairs

/-- Everything that the other module exports, as one object. -/
def namespaceImport : Rule ImportClause := do
  expectMark "*"
  expectWord "as"
  return .starred (← bindingName)

/-- The names of an import behind its default name. -/
def otherImports (typeOnly : Bool) : Rule (List ImportClause) := do
  if ← atMark "*" then return [← namespaceImport]
  else namedImports typeOnly

/-- The source of an import and the end of the statement. -/
def importRest (clauses : List ImportClause) : Rule Item := do
  let source ← moduleSource
  importAttributes
  endStatement
  return .importFrom source clauses

/-- The names of an import that binds any, and the rest of the statement. -/
def importClause (defaultName : Option String) (typeOnly : Bool) : Rule Item := do
  let clauses ← match defaultName with
    | none => otherImports typeOnly
    | some name =>
      if ← eatMark "," then pure (.leading name :: (← otherImports typeOnly))
      else pure [.leading name]
  expectWord "from"
  importRest clauses

/-- Whether `type` behind `import` is a modifier: it is a name before a source, and before the equals
sign of an alias.  Before a comma it stays a modifier, for which there is nothing to modify then:
`import type, { A } from './a'` is refused. -/
def importsTypes : Rule Bool := do
  if ← atWord "from" then behind do return !(← kind).isString
  else return !(← atMark "=")

/-- An import behind its first name, which may turn out to be a modifier. -/
def importNamed (name : String) : Rule Item := do
  let finish (defaultName : Option String) (typeOnly : Bool) : Rule Item := do
    if (← typed) && defaultName.isSome && (← atMark "=") then
      aliasTarget
      return .other
    else importClause defaultName typeOnly
  if name == "type" && (← typed) && (← importsTypes) then
    if ← atIdentifier then finish (some (← bindingName)) true
    else finish none true
  else if name == "source" && (← atIdentifier) && (← behind (atWord "from")) then
    finish (some (← bindingName)) false
  else if name == "defer" && (← atMark "*") then
    let clauses ← otherImports false
    expectWord "from"
    importRest clauses
  else finish (some name) false

/-- An import statement. -/
def importStatement : Rule Item := do
  expectWord "import"
  let k ← kind
  if k.isString then importRest []
  else if k.isBinding then importNamed (← bindingName)
  else importClause none false

/-! ## Exports -/

/-- The words that cannot be exported without a source: they cannot name a binding. -/
def unexportableWords : List String :=
  reservedWords ++ ["await", "yield", "implements", "interface", "package", "private", "protected",
    "public", "static"]

/-- The source of an export list, if there is one.  Without a literal behind it, the word `from` says
nothing. -/
def exportSource : Rule (Option String) := do
  if (← eatWord "from") && (← kind).isLiteral then
    let source ← moduleSource
    importAttributes
    return some source
  else return none

/-- A list of exported names. -/
def exportNames (typeOnly : Bool) : Rule Item := do
  expectMark openBrace
  let (pairs, _) ← separated closeBrace do
    let p ← namePair
    flawIf (typeOnly && p.typeOnly)
    return p
  expectMark closeBrace
  let source ← exportSource
  if source.isNone then
    flawIf (pairs.any fun p => p.first.isString || unexportableWords.contains p.first.text)
  endStatement
  return .exportNames (pairs.map fun p => ⟨p.second.text, p.first.text⟩) source

/-- An export of everything that another module exports. -/
def exportAll : Rule Item := do
  expectMark "*"
  let name ← if ← eatWord "as" then pure (some (← exchangedName).text) else pure none
  expectWord "from"
  let source ← moduleSource
  importAttributes
  endStatement
  return .exportAll name source

/-- A class behind the word `export` and decorators.  Only a class can stand there, so that any word
may stand for `class`. -/
def decoratedClass : Rule (Option String) := do
  let _ ← decorators g
  classModifiers
  advance
  classRest g

/-- Whether a class with the modifier `abstract` starts here. -/
def startsAbstractClass : Rule Bool := do
  if ← atWord "abstract" then
    behind do return (← atWord "class") && !(← onNewLine)
  else return false

/-- A default export: a declaration, whose name is optional, or an expression. -/
def exportDefault (decorated : Bool) : Rule Item := do
  expectWord "default"
  let start ← here
  let declared : Rule Item := do return .exportDefault (.declaration (← since start))
  if ← atMark "@" then
    flawIf decorated
    let _ ← decoratedClass g
    declared
  else if (← atWord "class") || (← startsAbstractClass) then
    classModifiers
    let _ ← wholeClass g
    declared
  else
    flawIf decorated
    if (← atWord "interface") && !(← behind onNewLine) then
      let _ ← interface g
      declared
    else if ← startsFunction then
      let _ ← functionDeclaration g false [] .list
      declared
    else
      let e ← g (.assignment true)
      endStatement
      return .exportDefault (.expression e.span e.form)

/-- What stands behind the word `export` if that is no class with decorators: names, a default, a
declaration, or a module of its own. -/
def exportForm (decorated : Bool) (word : String) : Rule Item := do
  let typed ← typed
  if word == "default" then exportDefault g decorated
  else if typed && word == "as" && (← behind (atWord "namespace")) then
    flawIf decorated
    advance
    advance
    let _ ← anyName
    endStatement
    return .other
  else if typed && word == "type" && (← behind (atOneOf [openBrace, "*"])) then
    flawIf decorated
    advance
    if ← atMark "*" then exportAll else exportNames true
  else
    let found ← if typed then declarationModifiers else pure []
    flawIf (decorated && !(← atWord "class"))
    return .exportDeclared (← declaration g found)

/-- An export statement, with decorators before it or none.  Only a class is decorated, on one side
of the word `export`. -/
def exportStatement (decorated : Bool) : Rule Item := do
  expectWord "export"
  match ← kind with
  | .mark "@" =>
    flawIf decorated
    return .exportDeclared (.class (← decoratedClass g))
  | .name word _ => exportForm g decorated word
  | k =>
    flawIf decorated
    if k.isMark "*" then exportAll
    else if k.isMark openBrace then exportNames false
    else if k.isMark "=" && (← typed) then
      advance
      let _ ← g (.assignment true)
      endStatement
      return .other
    else reject

end ImportAtlas.Source.Rule
