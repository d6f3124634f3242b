import ImportAtlas.Source.Grammar.Exchange

/-!
# Source/Grammar/Statement — statements
-/

namespace ImportAtlas.Source.Rule

variable (g : Grammar)

/-- An expression in parentheses that belongs to a statement. -/
def condition : Rule Unit := do
  expectMark "("
  let _ ← withIn (g .expression)
  expectMark ")"

/-- The statement that a loop or a branch runs. -/
def body : Rule Unit := do
  let _ ← g (.statement .alone)

/-- A branch. -/
def ifStatement : Rule Unit := do
  expectWord "if"
  condition g
  body g
  if ← eatWord "else" then body g

/-- A loop with its condition behind its body. -/
def doStatement : Rule Unit := do
  expectWord "do"
  body g
  expectWord "while"
  condition g
  let _ ← eatMark ";"

/-- A loop with its condition before its body, or a block with an object's properties in scope. -/
def whileStatement : Rule Unit := do
  advance
  condition g
  body g

/-- The rest of a loop with three parts, from the first semicolon on. -/
def forRest (isAwait : Bool) : Rule Unit := do
  flawIf isAwait
  expectMark ";"
  unless ← atMark ";" do
    let _ ← withIn (g .expression)
  expectMark ";"
  unless ← atMark ")" do
    let _ ← withIn (g .expression)
  expectMark ")"
  body g

/-- The rest of a loop over the members of a value, from `in` or `of` on. -/
def forEachRest (isAwait : Bool) : Rule Unit := do
  if ← eatWord "in" then
    flawIf isAwait
    let _ ← withIn (g .expression)
  else
    expectWord "of"
    let _ ← assigned g
  expectMark ")"
  body g

/-- The rest of a loop behind the variables it declares.  Resources need no value here; but they are
not looked for in a value's members by name. -/
def forDeclared (isAwait isUsing : Bool) (found : Variables) : Rule Unit := do
  if (← kind).isWordOf ["in", "of"] then
    flawIf (isUsing && (← atWord "in"))
    forEachRest g isAwait
  else
    flawIf (found.lacksValue && !isUsing && !(← read).ambient)
    forRest g isAwait

/-- A loop. -/
def forStatement : Rule Unit := do
  expectWord "for"
  let isAwait ← atWord "await"
  if isAwait then
    flawIf !(← read).awaits
    advance
  expectMark "("
  let k ← kind
  if k.isMark ";" then forRest g isAwait
  else if k.isWord "var" || k.isWord "const" || (k.isWord "let" && (← startsLoopLet)) then
    forDeclared g isAwait false (← withoutIn (variableList g))
  else if ← startsUsing then
    forDeclared g isAwait true (← withoutIn (usingList g))
  else
    let startsAsyncOf ← behind (atWord "of")
    let e ← withoutIn (g .expression)
    if (← kind).isWordOf ["in", "of"] then
      flawIf ((← atWord "of") && !isAwait && startsAsyncOf && k == .name "async" false)
      asTarget e
      forEachRest g isAwait
    else forRest g isAwait

/-- `break` and `continue`. -/
def jumpStatement : Rule Unit := do
  advance
  unless ← canEndStatement do
    let _ ← bindingName
  endStatement

/-- `return`. -/
def returnStatement : Rule Unit := do
  flawIf !(← read).returns
  advance
  unless ← canEndStatement do
    let _ ← withIn (g .expression)
  endStatement

/-- A choice between cases.  No resource is declared directly in one of them. -/
def switchStatement : Rule Unit := do
  expectWord "switch"
  condition g
  expectMark openBrace
  let _ ← untilMark closeBrace do
    if ← eatWord "case" then let _ ← withIn (g .expression)
    else expectWord "default"
    expectMark ":"
    iterate (fun _ => do
      if (← atMark closeBrace) || (← kind).isWordOf ["case", "default"] then return .done ()
      else
        flawIf (← startsUsing)
        let _ ← g (.statement .list)
        return .again ()) ()
  expectMark closeBrace

/-- `throw`. -/
def throwStatement : Rule Unit := do
  expectWord "throw"
  flawIf (← onNewLine)
  let _ ← withIn (g .expression)
  endStatement

/-- A block whose errors are handled. -/
def tryStatement : Rule Unit := do
  expectWord "try"
  block g
  let caught ← eatWord "catch"
  if caught then
    if ← eatMark "(" then
      let _ ← g .pattern
      let _ ← typeAnnotation g
      expectMark ")"
    block g
  let finished ← eatWord "finally"
  if finished then block g
  flawIf !(caught || finished)

/-- An expression as a statement, or a statement with a label. -/
def expressionStatement : Rule Unit := do
  let e ← g .expression
  match e.form, ← kind with
  | .name _, .mark ":" =>
    advance
    body g
  | _, _ => endStatement

/-- Declarations that are not allowed alone. -/
def listed (place : Place) (r : Rule Declaration) : Rule Unit := do
  flawIf (place == .alone)
  let _ ← r

/-- Whether the token joins two operands, `&&`, `||` and `??` apart. -/
def isArithmetic (k : TokenKind) : Bool :=
  k.isWordOf ["in", "instanceof"] ||
    (!k.isName && (operatorLevel? k).isSome && !k.isOneOf ["&&", "||", "??"])

/-- A statement that starts with the word `let`, by the token behind it.  The word is a name before
an operator, a point or a parenthesis, and where it stands for a whole statement; else it declares
variables.  What it starts needs an end like every statement, unless a point or a parenthesis is
next. -/
def letStatement (place : Place) : Rule Unit := do
  let next ← kindBehind
  if next.isOneOf assignmentMarks || isArithmetic next then
    let _ ← g (.assignment true)
    endStatement
  else if next.isOneOf [".", "("] then
    let _ ← g .expression
  else if next.isMark ";" || (place == .alone && !next.isMark "[") then
    let _ ← nameExpression
    endStatement
  else listed place (declaration g [])

/-- A statement that starts with a word. -/
def wordStatement (place : Place) (word : String) : Rule Item := do
  let other (r : Rule Unit) : Rule Item := do r; return .other
  if word == "if" then other (ifStatement g)
  else if word == "do" then other (doStatement g)
  else if word == "while" || word == "with" then other (whileStatement g)
  else if word == "for" then other (forStatement g)
  else if word == "break" || word == "continue" then other jumpStatement
  else if word == "return" then other (returnStatement g)
  else if word == "switch" then other (switchStatement g)
  else if word == "throw" then other (throwStatement g)
  else if word == "try" then other (tryStatement g)
  else if word == "debugger" then other do advance; endStatement
  else if word == "export" then exportStatement g false
  else if word == "import" then
    if ← behind (atOneOf ["(", "."]) then other (expressionStatement g)
    else importStatement
  else if word == "class" then other (listed place (declaration g []))
  else if ← startsFunction then other do let _ ← functionDeclaration g true [] place
  else if word == "var" then other do let _ ← declaration g []
  else if word == "const" then other (listed place (declaration g []))
  else if (← kind) == .name "let" false then other (letStatement g place)
  else if ← startsUsing then other (listed place (usingDeclaration g))
  else if (← typed) && (← startsTypedDeclaration) then other do let _ ← typedDeclaration g
  else other (expressionStatement g)

/-- A class behind its decorators, or an export statement with decorators before it. -/
def decoratedStatement (place : Place) : Rule Item := do
  let _ ← decorators g
  if ← atWord "export" then exportStatement g true
  else
    flawIf (place == .alone)
    classModifiers
    let _ ← wholeClass g
    return .other

/-- A statement. -/
def statement (place : Place) : Rule Item := do
  match ← kind with
  | .mark "\x7b" =>
    block g
    return .other
  | .mark ";" =>
    advance
    return .other
  | .mark "@" => decoratedStatement g place
  | .name word _ => wordStatement g place word
  | _ =>
    expressionStatement g
    return .other

end ImportAtlas.Source.Rule
