import ImportAtlas.Source.Grammar.Class
import ImportAtlas.Source.Grammar.Markup

/-!
# Source/Grammar/Expression — operators, calls, literals and arrow functions

A literal in brackets or braces may turn out to be a pattern when `=` follows it; the rule for
assignments judges it then (`asTarget`).
-/

namespace ImportAtlas.Source.Rule

variable (g : Grammar)

/-- The expression from a place to the token just read. -/
def formed (start : Nat) (form : Form) : Rule Expr := do
  return ⟨← since start, form, false, []⟩

/-- Takes an expression as what is assigned to: a literal in brackets or braces is a pattern now,
whatever the operator. -/
def asTarget (e : Expr) : Rule Unit := do
  flawIf !e.isTarget
  modify fun s => { s with defaults := s.defaults.filter fun d => !e.defaults.contains d }

/-! ## Literals -/

/-- An item of an array or object literal, as the rules for patterns see it. -/
inductive LiteralItem
  | hole
  | spread (value : Expr)
  | value (isElement : Bool) (defaults : List Nat)

/-- The item for a value. -/
def LiteralItem.ofExpr (e : Expr) : LiteralItem := .value e.isElement e.defaults

/-- The default values of the item that wait for their literal to be read as a pattern. -/
def LiteralItem.defaults : LiteralItem → List Nat
  | .hole => []
  | .spread e => e.defaults
  | .value _ d => d

/-- Whether the items could be those of a pattern: a spread comes last, with no comma behind it. -/
def LiteralItem.arePattern (restIsTarget : Expr → Bool) (comma : Bool) : List LiteralItem → Bool
  | [] => true
  | [.spread e] => restIsTarget e && !comma
  | .spread _ :: _ => false
  | .hole :: items => arePattern restIsTarget comma items
  | .value ok _ :: items => ok && arePattern restIsTarget comma items

/-- An array literal. -/
def arrayLiteral : Rule Expr := do
  let start ← here
  expectMark "["
  let (items, comma) ← separated "]" do
    if ← atMark "," then return .hole
    else if ← eatMark "..." then return .spread (← assigned g)
    else return .ofExpr (← assigned g)
  expectMark "]"
  return ⟨← since start, .array, LiteralItem.arePattern Expr.isTarget comma items,
    items.flatMap LiteralItem.defaults⟩

/-- A getter or a setter of an object literal behind its word. -/
def objectAccessor (found : List String) (check : Signature → Rule Unit) : Rule LiteralItem := do
  flawIf !found.isEmpty
  let _ ← propertyName g
  check (← functionValue g false false)
  return .value false []

/-- A member of an object literal. -/
def objectMember : Rule LiteralItem := do
  if ← eatMark "..." then return .spread (← assigned g)
  let start ← here
  let found ← modifiers false false
  if ← eatAccessorWord "get" then
    objectAccessor g found fun f => checkGetter f.toParameters
  else if ← eatAccessorWord "set" then
    objectAccessor g found fun f => checkSetter f.toParameters f.hasResult
  else
    let isGenerator ← eatMark "*"
    let isIdentifier ← atIdentifier
    let name ← propertyName g
    if isGenerator || (← atOneOf ["(", "<"]) then
      allowModifiers found ["async"]
      let _ ← functionValue g (found.contains "async") isGenerator
      return .value false []
    else
      flawIf !found.isEmpty
      if isIdentifier && name.word.isSome && !(← atMark ":") then
        if ← eatMark "=" then
          let _ ← assigned g
          modify fun s => { s with defaults := start :: s.defaults }
          return .value true [start]
        else return .value true []
      else
        expectMark ":"
        return .ofExpr (← assigned g)

/-- An object literal. -/
def objectLiteral : Rule Expr := do
  let start ← here
  expectMark openBrace
  let (items, comma) ← separated closeBrace (objectMember g)
  expectMark closeBrace
  return ⟨← since start, .object, LiteralItem.arePattern (fun e => e.form.isTarget) comma items,
    items.flatMap LiteralItem.defaults⟩

/-- A regular expression. -/
def regexLiteral : Rule Expr := do
  let start ← here
  replaceToken (lexRegex (← token))
  advance
  formed start .other

/-- A template that no function is applied to: its escapes have to be well formed. -/
def plainTemplate : Rule Expr := do
  let start ← here
  let cooked ← templatePieces (do let _ ← withIn (g .expression))
  flawIf !cooked
  formed start .other

/-! ## Names, parentheses and imports -/

/-- A name as an expression. -/
def nameExpression : Rule Expr := do
  let start ← here
  match ← kind with
  | .name text _ =>
    if reservedWords.contains text then reject
    else
      checkOperatorWord (← read).awaits (← read).yields
      advanceName
      formed start (.name text)
  | _ => reject

/-- An expression in parentheses. -/
def parenthesized : Rule Expr := do
  let start ← here
  expectMark "("
  let inner ← withIn (g .expression)
  expectMark ")"
  formed start (.paren inner.span inner.form)

/-- The arguments of a call. -/
def arguments : Rule Unit := do
  expectMark "("
  let _ ← separated ")" do
    let _ ← eatMark "..."
    assigned g
  expectMark ")"

/-- What a dynamic import imports. -/
def importArguments : Rule Unit := do
  expectMark "("
  let _ ← assigned g
  if ← eatMark "," then
    unless ← atMark ")" do
      let _ ← assigned g
      let _ ← eatMark ","
  expectMark ")"

/-- A dynamic import, or what is known about the module itself. -/
def importExpression : Rule Expr := do
  let start ← here
  expectWord "import"
  if ← eatMark "." then
    if ← eatWord "meta" then formed start .other
    else
      unless (← kind).isWordOf ["source", "defer"] do reject
      advance
      importArguments g
      formed start .importCall
  else
    importArguments g
    formed start .importCall

/-- `super`, which stands before a property or a call. -/
def superExpression : Rule Expr := do
  let start ← here
  expectWord "super"
  flawIf !(← atOneOf [".", "(", "["])
  formed start .other

/-! ## Type arguments of an expression -/

/-- The level of a binary operator; a higher one binds tighter. -/
def operatorLevel? : TokenKind → Option Nat
  | .mark m =>
    if m == "??" then some 1
    else if m == "||" then some 2
    else if m == "&&" then some 3
    else if m == "|" then some 4
    else if m == "^" then some 5
    else if m == "&" then some 6
    else if ["==", "!=", "===", "!=="].contains m then some 7
    else if ["<", ">", "<=", ">="].contains m then some 8
    else if ["<<", ">>", ">>>"].contains m then some 9
    else if ["+", "-"].contains m then some 10
    else if ["*", "/", "%"].contains m then some 11
    else if m == "**" then some 12
    else none
  | .name w _ => if ["instanceof", "in", "as", "satisfies"].contains w then some 8 else none
  | _ => none

/-- The level of comparisons. -/
def comparisonLevel : Nat := 8

/-- Whether the token can start an expression, as far as type arguments before it depend on it: of
the words that name something, those with a meaning in some places only do not count. -/
def startsExpression : Rule Bool := do
  let k ← kind
  match k with
  | .string _ _ | .number | .bigint | .template _ _ | .privateName _ => return true
  | .mark m =>
    return ["(", "[", openBrace, "/", "/=", "+", "-", "~", "!", "++", "--", "<", "@"].contains m
      || (operatorLevel? k).isSome
  | .name "import" _ => behind (atOneOf ["(", "<", "."])
  | .name w _ =>
    return ["this", "super", "null", "true", "false", "function", "class", "new", "delete",
        "typeof", "void", "await", "yield"].contains w || (operatorLevel? k).isSome
      || !(reservedWords.contains w || contextualWords.contains w)
  | _ => return false

/-- Whether type arguments can end before the next token. -/
def canFollowTypeArguments : Rule Bool := do
  let t ← token
  if t.kind.isMark "(" || t.kind.isTemplate then return true
  else if t.kind.isOneOf ["<", ">", "+", "-"] then return false
  else if t.newline then return true
  else
    let isOperator := (operatorLevel? t.kind).isSome && !(t.kind.isWord "in" && !(← read).allowIn)
    return isOperator || !(← startsExpression)

/-- Type arguments behind an expression. -/
def expressionTypeArguments : Rule Unit := do
  splitAngle
  expectMark "<"
  let (types, _) ← separated ">" (do anyType g; splitAngle)
  flawIf types.isEmpty
  joinGreater
  if ← atMark ">=" then reject
  splitAngle
  expectMark ">"
  unless ← canFollowTypeArguments do reject

/-! ## Properties and calls -/

/-- The name behind a point. -/
def dottedName : Rule Unit := do
  match ← kind with
  | .name _ _ => advanceName
  | .privateName _ => advance
  | _ => reject

/-- An expression in brackets. -/
def indexed : Rule Unit := do
  expectMark "["
  let _ ← withIn (g .expression)
  expectMark "]"

/-- Properties, templates and type arguments behind an expression.  The flag tells whether an
optional property came before. -/
def memberRest (first : Expr) (chained : Bool) : Rule (Expr × Bool) :=
  iterate (fun (e, chain) => do
    let start := e.span.start
    let t ← token
    let inDecorator := (← read).decorator
    match t.kind with
    | .mark "." =>
      advance
      dottedName
      return .again (← formed start .member, chain)
    | .mark "?." =>
      let next ← kindBehind
      if next.isMark "[" && !inDecorator then
        advance
        indexed g
        return .again (← formed start .member, true)
      else if next.isName || (match next with | .privateName _ => true | _ => false) then
        advance
        dottedName
        return .again (← formed start .member, true)
      else if next.isTemplate then reject
      else return .done (e, chain)
    | .mark "[" =>
      if inDecorator then return .done (e, chain)
      else
        indexed g
        return .again (← formed start .member, chain)
    | .mark "!" =>
      if (← typed) && !t.newline then
        advance
        return .again (← formed start (.typed e.form), chain)
      else return .done (e, chain)
    | .template _ _ =>
      flawIf chain
      let _ ← templatePieces (do let _ ← withIn (g .expression))
      return .again (← formed start .other, chain)
    | .mark m =>
      if (← typed) && (m == "<" || m == "<<") then
        match ← attempt (expressionTypeArguments g) with
        | some _ => return .again (← formed start .other, chain)
        | none => return .done (e, chain)
      else return .done (e, chain)
    | _ => return .done (e, chain)) (first, chained)

/-- Properties and calls behind an expression. -/
def callRest (first : Expr) (chained : Bool) : Rule (Expr × Bool) :=
  iterate (fun (e, chain) => do
    let (e, chain) ← memberRest g e chain
    let optional ← eatMark "?."
    if optional && (← typed) && (← atOneOf ["<", "<<"]) then
      let _ ← attempt (expressionTypeArguments g)
    if ← atMark "(" then
      arguments g
      return .again (← formed e.span.start .other, chain || optional)
    else if optional then reject
    else return .done (e, chain)) (first, chained)

/-- `new` and what it is applied to. -/
def newExpression : Rule Expr := do
  let start ← here
  expectWord "new"
  if ← eatMark "." then
    expectWord "target"
    formed start .other
  else
    let callee ← g .callee
    flawIf (callee.form == .importCall)
    if ← atMark "(" then arguments g
    formed start .other

/-- A class behind its decorators. -/
def decoratedClassExpression : Rule Expr := do
  let start ← here
  let _ ← decorators g
  classModifiers
  let _ ← wholeClass g
  formed start .other

/-- An expression without operators, calls and properties. -/
def primary : Rule Expr := do
  let start ← here
  if ← startsFunction then
    functionExpression g
    formed start .other
  else match ← kind with
    | .number | .bigint | .string _ _ =>
      advance
      formed start .other
    | .template _ _ => plainTemplate g
    | .mark "/" | .mark "/=" => regexLiteral
    | .mark "[" => arrayLiteral g
    | .mark "\x7b" => objectLiteral g
    | .mark "(" => parenthesized g
    | .mark "@" => decoratedClassExpression g
    | .mark "<" =>
      unless (← read).markup do reject
      g .markup
    | .name word _ =>
      if ["this", "null", "true", "false"].contains word then
        advance
        formed start .other
      else if word == "class" then
        let _ ← wholeClass g
        formed start .other
      else if word == "super" then superExpression
      else if word == "import" then importExpression g
      else if word == "new" then newExpression g
      else nameExpression
    | _ => reject

/-- What `new` is applied to: properties, but no call, and nothing optional. -/
def callee : Rule Expr := do
  let (e, chain) ← memberRest g (← primary g) false
  flawIf (chain || (← atMark "?."))
  return e

/-- Calls and properties.  Behind an optional property nothing can be assigned to. -/
def leftHand : Rule Expr := do
  let (e, chain) ← callRest g (← primary g) false
  return if chain then { e with form := .chain } else e

/-! ## Operators -/

/-- An operand with an increment or decrement. -/
def updated : Rule Expr := do
  let start ← here
  if ← atOneOf ["++", "--"] then
    advance
    flawIf !(← g .unary).form.isTarget
    formed start .other
  else if (← read).markup && (← atMark "<") then g .markup
  else
    let e ← g .leftHand
    if (← atOneOf ["++", "--"]) && !(← onNewLine) then
      flawIf !e.form.isTarget
      advance
      formed start .other
    else return e

/-- Whether the word `await` or `yield`, where it is no operator, has what looks like an operand: a
literal or a word on its line, other than an operator. -/
def hasStrayOperand : Rule Bool := behind do
  let t ← token
  return !t.newline && (t.kind.isLiteral || t.kind.isName) && !t.kind.isWordOf ["in", "instanceof"]

/-- Whether the word is next and stands before an operand.  Where it is no operator, that is a
flaw. -/
def atOperatorWord (word : String) (isOperator : Bool) : Rule Bool := do
  if !(← atWord word) then return false
  else if isOperator then return true
  else
    let stray ← hasStrayOperand
    flawIf stray
    return stray

/-- An operand with operators before it. -/
def unary : Rule Expr := do
  let start ← here
  let k ← kind
  if k.isOneOf ["+", "-", "~", "!"] || k.isWordOf ["delete", "typeof", "void"]
      || (← atOperatorWord "await" (← read).awaits) then
    advance
    let _ ← g .unary
    formed start .unary
  else if k.isMark "<" && !(← read).markup then
    unless ← typed do reject
    advance
    anyType g
    splitAngle
    expectMark ">"
    let e ← g .unary
    formed start (.typed e.form)
  else updated g

/-- Operands joined by operators that bind tighter than the level.  An operand of `??` is not joined
by `&&` or `||`, and one of `**` on its left has no operator before it, unless it starts with a
parenthesis: for those on the left, `parens` tells whether the first does. -/
def binaryRest (level : Nat) (parens : Bool) (first : Expr) : Rule Expr :=
  iterate (fun left => do
    joinGreater
    let k ← kind
    let start := left.span.start
    match operatorLevel? k with
    | none => return .done left
    | some l =>
      if (if k.isMark "**" then l < level else l ≤ level) then return .done left
      else if k.isWord "in" && !(← read).allowIn then return .done left
      else if k.isWordOf ["as", "satisfies"] then
        if !(← typed) || (← onNewLine) then return .done left
        else
          advance
          anyType g
          return .again (← formed start (.typed left.form))
      else
        advance
        let rightParens ← atMark "("
        let right ← g (.binary l)
        let isMixed := (right.form == .logical && !rightParens)
          || (left.form == .logical && !parens)
        flawIf (k.isMark "??" && isMixed)
        flawIf (k.isMark "**" && left.form == .unary && !parens)
        return .again (← formed start (if k.isOneOf ["&&", "||"] then .logical else .other))) first

/-- Operands joined by operators that bind tighter than the level; the first may be a private name
that is looked for in the next. -/
def binary (level : Nat) : Rule Expr := do
  let start ← here
  let parens ← atMark "("
  match ← kind with
  | .privateName _ =>
    unless (← read).allowIn do reject
    advance
    expectWord "in"
    let right ← g (.binary comparisonLevel)
    flawIf (right.form == .privateTest)
    binaryRest g level parens (← formed start .privateTest)
  | _ => binaryRest g level parens (← unary g)

/-- The assignment operators. -/
def assignmentMarks : List String :=
  ["=", "+=", "-=", "*=", "/=", "%=", "**=", "<<=", ">>=", ">>>=", "&=", "|=", "^=", "&&=", "||=",
    "??="]

/-- `yield` and its value. -/
def yieldExpression : Rule Expr := do
  let start ← here
  expectWord "yield"
  unless ← onNewLine do
    let delegates ← eatMark "*"
    let k ← kind
    let isEnd := k.isOneOf [";", closeBrace, ")", "]", ":", ","] || k.isWord "in" || k == .endOfText
    if delegates || !isEnd then let _ ← g (.assignment true)
  formed start .other

/-! ## Arrow functions -/

/-- Whether an arrow function starts at a place. -/
inductive Guess
  | no
  | yes
  | maybe
deriving DecidableEq

/-- Judges by the first tokens behind an opening parenthesis. -/
def guessParameters : Rule Guess := do
  let second ← kind
  if second.isMark ")" then
    advance
    return if ← atOneOf ["=>", ":", openBrace] then .yes else .no
  else if second.isOneOf ["[", openBrace] then return .maybe
  else if second.isMark "..." then return .yes
  else
    advance
    let third ← kind
    if modifierWords.any second.isWord && !second.isWord "async" && third.isName
        && !third.isWordOf reservedWords then
      return if third.isWord "as" then .no else .yes
    else if !second.isBinding && !second.isWord "this" then return .no
    else if third.isMark ":" then return .yes
    else if third.isMark "?" then
      advance
      return if ← atOneOf [":", ",", "=", ")"] then .yes else .no
    else if third.isOneOf [",", "=", ")"] then return .maybe
    else return .no

/-- Judges by the first tokens behind an opening angle. -/
def guessTypeParameters : Rule Guess := do
  let second ← kind
  if !second.isBinding && !second.isWord "const" then return .no
  else if (← read).markup then
    let _ ← eatWord "const"
    advance
    if ← eatWord "extends" then
      if ← atOneOf ["=", ">", "/"] then return .no
      else return if (← kind).isBinding then .maybe else .yes
    else return if ← atOneOf [",", "="] then .yes else .no
  else return .maybe

/-- Whether an arrow function with parameters in parentheses starts here, as far as the first
tokens tell. -/
def guessArrow : Rule Guess := do
  let k ← kind
  if k.isMark "=>" then return .yes
  else if k.isOneOf ["<", "("] || k.isWord "async" then ahead .no do
    if ← eatWord "async" then
      if ← onNewLine then return .no
    if ← eatMark "(" then guessParameters
    else if ← eatMark "<" then guessTypeParameters
    else return .no
  else return .no

/-- The start of an arrow function with parameters in parentheses. -/
structure ArrowHead where
  isAsync : Bool
  hasType : Bool

/-- Reads an arrow function up to the arrow. -/
def arrowHead : Rule ArrowHead := do
  let isAsync ← eatWord "async"
  let (params, hasType) ← withReader (fun c => { c with awaits := c.awaits || isAsync }) do
    let _ ← typeParameters g
    let params ← parameters g .function
    return (params, ← resultType g)
  flawIf params.hasThis
  flawIf (← onNewLine)
  expectMark "=>"
  return ⟨isAsync, hasType⟩

/-- The body of an arrow function: a block, or one expression. -/
def arrowBody (isAsync resultAllowed : Bool) : Rule Unit :=
  withReader (fun c => { c with awaits := isAsync, yields := false }) do
    if ← atMark openBrace then withReader (fun c => { c with allowIn := true }) (functionBody g)
    else let _ ← g (.assignment resultAllowed)

/-- An arrow function that may turn out to be something else: then nothing has been read. -/
def possibleArrow (resultAllowed : Bool) : Rule (Option Expr) := do
  let start ← here
  let before ← get
  if before.notArrows.contains start then return none
  match ← attempt (arrowHead g) with
  | none =>
    modify fun s => { s with notArrows := start :: s.notArrows }
    return none
  | some head =>
    arrowBody g head.isAsync resultAllowed
    if !resultAllowed && head.hasType && !(← atMark ":") then
      set before
      return none
    else return some (← formed start .other)

/-- An arrow function with parameters in parentheses. -/
def parenthesizedArrow (resultAllowed : Bool) : Rule (Option Expr) := do
  match ← guessArrow with
  | .no => return none
  | .maybe => possibleArrow g resultAllowed
  | .yes =>
    let start ← here
    let head ← arrowHead g
    arrowBody g head.isAsync resultAllowed
    return some (← formed start .other)

/-- The rest of an arrow function with a single bare parameter. -/
def simpleArrowRest (start : Nat) (isAsync resultAllowed : Bool) : Rule Expr := do
  flawIf (← onNewLine)
  expectMark "=>"
  arrowBody g isAsync resultAllowed
  formed start .other

/-- Whether an asynchronous arrow function with a bare parameter starts here. -/
def startsAsyncArrow : Rule Bool := do
  if ← atWord "async" then behind do
    let t ← token
    if t.newline || !t.kind.isBinding then return false
    advanceName
    return (← atMark "=>") && !(← onNewLine)
  else return false

/-- The rest of an expression that may be conditional. -/
def conditionalRest (condition : Expr) (resultAllowed : Bool) : Rule Expr := do
  if ← eatMark "?" then
    let _ ← withIn (g (.assignment false))
    expectMark ":"
    let _ ← g (.assignment resultAllowed)
    formed condition.span.start .other
  else return condition

/-- One expression: an arrow function, an assignment, or a condition with two branches. -/
def assignment (resultAllowed : Bool) : Rule Expr := do
  let start ← here
  if ← atOperatorWord "yield" (← read).yields then yieldExpression g
  else if let some arrow ← parenthesizedArrow g resultAllowed then return arrow
  else if ← startsAsyncArrow then
    advance
    checkOperatorWord true false
    advanceName
    simpleArrowRest g start true resultAllowed
  else
    let left ← g (.binary 0)
    match left.form, ← kind with
    | .name _, .mark "=>" => simpleArrowRest g start false resultAllowed
    | _, .mark m =>
      if assignmentMarks.contains m then
        asTarget left
        advance
        let _ ← g (.assignment resultAllowed)
        formed start (.assignment (left.form.bareSpan left.span) (m == "="))
      else conditionalRest g left resultAllowed
    | _, _ => conditionalRest g left resultAllowed

/-- Expressions with commas between them. -/
def expression : Rule Expr := do
  let first ← g (.assignment true)
  if ← atMark "," then
    iterate (fun _ => do
      if ← eatMark "," then
        let _ ← g (.assignment true)
        return .again ()
      else return .done ()) ()
    formed first.span.start .other
  else return first

end ImportAtlas.Source.Rule
