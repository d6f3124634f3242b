import ImportAtlas.Command.ValuePattern
import ImportAtlas.Source.Identifier.Table
import ImportAtlas.Trim

/-!
# Command/Log — which messages are shown

A message has a level and comes from a part of the program.  A filter is a list of directives; of
those about a message, the most particular one decides: the one with the longest name that starts
the name of the part, and then one that asks for a field.
-/

namespace ImportAtlas

namespace Log

/-- How much a message matters, or up to where messages are shown. -/
inductive Level
  | off
  | error
  | warn
  | info
  | debug
  | trace
deriving DecidableEq, Repr, Inhabited

/-- The place of the level in the order from nothing to everything. -/
def Level.rank : Level → Nat
  | off => 0
  | error => 1
  | warn => 2
  | info => 3
  | debug => 4
  | trace => 5

/-- The levels in that order, with their names. -/
def Level.names : List (String × Level) :=
  [("off", off), ("error", error), ("warn", warn), ("info", info), ("debug", debug),
    ("trace", trace)]

/-- The level with a number, which may be written with a plus sign and with zeros before it. -/
def Level.ofNumber? (text : List Char) : Option Level :=
  let digits := match text with
    | '+' :: digits => digits
    | digits => digits
  if digits.isEmpty || !digits.all Decimal.isDigit then none
  else (names[Decimal.value digits]?).map Prod.snd

/-- The level with a number, or with a name in any case. -/
def Level.ofText? (text : List Char) : Option Level :=
  (ofNumber? text).orElse fun _ => names.lookup (String.ofList (text.map Char.toLower))

/-! ## Messages -/

/-- A message. -/
structure Message where
  level : Level
  /-- The part of the program that it comes from. -/
  origin : String
  text : String
  /-- The names of the values that come with it. -/
  values : List String := []
deriving DecidableEq, Repr, Inhabited

/-- The names of the fields of a message: its text is one of them. -/
def Message.fields (m : Message) : List String := "message" :: m.values

/-! ## Directives -/

/-- Up to which level some messages are shown. -/
structure Directive where
  /-- What the names of the parts start with that the messages come from. -/
  origin : List Char
  /-- The field that the messages have, if the directive asks for one. -/
  field : Option (List Char)
  /-- The directive is about what happens in a span of time with a name, or about the value of a
  field.  There is none of both in the program. -/
  isIdle : Bool
  level : Level
deriving DecidableEq, Repr, Inhabited

/-- The part of a text between two offsets in bytes, if both lie between characters. -/
def slice? (text : List Char) (start stop : Nat) : Option (List Char) :=
  match text with
  | [] => if start = 0 ∧ stop = 0 then some [] else none
  | c :: rest =>
    let size := c.utf8Size
    if stop = 0 then if start = 0 then some [] else none
    else if stop < size then none
    else if start = 0 then (slice? rest 0 (stop - size)).map (c :: ·)
    else if start < size then none
    else slice? rest (start - size) (stop - size)

/-- The number of bytes of a text. -/
def byteLength (text : List Char) : Nat := text.foldl (fun n c => n + c.utf8Size) 0

/-- A character with which the name of a part of the program may start. -/
def isOriginStart (c : Char) : Bool :=
  c.isAlphanum || c == '-' || c == ':' || c == '_'
    || (0x80 ≤ c.toNat && Source.Identifier.isPart c)

/-- What a directive asks for in brackets: a span of time with a name, and a field. -/
structure Scope where
  hasName : Bool := false
  field : Option (List Char) := none
  /-- The field has a certain value. -/
  hasValue : Bool := false

/-- A directive while it is read.  White space around it does not count where its parts are looked
for; but they are cut out of the whole text, so that white space in front shifts them. -/
structure Reading where
  /-- The whole text. -/
  text : List Char
  /-- What is left of it to be looked at. -/
  rest : List Char
  /-- How many bytes have been looked at. -/
  offset : Nat

namespace Reading

/-- Looks at the next characters as long as they are of a kind; what they are cut out of is the
whole text. -/
def takeWhile? (r : Reading) (kind : Char → Bool) : Option (List Char × Reading) := do
  let found := r.rest.takeWhile kind
  let stop := r.offset + byteLength found
  return (← slice? r.text r.offset stop, { r with rest := r.rest.drop found.length, offset := stop })

/-- Looks at the next character, which is the given one. -/
def expect? (r : Reading) (c : Char) : Option Reading :=
  match r.rest with
  | d :: rest => if c = d then some { r with rest := rest, offset := r.offset + c.utf8Size } else none
  | [] => none

/-- All of the text behind what has been looked at. -/
def remainder? (r : Reading) : Option (List Char) := slice? r.text r.offset (byteLength r.text)

/-- Reads the level behind an equals sign, if there is one.  Nothing stands for all messages. -/
def level? (r : Reading) : Option Level :=
  match r.expect? '=' with
  | none => if r.rest = [] then some .trace else none
  | some r =>
    match r.remainder? with
    | none => none
    | some [] => some .trace
    | some level => Level.ofText? level

/-- Reads the scope behind an opening bracket: a name, and a field in braces. -/
def scope? (r : Reading) : Option (Scope × Reading) := do
  let (name, r) ← r.takeWhile? fun c => c != ']' && c != '\x7b'
  match r.expect? ']' with
  | some r => return ({ hasName := true }, r)
  | none =>
    let r ← r.expect? '\x7b'
    let (field, r) ← r.takeWhile? (· != '\x7d')
    if field = [] then none
    let r ← (← r.expect? '\x7d').expect? ']'
    let fieldName := field.takeWhile (· != '=')
    let value := (field.drop (fieldName.length + 1)).takeWhile (· != '=')
    if !ValuePattern.isPattern value then none
    return (⟨name ≠ [], some fieldName, fieldName ≠ field⟩, r)

/-- Reads the rest of a directive about a part of the program. -/
def directive? (r : Reading) (origin : List Char) : Option Directive := do
  let (scope, r) ← match r.expect? '[' with
    | some r => r.scope?
    | none => some ({}, r)
  return ⟨origin, scope.field, scope.hasName || scope.hasValue, ← r.level?⟩

end Reading

/-- The directive that a text is: a level, or the name of a part, a scope and a level, of which at
least one is given. -/
def Directive.parse? (text : List Char) : Option Directive := do
  let core := trim text
  let start : Reading := ⟨text, core, 0⟩
  let first ← core.head?
  if first = '[' then start.directive? []
  else if !isOriginStart first then none
  else
    let (origin, r) ← start.takeWhile? fun c => c != '=' && c != '['
    if r.rest ≠ [] then r.directive? origin
    else match Level.ofText? text with
      | some level => return ⟨[], none, false, level⟩
      | none => return ⟨text, none, false, .trace⟩

/-- Whether the directive is about the message. -/
def Directive.concerns (d : Directive) (m : Message) : Bool :=
  !d.isIdle && d.origin.isPrefixOf m.origin.toList &&
    d.field.all fun f => m.fields.contains (String.ofList f)

/-- Whether the first directive is no more particular than the second, both about one message.  Two
fields are ordered by their names. -/
def Directive.yieldsTo (a b : Directive) : Bool :=
  a.origin.length < b.origin.length || (a.origin.length == b.origin.length &&
    match a.field, b.field with
    | none, _ => true
    | some _, none => false
    | some f, some g => !List.lex g f fun c d => c.toNat < d.toNat)

/-! ## Filters -/

/-- Which messages are shown. -/
abbrev Filter := List Directive

/-- A directive about all messages. -/
def Directive.all (level : Level) : Directive := ⟨[], none, false, level⟩

/-- The filter that a text is.  A text without directives shows errors only. -/
def Filter.parse? (text : String) : Option Filter :=
  match (text.toList.splitOn ',').filter (!·.isEmpty) with
  | [] => some [.all .error]
  | directives => directives.mapM Directive.parse?

/-- The directive that decides about a message: of the most particular ones about it, the last. -/
def Filter.directiveFor? (filter : Filter) (m : Message) : Option Directive :=
  (filter.filter fun d => d.concerns m).foldl
    (fun best d => match best with
      | some b => if b.yieldsTo d then some d else some b
      | none => some d) none

/-- Whether a message is shown. -/
def Filter.shows (filter : Filter) (m : Message) : Bool :=
  (filter.directiveFor? m).any fun d => m.level.rank ≤ d.level.rank

/-- The part of the program that builds graphs. -/
def library : String := "modtree_graph"

/-- The part of the program that carries out commands. -/
def program : String := "modtree_cli"

/-- A filter that shows the messages of all parts up to a level. -/
def Filter.upTo (level : Level) : Filter :=
  [⟨library.toList, none, false, level⟩, ⟨program.toList, none, false, level⟩]

/-- The filter of a command: its flags decide, then a text that the environment holds. -/
def Filter.of (verbose quiet : Bool) (text : Option String) : Filter :=
  if verbose then upTo .debug
  else if quiet then [.all .error]
  else (text.bind Filter.parse?).getD (upTo .info)

end Log

end ImportAtlas
