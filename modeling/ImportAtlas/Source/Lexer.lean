import ImportAtlas.Source.Identifier.Table
import ImportAtlas.Source.Token

/-!
# Source/Lexer — from characters to the next token

`lex` reads one token: it skips blanks and comments, then takes the longest token that starts
there.  A malformed token is still a token; `sound` says that it was well formed.  Greater-than
signs are read one at a time, and `/` is always an operator here: the grammar reads the longer
operators and the regular expressions where it allows them (`lexGreater`, `lexRegex`).
-/

namespace ImportAtlas.Source

/-! ## Blanks and comments -/

/-- The characters that end a line. -/
def isLineEnd (c : Char) : Bool := c == '\n' || c == '\r' || c == '\u2028' || c == '\u2029'

/-- The characters that separate tokens within a line. -/
def isBlank (c : Char) : Bool :=
  c == ' ' || c == '\t' || c == '\x0b' || c == '\x0c' || c == '\u0085' || c == '\u00a0' ||
    c == '\u1680' || ('\u2000' ≤ c && c ≤ '\u200b') || c == '\u202f' || c == '\u205f' ||
    c == '\u3000' || c == '\ufeff'

/-- What the skipped text is part of. -/
inductive Gap
  | code
  | lineComment
  | blockComment

/-- Where a gap between tokens ends. -/
structure GapEnd where
  rest : List Char
  offset : Nat
  newline : Bool
  /-- No comment is left open. -/
  sound : Bool

/-- Skips blanks and comments. -/
def skipGap : List Char → Gap → Nat → Bool → GapEnd
  | [], g, n, l => ⟨[], n, l, match g with | .blockComment => false | _ => true⟩
  | '/' :: '/' :: r, .code, n, l => skipGap r .lineComment (n + 2) l
  | '/' :: '*' :: r, .code, n, l => skipGap r .blockComment (n + 2) l
  | '*' :: '/' :: r, .blockComment, n, l => skipGap r .code (n + 2) l
  | c :: r, .code, n, l =>
    if isLineEnd c then skipGap r .code (n + 1) true
    else if isBlank c then skipGap r .code (n + 1) l
    else ⟨c :: r, n, l, true⟩
  | c :: r, .lineComment, n, l =>
    if isLineEnd c then skipGap r .code (n + 1) true else skipGap r .lineComment (n + 1) l
  | c :: r, .blockComment, n, l => skipGap r .blockComment (n + 1) (l || isLineEnd c)

/-! ## Escapes -/

/-- The value of a hexadecimal digit. -/
def hexDigit? (c : Char) : Option Nat :=
  if '0' ≤ c && c ≤ '9' then some (c.toNat - '0'.toNat)
  else if 'a' ≤ c && c ≤ 'f' then some (c.toNat - 'a'.toNat + 10)
  else if 'A' ≤ c && c ≤ 'F' then some (c.toNat - 'A'.toNat + 10)
  else none

/-- The value of a run of hexadecimal digits; nothing for an empty run or another character. -/
def hexValue? (digits : List Char) : Option Nat :=
  if digits.isEmpty then none
  else digits.foldl (fun v c => do return (← v) * 16 + (← hexDigit? c)) (some 0)

/-- The value of exactly `n` hexadecimal digits at the start of the text. -/
def hexAt? (n : Nat) (text : List Char) : Option Nat :=
  if (text.take n).length = n then hexValue? (text.take n) else none

/-- A code point between braces: its value and the number of characters with the braces. -/
def bracedCode? (text : List Char) : Option (Nat × Nat) :=
  match text with
  | '{' :: r =>
    let digits := r.takeWhile fun c => (hexDigit? c).isSome
    match (r.drop digits.length).head?, hexValue? digits with
    | some '}', some v => if v ≤ 0x10FFFF then some (v, digits.length + 2) else none
    | _, _ => none
  | _ => none

/-- Whether the number is the first half of a surrogate pair. -/
def isHighSurrogate (v : Nat) : Bool := 0xD800 ≤ v && v ≤ 0xDBFF

/-- Whether the number is the second half of a surrogate pair. -/
def isLowSurrogate (v : Nat) : Bool := 0xDC00 ≤ v && v ≤ 0xDFFF

/-- An escape: the code point it stands for, if any, the characters it takes after the backslash,
and whether it is well formed. -/
structure Escape where
  code : Option Nat
  length : Nat
  sound : Bool

/-- The escape that follows the letter `u`, in a string. -/
def unicodeEscape (text : List Char) : Escape :=
  match bracedCode? text with
  | some (v, n) => ⟨some v, n + 1, true⟩
  | none =>
    match hexAt? 4 text with
    | none => ⟨none, 1, false⟩
    | some high =>
      match isHighSurrogate high, text.drop 4 with
      | true, '\\' :: 'u' :: r =>
        match hexAt? 4 r with
        | some low =>
          if isLowSurrogate low then
            ⟨some (0x10000 + (high - 0xD800) * 0x400 + (low - 0xDC00)), 11, true⟩
          else ⟨some high, 5, true⟩
        | none => ⟨some high, 5, true⟩
      | _, _ => ⟨some high, 5, true⟩

/-- Whether the character is an octal digit. -/
def isOctal (c : Char) : Bool := '0' ≤ c && c ≤ '7'

/-- The octal escape of a string: up to three digits that stay below 256. -/
def octalEscape (text : List Char) : Escape :=
  let longest := match text.head? with
    | some c => if c ≤ '3' then 3 else 2
    | none => 0
  let digits := (text.take longest).takeWhile isOctal
  ⟨some (digits.foldl (fun v c => v * 8 + (c.toNat - '0'.toNat)) 0), digits.length, true⟩

/-- The escape after a backslash.  A template has no octal escapes. -/
def readEscape (inTemplate : Bool) (text : List Char) : Escape :=
  match text with
  | [] => ⟨none, 0, true⟩
  | c :: r =>
    match c with
    | '\r' => ⟨none, if r.head? == some '\n' then 2 else 1, true⟩
    | '\n' | '\u2028' | '\u2029' => ⟨none, 1, true⟩
    | 'n' => ⟨some 10, 1, true⟩
    | 'r' => ⟨some 13, 1, true⟩
    | 't' => ⟨some 9, 1, true⟩
    | 'b' => ⟨some 8, 1, true⟩
    | 'f' => ⟨some 12, 1, true⟩
    | 'v' => ⟨some 11, 1, true⟩
    | 'x' => match hexAt? 2 r with
      | some v => ⟨some v, 3, true⟩
      | none => ⟨none, 1, false⟩
    | 'u' => unicodeEscape r
    | '0' =>
      if (r.head?.map Char.isDigit).getD false then
        if inTemplate then ⟨none, 1, false⟩ else octalEscape text
      else ⟨some 0, 1, true⟩
    | _ =>
      if c.isDigit && inTemplate then ⟨none, 1, false⟩
      else if isOctal c then octalEscape text
      else ⟨some c.toNat, 1, true⟩

/-! ## Names -/

/-- A name that has been read. -/
structure NameScan where
  text : List Char
  rest : List Char
  offset : Nat
  escaped : Bool
  sound : Bool

/-- The character that an escape in a name stands for, and the escape's length. -/
def nameEscape? (text : List Char) : Option (Char × Nat) :=
  match text with
  | 'u' :: r =>
    let found := match bracedCode? r with
      | some (v, n) => some (v, n + 1)
      | none => (hexAt? 4 r).map (·, 5)
    match found with
    | some (v, n) => if Nat.isValidChar v then some (Char.ofNat v, n) else none
    | none => none
  | _ => none

/-- Reads the characters of a name, the first `skip` of which belong to an escape already read;
`acc` holds the name so far, backwards. -/
def scanName : Nat → List Char → Nat → List Char → Bool → NameScan
  | _, [], n, acc, esc => ⟨acc.reverse, [], n, esc, true⟩
  | k + 1, _ :: r, n, acc, esc => scanName k r (n + 1) acc esc
  | 0, c :: r, n, acc, esc =>
    if c == '\\' then
      match nameEscape? r with
      | some (d, k) =>
        if (if acc.isEmpty then Identifier.isStart d else Identifier.isPart d) then
          scanName k r (n + 1) (d :: acc) true
        else ⟨acc.reverse, r, n + 1, true, false⟩
      | none => ⟨acc.reverse, r, n + 1, true, false⟩
    else if Identifier.isPart c then scanName 0 r (n + 1) (c :: acc) esc
    else ⟨acc.reverse, c :: r, n, esc, true⟩

/-! ## Strings and templates -/

/-- A piece of text between quotes that has been read. -/
structure TextScan where
  /-- The code points of the value; halves of surrogate pairs stand for themselves. -/
  codes : List Nat
  rest : List Char
  offset : Nat
  /-- Every escape is well formed. -/
  sound : Bool
  /-- The closing quote was found. -/
  closed : Bool
  /-- A template piece ends at a substitution. -/
  continues : Bool

/-- Reads the rest of a string up to its quote. -/
def scanString (quote : Char) : Nat → List Char → Nat → List Nat → Bool → TextScan
  | _, [], n, acc, s => ⟨acc.reverse, [], n, s, false, false⟩
  | k + 1, _ :: r, n, acc, s => scanString quote k r (n + 1) acc s
  | 0, c :: r, n, acc, s =>
    if c == quote then ⟨acc.reverse, r, n + 1, s, true, false⟩
    else if c == '\n' || c == '\r' then ⟨acc.reverse, c :: r, n, s, false, false⟩
    else if c == '\\' then
      let e := readEscape false r
      scanString quote e.length r (n + 1) (e.code.toList ++ acc) (s && e.sound)
    else scanString quote 0 r (n + 1) (c.toNat :: acc) s

/-- Reads a piece of a template up to its closing quote or the next substitution. -/
def scanTemplate : Nat → List Char → Nat → Bool → TextScan
  | _, [], n, s => ⟨[], [], n, s, false, false⟩
  | k + 1, _ :: r, n, s => scanTemplate k r (n + 1) s
  | 0, c :: r, n, s =>
    if c == '\x60' then ⟨[], r, n + 1, s, true, false⟩
    else if c == '\\' then
      let e := readEscape true r
      scanTemplate e.length r (n + 1) (s && e.sound)
    else match c, r with
      | '$', '{' :: r' => ⟨[], r', n + 2, s, true, true⟩
      | _, _ => scanTemplate 0 r (n + 1) s

/-- The four lower-case hexadecimal digits of a 16-bit number. -/
def hexDigits4 (v : Nat) : List Char :=
  [v / 4096 % 16, v / 256 % 16, v / 16 % 16, v % 16].map fun d => Nat.digitChar d

/-- **The value of a string literal**: without halves of surrogate pairs, its code points.  With
one, U+FFFD becomes an escape character: it is followed by the four digits of the half it stands
for, or of itself. -/
def stringValue (codes : List Nat) : String × Bool :=
  let lone := codes.any fun v => isHighSurrogate v || isLowSurrogate v
  let spell (v : Nat) : List Char :=
    if isHighSurrogate v || isLowSurrogate v || (lone && v == 0xFFFD) then
      '\ufffd' :: hexDigits4 v
    else [Char.ofNat v]
  (String.ofList (codes.flatMap spell), lone)

/-! ## Numbers -/

/-- Reads digits with single separators between them: the rest, its offset, and whether no
separator stands at an end or beside another. -/
def takeDigits (isDigit : Char → Bool) : List Char → Nat → Bool → Bool → List Char × Nat × Bool
  | [], n, edge, s => ([], n, s && !edge)
  | c :: r, n, edge, s =>
    if c == '_' then takeDigits isDigit r (n + 1) true (s && !edge)
    else if isDigit c then takeDigits isDigit r (n + 1) false s
    else (c :: r, n, s && !edge)

/-- A number that has been read. -/
structure NumberScan where
  kind : TokenKind
  rest : List Char
  offset : Nat
  sound : Bool

/-- A name or a digit may not follow a number directly. -/
def finishNumber (kind : TokenKind) (text : List Char) (n : Nat) (s : Bool) : NumberScan :=
  match text with
  | c :: _ =>
    if c.isDigit || Identifier.isStart c then
      let junk := text.takeWhile fun c => c.isDigit || Identifier.isStart c
      ⟨kind, text.drop junk.length, n + junk.length, false⟩
    else ⟨kind, text, n, s⟩
  | [] => ⟨kind, text, n, s⟩

/-- Reads the digits of an exponent behind its letter, with a sign before them or without. -/
def scanExponentDigits (text : List Char) (n : Nat) (s : Bool) : List Char × Nat × Bool :=
  match text with
  | '+' :: r | '-' :: r => takeDigits Char.isDigit r (n + 1) true s
  | _ => takeDigits Char.isDigit text n true s

/-- Reads an exponent, if there is one. -/
def scanExponent (text : List Char) (n : Nat) (s : Bool) : NumberScan :=
  match text with
  | 'e' :: r | 'E' :: r =>
    let (rest, n, ok) := scanExponentDigits r (n + 1) s
    finishNumber .number rest n ok
  | _ => finishNumber .number text n s

/-- Reads the exponent of a number that starts with a zero and has no fraction.  Anything may follow
it directly. -/
def scanZeroExponent (text : List Char) (n : Nat) : NumberScan :=
  let (rest, n, ok) := scanExponentDigits text n true
  ⟨.number, rest, n, ok⟩

/-- Reads a fraction and an exponent, where there are any. -/
def scanFraction (text : List Char) (n : Nat) (s : Bool) : NumberScan :=
  match text with
  | '.' :: c :: r =>
    if c.isDigit then
      let (rest, n, ok) := takeDigits Char.isDigit (c :: r) (n + 1) false s
      scanExponent rest n ok
    else scanExponent (c :: r) (n + 1) s
  | '.' :: r => scanExponent r (n + 1) s
  | _ => scanExponent text n s

/-- Reads the digits of a number in another base, and a `n` behind them. -/
def scanRadix (isDigit : Char → Bool) (text : List Char) (n : Nat) : NumberScan :=
  let (rest, n, ok) := takeDigits isDigit text n true true
  match rest with
  | 'n' :: r => finishNumber .bigint r (n + 1) ok
  | _ => finishNumber .number rest n ok

/-- Reads a number; the text starts with a digit, or with a point before one. -/
def scanNumber (text : List Char) (n : Nat) : NumberScan :=
  match text with
  | '0' :: 'x' :: r | '0' :: 'X' :: r => scanRadix (fun c => (hexDigit? c).isSome) r (n + 2)
  | '0' :: 'o' :: r | '0' :: 'O' :: r => scanRadix isOctal r (n + 2)
  | '0' :: 'b' :: r | '0' :: 'B' :: r => scanRadix (fun c => c == '0' || c == '1') r (n + 2)
  | '0' :: 'n' :: r => finishNumber .bigint r (n + 2) true
  | '0' :: 'e' :: r | '0' :: 'E' :: r => scanZeroExponent r (n + 2)
  | '0' :: c :: r =>
    if c.isDigit then
      let digits := (c :: r).takeWhile Char.isDigit
      let rest := (c :: r).drop digits.length
      let n := n + 1 + digits.length
      if digits.all isOctal then finishNumber .number rest n true
      else match rest with
        | 'e' :: r => scanZeroExponent r (n + 1)
        | '.' :: _ => scanFraction rest n true
        | _ => finishNumber .number rest n true
    else scanFraction (c :: r) (n + 1) true
  | '.' :: _ => scanFraction text n true
  | _ =>
    let (rest, n, ok) := takeDigits Char.isDigit text n false true
    match rest with
    | 'n' :: r => finishNumber .bigint r (n + 1) ok
    | _ => scanFraction rest n ok

/-! ## Punctuators -/

/-- The punctuators of more than one character, longest first; those that start with a
greater-than sign are left to the grammar. -/
def longMarks : List String :=
  ["...", "===", "!==", "**=", "<<=", "&&=", "||=", "??=", "=>", "==", "!=", "<=", "<<", "&&",
    "||", "??", "?.", "**", "++", "--", "+=", "-=", "*=", "/=", "%=", "&=", "|=", "^="]

/-- The punctuators of one character. -/
def shortMarks : List Char :=
  ['{', '}', '(', ')', '[', ']', ';', ',', '<', '>', '+', '-', '*', '/', '%', '&', '|', '^', '!',
    '~', '?', ':', '=', '.', '@']

/-- The longest punctuator at the start of the text.  A question mark before a decimal fraction is
no optional chain. -/
def markAt? (text : List Char) : Option String :=
  let long := longMarks.find? fun m => m.toList.isPrefixOf text
  let long := match long, text with
    | some "?.", _ :: _ :: c :: _ => if c.isDigit then none else long
    | _, _ => long
  match long, text with
  | some m, _ => some m
  | none, c :: _ => if shortMarks.contains c then some (String.singleton c) else none
  | none, [] => none

/-! ## Tokens -/

/-- A token with the text behind it. -/
structure Lexed where
  token : Token
  rest : List Char
  sound : Bool

/-- The token of the given kind that starts with `here` and ends at `stop`. -/
def Lexed.make (kind : TokenKind) (here : List Char) (start stop : Nat) (newline : Bool)
    (rest : List Char) (sound : Bool) : Lexed :=
  ⟨⟨kind, ⟨start, stop⟩, newline, here⟩, rest, sound⟩

/-- The token that starts at the first character of the text. -/
def lexHere (text : List Char) (n : Nat) (newline : Bool) : Lexed :=
  match text with
  | [] => .make .endOfText [] n n newline [] true
  | c :: r =>
    if Identifier.isStart c || c == '\\' then
      let s := scanName 0 text n [] false
      .make (.name (String.ofList s.text) s.escaped) text n s.offset newline s.rest s.sound
    else if c.isDigit || (c == '.' && (r.head?.map Char.isDigit).getD false) then
      let s := scanNumber text n
      .make s.kind text n s.offset newline s.rest s.sound
    else if c == '"' || c == '\'' then
      let s := scanString c 0 r (n + 1) [] true
      let (value, lone) := stringValue s.codes
      .make (.string value lone) text n s.offset newline s.rest (s.sound && s.closed)
    else if c == '\x60' then
      let s := scanTemplate 0 r (n + 1) true
      .make (.template s.continues s.sound) text n s.offset newline s.rest s.closed
    else if c == '#' then
      let starts := match r with
        | d :: _ => Identifier.isStart d || d == '\\'
        | [] => false
      if starts then
        let s := scanName 0 r (n + 1) [] false
        .make (.privateName (String.ofList s.text)) text n s.offset newline s.rest s.sound
      else .make .stray text n (n + 1) newline r false
    else
      match markAt? text with
      | some m => .make (.mark m) text n (n + m.length) newline (text.drop m.length) true
      | none => .make .stray text n (n + 1) newline r false

/-- The next token of the text. -/
def lex (text : List Char) (n : Nat) : Lexed :=
  let gap := skipGap text .code n false
  let found := lexHere gap.rest gap.offset gap.newline
  { found with sound := found.sound && gap.sound }

/-- The first token of a text: a byte order mark is skipped, and a line that starts with `#!` is a
comment. -/
def lexFirst (text : List Char) : Lexed :=
  match text with
  | '#' :: '!' :: r =>
    let line := r.takeWhile fun c => !isLineEnd c
    lex (r.drop line.length) (2 + line.length)
  | _ => lex text 0

/-! ## Reading a place differently -/

/-- The operators that start with a greater-than sign, longest first. -/
def greaterMarks : List String := [">>>=", ">>>", ">>=", ">>", ">=", ">"]

/-- Reads the longest operator that starts with the greater-than sign at the token. -/
def lexGreater (t : Token) : Lexed :=
  match greaterMarks.find? fun m => m.toList.isPrefixOf t.here with
  | some m =>
    .make (.mark m) t.here t.span.start (t.span.start + m.length) t.newline (t.here.drop m.length)
      true
  | none => .make t.kind t.here t.span.start t.span.start t.newline t.here false

/-- Reads only the first character of the token, which is a punctuator. -/
def lexOne (t : Token) (m : String) : Lexed :=
  .make (.mark m) t.here t.span.start (t.span.start + 1) t.newline (t.here.drop 1) true

/-- Reads the body of a regular expression after its first slash. -/
def scanRegex : List Char → Nat → Bool → Bool → List Char × Nat × Bool
  | [], n, _, _ => ([], n, false)
  | c :: r, n, inEscape, inClass =>
    if isLineEnd c then (c :: r, n, false)
    else if inEscape then scanRegex r (n + 1) false inClass
    else if c == '/' && !inClass then (r, n + 1, true)
    else if c == '[' then scanRegex r (n + 1) false true
    else if c == ']' then scanRegex r (n + 1) false false
    else scanRegex r (n + 1) (c == '\\') inClass

/-- The flags that a regular expression may have, each once, and not both `u` and `v`. -/
def regexFlags : List Char := ['d', 'g', 'i', 'm', 's', 'u', 'v', 'y']

/-- Reads the token, which starts with a slash, as a regular expression. -/
def lexRegex (t : Token) : Lexed :=
  let (rest, n, closed) := scanRegex (t.here.drop 1) (t.span.start + 1) false false
  let flags := rest.takeWhile fun c => c.isAlphanum || c == '$' || c == '_'
  let sound := flags.all (fun c => regexFlags.contains c && flags.count c = 1)
    && !(flags.contains 'u' && flags.contains 'v')
  .make .regex t.here t.span.start (n + flags.length) t.newline (rest.drop flags.length)
    (closed && sound)

/-- Reads the token, a closing brace, as the next piece of a template. -/
def lexTemplatePiece (t : Token) : Lexed :=
  let s := scanTemplate 0 (t.here.drop 1) (t.span.start + 1) true
  .make (.template s.continues s.sound) t.here t.span.start s.offset t.newline s.rest s.closed

/-! ## Markup -/

/-- The next token between tags: a tag's start, a brace, or the text up to one.  The text holds no
closing brace and no greater-than sign. -/
def lexMarkupChild (text : List Char) (n : Nat) : Lexed :=
  match text with
  | [] => .make .endOfText [] n n false [] true
  | '<' :: r => .make (.mark "<") text n (n + 1) false r true
  | '{' :: r => .make (.mark "\x7b") text n (n + 1) false r true
  | _ =>
    let run := text.takeWhile fun c => c != '<' && c != '{'
    .make .markupText text n (n + run.length) false (text.drop run.length)
      (!run.contains '>' && !run.contains '}')

/-- Lengthens a name by the dashes and letters that follow it inside a tag. -/
def lexMarkupName (t : Token) (rest : List Char) : Lexed :=
  let more := rest.takeWhile fun c => c == '-' || Identifier.isPart c
  { token := { t with span := ⟨t.span.start, t.span.stop + more.length⟩ },
    rest := rest.drop more.length, sound := true }

/-- The token after the equals sign of an attribute: a string directly behind the sign has no escapes
and may span lines. -/
def lexMarkupValue (text : List Char) (n : Nat) : Lexed :=
  match text with
  | c :: r =>
    if c == '"' || c == '\'' then
      let body := r.takeWhile (· != c)
      let behind := r.drop body.length
      .make (.string (String.ofList body) false) text n (n + body.length + 2) false (behind.drop 1)
        !behind.isEmpty
    else lex text n
  | [] => lex text n

end ImportAtlas.Source
