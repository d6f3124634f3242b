import ImportAtlas.Decimal

/-!
# Command/ValuePattern — the patterns that the value of a field is compared with

A pattern is a number or a regular expression.  Nothing is ever matched with one here, so that all
that is asked of a text is whether it is a pattern.
-/

namespace ImportAtlas

namespace ValuePattern

/-- Whether a backslash may stand before the character. -/
def isEscape (c : Char) : Bool :=
  c.toNat < 128 && (!c.isAlphanum || "dDsSwWAznrtfvaxuUpP".toList.contains c)

/-- Whether the text behind the opening of a group and a question mark goes on with a name, or with
flags.  Nothing looks ahead or behind. -/
def isGroupKind : List Char → Bool
  | '<' :: c :: _ => c != '=' && c != '!'
  | c :: _ => "PimsUuxR-:".toList.contains c
  | [] => false

/-- Whether a text is the rest of a regular expression in which groups and classes are open.  The
flag tells whether something that can be repeated comes before, or, in a class, whether nothing
does: then a closing bracket is a member of the class. -/
def isRest : List Char → (groups classes : Nat) → (flag : Bool) → Bool
  | [], groups, classes, _ => groups == 0 && classes == 0
  | ['\\'], _, _, _ => false
  | '\\' :: c :: rest, groups, classes, _ =>
    isEscape c && isRest rest groups classes (classes == 0)
  | '[' :: '^' :: rest, groups, classes, _ => isRest rest groups (classes + 1) true
  | '[' :: rest, groups, classes, _ => isRest rest groups (classes + 1) true
  | c :: rest, groups, classes + 1, first =>
    if c != ']' || first then isRest rest groups (classes + 1) false
    else isRest rest groups classes (classes == 0)
  | '(' :: '?' :: rest, groups, 0, _ => isGroupKind rest && isRest rest (groups + 1) 0 false
  | c :: rest, groups, 0, repeatable =>
    if c == '(' then isRest rest (groups + 1) 0 false
    else if c == ')' then groups != 0 && isRest rest (groups - 1) 0 true
    else if c == '|' then isRest rest groups 0 false
    else if c == '*' || c == '+' || c == '?' then repeatable && isRest rest groups 0 true
    else c != '\x7b' && isRest rest groups 0 true

/-- Whether the text is a regular expression. -/
def isRegex (text : List Char) : Bool := isRest text 0 0 false

/-- Whether the text is a pattern.  Of the numbers, only those with a plus sign are no regular
expressions. -/
def isPattern (text : List Char) : Bool :=
  match text with
  | '+' :: digits => !digits.isEmpty && digits.all fun c => Decimal.isDigit c || c == '.'
  | _ => isRegex text

end ValuePattern

end ImportAtlas
