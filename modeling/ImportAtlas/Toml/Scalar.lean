import ImportAtlas.Config.Setting
import ImportAtlas.Json.Reader

/-!
# Toml/Scalar — numbers, dates and times of TOML

A scalar is recognised as a whole, once its characters are known.
-/

namespace ImportAtlas.Toml

/-- The digits of a text in which single underscores may stand between digits. -/
def grouped? (isDigit : Char → Bool) (text : List Char) : Option (List Char) :=
  let parts := text.splitOn '_'
  if parts.all fun part => !part.isEmpty && part.all isDigit then some parts.flatten else none

/-- The decimal digits of a text, with underscores between them. -/
def digits? (text : List Char) : Option (List Char) := grouped? Decimal.isDigit text

/-- The digits of a whole number, which has no leading zeros. -/
def wholeDigits? (text : List Char) : Option (List Char) :=
  match digits? text with
  | some ('0' :: _ :: _) => none
  | r => r

/-- A sign and what stands behind it. -/
def splitSign : List Char → Bool × List Char
  | '-' :: rest => (true, rest)
  | '+' :: rest => (false, rest)
  | text => (false, text)

/-- The number as a setting, if it has at most 64 bits with its sign. -/
def signedWord? (n : Int) : Option Setting :=
  if -Nat.pow 2 63 ≤ n ∧ n < Nat.pow 2 63 then some (.integer n) else none

/-- The number in a base that is named by a letter. -/
def based? (base : Nat) (text : List Char) : Option Setting := do
  let isDigit (c : Char) : Bool := (Json.hexValue? c).any fun n => n < base
  let ds ← grouped? isDigit text
  signedWord? (ds.foldl (fun n d => base * n + (Json.hexValue? d).getD 0) 0 : Nat)

/-- A whole number. -/
def integer? : List Char → Option Setting
  | '0' :: 'x' :: text => based? 16 text
  | '0' :: 'o' :: text => based? 8 text
  | '0' :: 'b' :: text => based? 2 text
  | text => do
    let (negative, rest) := splitSign text
    let n : Int := Decimal.value (← wholeDigits? rest)
    signedWord? (if negative then -n else n)

/-! ## Fractions -/

/-- Whether a number is too large for a double: `digits` times ten to the power of `exponent`. -/
def overflows (digits : List Char) (exponent : Int) : Bool :=
  let digits := digits.dropWhile (· == '0')
  let magnitude := digits.length + exponent
  if digits.isEmpty || magnitude < 308 then false
  else if magnitude > 310 then true
  else
    let limit := Nat.pow 2 1024 - Nat.pow 2 970
    let n := Decimal.value digits
    if 0 ≤ exponent then n * Nat.pow 10 exponent.toNat ≥ limit
    else n ≥ limit * Nat.pow 10 (-exponent).toNat

/-- A number with a fraction or an exponent, or one of the names of special numbers. -/
def fraction? (text : List Char) : Option Setting := do
  let (negative, rest) := splitSign text
  if rest == ['i', 'n', 'f'] || rest == ['n', 'a', 'n'] then return .fraction (String.ofList text)
  let isMark (c : Char) : Bool := c == 'e' || c == 'E'
  let mantissa := rest.takeWhile fun c => !isMark c
  let whole ← wholeDigits? (mantissa.takeWhile (· != '.'))
  let places ← match mantissa.dropWhile (· != '.') with
    | [] => some none
    | _ :: places => (digits? places).map some
  let exponent ← match rest.dropWhile fun c => !isMark c with
    | [] => some none
    | _ :: exponent =>
      let (negative, ds) := splitSign exponent
      (digits? ds).map fun ds =>
        let n : Int := Decimal.value ds
        some (if negative then -n else n)
  if places.isNone && exponent.isNone then failure
  let places := places.getD []
  if !negative && overflows (whole ++ places) (exponent.getD 0 - places.length) then failure
  return .fraction (String.ofList text)

/-! ## Dates and times -/

/-- The number of so many digits. -/
def fixed? (count : Nat) (text : List Char) : Option Nat :=
  if text.length == count && text.all Decimal.isDigit then some (Decimal.value text) else none

/-- The number of days of a month. -/
def daysOf (year month : Nat) : Nat :=
  if month == 2 then
    if year % 4 == 0 && (year % 100 != 0 || year % 400 == 0) then 29 else 28
  else if [4, 6, 9, 11].contains month then 30
  else 31

/-- Whether the text is a date. -/
def isDate (text : List Char) : Bool :=
  match text.splitOn '-' with
  | [year, month, day] =>
    match fixed? 4 year, fixed? 2 month, fixed? 2 day with
    | some year, some month, some day =>
      1 ≤ month && month ≤ 12 && 1 ≤ day && day ≤ daysOf year month
    | _, _, _ => false
  | _ => false

/-- Whether the text is a time of the day. -/
def isTime (text : List Char) : Bool :=
  match text.splitOn ':' with
  | [hour, minute, rest] =>
    let second := rest.takeWhile (· != '.')
    let places := rest.dropWhile (· != '.')
    (fixed? 2 hour).any (· ≤ 23) && (fixed? 2 minute).any (· ≤ 59) &&
      (fixed? 2 second).any (· ≤ 60) &&
      (places.isEmpty || (places.length ≥ 2 && places.tail.all Decimal.isDigit))
  | _ => false

/-- Whether the text is a difference from universal time, without its sign. -/
def isOffset (text : List Char) : Bool :=
  match text.splitOn ':' with
  | [hour, minute] => (fixed? 2 hour).any (· ≤ 23) && (fixed? 2 minute).any (· ≤ 59)
  | _ => false

/-- Whether the text is a time of the day with or without a difference from universal time. -/
def isZonedTime (text : List Char) : Bool :=
  let time := text.takeWhile fun c => !(['Z', 'z', '+', '-'].contains c)
  isTime time &&
    match text.drop time.length with
    | [] => true
    | c :: rest => if c == 'Z' || c == 'z' then rest.isEmpty else isOffset rest

/-- A date, a time, or a date with a time behind a letter or a blank. -/
def moment? (text : List Char) : Option Setting :=
  let date := text.take 10
  let valid := isTime text ||
    (isDate date &&
      match text.drop 10 with
      | [] => true
      | c :: rest => ['T', 't', ' '].contains c && isZonedTime rest)
  if valid then some (.moment (String.ofList text)) else none

/-- The scalar that a text is, if it is one. -/
def scalar? (text : List Char) : Option Setting :=
  if text == "true".toList then some (.truth true)
  else if text == "false".toList then some (.truth false)
  else moment? text <|> integer? text <|> fraction? text

end ImportAtlas.Toml
