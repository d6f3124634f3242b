import ImportAtlas.Decimal

/-!
# Json/Magnitude — the numbers that are small enough to be held

A number is held in binary with 53 digits and with powers of two below 1024.  It is computed from
its first digits, of which so many are taken as fit into 64 bits, and a power of ten.
-/

namespace ImportAtlas.Json

/-- The number with its first 53 binary digits; a half is rounded to the even neighbour. -/
def roundBinary (n : Nat) : Nat :=
  let unit := Nat.pow 2 (n.log2 - 52)
  let quotient := n / unit
  let rest := n % unit
  let isUp := unit < 2 * rest || (unit == 2 * rest && quotient % 2 == 1)
  (if isUp then quotient + 1 else quotient) * unit

/-- Takes digits behind a number as long as it fits into 64 bits; the number, and how many digits
are left. -/
def absorb (n : Nat) : List Char → Nat × Nat
  | [] => (n, 0)
  | d :: ds =>
    let m := 10 * n + Decimal.digitValue d
    if m < Nat.pow 2 64 then absorb m ds else (n, ds.length + 1)

/-- **Whether a number can be held**, from the digits before and behind its point and the power of
ten that it is multiplied by. -/
def isHeldNumber (whole fraction : List Char) (power : Int) : Bool :=
  let (n, dropped) := absorb 0 whole
  let (n, left) := absorb n fraction
  let power := power + dropped - (fraction.length - left : Nat)
  n == 0 || power < 0 || (power ≤ 308 &&
    roundBinary (roundBinary n * roundBinary (Nat.pow 10 power.toNat)) < Nat.pow 2 1024)

end ImportAtlas.Json
