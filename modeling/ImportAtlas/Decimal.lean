/-!
# Decimal — natural numbers in decimal notation

`value_digits` says that reading the digits of a number gives the number back.
-/

namespace ImportAtlas.Decimal

/-- The digit character of a number below ten. -/
def digitChar (n : Nat) : Char := Char.ofNat (48 + n)

/-- The number that a digit character stands for. -/
def digitValue (c : Char) : Nat := c.toNat - 48

/-- Whether the character is a decimal digit. -/
def isDigit (c : Char) : Bool := '0' ≤ c && c ≤ '9'

/-- The digits of a number. -/
def digits (n : Nat) : List Char :=
  if n < 10 then [digitChar n] else digits (n / 10) ++ [digitChar (n % 10)]
termination_by n

/-- The number that digits stand for. -/
def value (ds : List Char) : Nat := ds.foldl (fun n d => 10 * n + digitValue d) 0

/-- The digits of a number as a text. -/
def text (n : Nat) : String := String.ofList (digits n)

theorem digitValue_digitChar {n : Nat} (h : n < 10) : digitValue (digitChar n) = n := by
  have : ∀ m < 10, digitValue (digitChar m) = m := by decide
  exact this n h

theorem isDigit_digitChar {n : Nat} (h : n < 10) : isDigit (digitChar n) = true := by
  have : ∀ m < 10, isDigit (digitChar m) = true := by decide
  exact this n h

/-- **Reading the digits of a number gives the number back.** -/
theorem value_digits (n : Nat) : value (digits n) = n := by
  induction n using Nat.strongRecOn with
  | _ n ih =>
    rw [digits]
    split
    · simp [value, digitValue_digitChar ‹_›]
    · have := ih (n / 10) (by omega)
      simp only [value, List.foldl_append, List.foldl_cons, List.foldl_nil] at this ⊢
      rw [this, digitValue_digitChar (by omega)]
      omega

theorem isDigit_of_mem_digits {n : Nat} {c : Char} (h : c ∈ digits n) : isDigit c = true := by
  induction n using Nat.strongRecOn with
  | _ n ih =>
    rw [digits] at h
    split at h
    · rw [List.mem_singleton.1 h]
      exact isDigit_digitChar ‹_›
    · rcases List.mem_append.1 h with h | h
      · exact ih (n / 10) (by omega) h
      · rw [List.mem_singleton.1 h]
        exact isDigit_digitChar (by omega)

theorem digits_ne_nil (n : Nat) : digits n ≠ [] := by
  rw [digits]
  split <;> simp

end ImportAtlas.Decimal
