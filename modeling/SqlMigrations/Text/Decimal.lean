/-!
# Decimal numbers

Reading a run of ASCII digits, with and without a bound.
-/

namespace SqlMigrations.Decimal

/-- The number that a non-empty run of ASCII digits writes; leading zeros are allowed. -/
def read? (cs : List Char) : Option Nat :=
  if cs ≠ [] ∧ cs.all Char.isDigit then some (Nat.ofDigitChars 10 cs 0) else none

/-- The number that a non-empty run of ASCII digits writes, if it has 64 bits at most. -/
def readUInt64? (cs : List Char) : Option UInt64 :=
  match read? cs with
  | some n => if n < UInt64.size then some (UInt64.ofNat n) else none
  | none => none

/-- The digits of a number without leading zeros. -/
def digits (n : Nat) : List Char := Nat.toDigits 10 n

/-- The digits of a number, filled with zeros on the left to a least width. -/
def padded (width n : Nat) : List Char :=
  List.replicate (width - (digits n).length) '0' ++ digits n

end SqlMigrations.Decimal
