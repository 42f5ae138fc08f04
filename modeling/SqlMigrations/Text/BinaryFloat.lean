import SqlMigrations.Text.Decimal

/-!
# Binary floating point in decimal

Numbers with a bounded binary precision, read from decimal text by rounding to nearest, ties to
even, and written with the fewest digits that read back. All arithmetic is exact on naturals.
-/

namespace SqlMigrations

/-- A binary format: how many bits a significand has, and the least and greatest exponent of its
last bit. -/
structure FloatFormat where
  precision : Nat
  minExponent : Int
  maxExponent : Int
  deriving DecidableEq, Repr

namespace FloatFormat

def single : FloatFormat := ⟨24, -149, 104⟩

def double : FloatFormat := ⟨53, -1074, 971⟩

/-- The least significand that fills the precision. -/
def leastFull (f : FloatFormat) : Nat := Nat.pow 2 (f.precision - 1)

end FloatFormat

/-- A finite number stands for `significand * 2 ^ exponent`, with the sign apart. -/
inductive BinaryFloat where
  | nan
  | infinite (negative : Bool)
  | finite (negative : Bool) (significand : Nat) (exponent : Int)
  deriving DecidableEq, Repr

namespace BinaryFloat

/-- A power as a fraction: numerator and denominator. -/
def powFraction (base : Nat) (exponent : Int) : Nat × Nat :=
  if 0 ≤ exponent then (Nat.pow base exponent.toNat, 1) else (1, Nat.pow base exponent.natAbs)

/-- A quotient rounded to the nearest natural number, a half to the even one. -/
def roundDiv (num den : Nat) : Nat :=
  let q := num / den
  let r := num % den
  if 2 * r < den then q
  else if den < 2 * r then q + 1
  else if q % 2 = 0 then q else q + 1

/-- The greatest exponent of two that a positive fraction reaches. -/
def floorLog2 (num den : Nat) : Int :=
  let guess : Int := (num.log2 : Int) - den.log2
  let (up, down) := powFraction 2 guess
  if den * up ≤ num * down then guess else guess - 1

/-- The nearest number of a format to a fraction. -/
def ofFraction (f : FloatFormat) (negative : Bool) (num den : Nat) : BinaryFloat :=
  if num = 0 then .finite negative 0 f.minExponent
  else
    let exponent := max f.minExponent (floorLog2 num den - (f.precision - 1 : Nat))
    let (up, down) := powFraction 2 exponent
    let significand := roundDiv (num * down) (den * up)
    let (significand, exponent) :=
      if significand = 2 * f.leastFull then (f.leastFull, exponent + 1)
      else (significand, exponent)
    if f.maxExponent < exponent then .infinite negative
    else .finite negative significand exponent

/-- The sign of a text and what follows it. -/
def splitSign : List Char → Bool × List Char
  | '-' :: rest => (true, rest)
  | '+' :: rest => (false, rest)
  | rest => (false, rest)

/-- The number that an exponent part writes; an absent one is zero. -/
def exponentOf? : List Char → Option Int
  | [] => some 0
  | c :: rest =>
    if c = 'e' ∨ c = 'E' then
      let (negative, run) := splitSign rest
      (Decimal.read? run).map fun n => if negative then -(n : Int) else n
    else none

/-- The number of a format that a decimal text is nearest to. -/
def read? (f : FloatFormat) (text : String) : Option BinaryFloat := do
  let (negative, unsigned) := splitSign text.toList
  if unsigned = ['N', 'a', 'N'] then return .nan
  if unsigned = ['i', 'n', 'f'] then return .infinite negative
  let whole := unsigned.takeWhile Char.isDigit
  let rest := unsigned.dropWhile Char.isDigit
  let (fraction, rest) := match rest with
    | '.' :: rest => (rest.takeWhile Char.isDigit, rest.dropWhile Char.isDigit)
    | _ => ([], rest)
  let digits ← Decimal.read? (whole ++ fraction)
  let exponent ← exponentOf? rest
  let (up, down) := powFraction 10 (exponent - fraction.length)
  return ofFraction f negative (digits * up) down

/-- A positive fraction with the fractions halfway to its neighbours, all over one denominator. -/
structure Rounding where
  low : Nat
  value : Nat
  high : Nat
  den : Nat
  inclusive : Bool

/-- The fractions that round to a number; both ends belong to it when its significand is even. -/
def rounding (f : FloatFormat) (significand : Nat) (exponent : Int) : Rounding :=
  let (up, down) := powFraction 2 exponent
  let below := if significand = f.leastFull ∧ f.minExponent < exponent then 1 else 2
  ⟨(4 * significand - below) * up, 4 * significand * up, (4 * significand + 2) * up, 4 * down,
    significand % 2 = 0⟩

/-- The greatest exponent of ten that a positive fraction reaches. -/
def floorLog10 (num den : Nat) : Int :=
  if den ≤ num then ((Decimal.digits (num / den)).length - 1 : Nat)
  else
    let places := (Decimal.digits (den / num)).length
    if den ≤ num * Nat.pow 10 (places - 1) then -((places - 1 : Nat) : Int) else -(places : Int)

/-- Whether a multiple of a power of ten rounds to the number. -/
def Rounding.admits (r : Rounding) (digits : Nat) (power : Int) : Bool :=
  let (up, down) := powFraction 10 power
  let scaled := digits * up * r.den
  if r.inclusive then r.low * down ≤ scaled && scaled ≤ r.high * down
  else r.low * down < scaled && scaled < r.high * down

/-- The better of the two multiples of a power of ten around a number, if one rounds to it. -/
def Rounding.candidate? (r : Rounding) (power : Int) : Option Nat :=
  let (up, down) := powFraction 10 power
  let below := r.value * down / (r.den * up)
  let lowFits := r.admits below power
  let highFits := r.admits (below + 1) power
  let lowNearer := 2 * (r.value * down) < (2 * below + 1) * (r.den * up)
  if lowFits && (lowNearer || !highFits) then some below
  else if highFits then some (below + 1)
  else none

/-- The first power of ten, going down, with a multiple that rounds to the number. -/
def Rounding.firstCandidate (r : Rounding) : (tries : Nat) → Int → Nat × Int
  | 0, power => (r.value / r.den, power)
  | tries + 1, power =>
    match r.candidate? power with
    | some digits => (digits, power)
    | none => firstCandidate r tries (power - 1)

/-- The fewest digits that read back as a positive number, without zeros at their end, and the
exponent of ten of the first one. -/
def shortest (f : FloatFormat) (significand : Nat) (exponent : Int) : List Char × Int :=
  let r := rounding f significand exponent
  let (digits, power) := r.firstCandidate 20 (floorLog10 r.value r.den)
  let all := Decimal.digits digits
  ((all.reverse.dropWhile (· == '0')).reverse, power + (all.length - 1 : Nat))

/-- Digits around a point, with at least one on either side. -/
def positional (digits : List Char) (leading : Int) : List Char :=
  if leading < 0 then
    '0' :: '.' :: List.replicate (leading.natAbs - 1) '0' ++ digits
  else
    let whole := leading.toNat + 1
    let fraction := digits.drop whole
    digits.take whole ++ List.replicate (whole - digits.length) '0' ++
      '.' :: (if fraction = [] then ['0'] else fraction)

/-- Digits with the point after the first one and an exponent of ten. -/
def scientific (digits : List Char) (leading : Int) : List Char :=
  let fraction := match digits.drop 1 with
    | [] => []
    | rest => '.' :: rest
  digits.take 1 ++ fraction ++ 'e' :: (toString leading).toList

/-- Positional from a ten-thousandth up to, not including, 10^16, otherwise scientific. -/
def text (f : FloatFormat) : BinaryFloat → String
  | .nan => "NaN"
  | .infinite negative => if negative then "-inf" else "inf"
  | .finite negative significand exponent =>
    let unsigned :=
      if significand = 0 then ['0', '.', '0']
      else
        let (digits, leading) := shortest f significand exponent
        if -4 ≤ leading ∧ leading < 16 then positional digits leading
        else scientific digits leading
    String.ofList (if negative then '-' :: unsigned else unsigned)

end BinaryFloat
end SqlMigrations
