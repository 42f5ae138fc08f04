import SqlMigrations.Instant
import SqlMigrations.Text.Decimal

/-!
# Calendar texts

Dates of the proleptic Gregorian calendar and the two texts of an instant: RFC 3339 with as many
fraction digits as it needs, and the shorter form of the status table. Years outside 0 to 9999 are
written with a sign.
-/

namespace SqlMigrations

structure Date where
  year : Int
  month : Nat
  day : Nat
  deriving DecidableEq, Repr

namespace Date

def daysPerEra : Nat := 146097

/-- The date of a day counted from 1970-01-01. Days are counted in eras of 400 years that begin
on the first of March of year 0, so that a leap day ends its year. -/
def ofUnixDay (day : Int) : Date :=
  let shifted := day + 719468
  let era := shifted.fdiv daysPerEra
  let dayOfEra := (shifted.fmod daysPerEra).toNat
  let yearOfEra := (dayOfEra - dayOfEra / 1460 + dayOfEra / 36524 - dayOfEra / 146096) / 365
  let dayOfYear := dayOfEra - (365 * yearOfEra + yearOfEra / 4 - yearOfEra / 100)
  let monthFromMarch := (5 * dayOfYear + 2) / 153
  let day := dayOfYear - (153 * monthFromMarch + 2) / 5 + 1
  let month := if monthFromMarch < 10 then monthFromMarch + 3 else monthFromMarch - 9
  let year := (yearOfEra : Int) + era * 400 + if month ≤ 2 then 1 else 0
  ⟨year, month, day⟩

/-- At least four digits; a sign only outside 0 to 9999. -/
def yearText (year : Int) : List Char :=
  if year < 0 then '-' :: Decimal.padded 4 year.natAbs
  else if year ≤ 9999 then Decimal.padded 4 year.toNat
  else '+' :: Decimal.padded 4 year.toNat

def text (d : Date) : List Char :=
  yearText d.year ++ '-' :: Decimal.padded 2 d.month ++ '-' :: Decimal.padded 2 d.day

end Date

namespace Instant

def date (t : Instant) : Date := Date.ofUnixDay (t.secs.fdiv 86400)

/-- Hours, minutes and seconds, with colons between them. -/
def clockText (t : Instant) : List Char :=
  let second := (t.secs.fmod 86400).toNat
  Decimal.padded 2 (second / 3600) ++ ':' :: Decimal.padded 2 (second / 60 % 60) ++
    ':' :: Decimal.padded 2 (second % 60)

/-- None, 3, 6 or 9 digits, the fewest that are exact. -/
def fractionText (nanos : Nat) : List Char :=
  if nanos = 0 then []
  else if nanos % 1000000 = 0 then '.' :: Decimal.padded 3 (nanos / 1000000)
  else if nanos % 1000 = 0 then '.' :: Decimal.padded 6 (nanos / 1000)
  else '.' :: Decimal.padded 9 nanos

def rfc3339 (t : Instant) : String :=
  String.ofList (t.date.text ++ 'T' :: t.clockText ++ fractionText t.nanos ++ ['Z'])

/-- The text of an instant in the status table, to the second. -/
def tableText (t : Instant) : String :=
  String.ofList (t.date.text ++ ' ' :: t.clockText ++ " UTC".toList)

end Instant
end SqlMigrations
