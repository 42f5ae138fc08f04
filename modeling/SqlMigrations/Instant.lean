/-!
# Instants

Points in time at nanosecond precision, as whole seconds since 1970 rounded down and the
nanoseconds after them. The range covers the years -262143 to 262142.
-/

namespace SqlMigrations

structure Instant where
  secs : Int
  nanos : Nat
  nanos_lt : nanos < 1000000000
  secs_ge : -8334601228800 ≤ secs
  secs_le : secs ≤ 8210266876799
  deriving DecidableEq

namespace Instant

/-- The instant of a number of seconds and nanoseconds, if there is one. -/
def ofUnix? (secs : Int) (nanos : Nat) : Option Instant :=
  if h : nanos < 1000000000 ∧ -8334601228800 ≤ secs ∧ secs ≤ 8210266876799 then
    some ⟨secs, nanos, h.1, h.2.1, h.2.2⟩
  else none

/-- The instant in whole microseconds since 1970, rounded down. -/
def micros (t : Instant) : Int := t.secs * 1000000 + (t.nanos / 1000 : Nat)

end Instant

/-- The units in which a database counts time. -/
inductive TimeUnit where
  | second
  | millisecond
  | microsecond
  | nanosecond
  deriving DecidableEq, Repr

namespace TimeUnit

def perSecond : TimeUnit → Nat
  | .second => 1
  | .millisecond => 1000
  | .microsecond => 1000000
  | .nanosecond => 1000000000

def nanosPerTick (unit : TimeUnit) : Nat := 1000000000 / unit.perSecond

/-- The instant of a count of ticks since 1970. -/
def instant? (unit : TimeUnit) (ticks : Int) : Option Instant :=
  Instant.ofUnix? (ticks.fdiv unit.perSecond)
    ((ticks.fmod unit.perSecond).toNat * unit.nanosPerTick)

end TimeUnit
end SqlMigrations
