/-!
# Instants

An instant of universal time is a count of seconds from 1970-01-01T00:00:00 with a fraction in
nanoseconds.  A leap second is the second before it with a fraction of a second or more.

File times count ticks of 100 ns from 1601; they are cut to whole microseconds, and zero stands
for a time that was never set.
-/

namespace Ntfs

/-- A moment in universal time. -/
structure Instant where
  /-- Whole seconds since 1970-01-01T00:00:00, negative before it. -/
  seconds : Int
  /-- Nanoseconds into the second; a value of 10⁹ or more lies in the leap second after it. -/
  nanos : Nat
  deriving DecidableEq, Repr

namespace Instant

/-- Microseconds from the start of 1601 to the start of 1970. -/
def microsTo1970 : Int := 11644473600000000

/-- The instant that lies `micros` microseconds after 1970-01-01T00:00:00. -/
def ofMicros (micros : Int) : Instant where
  seconds := micros / 1000000
  nanos := (micros % 1000000).toNat * 1000

/-- The instant of a file time; none if it was never set. -/
def ofFiletime (ticks : UInt64) : Option Instant :=
  if ticks = 0 then none else some (ofMicros ((ticks.toNat / 10 : Nat) - microsTo1970))

end Instant

end Ntfs
