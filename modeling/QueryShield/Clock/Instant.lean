/-!
# Instants of the monotonic clock

The cache store dates the deadlines of its entries with the monotonic clock.  An instant of
that clock is a count of whole seconds, a signed 64-bit number that is never negative, and the
nanoseconds within the second.

A deadline is an instant and a lifetime in whole seconds added together.  The addition gives an
instant only while the lifetime and the resulting second count both fit a signed 64-bit
number; the nanoseconds are kept.  Past that range the store asking for the deadline panics,
with `overflowMessage`.
-/

namespace QueryShield

/-- The largest second count of an instant: the largest signed 64-bit number. -/
def Instant.maxSecs : Nat := Nat.pow 2 63 - 1

/-- An instant of the monotonic clock. -/
structure Instant where
  secs : Nat
  nanos : Nat
  secs_le : secs ≤ Instant.maxSecs
  nanos_lt : nanos < 1000000000

namespace Instant

/-- The first second is within the clock's range. -/
theorem one_le_maxSecs : 1 ≤ maxSecs := by decide

/-- No nanoseconds are less than a second. -/
theorem zero_lt_second : 0 < 1000000000 := by decide

/-- The text of the panic when a deadline passes the clock's range. -/
def overflowMessage : String := "overflow when adding duration to instant"

/-- The instant `s` whole seconds after `t`, or `none` when it cannot be represented: the
seconds must fit a signed 64-bit number, and so must the sum. -/
def addSeconds? (t : Instant) (s : Nat) : Option Instant :=
  if s ≤ maxSecs then
    if h : t.secs + s ≤ maxSecs then some ⟨t.secs + s, t.nanos, h, t.nanos_lt⟩ else none
  else none

/-- Whether the deadline `lifetime` seconds after `t`, if there is a lifetime, can be
represented. -/
def fits (t : Instant) (lifetime : Option Nat) : Bool :=
  lifetime.all fun s => (t.addSeconds? s).isSome

end Instant
end QueryShield
