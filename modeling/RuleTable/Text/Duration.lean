import RuleTable.Text.Basic

/-!
# Durations

A duration is written in the largest unit of which it is at least one: seconds, milliseconds,
microseconds or nanoseconds. The fraction has no zeros at its end, and no duration at all is zero
nanoseconds.
-/

set_option autoImplicit false

namespace RuleTable.Text

/-- The last `places` decimal digits of a number as a fraction, point included; nothing when they
are all zero. -/
def fraction (places n : Nat) : Text :=
  let digits := ofNat (n % Nat.pow 10 places)
  let padded := List.replicate (places - digits.length) '0' ++ digits
  match (padded.reverse.dropWhile (· == '0')).reverse with
  | [] => []
  | digits => '.' :: digits

/-- A number of nanoseconds in units of ten to the power of `places` nanoseconds. -/
def inUnit (places n : Nat) (unit : Text) : Text :=
  ofNat (n / Nat.pow 10 places) ++ fraction places n ++ unit

/-- **A duration**, given in nanoseconds. -/
def duration (nanoseconds : Nat) : Text :=
  if Nat.pow 10 9 ≤ nanoseconds then inUnit 9 nanoseconds "s".toList
  else if Nat.pow 10 6 ≤ nanoseconds then inUnit 6 nanoseconds "ms".toList
  else if Nat.pow 10 3 ≤ nanoseconds then inUnit 3 nanoseconds "µs".toList
  else inUnit 0 nanoseconds "ns".toList

end RuleTable.Text
