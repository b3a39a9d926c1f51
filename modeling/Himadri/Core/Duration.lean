import Mathlib.Data.Nat.Basic

/-!
# Lengths of time

`std::time::Duration` as a number of nanoseconds, with the roundings the gateway uses.
-/

namespace Himadri

/-- `std::time::Duration`. -/
structure Duration where
  /-- The length in nanoseconds. -/
  nanos : ℕ
  deriving DecidableEq

namespace Duration

/-- `Duration::as_millis`: whole milliseconds, rounded down. -/
def asMillis (d : Duration) : ℕ := d.nanos / 1000000

/-- `Duration::as_micros`. -/
def asMicros (d : Duration) : ℕ := d.nanos / 1000

/-- `Duration::from_millis`. -/
def fromMillis (ms : ℕ) : Duration := ⟨ms * 1000000⟩

/-- `Duration::from_secs`. -/
def fromSecs (secs : ℕ) : Duration := fromMillis (secs * 1000)

@[simp] theorem asMillis_fromMillis (ms : ℕ) : (fromMillis ms).asMillis = ms := by
  simp [asMillis, fromMillis]

end Duration

end Himadri
