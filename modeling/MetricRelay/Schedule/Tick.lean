import MetricRelay.Duration.Basic

/-!
# Ticks

A loop is due at deadlines a period apart. Times are in nanoseconds; a loop is woken on whole
milliseconds only. `nextDeadline` says which deadline follows a tick: the next one in line, unless
the tick was late beyond the tolerance; then the deadlines that have passed are skipped.
-/

namespace MetricRelay.Schedule

/-- An instant in nanoseconds. -/
def instant (millis : Nat) : Nat := Duration.nanosPerMilli * millis

/-- The first whole millisecond that is not before a time. -/
def wakeTime (nanos : Nat) : Nat := (nanos + (Duration.nanosPerMilli - 1)) / Duration.nanosPerMilli

/-- How late a tick may be without deadlines being skipped. -/
def tolerance : Nat := 5 * Duration.nanosPerMilli

/-- The deadline after one that is served at `now`. -/
def nextDeadline (period deadline now : Nat) : Nat :=
  if now ≤ deadline + tolerance then deadline + period
  else now + period - (now - deadline) % period

theorem lt_nextDeadline {period deadline now : Nat} (h : 0 < period) :
    deadline < nextDeadline period deadline now := by
  unfold nextDeadline
  split
  · omega
  · have := Nat.mod_lt (now - deadline) h
    omega

theorem instant_mono {a b : Nat} (h : a ≤ b) : instant a ≤ instant b := by
  unfold instant
  exact Nat.mul_le_mul_left _ h

theorem le_instant_wakeTime (nanos : Nat) : nanos ≤ instant (wakeTime nanos) := by
  unfold instant wakeTime Duration.nanosPerMilli
  omega

theorem wakeTime_le_iff {nanos millis : Nat} : wakeTime nanos ≤ millis ↔ nanos ≤ instant millis := by
  unfold wakeTime instant Duration.nanosPerMilli
  omega

end MetricRelay.Schedule
