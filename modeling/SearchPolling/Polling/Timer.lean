/-!
# Timers

A timer of a given period is due one period after it is armed, and then at every
further period.  A timer that is acted on late skips what it missed: it is due next at
the first multiple of its period, counted from the arming, that lies in the future.
All times are in milliseconds.
-/

namespace SearchPolling
namespace Polling

/-- A timer that has been armed. -/
structure Timer where
  generation : UInt64
  period : Nat
  /-- When the timer is due next. -/
  due : Nat
  deriving DecidableEq, Repr

namespace Timer

/-- The timer that is armed now with a period in seconds. -/
def armed (generation period : UInt64) (now : Nat) : Timer :=
  ⟨generation, period.toNat * 1000, now + period.toNat * 1000⟩

/-- Whether a timer is due. -/
def isDue (t : Timer) (now : Nat) : Bool :=
  t.due ≤ now

/-- The timer after it has been acted on. -/
def acted (t : Timer) (now : Nat) : Timer :=
  { t with due := t.due + t.period * ((now - t.due) / t.period + 1) }

/-- The next point of time lies in the future. -/
theorem lt_due_acted (t : Timer) (now : Nat) (hp : 0 < t.period) (hd : t.due ≤ now) :
    now < (t.acted now).due := by
  have h := Nat.div_add_mod (now - t.due) t.period
  have hm := Nat.mod_lt (now - t.due) hp
  simp only [acted, Nat.mul_add, Nat.mul_one]
  omega

end Timer
end Polling
end SearchPolling
