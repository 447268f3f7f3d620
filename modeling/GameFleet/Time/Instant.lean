import GameFleet.Time.Calendar

/-!
# Instants

An `Instant` is a count of seconds since the start of 1970 and the nanoseconds since
that second began. A second into which a leap second is inserted runs on to two
thousand million nanoseconds, so that the leap second has no number of its own.

`Instant.since` is the span between two instants, in nanoseconds.
-/

namespace GameFleet.Time

structure Instant where
  second : Int
  nano : Nat
  deriving DecidableEq, Repr

/-- The nanoseconds of a second. -/
def nanosPerSecond : Nat := 1000000000

/-- The seconds of a day. -/
def secondsPerDay : Int := 86400

namespace Instant

/-- The instant lies within a leap second. -/
def leaping (t : Instant) : Bool := nanosPerSecond ≤ t.nano

def day (t : Instant) : Int := t.second / secondsPerDay

def secondOfDay (t : Instant) : Int := t.second % secondsPerDay

/-- The nanoseconds from `u` to `t`. Leap seconds are told from their neighbours within
a day: of two times of day, one that leaps and is the earlier counts as a second more,
and one that leaps and is the later counts as a second less ago. -/
def since (t u : Instant) : Int :=
  let leap : Int :=
    if u.secondOfDay < t.secondOfDay then (if u.leaping then 1 else 0)
    else if t.secondOfDay < u.secondOfDay then (if t.leaping then -1 else 0)
    else 0
  ((t.day - u.day) * secondsPerDay + (t.secondOfDay - u.secondOfDay) + leap) * nanosPerSecond +
    (t.nano - u.nano)

/-- The instant `span` nanoseconds later. A step that stays in a leap second or in the
second before it only moves the nanoseconds, and one that leaves it forwards counts it
as the second it is. -/
def add (t : Instant) (span : Int) : Instant :=
  let moved : Int := t.nano + span
  let settled (nano : Int) : Instant :=
    ⟨t.second + nano / nanosPerSecond, (nano % nanosPerSecond).toNat⟩
  if t.leaping ∧ 2 * nanosPerSecond ≤ moved then settled (moved - nanosPerSecond)
  else if t.leaping ∧ 0 ≤ moved then ⟨t.second, moved.toNat⟩
  else settled moved

/-- The milliseconds since the start of 1970. -/
def millis (t : Instant) : Int := t.second * 1000 + t.nano / 1000000

/-- The instant at the start of its second. -/
def truncated (t : Instant) : Instant := ⟨t.second, t.nano / nanosPerSecond * nanosPerSecond⟩

/-- Without leap seconds the span is the difference of the counts of nanoseconds. -/
theorem since_of_not_leaping {t u : Instant} (ht : t.leaping = false) (hu : u.leaping = false) :
    t.since u = (t.second - u.second) * nanosPerSecond + (t.nano - u.nano) := by
  have hd : (t.second / 86400 - u.second / 86400) * 86400 +
      (t.second % 86400 - u.second % 86400) = t.second - u.second := by omega
  unfold since day secondOfDay secondsPerDay
  simp only [ht, hu, Bool.false_eq_true, if_false, ite_self, hd, Int.add_zero]

end Instant

end GameFleet.Time
