import GameFleet.Rounding

/-!
# Delays that grow with each failure

The delay before another attempt doubles with each failure up to a limit. Only whole
milliseconds of base and limit count (`Backoff.curve`). With jitter a delay is moved by
up to a share of itself either way (`Backoff.delay`), so that keys that failed together
do not all come back together.
-/

namespace GameFleet

/-- How long to wait before another attempt. -/
structure Backoff where
  /-- The first delay, in microseconds. -/
  base : Nat
  /-- The longest delay, in microseconds. -/
  limit : Nat
  /-- The share of a delay by which it may be longer or shorter. -/
  jitter : Rat
  deriving DecidableEq, Repr

namespace Backoff

/-- Delays from `base` to `limit` milliseconds without jitter. -/
def fixed (base limit : Nat) : Backoff := ⟨base * 1000, limit * 1000, 0⟩

/-- What work queues use: from 5 milliseconds to 5 minutes. -/
def standard : Backoff := ⟨5000, 300000000, 1 / 10⟩

/-- The number of milliseconds by which all delays end. -/
def longest : Nat := UInt64.size - 1

/-- The delay after `failures` earlier failures, in milliseconds and before jitter. -/
def curve (b : Backoff) (failures : Nat) : Rat :=
  Rounding.lesser (Rounding.nearest (b.base / 1000 : Nat) * Nat.pow 2 (min failures 62))
    (Rounding.nearest (b.limit / 1000 : Nat))

/-- How far jitter can move a delay. -/
def spread (b : Backoff) (failures : Nat) : Rat :=
  b.curve failures * Rounding.greater 0 (Rounding.lesser b.jitter 1)

/-- The delay in whole milliseconds, moved by the share `noise` of its spread. -/
def delay (b : Backoff) (failures : Nat) (noise : Rat) : Nat :=
  min (Rounding.greater 0 (b.curve failures + noise * b.spread failures)).floor.toNat longest

/-- Whether `ms` is a delay that jitter can make of the curve. -/
def reaches (b : Backoff) (failures ms : Nat) : Bool :=
  decide ((Rounding.lesser (b.curve failures - b.spread failures) longest).floor ≤ ms) &&
    decide ((ms : Rat) ≤ b.curve failures + b.spread failures)

/-- The delay of the curve in whole milliseconds. -/
def steady (b : Backoff) (failures : Nat) : Nat := b.delay failures 0

example : [0, 1, 3, 20].map (fixed 100 5000).steady = [100, 200, 800, 5000] := by decide +kernel

end Backoff

end GameFleet
