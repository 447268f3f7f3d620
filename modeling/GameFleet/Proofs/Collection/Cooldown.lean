import GameFleet.Autoscaling
import GameFleet.Plane.Sample
import GameFleet.Proofs.Time.Stamp

/-!
# The cooldown of the autoscaler

A step is stamped with the second that it is made in, and the next is not due before the
stamp is longer ago than the cooldown. The stamp is text : what the check reads from it is
the start of that second (`Autoscaler.coolingDown_stamped`). So after a step a collection
cools down from the start of the second of the step, to the nanosecond and with the last
one included (`Collection.coolingDown_scaled`).

A clock that is set back finds the collection cooling down, with one exception : with a
cooldown of zero minutes only the very start of the second is within it, and a time that is
before the step but later in its second is not (`Sample.not_coolingDown_setBack`).
-/

namespace GameFleet

open Time (Instant nanosPerSecond)

namespace Time

/-- The longest span between two clock readings, in nanoseconds : as many milliseconds as a
signed number of 64 bits counts. -/
def longestSpan : Int := (2 ^ 63 - 1) * 1000000

/-- Dates of four-digit years are at most four million days from the start of 1970. -/
theorem Date.abs_number_le {d : Date} (h : d.exists = true) (hyear : 0 ≤ d.year)
    (hyear' : d.year ≤ 9999) : |d.number| ≤ 4000000 := by
  obtain ⟨hmonth, hmonth', hday, hday'⟩ := Date.bounds_of_exists h
  unfold Date.number
  rw [abs_le]
  dsimp only
  split <;> omega

namespace Instant

theorem Ordinary.abs_second_le {t : Instant} (h : t.Ordinary) : |t.second| ≤ 4000001 * 86400 := by
  have hnumber := Date.abs_number_le (exists_dateOf t.day) h.year_nonneg h.year_le
  rw [number_dateOf, abs_le] at hnumber
  rw [abs_le]
  unfold day secondsPerDay at hnumber
  omega

/-- The span to an ordinary instant from the start of the second of another. -/
theorem Ordinary.since_truncated {t u : Instant} (ht : t.Ordinary) (hu : u.Ordinary) :
    t.since u.truncated = (t.second - u.second) * nanosPerSecond + t.nano := by
  have hsince := since_of_not_leaping ht.not_leaping hu.truncated.not_leaping
  rw [hu.truncated_eq] at hsince ⊢
  rw [hsince]
  simp

/-- No two ordinary instants are too far apart. -/
theorem Ordinary.abs_since_truncated_le {t u : Instant} (ht : t.Ordinary) (hu : u.Ordinary) :
    |t.since u.truncated| ≤ longestSpan := by
  have htime := abs_le.1 ht.abs_second_le
  have htime' := abs_le.1 hu.abs_second_le
  have hnano := ht.nano_lt
  rw [ht.since_truncated hu, abs_le]
  unfold longestSpan nanosPerSecond at *
  omega

end Instant

end Time

namespace Autoscaler

/-- The cooldown, in nanoseconds. -/
def cooldown (a : Autoscaler) : Int := a.coolDownInMinutes.toNat * nanosPerMinute

theorem cooldown_nonneg (a : Autoscaler) : 0 ≤ a.cooldown := by
  unfold cooldown nanosPerMinute
  omega

theorem nanosPerSecond_le_cooldown {a : Autoscaler} (h : a.coolDownInMinutes ≠ 0) :
    nanosPerSecond ≤ a.cooldown := by
  have hpos : a.coolDownInMinutes.toNat ≠ 0 := fun hzero => h (UInt32.toNat_inj.1 hzero)
  unfold cooldown nanosPerMinute nanosPerSecond
  omega

theorem cooldown_le_longestSpan (a : Autoscaler) : a.cooldown ≤ Time.longestSpan := by
  have hbound := a.coolDownInMinutes.toNat_lt
  unfold cooldown nanosPerMinute Time.longestSpan
  omega

/-- The autoscaler with a step made at an instant. -/
def stamped (a : Autoscaler) (t : Instant) : Autoscaler :=
  { a with lastScale := some t.toStampSeconds }

/-- What the check reads from the stamp is the start of the second of the step. -/
theorem coolingDown_stamped (a : Autoscaler) {t u : Instant} (ht : t.Ordinary) :
    (a.stamped t).coolingDown u = true ↔ u.since t.truncated ≤ a.cooldown := by
  simp only [coolingDown, stamped, Option.bind_some, ht.ofStamp?_toStampSeconds]
  exact decide_eq_true_iff

end Autoscaler

theorem Collection.autoscaler_scaled (c : Collection) (s : ScaleStep) (t : Instant) :
    (c.scaled s t).spec.autoscaler = c.spec.autoscaler.map (·.stamped t) := rfl

/-- After a step a collection with an autoscaler cools down for as long as the start of the
second of the step is at most the cooldown ago. A clock that has been set back to before the
step is within the cooldown, but for a cooldown of zero minutes and the rest of that second.
Neither of the two spans that are compared is too long to be counted. -/
theorem Collection.coolingDown_scaled {c : Collection} {a : Autoscaler} (s : ScaleStep)
    {t u : Instant} (ha : c.spec.autoscaler = some a) (ht : t.Ordinary) (hu : u.Ordinary) :
    ∃ a', (c.scaled s t).spec.autoscaler = some a' ∧
      (a'.coolingDown u = true ↔
        (u.second - t.second) * nanosPerSecond + u.nano ≤
          a.coolDownInMinutes.toNat * (60 * nanosPerSecond)) ∧
      (u.since t < 0 → (a.coolDownInMinutes = 0 → u.second = t.second → u.nano = 0) →
        a'.coolingDown u = true) ∧
      a.cooldown ≤ Time.longestSpan ∧ |u.since t.truncated| ≤ Time.longestSpan := by
  have hwindow : a.cooldown = a.coolDownInMinutes.toNat * (60 * nanosPerSecond) := rfl
  refine ⟨a.stamped t, by rw [c.autoscaler_scaled, ha, Option.map_some], ?_, ?_,
    a.cooldown_le_longestSpan, hu.abs_since_truncated_le ht⟩
  · rw [a.coolingDown_stamped ht, hu.since_truncated ht, hwindow]
  · intro hbefore hzero
    rw [Time.Instant.since_of_not_leaping hu.not_leaping ht.not_leaping] at hbefore
    rw [a.coolingDown_stamped ht, hu.since_truncated ht]
    have hcooldown := a.cooldown_nonneg
    have hnano := hu.nano_lt
    have hnano' := ht.nano_lt
    unfold nanosPerSecond at *
    rcases lt_or_ge u.second t.second with hsecond | hsecond
    · omega
    have hsame : u.second = t.second := by omega
    by_cases hlong : a.coolDownInMinutes = 0
    · have hstart := hzero hlong hsame
      omega
    · have hminute := Autoscaler.nanosPerSecond_le_cooldown hlong
      unfold nanosPerSecond at hminute
      omega

namespace Sample

/-- A collection that is scaled at most every so many minutes. -/
def scalable (minutes : UInt32) : Collection :=
  collection "arena" 1 .remove maxFailures (some ⟨1, 3, 30, 70, true, minutes, 10, none⟩)

/-- Some time after noon on the first of May 2024. -/
def afterNoon (seconds : Int) (nano : Nat) : Instant := ⟨1714564800 + seconds, nano⟩

theorem ordinary_afterNoon {seconds : Int} {nano : Nat} (h : 0 ≤ seconds) (h' : seconds < 43200)
    (hnano : (afterNoon seconds nano).leaping = false) : (afterNoon seconds nano).Ordinary := by
  have hday : (afterNoon seconds nano).day = 19844 := by
    unfold afterNoon Instant.day Time.secondsPerDay
    dsimp only
    omega
  exact ⟨by rw [hday]; decide, by rw [hday]; decide, hnano⟩

/-- A step is made late in the first second after noon. Five minutes after that second began
the collection still cools down, and a nanosecond later it does not. -/
theorem coolingDown_scalable :
    ((scalable 5).scaled .grow (afterNoon 0 900000000)).spec.autoscaler.any
        (·.coolingDown (afterNoon 300 0)) = true ∧
      ((scalable 5).scaled .grow (afterNoon 0 900000000)).spec.autoscaler.any
        (·.coolingDown (afterNoon 300 1)) = false := by
  have hstep : (afterNoon 0 900000000).Ordinary := ordinary_afterNoon (by decide) (by decide) rfl
  have hsoon : (afterNoon 300 0).Ordinary := ordinary_afterNoon (by decide) (by decide) rfl
  have hlate : (afterNoon 300 1).Ordinary := ordinary_afterNoon (by decide) (by decide) rfl
  obtain ⟨a, ha, hwithin, -⟩ :=
    Collection.coolingDown_scaled (c := scalable 5) .grow rfl hstep hsoon
  obtain ⟨a', ha', hpast, -⟩ :=
    Collection.coolingDown_scaled (c := scalable 5) .grow rfl hstep hlate
  constructor
  · rw [ha, Option.any_some]
    exact hwithin.2 (by decide)
  · rw [ha', Option.any_some, ← Bool.not_eq_true]
    exact fun h => absurd (hpast.1 h) (by decide)

/-- With a cooldown of zero minutes, a clock set back by three tenths of a second, within the
second of the step, does not find the collection cooling down. -/
theorem not_coolingDown_setBack :
    (afterNoon 0 900000000).Ordinary ∧ (afterNoon 0 600000000).Ordinary ∧
      (afterNoon 0 600000000).since (afterNoon 0 900000000) < 0 ∧
      ((scalable 0).scaled .grow (afterNoon 0 900000000)).spec.autoscaler.any
        (·.coolingDown (afterNoon 0 600000000)) = false :=
  ⟨ordinary_afterNoon (by decide) (by decide) rfl, ordinary_afterNoon (by decide) (by decide) rfl,
    by decide +kernel, by decide +kernel⟩

end Sample

end GameFleet
