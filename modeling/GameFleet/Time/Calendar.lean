/-!
# Days of the calendar

Dates of the proleptic Gregorian calendar and their numbers, day 0 being the first of
January 1970. Years are counted from March, so that the leap day is the last of its
year, and in cycles of 400 years, which all have 146097 days.

`number_dateOf` says that a day's date has that day's number.
-/

namespace GameFleet.Time

structure Date where
  year : Int
  month : Int
  day : Int
  deriving DecidableEq, Repr

def leapYear (year : Int) : Bool :=
  year % 4 == 0 && (year % 100 != 0 || year % 400 == 0)

/-- The number of days of a month of a year. -/
def monthLength (year month : Int) : Int :=
  if month = 2 then (if leapYear year then 29 else 28)
  else if month = 4 ∨ month = 6 ∨ month = 9 ∨ month = 11 then 30
  else 31

/-- Whether there is such a date. -/
def Date.exists (d : Date) : Bool :=
  1 ≤ d.month && d.month ≤ 12 && 1 ≤ d.day && d.day ≤ monthLength d.year d.month

/-- The number of a date. -/
def Date.number (d : Date) : Int :=
  let year := if d.month ≤ 2 then d.year - 1 else d.year
  let cycle := year / 400
  let yearOfCycle := year - cycle * 400
  let month := if d.month ≤ 2 then d.month + 9 else d.month - 3
  let dayOfYear := (153 * month + 2) / 5 + d.day - 1
  let dayOfCycle := yearOfCycle * 365 + yearOfCycle / 4 - yearOfCycle / 100 + dayOfYear
  cycle * 146097 + dayOfCycle - 719468

/-- Day `dayOfYear` of a year that is counted from March. -/
def dateInYear (year dayOfYear : Int) : Date :=
  let month := (5 * dayOfYear + 2) / 153
  let day := dayOfYear - (153 * month + 2) / 5 + 1
  if month < 10 then ⟨year, month + 3, day⟩ else ⟨year + 1, month - 9, day⟩

/-- The date of a day: the centuries of its cycle that are full, the fours of years of
its century, the years of its four. The last century and the last year of a four may
have a day more than the others. -/
def dateOf (number : Int) : Date :=
  let cycle := (number + 719468) / 146097
  let dayOfCycle := (number + 719468) % 146097
  let century := min (dayOfCycle / 36524) 3
  let dayOfCentury := dayOfCycle - century * 36524
  let four := dayOfCentury / 1461
  let dayOfFour := dayOfCentury - four * 1461
  let year := min (dayOfFour / 365) 3
  dateInYear (cycle * 400 + century * 100 + four * 4 + year) (dayOfFour - year * 365)

theorem number_dateInYear (year day : Int) (h0 : 0 ≤ day) (h1 : day ≤ 365) :
    (dateInYear year day).number =
      year / 400 * 146097 + ((year % 400) * 365 + year % 400 / 4 - year % 400 / 100 + day) -
        719468 := by
  unfold dateInYear Date.number
  dsimp only
  split
  · next h =>
    rw [if_neg (by dsimp only; omega), if_neg (by dsimp only; omega)]
    dsimp only
    omega
  · next h =>
    rw [if_pos (by dsimp only; omega), if_pos (by dsimp only; omega)]
    dsimp only
    omega

/-- A day's date has that day's number. -/
theorem number_dateOf (number : Int) : (dateOf number).number = number := by
  unfold dateOf
  dsimp only
  generalize hc : (number + 719468) / 146097 = c
  generalize hd : (number + 719468) % 146097 = d
  have hd0 : 0 ≤ d ∧ d < 146097 := by omega
  generalize he : min (d / 36524) 3 = e
  have he0 : 0 ≤ e ∧ e ≤ 3 := by omega
  generalize hf : (d - e * 36524) / 1461 = f
  have hf0 : 0 ≤ f ∧ f ≤ 24 := by omega
  generalize hy : min ((d - e * 36524 - f * 1461) / 365) 3 = y
  have hy0 : 0 ≤ y ∧ y ≤ 3 := by omega
  have hquot : (c * 400 + e * 100 + f * 4 + y) / 400 = c := by omega
  have hrem : (c * 400 + e * 100 + f * 4 + y) % 400 = e * 100 + f * 4 + y := by omega
  rw [number_dateInYear _ _ (by omega) (by omega), hquot, hrem]
  omega

end GameFleet.Time
