/-!
# Rounding to binary64

Loads and delays are computed with numbers of 53 significant bits. `Rounding.nearest`
gives the one next to a rational number, a tie going to the one whose last bit is zero.
The exponent is not bounded: no number here comes near the ends of the range of
binary64.
-/

namespace GameFleet.Rounding

/-- The whole number nearest to `q`, a half going to the even neighbour. -/
def nearestWhole (q : Rat) : Int :=
  let below := q.floor
  let excess := q - below
  if excess < 1 / 2 ∨ excess = 1 / 2 ∧ below % 2 = 0 then below else below + 1

/-- The power of two `e` for which `q / 2 ^ e` has 53 digits before the point. The
logarithms of numerator and denominator leave two candidates. -/
def exponent (q : Rat) : Int :=
  let e : Int := q.num.natAbs.log2 - q.den.log2 - 53
  if q < 2 ^ (e + 53) then e else e + 1

/-- The number of 53 significant bits nearest to `q`, for `q` not negative. -/
def nearest (q : Rat) : Rat :=
  if q ≤ 0 then 0
  else
    let unit : Rat := 2 ^ exponent q
    nearestWhole (q / unit) * unit

example : nearest (2 ^ 53 + 1) = 2 ^ 53 := by decide +kernel

example : nearest (2 ^ 53 + 3) = 2 ^ 53 + 4 := by decide +kernel

example : nearest (1 / 10) = 3602879701896397 / 2 ^ 55 := by decide +kernel

/-- The lesser of two numbers. -/
def lesser (p q : Rat) : Rat := if p ≤ q then p else q

/-- The greater of two numbers. -/
def greater (p q : Rat) : Rat := if p ≤ q then q else p

end GameFleet.Rounding
