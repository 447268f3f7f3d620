import GameFleet.Backoff
import Mathlib.Data.Rat.Floor
import Mathlib.Tactic.FieldSimp
import Mathlib.Tactic.Linarith

/-!
# Delays in whole milliseconds

Delays are computed with numbers of 53 significant bits. Whole numbers that fit are not
rounded (`Rounding.nearest_natCast`), and doubling only moves the exponent. So without jitter,
and with a base and a limit that fit, the delay is the integer that the doubled and cut base is
(`Backoff.Plain.delay_eq`), although the doubled base may be far too long itself.
-/

namespace GameFleet

/-! ## Rounding whole numbers -/

namespace Rounding

theorem floor_natCast (n : Nat) : (n : Rat).floor = n := Rat.floor_intCast n

theorem nearestWhole_natCast (n : Nat) : nearestWhole (n : Rat) = n := by
  unfold nearestWhole
  rw [floor_natCast]
  exact if_pos (.inl (by simp))

/-- A whole number of at most 53 bits is scaled to one of exactly 53. -/
theorem exponent_natCast {n : Nat} (hn : n ≠ 0) (h : n < 2 ^ 53) :
    exponent (n : Rat) = -((52 - n.log2 : Nat) : Int) := by
  have hlog : n.log2 < 53 := (Nat.log2_lt hn).2 h
  have hpow : ((2 ^ n.log2 : Nat) : Rat) ≤ (n : Rat) := by
    exact_mod_cast Nat.log2_self_le hn
  have hden : ((n : Rat).den.log2 : Int) = 0 := by
    rw [Rat.den_natCast]
    decide
  have hnum : ((n : Rat).num.natAbs.log2 : Int) = n.log2 := by
    rw [Rat.num_natCast, Int.natAbs_natCast]
  unfold exponent
  dsimp only
  split
  next hlt =>
    rw [hden, hnum, sub_zero, sub_add_cancel, zpow_natCast] at hlt
    push_cast at hpow
    linarith
  next =>
    rw [hden, hnum]
    omega

/-- Whole numbers of at most 53 bits are not rounded. -/
theorem nearest_natCast {n : Nat} (h : n < 2 ^ 53) : nearest (n : Rat) = n := by
  by_cases hn : n = 0
  · subst hn
    simp [nearest]
  · have hpos : ¬(n : Rat) ≤ 0 := by
      rw [not_le]
      exact_mod_cast Nat.pos_of_ne_zero hn
    unfold nearest
    rw [if_neg hpos, exponent_natCast hn h]
    have hscaled : (n : Rat) / 2 ^ (-((52 - n.log2 : Nat) : Int)) =
        ((n * 2 ^ (52 - n.log2) : Nat) : Rat) := by
      rw [zpow_neg, zpow_natCast, div_inv_eq_mul]
      push_cast
      rfl
    dsimp only
    rw [hscaled, nearestWhole_natCast, zpow_neg, zpow_natCast]
    push_cast
    field_simp

theorem lesser_natCast (m n : Nat) : lesser (m : Rat) n = (min m n : Nat) := by
  unfold lesser
  split
  next h => rw [min_eq_left (by exact_mod_cast h)]
  next h => rw [min_eq_right (by exact_mod_cast (not_le.1 h).le)]

end Rounding

/-! ## The curve -/

namespace Backoff

/-- The policy has no jitter, and its delays go from `base` to `limit` milliseconds, whole
numbers of at most 53 bits. -/
structure Plain (b : Backoff) (base limit : Nat) : Prop where
  base_eq : b.base = base * 1000
  limit_eq : b.limit = limit * 1000
  base_lt : base < 2 ^ 53
  limit_lt : limit < 2 ^ 53
  jitter_le : b.jitter ≤ 0

namespace Plain

variable {b : Backoff} {base limit : Nat}

theorem curve_eq (h : b.Plain base limit) (failures : Nat) :
    b.curve failures = (min (base * 2 ^ min failures 62) limit : Nat) := by
  unfold curve
  rw [h.base_eq, h.limit_eq, Nat.mul_div_cancel _ (by decide), Nat.mul_div_cancel _ (by decide),
    Rounding.nearest_natCast h.base_lt, Rounding.nearest_natCast h.limit_lt, Nat.pow_eq,
    ← Nat.cast_mul, Rounding.lesser_natCast]

theorem spread_eq (h : b.Plain base limit) (failures : Nat) : b.spread failures = 0 := by
  have hlesser : Rounding.lesser b.jitter 1 = b.jitter :=
    if_pos (h.jitter_le.trans zero_le_one)
  have hgreater : Rounding.greater 0 b.jitter = 0 := by
    unfold Rounding.greater
    split
    next hle => exact le_antisymm h.jitter_le hle
    next => rfl
  rw [spread, hlesser, hgreater, mul_zero]

/-- The delay is the doubled base, cut at the limit, to the millisecond. -/
theorem delay_eq (h : b.Plain base limit) (failures : Nat) (noise : Rat) :
    b.delay failures noise = min (base * 2 ^ min failures 62) limit := by
  have hlongest : min (base * 2 ^ min failures 62) limit ≤ longest :=
    (Nat.min_le_right _ _).trans (h.limit_lt.le.trans (by decide))
  unfold delay
  rw [h.spread_eq, mul_zero, add_zero, h.curve_eq, Rounding.greater, if_pos (Nat.cast_nonneg _),
    Rounding.floor_natCast, Int.toNat_natCast, min_eq_left hlongest]

end Plain

end Backoff

end GameFleet
