import Mathlib
import RehashReport.Chart.Axis
import RehashReport.Proofs.Number.Integer

/-!
# What labels say

Both kinds of axis labels show a whole number by its decimal numeral, so different whole numbers
never share a label (`rehashCountLabel_natCast`, `shareLabel_natCast`).

A position on the axis of rehash counts has a label just if it is less than a billionth from an
integer (`rehashCountLabel_of_near`, `rehashCountLabel_of_far`).  The program compares with a
rounded billionth, but the distance is exact and no number lies between the two
(`lt_tolerance_iff`).  What is labelled is not the integer itself but what becomes of it in 64 bits
with a sign.
-/

namespace RehashReport.Chart

open Binary64
open Rounding (nearestAway nearestAway_eq)

/-! ## Rehash counts -/

theorem labelTolerance_hasValue : HasValue labelTolerance (rounded (1 / 10 ^ 9)) := by
  have h := ofRat_hasValue (q := 1 / 10 ^ 9) (by norm_num) (lt_safeLimit (by norm_num))
  rwa [show (1 : ℚ) / 10 ^ 9 = 1 / 1000000000 by norm_num] at h ⊢

/-- The billionth is rounded up, to the first magnitude that is not less. -/
theorem lt_tolerance_iff {q : ℚ} (h : IsMagnitude q) :
    q < rounded (1 / 10 ^ 9) ↔ q < 1 / 10 ^ 9 := by
  have hup : (1 / 10 ^ 9 : ℚ) ≤ rounded (1 / 10 ^ 9) := by decide +kernel
  constructor
  · intro hlt
    by_contra hge
    have hmono := rounded_mono (by norm_num) (not_lt.1 hge)
    rw [h.rounded_eq] at hmono
    exact absurd hlt (not_lt.2 hmono)
  · intro hlt
    exact hlt.trans_le hup

section

variable {v : Binary64} {q : ℚ} (hv : IsWorth v q) (hlimit : |q| < safeLimit)

include hv hlimit

/-- The test compares the exact distance with the exact billionth. -/
theorem abs_sub_nearest_lt_iff :
    (v - v.nearest).abs < labelTolerance ↔ |q - nearestAway q| < 1 / 10 ^ 9 := by
  have hdistance := hv.abs_sub_nearest hlimit
  rw [hdistance.isWorth.lt_iff labelTolerance_hasValue.isWorth]
  exact lt_tolerance_iff hdistance.isMagnitude

/-- Near an integer, the label is what 64 bits with a sign make of the integer. -/
theorem rehashCountLabel_of_near {n : ℤ} (hn : |q - n| < 1 / 10 ^ 9) :
    rehashCountLabel v = (max (-2 ^ 63) (min (2 ^ 63 - 1) n)).repr := by
  have hnearest : nearestAway q = n := nearestAway_eq (hn.trans (by norm_num))
  have hworth := hv.nearest hlimit
  rw [← hnearest] at hn
  rw [rehashCountLabel, if_pos ((abs_sub_nearest_lt_iff hv hlimit).2 hn), toInt64,
    hworth.toIntWithin_eq, hnearest]
  rfl

/-- Near a natural number it is a numeral, of that number or of the greatest one that fits. -/
theorem rehashCountLabel_of_near_natCast {n : ℕ} (hn : |q - n| < 1 / 10 ^ 9) :
    rehashCountLabel v = Nat.repr (min (2 ^ 63 - 1) n) := by
  rw [← Int.cast_natCast] at hn
  rw [rehashCountLabel_of_near hv hlimit hn,
    show max (-2 ^ 63) (min (2 ^ 63 - 1) (n : ℤ)) = (min (2 ^ 63 - 1) n : ℕ) by omega]
  rfl

/-- Away from all integers there is no label. -/
theorem rehashCountLabel_of_far (h : ∀ n : ℤ, 1 / 10 ^ 9 ≤ |q - n|) : rehashCountLabel v = "" := by
  rw [rehashCountLabel, if_neg]
  rw [abs_sub_nearest_lt_iff hv hlimit, not_lt]
  exact h _

end

/-- A rehash count is labelled with its numeral. -/
theorem rehashCountLabel_natCast {n : ℕ} (h : n < 2 ^ 52) :
    rehashCountLabel (.ofNat n) = n.repr := by
  have hvalue := (natCast_hasValue (n := n) (by omega)).isWorth
  have hbound : |(n : ℚ)| ≤ 2 ^ 53 := by
    rw [Nat.abs_cast]
    exact_mod_cast (by omega : n ≤ 2 ^ 53)
  have hsame : |(n : ℚ) - n| < 1 / 10 ^ 9 := by
    rw [sub_self, abs_zero]
    norm_num
  rw [rehashCountLabel_of_near_natCast hvalue (lt_safeLimit_of_le hbound) hsame,
    min_eq_right (by omega)]

/-! ## Shares -/

/-- A whole share is labelled with its numeral and a percent sign. -/
theorem shareLabel_natCast {n : ℕ} (h : n ≤ 2 ^ 53) : shareLabel (.ofNat n) = n.repr ++ "%" := by
  obtain ⟨code, hcode, hvalue⟩ := natCast_hasValue h
  have hunits : Rounding.nearestEven (magnitude code * (Nat.pow 10 0 : ℕ)) = n := by
    rw [hvalue, Nat.pow_eq, pow_zero, Nat.cast_one, mul_one, ← Int.cast_natCast,
      Rounding.nearestEven_intCast]
  rw [shareLabel, hcode, fixed, withSign]
  dsimp only
  rw [hunits]
  rfl

theorem percent_injective : Function.Injective fun n : ℕ => n.repr ++ "%" := by
  intro m n h
  exact Nat.repr_injective ((String.append_left_inj "%").1 h)

end RehashReport.Chart
