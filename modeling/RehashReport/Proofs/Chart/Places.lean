import Mathlib
import RehashReport.Proofs.Chart.Points

/-!
# Points in the middle of places

The axis that has a place for each of the numbers `0, 1, …, n - 1`.  Its range begins half a place
below the first number and ends half a place above the last one (`Covers`).  Steps of whole places
give at most `n + 1` points, so the search passes through all of them (`Covers.pointCount_le`).
Halves of places give `2 n + 1` points, the middles and the ends of all places, and end the search
(`Covers.lt_pointCount_halves`).  What remains is the step of one place, whose multiples in the
range are the numbers themselves (`Covers.keyPointsFrom_eq`).
-/

namespace RehashReport.Chart

open Binary64

/-- `Covers r n`: the range of `n` places, with half a place on either side of their middles. -/
structure Covers (r : Range) (n : ℕ) : Prop where
  pos : 0 < n
  lt : n < 2 ^ 50
  low : IsWorth r.low (-1 / 2)
  high : HasValue r.high (n - 1 / 2)

theorem closest_neg_half : closest (-1 / 2) = -1 / 2 := by
  rw [neg_div, closest_neg, isMagnitude_half.closest_eq]

/-- Half a place is too little to be seen in the largest step, which is even. -/
theorem rounded_largest_step : rounded ((5 * 10 ^ 15 : ℕ) - 1 / 2) = (5 * 10 ^ 15 : ℕ) := by
  decide +kernel

/-- No other step has more than 52 digits. -/
theorem eq_largest_step {c k : ℕ} (hc : c ≤ 5) (hk : k ≤ 15) (h : 2 ^ 52 < c * 10 ^ k) :
    c * 10 ^ k = 5 * 10 ^ 15 := by
  rcases hk.lt_or_eq with hlt | rfl
  · have hpow : 10 ^ k ≤ 10 ^ 14 := Nat.pow_le_pow_right (by norm_num) (by omega)
    have := Nat.mul_le_mul hc hpow
    omega
  · omega

namespace Covers

open Range

variable {r : Range} {n : ℕ} (h : Covers r n) {step : Binary64} {s : ℕ}

include h

theorem one_le : (1 : ℚ) ≤ n := by exact_mod_cast h.pos

theorem cast_le : (n : ℚ) ≤ 2 ^ 50 := by exact_mod_cast h.lt.le

theorem width_hasValue : HasValue r.width n := by
  have hlt := h.lt
  have hone := h.one_le
  have hcast := h.cast_le
  have hwidth := h.high.sub h.low (by linarith) (lt_safeLimit (by linarith))
  rwa [show (n : ℚ) - 1 / 2 - -1 / 2 = n by ring,
    (isMagnitude_natCast (by omega)).rounded_eq] at hwidth

/-! ### The ends in steps -/

/-- The low end lies in the step that ends with zero, so the whole part of its quotient is `-1`. -/
theorem floor_div_low (hs : HasValue step s) (hs1 : 0 < s) (hsb : s ≤ 2 ^ 53) :
    IsWorth (r.low / step).floor (-1 : ℤ) := by
  have hs0 : (1 : ℚ) ≤ s := by exact_mod_cast hs1
  have hsb : (s : ℚ) ≤ 2 ^ 53 := by exact_mod_cast hsb
  have hlow : -1 / 2 ≤ -1 / 2 / (s : ℚ) := by
    rw [le_div_iff₀ (by linarith)]
    linarith
  have hhigh : -1 / 2 / (s : ℚ) ≤ -(1 / 2 ^ 54) := by
    rw [div_le_iff₀ (by linarith)]
    linarith
  have hquotient := h.low.div hs (by linarith) (lt_safeLimit_of_le (by
    rw [abs_le]
    constructor <;> linarith))
  have hlow := closest_mono hlow
  have hhigh := closest_mono hhigh
  have hpart := isMagnitude_div_two_pow (m := 1) (l := 54) (by norm_num) (by norm_num)
  rw [Nat.cast_one] at hpart
  rw [closest_neg_half] at hlow
  rw [closest_neg, hpart.closest_eq] at hhigh
  have hfloor : ⌊closest (-1 / 2 / s)⌋ = -1 := by
    rw [Int.floor_eq_iff]
    push_cast
    constructor <;> linarith
  have hbelow := hquotient.floor (by
    rw [hfloor]
    norm_num)
  rwa [hfloor] at hbelow

/-- What the low end is beyond the multiple below it. -/
theorem rest_low (hs : HasValue step s) (hs1 : 0 < s) (hsb : s ≤ 2 ^ 53) :
    IsWorth (r.low - (r.low / step).floor * step) (rounded (s - 1 / 2)) := by
  have hs0 : (1 : ℚ) ≤ s := by exact_mod_cast hs1
  have hsb' : (s : ℚ) ≤ 2 ^ 53 := by exact_mod_cast hsb
  have hproduct := (h.floor_div_low hs hs1 hsb).mul hs.isWorth (lt_safeLimit_of_le (by
    rw [abs_le]
    push_cast
    constructor <;> linarith))
  rw [Int.cast_neg, Int.cast_one, neg_one_mul, closest_neg, closest_natCast hsb] at hproduct
  have hrest := h.low.sub hproduct (lt_safeLimit_of_le (by
    rw [abs_le]
    constructor <;> linarith))
  rwa [show -1 / 2 - -(s : ℚ) = s - 1 / 2 by ring, closest_of_nonneg (by linarith)] at hrest

/-- From the low end on, zero is the first multiple of a step, … -/
theorem first_hasValue (hs : HasValue step s) (hs1 : 0 < s) (hsb : s ≤ 2 ^ 52) :
    HasValue (r.first step) (0 : ℕ) := by
  have hs0 : (1 : ℚ) ≤ s := by exact_mod_cast hs1
  have hsb' : (s : ℚ) ≤ 2 ^ 52 := by exact_mod_cast hsb
  have hhalves := isMagnitude_halves (n := 2 * s - 1) (by omega)
  rw [Nat.cast_sub (by omega)] at hhalves
  push_cast at hhalves
  rw [show (2 * (s : ℚ) - 1) / 2 = s - 1 / 2 by ring] at hhalves
  have hrest := h.rest_low hs hs1 (by omega)
  rw [hhalves.rounded_eq] at hrest
  -- it is half a place short of a step, so it counts
  have hfar : ¬(r.low - (r.low / step).floor * step - step).abs < epsilon := by
    have hsame : (s : ℚ) - 1 / 2 - s = -1 / 2 := by ring
    rw [abs_sub_lt_epsilon_iff hrest hs.isWorth (by norm_num [hsame, abs_of_neg]), hsame,
      closest_neg_half]
    norm_num [abs_of_neg]
  have hleft := h.low.sub hrest (lt_safeLimit_of_le (by
    rw [abs_le]
    constructor <;> linarith))
  rw [show -1 / 2 - ((s : ℚ) - 1 / 2) = -s by ring, closest_neg, closest_natCast (by omega)]
    at hleft
  have hfirst := hleft.add_hasValue hs (by simp) (by
    rw [neg_add_cancel]
    exact lt_safeLimit (by norm_num))
  rw [neg_add_cancel, rounded_zero] at hfirst
  rw [first, Chart.remainder, if_neg hfar, if_pos, Nat.cast_zero]
  · exact hfirst
  · rw [hleft.lt_iff h.low]
    linarith

/-- … unless the step is so large that the half is lost; then it is the low end itself. -/
theorem first_isWorth_of_rounded_eq (hs : HasValue step s) (hs1 : 0 < s) (hsb : s ≤ 2 ^ 53)
    (hround : rounded (s - 1 / 2) = s) : IsWorth (r.first step) (-1 / 2) := by
  have hrest := h.rest_low hs hs1 hsb
  rw [hround] at hrest
  have hnear : (r.low - (r.low / step).floor * step - step).abs < epsilon := by
    rw [abs_sub_lt_epsilon_iff hrest hs.isWorth (by simp), sub_self, closest_zero, abs_zero]
    positivity
  have hleft := h.low.sub zero_hasValue.isWorth (lt_safeLimit_of_le (by norm_num [abs_of_neg]))
  rw [sub_zero, closest_neg_half] at hleft
  rw [first, Chart.remainder, if_pos hnear, if_neg]
  · exact hleft
  · rw [hleft.lt_iff h.low]
    exact lt_irrefl _

/-- The high end is a number of whole steps and a rest. -/
theorem splits_high (hs1 : 0 < s) (hsb : s + n ≤ 2 ^ 53) :
    Splits (n - 1 / 2) s ⌊((n : ℚ) - 1 / 2) / s⌋₊ := by
  have hbound : (s : ℚ) + n ≤ 2 ^ 53 := by exact_mod_cast hsb
  refine splits_natCast h.high.isMagnitude hs1 (by linarith) ?_
  have hpos := h.pos
  rcases Nat.lt_or_ge 1 n with htwo | hone
  · have htwo : (2 : ℚ) ≤ n := by exact_mod_cast htwo
    exact Or.inr (by linarith)
  · have hone : (n : ℚ) ≤ 1 := by exact_mod_cast hone
    exact Or.inl (by linarith)

/-- The high end is a number of half places. -/
theorem splits_halves : Splits ((n : ℚ) - 1 / 2) (1 / 2) (2 * n - 1) := by
  have hpos := h.pos
  have hlt := h.lt
  have hcast := h.cast_le
  have hcount : ((2 * n - 1 : ℕ) : ℚ) = 2 * n - 1 := by
    rw [Nat.cast_sub (by omega)]
    push_cast
    rfl
  have hself : ((2 * n - 1 : ℕ) : ℚ) * (1 / 2) = n - 1 / 2 := by
    rw [hcount]
    ring
  have hnext : ((2 * n - 1 + 1 : ℕ) : ℚ) * (1 / 2) = n := by
    rw [Nat.cast_add_one, hcount]
    ring
  refine ⟨by norm_num, hself.le, ?_, ?_, by omega, ?_, ?_, ?_⟩
  · rw [hnext]
    linarith [show (1 : ℚ) / 2 ^ 52 ≤ 1 / 2 by norm_num]
  · rw [hnext]
    linarith
  · rw [hself]
    exact h.high.isMagnitude
  · rw [hnext]
    exact isMagnitude_natCast (by omega)
  · rw [hself, sub_self]
    exact isMagnitude_zero

/-! ### Counting -/

/-- No two multiples of a step are farther apart than the ends. -/
theorem exists_span {f l : ℚ} (hfirst : IsWorth (r.first step) f) (hlow : -1 / 2 ≤ f)
    (hlast : HasValue (r.last step) l) (hfl : f ≤ l) (hhigh : l ≤ n - 1 / 2) :
    ∃ w, HasValue (r.last step - r.first step) w ∧ w ≤ n := by
  have hlt := h.lt
  have hcast := h.cast_le
  refine ⟨_, hlast.sub hfirst hfl (lt_safeLimit (by linarith)), ?_⟩
  exact (isMagnitude_natCast (by omega)).rounded_le (by linarith) (by linarith)

/-- Steps of whole places give at most one point more than there are places. -/
theorem pointCount_le {k p : ℕ} (hk : k ≤ 15) (hp : p ∈ [2, 5, 10]) :
    r.pointCount (decade (k + 1)) p ≤ n + 1 := by
  have hlt := h.lt
  have hpow : 10 ^ k ≤ 10 ^ 15 := Nat.pow_le_pow_right (by norm_num) hk
  obtain ⟨c, hc, hp0, hp10, hc0, hc5⟩ := exists_cofactor hp
  have hck : c * 10 ^ k ≤ 5 * 10 ^ 15 := Nat.mul_le_mul hc5 hpow
  have hs1 : 0 < c * 10 ^ k := by positivity
  have hstep := part_hasValue (k := k) hc hp0 hp10 (by omega) (by omega)
  set s := c * 10 ^ k with hs
  have hsplits := h.splits_high hs1 (by omega)
  have hlast := last_hasValue hsplits h.high hstep
  -- only a step that is too large for halves leaves the low end as it is
  have hfirst : ∃ f, IsWorth (r.first (decade (k + 1) / .ofNat p)) f ∧ -1 / 2 ≤ f ∧ f ≤ 0 := by
    rcases Nat.lt_or_ge (2 ^ 52) s with hlarge | hsmall
    · have hround := rounded_largest_step
      rw [← eq_largest_step hc5 hk hlarge, ← hs] at hround
      exact ⟨_, h.first_isWorth_of_rounded_eq hstep hs1 (by omega) hround, le_rfl, by norm_num⟩
    · exact ⟨_, (h.first_hasValue hstep hs1 hsmall).isWorth, by norm_num, by norm_num⟩
  obtain ⟨f, hf, hflow, hfzero⟩ := hfirst
  obtain ⟨w, hw, hwn⟩ := h.exists_span hf hflow hlast
    (hfzero.trans hlast.nonneg) hsplits.le
  have hdecade := decade_hasValue (k := k + 1) (by omega)
  have hpd : p ≤ 10 ^ (k + 1) := hp10.trans (Nat.le_self_pow (Nat.succ_ne_zero k) 10)
  refine (pointCount_bounds (k := 0) (l := n) hdecade (by positivity) hp0 (by omega) hw ?_ ?_
    (by omega)).2
  · rw [Nat.cast_zero, zero_mul]
    exact mul_nonneg hw.nonneg (Nat.cast_nonneg p)
  · exact mul_le_mul hwn (by exact_mod_cast hpd) (Nat.cast_nonneg p) (Nat.cast_nonneg n)

/-- The low end is a number of half places. -/
theorem first_halves_isWorth (hs : HasValue step (1 / 2)) :
    IsWorth (r.first step) (-1 / 2) := by
  have hquotient := h.low.div hs (by norm_num) (lt_safeLimit_of_le (by norm_num [abs_of_neg]))
  rw [show (-1 / 2 / (1 / 2) : ℚ) = -1 by norm_num, closest_neg, closest_one] at hquotient
  have hfloor := hquotient.floor (by norm_num)
  rw [show ⌊(-1 : ℚ)⌋ = -1 by norm_num, Int.cast_neg, Int.cast_one] at hfloor
  have hproduct := hfloor.mul hs.isWorth (lt_safeLimit_of_le (by norm_num [abs_of_neg]))
  rw [show (-1 * (1 / 2) : ℚ) = -1 / 2 by norm_num, closest_neg_half] at hproduct
  have hrest := h.low.sub hproduct (lt_safeLimit_of_le (by norm_num))
  rw [sub_self, closest_zero] at hrest
  have hfar : ¬(r.low - (r.low / step).floor * step - step).abs < epsilon := by
    rw [abs_sub_lt_epsilon_iff hrest hs.isWorth (by norm_num [abs_of_neg]), zero_sub, ← neg_div,
      closest_neg_half]
    norm_num [abs_of_neg]
  have hleft := h.low.sub hrest (lt_safeLimit_of_le (by norm_num [abs_of_neg]))
  rw [sub_zero, closest_neg_half] at hleft
  rw [first, Chart.remainder, if_neg hfar, if_neg]
  · exact hleft
  · rw [hleft.lt_iff h.low]
    exact lt_irrefl _

/-- Half places give too many points. -/
theorem lt_pointCount_halves : n + 1 < r.pointCount (decade 0) 2 := by
  have hpos := h.pos
  have hlt := h.lt
  have hcast := h.cast_le
  have hone := h.one_le
  have hdecade := decade_zero_hasValue
  have hstep : HasValue (decade 0 / .ofNat 2) (1 / 2) := by
    have hstep := hdecade.div (natCast_hasValue (n := 2) (by norm_num)) (by norm_num)
      (lt_safeLimit (by norm_num))
    rwa [Nat.cast_two, isMagnitude_half.rounded_eq] at hstep
  have hlast := last_hasValue h.splits_halves h.high hstep
  have hhigh : ((2 * n - 1 : ℕ) : ℚ) * (1 / 2) = n - 1 / 2 := by
    rw [Nat.cast_sub (by omega)]
    push_cast
    ring
  rw [hhigh] at hlast
  have hspan := hlast.sub (h.first_halves_isWorth hstep) (by linarith)
    (lt_safeLimit (by linarith))
  rw [show (n : ℚ) - 1 / 2 - -1 / 2 = n by ring,
    (isMagnitude_natCast (by omega)).rounded_eq] at hspan
  have hcount := (pointCount_bounds (k := 2 * n) (l := 2 * n) hdecade one_pos two_pos (by norm_num)
    hspan (by push_cast; linarith) (by push_cast; linarith) (by omega)).1
  omega

/-! ### The points -/

/-- A decade never has more steps in the range than there are places. -/
theorem floor_width_le {k : ℕ} (hk : k ≤ 22) :
    (r.width / decade k).floor.toNat64 ≤ n := by
  have hlt := h.lt
  have hcast := h.cast_le
  have hone : (1 : ℚ) ≤ 10 ^ k := one_le_pow₀ (by norm_num)
  have hle : (n : ℚ) / 10 ^ k ≤ n := div_le_self (Nat.cast_nonneg n) hone
  have hround : rounded (n / 10 ^ k) ≤ n :=
    (isMagnitude_natCast (by omega)).rounded_le (by positivity) hle
  have hfloor := (h.width_hasValue.div (decade_hasValue hk) (by positivity)
    (lt_safeLimit (by linarith))).floor (by linarith)
  have hnat : ⌊rounded ((n : ℚ) / 10 ^ k)⌋₊ ≤ n := Nat.floor_le_of_le hround
  rw [hfloor.toNat64 (by omega)]
  exact hnat

/-- The search settles on whole places, wherever it starts. -/
theorem spacing_eq {e : ℤ} (he : NearLog n e) :
    r.spacing (n + 1) e = ⟨decade 0, decade 0 / ten⟩ := by
  have hcast := h.cast_le
  obtain ⟨k, rfl, hk⟩ := he.exists_nat (k := 16) (by linarith)
  have hfine : r.refine (n + 1) (decade 0) [2, 5, 10] (decade 0) = (decade 0, false) := by
    rw [refine, if_pos h.lt_pointCount_halves]
  rw [Range.spacing_eq (by have := h.floor_width_le (k := k) (by omega); omega)]
  refine search_eq (Nat.zero_le k) (by omega) ?_ hfine (by rw [decades]; omega)
  intro i hi hik p hp
  obtain ⟨i, rfl⟩ := Nat.exists_eq_succ_of_ne_zero (by omega : i ≠ 0)
  exact h.pointCount_le (by omega) hp

/-- The points of the axis are the places. -/
theorem keyPointsFrom_eq {e : ℤ} (he : NearLog n e) :
    r.keyPointsFrom (n + 1) e = (List.range n).map .ofNat := by
  have hpos := h.pos
  have hlt := h.lt
  have hone := h.one_le
  have hcast := h.cast_le
  have hstep : HasValue (decade 0) (1 : ℕ) := by
    rw [Nat.cast_one]
    exact decade_zero_hasValue
  obtain ⟨g, hgrain, hg⟩ := exists_grain_hasValue (k := 0) (by norm_num)
  have hlast := last_hasValue (h.splits_high one_pos (by omega)) h.high hstep
  have hfloor : ⌊((n : ℚ) - 1 / 2) / (1 : ℕ)⌋₊ = n - 1 := by
    rw [Nat.cast_one, div_one, Nat.floor_eq_iff (by linarith), Nat.cast_sub h.pos, Nat.cast_one]
    constructor <;> linarith
  rw [hfloor, ← Nat.cast_mul] at hlast
  rw [keyPointsFrom_of_wide h.low h.high.isWorth (by linarith) (by linarith), h.spacing_eq he,
    points_eq hstep one_pos hgrain hg (h.first_hasValue hstep one_pos (by norm_num)) hlast
      (by omega), Nat.sub_add_cancel h.pos]
  simp only [Nat.mul_one]

end Covers

end RehashReport.Chart
