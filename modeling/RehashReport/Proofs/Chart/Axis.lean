import Mathlib
import RehashReport.Chart.Axis
import RehashReport.Proofs.Number.Integer

/-!
# Multiples of a step, without rounding

Where the points of an axis do not feel the rounding of their arithmetic.  `Splits` says that a
number consists of so many steps and a rest, all of them magnitudes; then the last multiple of the
step before it is found exactly (`Range.last_hasValue`).  Counting the multiples divides and
multiplies, which is not exact, but the count is rounded to an integer and comes out right
(`Range.pointCount_bounds`).
-/

namespace RehashReport.Chart

open Binary64

/-! ## Steps and rests -/

theorem isMagnitude_epsilon : IsMagnitude (1 / 2 ^ 52) := by
  have h := isMagnitude_div_two_pow (m := 1) (l := 52) (by norm_num) (by norm_num)
  rwa [Nat.cast_one] at h

theorem epsilon_hasValue : HasValue epsilon (1 / 2 ^ 52) := by
  have h := ofRat_hasValue (q := 1 / 2 ^ 52) (by positivity) (lt_safeLimit (by norm_num))
  rw [isMagnitude_epsilon.rounded_eq] at h
  have hepsilon : epsilon = .ofRat (1 / 2 ^ 52) := by
    rw [epsilon]
    norm_num
  rwa [hepsilon]

/-- A rest counts as none if it is a whole step up to the rounding of their difference. -/
theorem abs_sub_lt_epsilon_iff {rest step : Binary64} {q s : ℚ} (hrest : IsWorth rest q)
    (hs : IsWorth step s) (hbound : |q - s| ≤ 2 ^ 53) :
    (rest - step).abs < epsilon ↔ |closest (q - s)| < 1 / 2 ^ 52 := by
  have hdifference := (hrest.sub hs (lt_safeLimit_of_le hbound)).abs
  exact hdifference.isWorth.lt_iff epsilon_hasValue.isWorth

/-- `Splits q s m`: the number `q` is `m` steps of `s` and a rest that is clearly less than a step,
and neither these nor one step more have to be rounded. -/
structure Splits (q s : ℚ) (m : ℕ) : Prop where
  pos : 0 < s
  le : m * s ≤ q
  gap : q + 1 / 2 ^ 52 ≤ (m + 1 : ℕ) * s
  bound : (m + 1 : ℕ) * s ≤ 2 ^ 53
  count : m < 2 ^ 53
  below : IsMagnitude (m * s)
  above : IsMagnitude ((m + 1 : ℕ) * s)
  rest : IsMagnitude (q - m * s)

/-- Whole steps split every magnitude that is not too large, unless it is close to one. -/
theorem splits_natCast {q : ℚ} (hq : IsMagnitude q) {s : ℕ} (hs : 0 < s)
    (hbound : q + s ≤ 2 ^ 53) (hone : q ≤ 1 / 2 ∨ 1 ≤ q) : Splits q s ⌊q / s⌋₊ := by
  set m := ⌊q / (s : ℚ)⌋₊ with hm
  have hs0 : (0 : ℚ) < s := by exact_mod_cast hs
  have hq0 := hq.nonneg
  have hle : (m : ℚ) * s ≤ q := by
    rw [← le_div_iff₀ hs0]
    exact Nat.floor_le (by positivity)
  have hlt : q < (m + 1 : ℕ) * s := by
    rw [← div_lt_iff₀ hs0, Nat.cast_add_one]
    exact Nat.lt_floor_add_one _
  have habove : ((m + 1 : ℕ) : ℚ) * s ≤ 2 ^ 53 := by
    push_cast
    linarith
  have hcount : (m + 1) * s ≤ 2 ^ 53 := by exact_mod_cast habove
  have hm1 : m + 1 ≤ (m + 1) * s := Nat.le_mul_of_pos_right _ hs
  have hms : m * s ≤ (m + 1) * s := Nat.mul_le_mul_right _ (Nat.le_succ m)
  have hmagnitude := isMagnitude_natCast hcount
  rw [Nat.cast_mul] at hmagnitude
  refine ⟨hs0, hle, ?_, habove, by omega, ?_, hmagnitude, ?_⟩
  · rcases hone with hhalf | hone
    · have h1 : (1 : ℚ) ≤ (m + 1 : ℕ) * s := by
        have : 1 ≤ (m + 1) * s := by omega
        exact_mod_cast this
      linarith
    · -- two or more are so far from the magnitude below
      have h2 : (2 : ℚ) ≤ (m + 1 : ℕ) * s := by
        have hlt : (1 : ℚ) < ((m + 1) * s : ℕ) := by
          push_cast at hlt ⊢
          linarith
        have : 1 < (m + 1) * s := by exact_mod_cast hlt
        exact_mod_cast this
      have hroom := hq.le_mul_of_lt hmagnitude hlt
      have hroundoff : (1 : ℚ) / 2 ^ 52 = 2 * roundoff := by norm_num [roundoff, binadeSize]
      have hpos : 0 < roundoff := by norm_num [roundoff, binadeSize]
      nlinarith
  · have h := isMagnitude_natCast (hms.trans hcount)
    rwa [Nat.cast_mul] at h
  · have h := hq.sub_natCast (n := m * s) (by linarith) (by push_cast; exact hle)
    rwa [Nat.cast_mul] at h

variable {x step : Binary64} {q s : ℚ} {m : ℕ}

/-- The quotient of the two tells how many steps there are. -/
theorem Splits.floor_div (h : Splits q s m) (hx : HasValue x q) (hs : HasValue step s) :
    HasValue (x / step).floor m := by
  have hcount : ((m + 1 : ℕ) : ℚ) ≤ 2 ^ 53 := by exact_mod_cast h.count
  have hlt : q / s < (m + 1 : ℕ) := by
    rw [div_lt_iff₀ h.pos]
    have := h.gap
    have : (0 : ℚ) < 1 / 2 ^ 52 := by positivity
    linarith
  have hquotient := hx.div hs h.pos (lt_safeLimit (by linarith))
  have hrounded : rounded (q / s) < (m + 1 : ℕ) := by
    refine rounded_div_lt hx.isMagnitude h.pos h.above ?_
    rwa [div_lt_iff₀ h.pos] at hlt
  have hle : (m : ℚ) ≤ rounded (q / s) := by
    refine (isMagnitude_natCast h.count.le).le_rounded ?_
    rw [le_div_iff₀ h.pos]
    exact h.le
  have hfloor := hquotient.floor (hrounded.trans_le hcount)
  rwa [(Nat.floor_eq_iff (rounded_nonneg _)).2 ⟨hle, by exact_mod_cast hrounded⟩] at hfloor

/-- The remainder is the rest. -/
theorem Splits.remainder (h : Splits q s m) (hx : HasValue x q) (hs : HasValue step s) :
    HasValue (remainder x step) (q - m * s) := by
  have hq := h.rest.nonneg
  have hbound := h.bound
  have hgap := h.gap
  push_cast at hbound hgap
  have hepsilon : (0 : ℚ) < 1 / 2 ^ 52 := by positivity
  have hproduct : HasValue ((x / step).floor * step) (m * s) := by
    have hproduct := (h.floor_div hx hs).mul hs (lt_safeLimit (by linarith [h.pos]))
    rwa [h.below.rounded_eq] at hproduct
  have hrest : HasValue (x - (x / step).floor * step) (q - m * s) := by
    have hrest := hx.sub hproduct.isWorth (by linarith)
      (lt_safeLimit (by linarith [h.below.nonneg]))
    rwa [h.rest.rounded_eq] at hrest
  have hfar : ¬(x - (x / step).floor * step - step).abs < epsilon := by
    have hsame : q - m * s - s = -((m + 1) * s - q) := by ring
    have hbound : |q - m * s - s| ≤ 2 ^ 53 := by
      rw [abs_le]
      constructor <;> linarith [h.below.nonneg, h.pos]
    rw [abs_sub_lt_epsilon_iff hrest.isWorth hs.isWorth hbound, not_lt, hsame, closest_neg,
      abs_neg, closest_of_nonneg (by linarith), abs_of_nonneg (rounded_nonneg _)]
    exact isMagnitude_epsilon.le_rounded (by linarith)
  rw [Chart.remainder, if_neg hfar]
  exact hrest

namespace Range

variable {r : Range}

/-- The last multiple of a step comes after all the steps. -/
theorem last_hasValue (h : Splits q s m) (hhigh : HasValue r.high q) (hs : HasValue step s) :
    HasValue (r.last step) (m * s) := by
  have hrest := h.remainder hhigh hs
  have hlast := hhigh.sub hrest.isWorth (by linarith [h.below.nonneg]) (by
    rw [sub_sub_cancel]
    exact lt_safeLimit (by linarith [h.le, h.gap, h.bound, h.below.nonneg]))
  rwa [sub_sub_cancel, h.below.rounded_eq] at hlast

/-- The first multiple from zero on is zero. -/
theorem first_of_low_zero (hlow : HasValue r.low 0) (hs : HasValue step s) (hs1 : 1 ≤ s)
    (hbound : s ≤ 2 ^ 53) : HasValue (r.first step) 0 := by
  have hsplits : Splits 0 s 0 := by
    refine ⟨by linarith, by simp, ?_, by simpa using hbound, by norm_num, ?_, ?_, ?_⟩
    · norm_num
      linarith
    · simpa using isMagnitude_zero
    · simpa using hs.isMagnitude
    · simpa using isMagnitude_zero
  have hrest := hsplits.remainder hlow hs
  rw [Nat.cast_zero, zero_mul, sub_zero] at hrest
  have hleft := hlow.sub hrest.isWorth le_rfl (by
    rw [sub_zero]
    exact lt_safeLimit (by norm_num))
  rw [sub_zero, rounded_zero] at hleft
  have hnot : ¬r.low - Chart.remainder r.low step < r.low := by
    rw [hleft.isWorth.lt_iff hlow.isWorth]
    exact lt_irrefl 0
  rw [first, if_neg hnot]
  exact hleft

/-! ## Counting multiples -/

/-- A quotient of a decade, rounded and taken as often as the decade has parts, is within a quarter
of the integers around the exact number of parts. -/
theorem span_bounds {w d : ℚ} {n k l : ℕ} (hw : 0 ≤ w) (hd : 0 < d) (hn : 0 < n) (hn' : n ≤ 16)
    (hk : k * d ≤ w * n) (hl : w * n ≤ l * d) (hl' : l ≤ 2 ^ 51) :
    (k : ℚ) - 1 / 4 ≤ rounded (w / d) * n ∧ rounded (w / d) * n ≤ l + 1 / 4 := by
  have hn0 : (0 : ℚ) < n := by exact_mod_cast hn
  have hkl : k ≤ l := by
    have := le_of_mul_le_mul_right (hk.trans hl) hd
    exact_mod_cast this
  have hlow := (abs_le.1 (abs_rounded_div_mul_sub_le (hkl.trans hl') hn hn')).1
  have hhigh := (abs_le.1 (abs_rounded_div_mul_sub_le hl' hn hn')).2
  have hle : (k : ℚ) / n ≤ w / d := (div_le_div_iff₀ hn0 hd).2 hk
  have hle' : w / d ≤ (l : ℚ) / n := (div_le_div_iff₀ hd hn0).2 hl
  have hmono := mul_le_mul_of_nonneg_right (rounded_mono (by positivity) hle) hn0.le
  have hmono' := mul_le_mul_of_nonneg_right (rounded_mono (by positivity) hle') hn0.le
  constructor <;> linarith

/-- Quarters are magnitudes, so rounding does not leave them, nor does counting one more. -/
theorem one_add_span_bounds {c : ℚ} {k l : ℕ} (hc : 0 ≤ c) (hk : (k : ℚ) - 1 / 4 ≤ c)
    (hl : c ≤ l + 1 / 4) (hkl : k ≤ l) (hl' : l + 2 ≤ 2 ^ 51) :
    rounded c ≤ l + 1 / 4 ∧ (k : ℚ) + 3 / 4 ≤ rounded (1 + rounded c) ∧
      rounded (1 + rounded c) ≤ l + 5 / 4 := by
  have hquarter : ((4 * l + 1 : ℕ) : ℚ) / 4 = l + 1 / 4 := by
    push_cast
    ring
  have hround : rounded c ≤ l + 1 / 4 := by
    rw [← hquarter] at hl ⊢
    exact (isMagnitude_quarters (by omega)).rounded_le hc hl
  have hround' : (k : ℚ) - 1 / 4 ≤ rounded c := by
    rcases Nat.eq_zero_or_pos k with rfl | hpos
    · have := rounded_nonneg c
      push_cast
      linarith
    · have hquarter : ((4 * k - 1 : ℕ) : ℚ) / 4 = k - 1 / 4 := by
        rw [Nat.cast_sub (by omega)]
        push_cast
        ring
      rw [← hquarter] at hk ⊢
      exact (isMagnitude_quarters (by omega)).le_rounded hk
  have hquarter : ((4 * k + 3 : ℕ) : ℚ) / 4 = k + 3 / 4 := by
    push_cast
    ring
  have hquarter' : ((4 * l + 5 : ℕ) : ℚ) / 4 = l + 5 / 4 := by
    push_cast
    ring
  refine ⟨hround, ?_, ?_⟩
  · rw [← hquarter]
    refine (isMagnitude_quarters (by omega)).le_rounded ?_
    linarith
  · rw [← hquarter']
    refine (isMagnitude_quarters (by omega)).rounded_le (by linarith [rounded_nonneg c]) ?_
    linarith

variable {decade : Binary64} {d w : ℚ} {n k l : ℕ}

/-- Between `k` and `l` parts of a decade are counted as `k + 1` to `l + 1` points. -/
theorem pointCount_bounds (hdecade : HasValue decade d) (hd : 0 < d) (hn : 0 < n) (hn' : n ≤ 16)
    (hw : HasValue (r.last (decade / .ofNat n) - r.first (decade / .ofNat n)) w)
    (hk : k * d ≤ w * n) (hl : w * n ≤ l * d) (hl' : l + 2 ≤ 2 ^ 51) :
    k + 1 ≤ r.pointCount decade n ∧ r.pointCount decade n ≤ l + 1 := by
  have hl51 : (l : ℚ) + 2 ≤ 2 ^ 51 := by exact_mod_cast hl'
  have hkl : k ≤ l := by
    have := le_of_mul_le_mul_right (hk.trans hl) hd
    exact_mod_cast this
  have hquotient : w / d ≤ l := by
    rw [div_le_iff₀ hd]
    refine le_trans ?_ hl
    exact le_mul_of_one_le_right hw.nonneg (by exact_mod_cast hn)
  obtain ⟨hspan, hspan'⟩ := span_bounds hw.nonneg hd hn hn' hk hl (by omega)
  set span := rounded (w / d) * n with hspan_eq
  have hspan0 : 0 ≤ span := mul_nonneg (rounded_nonneg _) (Nat.cast_nonneg n)
  obtain ⟨hround, hcount, hcount'⟩ := one_add_span_bounds hspan0 hspan hspan' hkl hl'
  have hone := natCast_hasValue (n := 1) (by norm_num)
  have hparts := natCast_hasValue (n := n) (by omega)
  have hproduct := (hw.div hdecade hd (lt_safeLimit (by linarith))).mul hparts
    (lt_safeLimit (by linarith))
  have hvalue := hone.add hproduct (lt_safeLimit (by push_cast; linarith))
  rw [← hspan_eq, Nat.cast_one] at hvalue
  have hfloor : k + 1 ≤ ⌊rounded (1 + rounded span) + 1 / 2⌋₊ ∧
      ⌊rounded (1 + rounded span) + 1 / 2⌋₊ < l + 2 := by
    rw [Nat.floor_lt (by linarith [hvalue.nonneg])]
    refine ⟨Nat.le_floor ?_, ?_⟩ <;> push_cast <;> linarith
  rw [pointCount, (hvalue.nearest (by linarith)).toNat64 (by omega)]
  omega

end Range

end RehashReport.Chart
