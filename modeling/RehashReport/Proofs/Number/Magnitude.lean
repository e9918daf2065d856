import Mathlib
import RehashReport.Number.Binary64
import RehashReport.Proofs.Number.Rounding

/-!
# Magnitudes and their codes

The magnitudes of `Binary64` form one grid for each binary exponent: the codes of the `k`-th grid
are `k * binadeSize + m`, and such a code stands for `m` units of that grid (`magnitude_grid`).
Every positive number lies in just one of these binades, and there the nearest code is read off the
nearest multiple of the unit (`nearestCode_of_inBinade`).

From this come the laws that an error analysis rests on: rounding is monotone (`nearestCode_mono`),
it leaves the magnitudes themselves alone (`nearestCode_magnitude`), no magnitude is nearer than the
one it chooses (`nearestCode_isNearest`), and for numbers that are not too small it is off by at
most one part in `2 ^ 53` (`abs_rounded_sub_le_mul`).
-/

namespace RehashReport.Binary64

open Rounding

/-! ## The grids -/

/-- The unit in the last place of the `k`-th grid. -/
def unit (k : ℕ) : ℚ := (2 : ℚ) ^ (leastExponent + k)

theorem unit_pos (k : ℕ) : 0 < unit k := by
  unfold unit
  positivity

theorem unit_succ (k : ℕ) : unit (k + 1) = 2 * unit k := by
  unfold unit
  push_cast
  rw [← add_assoc, zpow_add_one₀ two_ne_zero, mul_comm]

theorem unit_mono {k l : ℕ} (h : k ≤ l) : unit k ≤ unit l := by
  unfold unit
  exact zpow_le_zpow_right₀ one_le_two (by omega)

/-- The unit of whole numbers. -/
theorem unit_whole : unit 1074 = 1 := by
  norm_num [unit, leastExponent]

/-- A code of the `k`-th grid stands for a number of its units.  The last multiple of a grid is also
the first of the next one. -/
theorem magnitude_grid {k m : ℕ} (hm : m ≤ 2 * binadeSize) (hk : k = 0 ∨ binadeSize ≤ m) :
    magnitude (k * binadeSize + m) = m * unit k := by
  have hsize : 0 < binadeSize := by decide
  unfold magnitude
  by_cases hlast : m = 2 * binadeSize
  · -- the last multiple: its code belongs to the next binade
    subst hlast
    have hcode : k * binadeSize + 2 * binadeSize = (k + 2) * binadeSize := by ring
    rw [hcode, if_neg (by nlinarith), Nat.mul_mod_left, Nat.mul_div_cancel _ hsize]
    rw [show leastExponent + ((k + 2 : ℕ) : ℤ) - 1 = leastExponent + ((k + 1 : ℕ) : ℤ) by
      push_cast; ring]
    rw [← unit, unit_succ]
    push_cast
    ring
  · by_cases hfirst : k * binadeSize + m < binadeSize
    · have hk0 : k = 0 := by
        rcases hk with hk | hk
        · exact hk
        · omega
      subst hk0
      rw [if_pos hfirst]
      simp [unit]
    · -- the code has the quotient `k + 1`, or `1` in the first grid
      obtain ⟨d, hd⟩ : ∃ d, m = binadeSize + d := by
        rcases hk with rfl | hk
        · exact ⟨m - binadeSize, by omega⟩
        · exact ⟨m - binadeSize, by omega⟩
      subst hd
      have hd : d < binadeSize := by omega
      have hcode : k * binadeSize + (binadeSize + d) = d + (k + 1) * binadeSize := by ring
      rw [hcode, if_neg (by nlinarith), Nat.add_mul_mod_self_right, Nat.mod_eq_of_lt hd,
        Nat.add_mul_div_right _ _ hsize, Nat.div_eq_of_lt hd]
      rw [show leastExponent + ((0 + (k + 1) : ℕ) : ℤ) - 1 = leastExponent + (k : ℤ) by
        push_cast; ring]
      rw [← unit]

/-- Every code belongs to a grid. -/
theorem exists_grid (code : ℕ) :
    ∃ k m, code = k * binadeSize + m ∧ m < 2 * binadeSize ∧ (k = 0 ∨ binadeSize ≤ m) := by
  have hsize : 0 < binadeSize := by decide
  by_cases h : code < 2 * binadeSize
  · exact ⟨0, code, by simp, h, Or.inl rfl⟩
  · refine ⟨code / binadeSize - 1, code % binadeSize + binadeSize, ?_, ?_, Or.inr (by omega)⟩
    · have hq : 2 ≤ code / binadeSize := (Nat.le_div_iff_mul_le hsize).2 (by omega)
      obtain ⟨d, hd⟩ : ∃ d, code / binadeSize = d + 1 := ⟨code / binadeSize - 1, by omega⟩
      have hcode := Nat.div_add_mod' code binadeSize
      rw [hd] at hcode ⊢
      rw [Nat.add_sub_cancel]
      linarith
    · have := Nat.mod_lt code hsize
      omega

/-- Neighbouring codes are one unit apart, so the magnitudes have the order of their codes. -/
theorem magnitude_strictMono : StrictMono magnitude := by
  refine strictMono_nat_of_lt_succ ?_
  intro code
  obtain ⟨k, m, rfl, hm, hk⟩ := exists_grid code
  have hk' : k = 0 ∨ binadeSize ≤ m + 1 := by omega
  rw [add_assoc, magnitude_grid hm.le hk, magnitude_grid hm hk']
  push_cast
  nlinarith [unit_pos k]

@[simp] theorem magnitude_zero : magnitude 0 = 0 := by
  simp [magnitude, binadeSize]

theorem magnitude_nonneg (code : ℕ) : 0 ≤ magnitude code := by
  rw [← magnitude_zero]
  exact magnitude_strictMono.monotone (Nat.zero_le code)

/-! ## Binades -/

/-- `InBinade k q`: rounding `q` is done in the `k`-th grid. -/
def InBinade (k : ℕ) (q : ℚ) : Prop :=
  q < 2 * binadeSize * unit k ∧ (k = 0 ∨ binadeSize * unit k ≤ q)

theorem binadeSize_mul_unit (k : ℕ) : binadeSize * unit k = (2 : ℚ) ^ (leastExponent + k + 52) := by
  rw [unit, zpow_add₀ two_ne_zero _ (52 : ℤ), mul_comm, binadeSize]
  norm_num

theorem two_mul_binadeSize_mul_unit (k : ℕ) :
    2 * binadeSize * unit k = (2 : ℚ) ^ (leastExponent + k + 53) := by
  rw [mul_assoc, binadeSize_mul_unit, show leastExponent + (k : ℤ) + 53 = leastExponent + k + 52 + 1
    by ring, zpow_add_one₀ two_ne_zero, mul_comm]

/-- The grid of a number has the unit that its binary exponent gives. -/
theorem unitExponent_eq_iff {q : ℚ} (hq : 0 < q) (k : ℕ) :
    unitExponent q = leastExponent + k ↔ InBinade k q := by
  have hlow := Int.zpow_le_iff_le_log one_lt_two (x := leastExponent + k + 52) hq
  have hhigh := Int.lt_zpow_iff_log_lt one_lt_two (x := leastExponent + k + 53) hq
  unfold InBinade
  rw [two_mul_binadeSize_mul_unit, binadeSize_mul_unit]
  rw [Nat.cast_ofNat] at hlow hhigh
  rw [hlow, hhigh, unitExponent, floorLog2_eq_log hq]
  omega

theorem exists_inBinade {q : ℚ} (hq : 0 < q) : ∃ k, InBinade k q := by
  refine ⟨(unitExponent q - leastExponent).toNat, (unitExponent_eq_iff hq _).1 ?_⟩
  have : leastExponent ≤ unitExponent q := le_max_left _ _
  omega

/-- Greater numbers lie in later binades. -/
theorem InBinade.le_of_le {k l : ℕ} {q r : ℚ} (hk : InBinade k q) (hl : InBinade l r)
    (h : q ≤ r) : k ≤ l := by
  by_contra hlt
  have hq : binadeSize * unit k ≤ q := hk.2.resolve_left (by omega)
  have hunit : unit (l + 1) ≤ unit k := unit_mono (by omega)
  rw [unit_succ] at hunit
  have hsize : (0 : ℚ) < binadeSize := by norm_num [binadeSize]
  nlinarith [hl.1]

/-! ## The nearest code -/

/-- In its binade a number is rounded to a multiple of the unit. -/
theorem nearestCode_of_inBinade {k : ℕ} {q : ℚ} (hq : 0 < q) (h : InBinade k q) :
    nearestCode q = k * binadeSize + (nearestEven (q / unit k)).toNat := by
  unfold nearestCode
  rw [if_neg hq.ne']
  dsimp only
  rw [(unitExponent_eq_iff hq k).2 h, ← unit]
  simp

/-- How many units there are to round to. -/
theorem nearestEven_bounds {k : ℕ} {q : ℚ} (hq : 0 < q) (h : InBinade k q) :
    0 ≤ nearestEven (q / unit k) ∧ nearestEven (q / unit k) ≤ 2 * binadeSize ∧
      (k = 0 ∨ (binadeSize : ℤ) ≤ nearestEven (q / unit k)) := by
  have hu := unit_pos k
  refine ⟨?_, ?_, ?_⟩
  · have := nearestEven_mono (show ((0 : ℤ) : ℚ) ≤ q / unit k by push_cast; positivity)
    simpa only [nearestEven_intCast] using this
  · have hle : q / unit k ≤ ((2 * binadeSize : ℤ) : ℚ) := by
      rw [div_le_iff₀ hu]
      push_cast
      exact h.1.le
    simpa only [nearestEven_intCast] using nearestEven_mono hle
  · refine h.2.imp_right ?_
    intro hle
    have hle : ((binadeSize : ℤ) : ℚ) ≤ q / unit k := by
      rw [le_div_iff₀ hu]
      push_cast
      exact hle
    simpa only [nearestEven_intCast] using nearestEven_mono hle

/-- Rounding keeps the order. -/
theorem nearestCode_mono {q r : ℚ} (hq : 0 ≤ q) (h : q ≤ r) : nearestCode q ≤ nearestCode r := by
  rcases hq.eq_or_lt with rfl | hq
  · simp [nearestCode]
  have hr : 0 < r := hq.trans_le h
  obtain ⟨k, hk⟩ := exists_inBinade hq
  obtain ⟨l, hl⟩ := exists_inBinade hr
  obtain ⟨hq0, hq1, -⟩ := nearestEven_bounds hq hk
  obtain ⟨hr0, -, hr2⟩ := nearestEven_bounds hr hl
  rw [nearestCode_of_inBinade hq hk, nearestCode_of_inBinade hr hl]
  rcases (hk.le_of_le hl h).eq_or_lt with rfl | hlt
  · have hle : q / unit k ≤ r / unit k := by
      have := unit_pos k
      gcongr
    have := nearestEven_mono hle
    omega
  · -- the last multiple of one grid is not beyond the first of a later one
    obtain ⟨d, rfl⟩ : ∃ d, l = k + 1 + d := ⟨l - (k + 1), by omega⟩
    have hr2 := hr2.resolve_left (by omega)
    have : (k + 1 + d) * binadeSize = k * binadeSize + binadeSize + d * binadeSize := by ring
    omega

/-- The magnitude that a number is rounded to. -/
def rounded (q : ℚ) : ℚ := magnitude (nearestCode q)

@[simp] theorem rounded_zero : rounded 0 = 0 := by
  simp [rounded, nearestCode]

theorem rounded_nonneg (q : ℚ) : 0 ≤ rounded q := magnitude_nonneg _

theorem rounded_mono {q r : ℚ} (hq : 0 ≤ q) (h : q ≤ r) : rounded q ≤ rounded r :=
  magnitude_strictMono.monotone (nearestCode_mono hq h)

theorem rounded_of_inBinade {k : ℕ} {q : ℚ} (hq : 0 < q) (h : InBinade k q) :
    rounded q = nearestEven (q / unit k) * unit k := by
  obtain ⟨h0, h1, h2⟩ := nearestEven_bounds hq h
  rw [rounded, nearestCode_of_inBinade hq h, magnitude_grid (by omega) (by omega)]
  congr 1
  exact_mod_cast Int.toNat_of_nonneg h0

/-- A multiple of a unit that fits its grid is a magnitude, and stays as it is. -/
theorem rounded_grid {k m : ℕ} (hm : m < 2 * binadeSize) (hk : k = 0 ∨ binadeSize ≤ m) :
    rounded (m * unit k) = m * unit k := by
  rcases Nat.eq_zero_or_pos m with rfl | hpos
  · simp
  have hu := unit_pos k
  have hq : (0 : ℚ) < m * unit k := by positivity
  have hbinade : InBinade k (m * unit k) := by
    refine ⟨?_, hk.imp_right ?_⟩
    · have : (m : ℚ) < 2 * binadeSize := by exact_mod_cast hm
      nlinarith
    · intro hle
      have : (binadeSize : ℚ) ≤ m := by exact_mod_cast hle
      nlinarith
  rw [rounded_of_inBinade hq hbinade, mul_div_cancel_right₀ _ hu.ne']
  rw [show ((m : ℕ) : ℚ) = ((m : ℤ) : ℚ) by push_cast; rfl, nearestEven_intCast]

/-- Rounding leaves magnitudes alone. -/
theorem nearestCode_magnitude (code : ℕ) : nearestCode (magnitude code) = code := by
  apply magnitude_strictMono.injective
  obtain ⟨k, m, rfl, hm, hk⟩ := exists_grid code
  rw [magnitude_grid hm.le hk]
  exact rounded_grid hm hk

/-- Few significant digits are enough: a number of at most `2 ^ 53` units of any grid is rounded to
itself, also where a finer grid would have served. -/
theorem rounded_mul_unit {m : ℕ} (k : ℕ) (hm : m ≤ 2 * binadeSize) :
    rounded (m * unit k) = m * unit k := by
  induction k generalizing m with
  | zero =>
    have h := magnitude_grid hm (Or.inl (rfl : 0 = 0))
    rw [← h, rounded, nearestCode_magnitude]
  | succ k ih =>
    by_cases hlarge : binadeSize ≤ m
    · have h := magnitude_grid hm (Or.inr hlarge : k + 1 = 0 ∨ binadeSize ≤ m)
      rw [← h, rounded, nearestCode_magnitude]
    · have h := ih (m := 2 * m) (by omega)
      rw [unit_succ, ← mul_assoc, mul_comm (m : ℚ) 2]
      push_cast at h
      exact h

/-- Natural numbers of up to 53 digits are magnitudes. -/
theorem rounded_natCast {n : ℕ} (h : n ≤ 2 * binadeSize) : rounded n = n := by
  simpa [unit_whole] using rounded_mul_unit 1074 h

@[simp] theorem rounded_one : rounded 1 = 1 := by
  simpa using rounded_natCast (n := 1) (by norm_num [binadeSize])

theorem one_le_rounded_natCast {n : ℕ} (h : 0 < n) : 1 ≤ rounded n := by
  rw [← rounded_one]
  exact rounded_mono zero_le_one (by exact_mod_cast h)

/-! ## How far off -/

/-- Rounding moves a number by at most half a unit. -/
theorem abs_rounded_sub_le {k : ℕ} {q : ℚ} (hq : 0 < q) (h : InBinade k q) :
    |rounded q - q| ≤ unit k / 2 := by
  have hu := unit_pos k
  have hq' : q = q / unit k * unit k := by field_simp
  rw [rounded_of_inBinade hq h]
  calc |nearestEven (q / unit k) * unit k - q|
      = |(nearestEven (q / unit k) - q / unit k) * unit k| := by rw [sub_mul, ← hq']
    _ = |(nearestEven (q / unit k) : ℚ) - q / unit k| * unit k := by rw [abs_mul, abs_of_pos hu]
    _ ≤ 1 / 2 * unit k := by gcongr; exact abs_nearestEven_sub_le _
    _ = unit k / 2 := by ring

/-! ## Nearest, ties to even -/

/-- `IsNearest q code`: every other magnitude is farther from `q` than that of the code, or as far,
if the code is even. -/
def IsNearest (q : ℚ) (code : ℕ) : Prop :=
  ∀ other, other ≠ code → |magnitude code - q| < |magnitude other - q| ∨
    |magnitude code - q| = |magnitude other - q| ∧ code % 2 = 0

/-- Above what a number is rounded to, the next magnitude is at least a unit away. -/
theorem unit_le_magnitude_succ_nearestCode_sub {k : ℕ} {q : ℚ} (hq : 0 < q) (h : InBinade k q) :
    unit k ≤ magnitude (nearestCode q + 1) - magnitude (nearestCode q) := by
  obtain ⟨h0, h1, h2⟩ := nearestEven_bounds hq h
  have hu := unit_pos k
  rw [nearestCode_of_inBinade hq h]
  set m := (nearestEven (q / unit k)).toNat with hm
  have hm2 : m ≤ 2 * binadeSize := by omega
  have hk : k = 0 ∨ binadeSize ≤ m := by omega
  rcases hm2.eq_or_lt with hlast | hlt
  · -- the next magnitude is in the next grid
    have hnext : k * binadeSize + m + 1 = (k + 1) * binadeSize + (binadeSize + 1) := by
      rw [hlast]
      ring
    rw [hnext, magnitude_grid hm2 hk, magnitude_grid (by unfold binadeSize; omega)
      (Or.inr (by omega)), unit_succ, hlast]
    push_cast
    nlinarith
  · rw [add_assoc, magnitude_grid hm2 hk, magnitude_grid hlt (by omega)]
    push_cast
    linarith

/-- Where rounding goes up, the magnitude before is a whole unit below. -/
theorem magnitude_pred_nearestCode {k : ℕ} {q : ℚ} (hq : 0 < q) (h : InBinade k q)
    (hup : q < magnitude (nearestCode q)) :
    ∃ code, nearestCode q = code + 1 ∧ magnitude (nearestCode q) - magnitude code = unit k := by
  obtain ⟨h0, h1, h2⟩ := nearestEven_bounds hq h
  have hu := unit_pos k
  rw [nearestCode_of_inBinade hq h] at hup ⊢
  set m := (nearestEven (q / unit k)).toNat with hm
  have hm2 : m ≤ 2 * binadeSize := by omega
  rw [magnitude_grid hm2 (by omega)] at hup ⊢
  -- the first multiple of a later grid is not above the numbers of the grid
  have hpred : ∃ d, m = d + 1 ∧ (k = 0 ∨ binadeSize ≤ d) := by
    have hm0 : m ≠ 0 := by
      intro hzero
      rw [hzero] at hup
      push_cast at hup
      linarith
    refine ⟨m - 1, by omega, ?_⟩
    rcases h.2 with hk | hle
    · exact Or.inl hk
    · have hlt : (binadeSize : ℚ) < m := by
        by_contra hge
        have hle' : (m : ℚ) * unit k ≤ binadeSize * unit k :=
          mul_le_mul_of_nonneg_right (not_lt.1 hge) hu.le
        linarith
      have : binadeSize < m := by exact_mod_cast hlt
      omega
  obtain ⟨d, hd, hk⟩ := hpred
  refine ⟨k * binadeSize + d, by omega, ?_⟩
  rw [magnitude_grid (by omega) hk, hd]
  push_cast
  ring

/-- A tie is resolved to an even code. -/
theorem even_nearestCode_of_tie {k : ℕ} {q : ℚ} (hq : 0 < q) (h : InBinade k q)
    (htie : |rounded q - q| = unit k / 2) : nearestCode q % 2 = 0 := by
  obtain ⟨h0, -, -⟩ := nearestEven_bounds hq h
  have hu := unit_pos k
  have hq' : q = q / unit k * unit k := by field_simp
  have hexcess : |(nearestEven (q / unit k) : ℚ) - q / unit k| = 1 / 2 := by
    rw [rounded_of_inBinade hq h] at htie
    have hmul : |(nearestEven (q / unit k) : ℚ) - q / unit k| * unit k = 1 / 2 * unit k := by
      calc |(nearestEven (q / unit k) : ℚ) - q / unit k| * unit k
          = |(nearestEven (q / unit k) - q / unit k) * unit k| := by rw [abs_mul, abs_of_pos hu]
        _ = |nearestEven (q / unit k) * unit k - q| := by rw [sub_mul, ← hq']
        _ = 1 / 2 * unit k := by rw [htie]; ring
    exact mul_right_cancel₀ hu.ne' hmul
  have heven := even_nearestEven_of_tie hexcess
  rw [nearestCode_of_inBinade hq h]
  have hsize : k * binadeSize = 2 * (k * (binadeSize / 2)) := by
    rw [mul_left_comm]
    rfl
  omega

/-- Rounding takes the nearest magnitude, and of two that are equally near the one with the even
code. -/
theorem nearestCode_isNearest {q : ℚ} (hq : 0 < q) : IsNearest q (nearestCode q) := by
  obtain ⟨k, hk⟩ := exists_inBinade hq
  have hu := unit_pos k
  have hoff := abs_rounded_sub_le hq hk
  have heven := even_nearestCode_of_tie hq hk
  rw [rounded] at hoff heven
  intro other hne
  rcases lt_or_gt_of_ne hne with hlt | hgt
  · by_cases hup : q < magnitude (nearestCode q)
    · obtain ⟨code, hcode, hgap⟩ := magnitude_pred_nearestCode hq hk hup
      have hother : magnitude other ≤ magnitude code :=
        magnitude_strictMono.monotone (by omega)
      rw [abs_of_pos (sub_pos.2 hup)] at hoff heven ⊢
      rw [abs_of_nonpos (by linarith)]
      by_cases htie : magnitude (nearestCode q) - q = -(magnitude other - q)
      · exact Or.inr ⟨htie, heven (by linarith)⟩
      · exact Or.inl (lt_of_le_of_ne (by linarith) htie)
    · have hother := magnitude_strictMono hlt
      rw [abs_of_nonpos (by linarith), abs_of_nonpos (by linarith)]
      exact Or.inl (by linarith)
  · have hgap := unit_le_magnitude_succ_nearestCode_sub hq hk
    have hother : magnitude (nearestCode q + 1) ≤ magnitude other :=
      magnitude_strictMono.monotone hgt
    rcases le_total (magnitude (nearestCode q)) q with hle | hge
    · rw [abs_of_nonpos (by linarith)] at hoff heven ⊢
      rw [abs_of_nonneg (by linarith)]
      by_cases htie : -(magnitude (nearestCode q) - q) = magnitude other - q
      · exact Or.inr ⟨htie, heven (by linarith)⟩
      · exact Or.inl (lt_of_le_of_ne (by linarith) htie)
    · rw [abs_of_nonneg (by linarith), abs_of_nonneg (by linarith)]
      exact Or.inl (by linarith)

/-- `RoundsTo q r`: `r` is the magnitude to which `q` is rounded, to nearest with ties to even. -/
def RoundsTo (q r : ℚ) : Prop :=
  ∃ code, magnitude code = r ∧ IsNearest q code

theorem rounded_roundsTo {q : ℚ} (hq : 0 ≤ q) : RoundsTo q (rounded q) := by
  refine ⟨nearestCode q, rfl, ?_⟩
  rcases hq.eq_or_lt with rfl | hq
  · intro other hne
    have hzero : nearestCode 0 = 0 := by simp [nearestCode]
    rw [hzero] at hne ⊢
    have hpos := magnitude_strictMono (Nat.pos_of_ne_zero hne)
    rw [magnitude_zero] at hpos ⊢
    exact Or.inl (by simpa using hpos.ne')
  · exact nearestCode_isNearest hq

/-! ## The error of many digits -/

/-- The least number from which on all grids have their full number of digits. -/
def leastNormal : ℚ := binadeSize * unit 0

/-- The share by which a rounded number may differ from what it was. -/
def roundoff : ℚ := 1 / (2 * binadeSize)

theorem leastNormal_le_inv_two_pow {l : ℕ} (h : l ≤ 1022) : leastNormal ≤ 1 / 2 ^ l := by
  rw [leastNormal, binadeSize_mul_unit, one_div, ← zpow_natCast, ← zpow_neg]
  exact zpow_le_zpow_right₀ one_le_two (by unfold leastExponent; omega)

theorem leastNormal_le_one : leastNormal ≤ 1 := by
  simpa using leastNormal_le_inv_two_pow (l := 0) (by norm_num)

theorem abs_rounded_sub_le_mul {q : ℚ} (h : leastNormal ≤ q) : |rounded q - q| ≤ q * roundoff := by
  have hu := unit_pos 0
  have hsize : (0 : ℚ) < binadeSize := by norm_num [binadeSize]
  have hq : 0 < q := by
    have : 0 < leastNormal := by unfold leastNormal; positivity
    linarith
  obtain ⟨k, hk⟩ := exists_inBinade hq
  have hunit : binadeSize * unit k ≤ q := by
    rcases hk.2 with rfl | hle
    · exact h
    · exact hle
  calc |rounded q - q| ≤ unit k / 2 := abs_rounded_sub_le hq hk
    _ = binadeSize * unit k * roundoff := by unfold roundoff; field_simp
    _ ≤ q * roundoff := by
        have : 0 < roundoff := by unfold roundoff; positivity
        gcongr

theorem rounded_le_mul {q : ℚ} (h : leastNormal ≤ q) : rounded q ≤ q * (1 + roundoff) := by
  have := (abs_le.1 (abs_rounded_sub_le_mul h)).2
  linarith

end RehashReport.Binary64
