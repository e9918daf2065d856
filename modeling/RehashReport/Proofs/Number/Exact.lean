import Mathlib
import RehashReport.Proofs.Number.Arithmetic

/-!
# Results that are not rounded

Which exact results a floating-point operation keeps.  `IsMagnitude q` says that `q` is one of the
magnitudes; rounding leaves such numbers alone (`IsMagnitude.rounded_eq`) and does not lead past
them (`IsMagnitude.rounded_le`, `IsMagnitude.le_rounded`).  Numbers of up to 53 digits, with some of
them behind the point or none, are magnitudes (`isMagnitude_div_two_pow`, `isMagnitude_natCast`),
and so is what is between a magnitude and a whole number that is not too far from it
(`IsMagnitude.abs_sub_natCast`, `IsMagnitude.sub_natCast`).  Whole numbers of more digits are
rounded, but to whole numbers (`exists_rounded_natCast`), as there are no other magnitudes that are
as large (`IsMagnitude.exists_natCast`).

Between a magnitude and the next one there is room for the error of a quotient, so a quotient that
is less than a whole number is not rounded up to it (`rounded_div_lt`).
-/

namespace RehashReport.Binary64

/-- A number that has a code. -/
def IsMagnitude (q : ℚ) : Prop := ∃ code, magnitude code = q

theorem isMagnitude_rounded (q : ℚ) : IsMagnitude (rounded q) := ⟨_, rfl⟩

theorem HasValue.isMagnitude {x : Binary64} {q : ℚ} (h : HasValue x q) : IsMagnitude q := by
  obtain ⟨code, -, hq⟩ := h
  exact ⟨code, hq⟩

theorem IsMagnitude.nonneg {q : ℚ} (h : IsMagnitude q) : 0 ≤ q := by
  obtain ⟨code, rfl⟩ := h
  exact magnitude_nonneg code

theorem IsMagnitude.rounded_eq {q : ℚ} (h : IsMagnitude q) : rounded q = q := by
  obtain ⟨code, rfl⟩ := h
  rw [rounded, nearestCode_magnitude]

/-- Rounding does not lead past a magnitude above. -/
theorem IsMagnitude.rounded_le {q r : ℚ} (h : IsMagnitude r) (hq : 0 ≤ q) (hle : q ≤ r) :
    rounded q ≤ r := by
  rw [← h.rounded_eq]
  exact rounded_mono hq hle

/-- Rounding does not lead past a magnitude below. -/
theorem IsMagnitude.le_rounded {q r : ℚ} (h : IsMagnitude r) (hle : r ≤ q) : r ≤ rounded q := by
  rw [← h.rounded_eq]
  exact rounded_mono h.nonneg hle

/-! ## Whole numbers and their parts -/

/-- A number of at most `2 ^ 53` units of some grid is a magnitude. -/
theorem isMagnitude_mul_unit {m : ℕ} (k : ℕ) (hm : m ≤ 2 * binadeSize) :
    IsMagnitude (m * unit k) := by
  rw [← rounded_mul_unit k hm]
  exact isMagnitude_rounded _

theorem unit_add (k l : ℕ) : unit (k + l) = 2 ^ l * unit k := by
  rw [unit, unit, Nat.cast_add, ← add_assoc, zpow_add₀ two_ne_zero, zpow_natCast, mul_comm]

/-- Below one there is a grid for every power of two. -/
theorem unit_of_add_eq {k l : ℕ} (h : k + l = 1074) : unit k = 1 / 2 ^ l := by
  have hone := unit_whole
  rw [← h, unit_add] at hone
  rw [eq_div_iff (by positivity), mul_comm]
  exact hone

/-- Numbers of 53 digits with some of them behind the point are magnitudes. -/
theorem isMagnitude_div_two_pow {m l : ℕ} (hm : m ≤ 2 ^ 53) (hl : l ≤ 1074) :
    IsMagnitude (m / 2 ^ l) := by
  have h := isMagnitude_mul_unit (m := m) (1074 - l) (by norm_num [binadeSize]; omega)
  rwa [unit_of_add_eq (Nat.sub_add_cancel hl), mul_one_div] at h

theorem isMagnitude_natCast {n : ℕ} (h : n ≤ 2 ^ 53) : IsMagnitude n := by
  have hn := isMagnitude_div_two_pow (l := 0) h (Nat.zero_le _)
  rwa [pow_zero, div_one] at hn

/-- Natural numbers of up to 53 digits are converted as they are. -/
theorem natCast_hasValue {n : ℕ} (h : n ≤ 2 ^ 53) : HasValue (ofNat n) n := by
  have hn : ((n : ℕ) : ℚ) ≤ 2 ^ 53 := by exact_mod_cast h
  have hvalue := ofNat_hasValue (lt_safeLimit (hn.trans (by norm_num)))
  rwa [(isMagnitude_natCast h).rounded_eq] at hvalue

theorem isMagnitude_zero : IsMagnitude 0 := ⟨0, magnitude_zero⟩

theorem isMagnitude_one : IsMagnitude 1 := by
  simpa using isMagnitude_natCast (n := 1) (by norm_num)

/-- Quarters of whole numbers are magnitudes. -/
theorem isMagnitude_quarters {n : ℕ} (h : n ≤ 2 ^ 53) : IsMagnitude (n / 4) := by
  have hn := isMagnitude_div_two_pow (l := 2) h (by norm_num)
  norm_num at hn
  exact hn

/-- Halves of whole numbers are magnitudes. -/
theorem isMagnitude_halves {n : ℕ} (h : n ≤ 2 ^ 53) : IsMagnitude (n / 2) := by
  have hn := isMagnitude_div_two_pow (l := 1) h (by norm_num)
  rwa [pow_one] at hn

theorem isMagnitude_half : IsMagnitude (1 / 2) := by
  have h := isMagnitude_halves (n := 1) (by norm_num)
  rwa [Nat.cast_one] at h

/-- Powers of two are magnitudes, however large they are. -/
theorem isMagnitude_two_pow (k : ℕ) : IsMagnitude (2 ^ k) := by
  have hgrid := isMagnitude_mul_unit (m := 1) (1074 + k) (by norm_num [binadeSize])
  rwa [unit_add, unit_whole, Nat.cast_one, one_mul, mul_one] at hgrid

/-- Every magnitude is a multiple of the least one. -/
theorem IsMagnitude.exists_mul_unit {q : ℚ} (h : IsMagnitude q) : ∃ n : ℕ, q = n * unit 0 := by
  obtain ⟨code, rfl⟩ := h
  obtain ⟨k, m, rfl, hm, hk⟩ := exists_grid code
  have hunit := unit_add 0 k
  rw [zero_add] at hunit
  refine ⟨m * 2 ^ k, ?_⟩
  rw [magnitude_grid hm.le hk, hunit]
  push_cast
  ring

/-- From `2 ^ 53` on, all magnitudes are whole numbers. -/
theorem IsMagnitude.exists_natCast {q : ℚ} (h : IsMagnitude q) (hq : 2 ^ 53 ≤ q) :
    ∃ n : ℕ, q = n := by
  obtain ⟨code, rfl⟩ := h
  obtain ⟨k, m, rfl, hm, hk⟩ := exists_grid code
  rw [magnitude_grid hm.le hk] at hq ⊢
  have hu := unit_pos k
  -- a grid with units below one holds no number that is large enough
  have hk1074 : 1074 ≤ k := by
    by_contra hlt
    have hunit : unit k ≤ unit 1074 := unit_mono (by omega)
    rw [unit_whole] at hunit
    have hsize : (m : ℚ) < 2 ^ 53 := by
      have hcast : (m : ℚ) < ((2 * binadeSize : ℕ) : ℚ) := by exact_mod_cast hm
      norm_num [binadeSize] at hcast ⊢
      exact hcast
    nlinarith
  obtain ⟨l, rfl⟩ := Nat.exists_eq_add_of_le hk1074
  refine ⟨m * 2 ^ l, ?_⟩
  rw [unit_add, unit_whole]
  push_cast
  ring

/-- Rounding takes whole numbers to whole numbers, however large they are. -/
theorem exists_rounded_natCast (n : ℕ) : ∃ m : ℕ, rounded n = m := by
  by_cases hn : n ≤ 2 ^ 53
  · exact ⟨n, (isMagnitude_natCast hn).rounded_eq⟩
  · have hlarge : ((2 ^ 53 : ℕ) : ℚ) ≤ n := by exact_mod_cast (not_le.1 hn).le
    have hrounded := (isMagnitude_natCast le_rfl).le_rounded hlarge
    exact (isMagnitude_rounded n).exists_natCast (by exact_mod_cast hrounded)

/-- What is between a magnitude and a whole number is a magnitude too, if it is no more than the
first one. -/
theorem IsMagnitude.abs_sub_natCast {q : ℚ} (h : IsMagnitude q) (hq : q < 2 ^ 53) {n : ℕ}
    (hn : |q - n| ≤ q) : IsMagnitude |q - n| := by
  obtain ⟨code, rfl⟩ := h
  obtain ⟨k, m, rfl, hm, hk⟩ := exists_grid code
  rw [magnitude_grid hm.le hk] at hq hn ⊢
  have hu := unit_pos k
  -- a grid with units above one holds no number that is small enough
  have hk : k ≤ 1074 := by
    by_contra hlt
    have hm' : binadeSize ≤ m := hk.resolve_left (by omega)
    have hm' : (2 ^ 52 : ℚ) ≤ m := by
      have hcast : ((binadeSize : ℕ) : ℚ) ≤ m := by exact_mod_cast hm'
      norm_num [binadeSize] at hcast ⊢
      exact hcast
    have hunit : unit 1075 ≤ unit k := unit_mono (by omega)
    rw [unit_succ, unit_whole] at hunit
    nlinarith
  obtain ⟨l, hl⟩ := Nat.exists_eq_add_of_le hk
  have hunit := unit_of_add_eq (k := k) (l := l) hl.symm
  have hone : (n : ℚ) = (n * 2 ^ l : ℕ) * unit k := by
    rw [hunit]
    push_cast
    field_simp
  -- both are whole units, and so is what is between them
  have hdistance : |(m : ℚ) * unit k - n| = ((m : ℤ) - (n * 2 ^ l : ℕ)).natAbs * unit k := by
    rw [hone, ← sub_mul, abs_mul, abs_of_pos hu, Nat.cast_natAbs]
    push_cast
    ring
  rw [hdistance] at hn ⊢
  have hle : ((m : ℤ) - (n * 2 ^ l : ℕ)).natAbs ≤ m := by
    exact_mod_cast le_of_mul_le_mul_right hn hu
  exact isMagnitude_mul_unit k (hle.trans hm.le)

/-- A magnitude loses no digit with a whole number taken from it. -/
theorem IsMagnitude.sub_natCast {q : ℚ} (h : IsMagnitude q) (hq : q < 2 ^ 53) {n : ℕ}
    (hn : n ≤ q) : IsMagnitude (q - n) := by
  have hdistance : |q - n| = q - n := abs_of_nonneg (sub_nonneg.2 hn)
  rw [← hdistance]
  refine h.abs_sub_natCast hq ?_
  rw [hdistance]
  exact sub_le_self q (Nat.cast_nonneg n)

/-- Every double of a magnitude is a magnitude, and rounding commutes with doubling. -/
theorem rounded_two_mul {q : ℚ} (h : leastNormal ≤ q) : rounded (2 * q) = 2 * rounded q := by
  have hpos : 0 < q := by
    have hsize : (0 : ℚ) < binadeSize := by norm_num [binadeSize]
    have : 0 < leastNormal := mul_pos hsize (unit_pos 0)
    linarith
  obtain ⟨k, hk⟩ := exists_inBinade hpos
  have hlow : binadeSize * unit k ≤ q := by
    rcases hk.2 with rfl | hle
    · exact h
    · exact hle
  have hu := unit_pos k
  have hk' : InBinade (k + 1) (2 * q) := by
    refine ⟨?_, Or.inr ?_⟩ <;> rw [unit_succ]
    · linarith [hk.1]
    · linarith
  rw [rounded_of_inBinade hpos hk, rounded_of_inBinade (by linarith) hk', unit_succ,
    mul_div_mul_left _ _ two_ne_zero]
  ring

/-! ## Room between magnitudes -/

/-- A magnitude is less than a greater one by at least the error of rounding. -/
theorem IsMagnitude.le_mul_of_lt {q r : ℚ} (hq : IsMagnitude q) (hr : IsMagnitude r) (h : q < r) :
    q ≤ r * (1 - roundoff) := by
  obtain ⟨i, rfl⟩ := hq
  obtain ⟨j, rfl⟩ := hr
  have hij : i < j := magnitude_strictMono.lt_iff_lt.1 h
  obtain ⟨c, rfl⟩ : ∃ c, j = c + 1 := ⟨j - 1, by omega⟩
  refine (magnitude_strictMono.monotone (Nat.le_of_lt_succ hij)).trans ?_
  obtain ⟨k, m, rfl, hm, hk⟩ := exists_grid c
  rw [add_assoc, magnitude_grid hm.le hk, magnitude_grid hm (by omega)]
  have hu := unit_pos k
  have hsize : (0 : ℚ) < 2 * binadeSize := by norm_num [binadeSize]
  have hcount : ((m + 1 : ℕ) : ℚ) * roundoff ≤ 1 := by
    rw [roundoff, mul_one_div, div_le_one hsize]
    exact_mod_cast hm
  push_cast at hcount ⊢
  nlinarith

/-- A quotient of magnitudes that is less than a whole number stays below it. -/
theorem rounded_div_lt {q s : ℚ} {n : ℕ} (hq : IsMagnitude q) (hs : 0 < s)
    (hns : IsMagnitude (n * s)) (h : q < n * s) : rounded (q / s) < n := by
  have hgap := hq.le_mul_of_lt hns h
  have hroundoff : 0 < roundoff := by norm_num [roundoff, binadeSize]
  have hn : (0 : ℚ) < n := by
    have := hq.nonneg
    by_contra hle
    nlinarith
  have hquotient : q / s ≤ n * (1 - roundoff) := by
    rw [div_le_iff₀ hs]
    linarith
  by_cases hnormal : leastNormal ≤ q / s
  · calc rounded (q / s) ≤ q / s * (1 + roundoff) := rounded_le_mul hnormal
      _ ≤ n * (1 - roundoff) * (1 + roundoff) := by gcongr
      _ = n - n * roundoff ^ 2 := by ring
      _ < n := sub_lt_self _ (by positivity)
  · -- what is less than the normal numbers is also less than one
    have hnormal' : leastNormal ≤ 1 / 2 := leastNormal_le_inv_two_pow (l := 1) (by norm_num)
    have hhalf : q / s ≤ 1 / 2 := by linarith
    have hle : rounded (q / s) ≤ 1 / 2 :=
      isMagnitude_half.rounded_le (div_nonneg hq.nonneg hs.le) hhalf
    have hn : 1 ≤ n := by exact_mod_cast hn
    have hn : (1 : ℚ) ≤ n := by exact_mod_cast hn
    linarith

/-- A whole number that is divided and multiplied by a small one comes back to within a quarter. -/
theorem abs_rounded_div_mul_sub_le {k n : ℕ} (hk : k ≤ 2 ^ 51) (hn : 0 < n) (hn' : n ≤ 16) :
    |rounded (k / n) * n - k| ≤ 1 / 4 := by
  rcases Nat.eq_zero_or_pos k with rfl | hpos
  · simp
  have hn0 : (0 : ℚ) < n := by exact_mod_cast hn
  have hk1 : (1 : ℚ) ≤ k := by exact_mod_cast hpos
  have hnormal : leastNormal ≤ (k : ℚ) / n := by
    refine (leastNormal_le_inv_two_pow (l := 4) (by norm_num)).trans ?_
    have hn16 : (n : ℚ) ≤ 2 ^ 4 := by exact_mod_cast hn'
    gcongr
  have hround : (k : ℚ) * roundoff ≤ 1 / 4 := by
    have hk51 : (k : ℚ) ≤ 2 ^ 51 := by exact_mod_cast hk
    norm_num [roundoff, binadeSize]
    linarith
  calc |rounded (k / n) * n - k| = |(rounded (k / n) - k / n) * n| := by
        congr 1
        field_simp
    _ = |rounded ((k : ℚ) / n) - k / n| * n := by rw [abs_mul, abs_of_pos hn0]
    _ ≤ k / n * roundoff * n := by
        gcongr
        exact abs_rounded_sub_le_mul hnormal
    _ = k * roundoff := by field_simp
    _ ≤ 1 / 4 := hround

end RehashReport.Binary64
