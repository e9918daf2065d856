import Mathlib
import RehashReport.Proofs.Number.Signed

/-!
# Floating-point numbers and integers

Integers next to a floating-point number, and integers of a fixed width from one.  As integers of up
to 53 digits are numbers of the format, the operations of `Binary64` that round to integers give
just what they are named for (`IsWorth.floor`, `IsWorth.ceil`, `HasValue.floor`,
`HasValue.nearest`).  For the nearest integer there is no bound, as a number of more digits is an
integer itself (`IsWorth.nearest`), and the distance from it is exact (`IsWorth.abs_sub_nearest`).
Sums and differences of integers of up to 53 digits are exact (`HasValue.natCast_add`,
`IsWorth.intCast_sub`), and so is conversion within the bounds of a width (`IsWorth.toIntWithin`);
beyond a bound, the bound is what comes out (`IsWorth.toIntWithin_eq`).
-/

namespace RehashReport.Rounding

@[simp] theorem truncate_intCast (n : ℤ) : truncate n = n := by
  rw [truncate]
  split_ifs
  · exact Rat.floor_intCast n
  · rw [← Int.cast_neg, Rat.floor_intCast, neg_neg]

/-! ## Halves away from zero -/

/-- Halves go up where there is no minus. -/
theorem nearestAway_of_nonneg {q : ℚ} (h : 0 ≤ q) : nearestAway q = ⌊q + 1 / 2⌋ := by
  rw [nearestAway, if_pos h]
  rfl

@[simp] theorem nearestAway_neg (q : ℚ) : nearestAway (-q) = -nearestAway q := by
  rcases lt_trichotomy q 0 with hq | rfl | hq
  · rw [nearestAway, nearestAway, if_pos (by linarith), if_neg (by linarith), neg_neg]
  · rw [neg_zero, nearestAway_of_nonneg le_rfl]
    norm_num
  · rw [nearestAway, nearestAway, if_neg (by linarith), if_pos hq.le, neg_neg]

/-- The nearest integer is at most a half away. -/
theorem abs_sub_nearestAway_le (q : ℚ) : |q - nearestAway q| ≤ 1 / 2 := by
  have hnonneg : ∀ r : ℚ, 0 ≤ r → |r - nearestAway r| ≤ 1 / 2 := by
    intro r hr
    have hlow := Int.floor_le (r + 1 / 2)
    have hhigh := Int.lt_floor_add_one (r + 1 / 2)
    rw [nearestAway_of_nonneg hr, abs_le]
    constructor <;> linarith
  rcases le_total 0 q with hq | hq
  · exact hnonneg q hq
  · have hneg := hnonneg (-q) (by linarith)
    rw [nearestAway_neg, Int.cast_neg, neg_sub_neg, abs_sub_comm] at hneg
    exact hneg

/-- No number is near to two integers. -/
theorem one_le_abs_sub_add_abs_sub {m n : ℤ} (hne : m ≠ n) (q : ℚ) :
    1 ≤ |q - m| + |q - n| := by
  have hsum := abs_sub_le (m : ℚ) q n
  rw [abs_sub_comm (m : ℚ) q] at hsum
  exact (one_le_abs_intCast_sub hne).trans hsum

/-- An integer that is less than a half away is the nearest one. -/
theorem nearestAway_eq {q : ℚ} {n : ℤ} (h : |q - n| < 1 / 2) : nearestAway q = n := by
  by_contra hne
  have hsum := one_le_abs_sub_add_abs_sub hne q
  have hnear := abs_sub_nearestAway_le q
  linarith

@[simp] theorem nearestAway_intCast (n : ℤ) : nearestAway n = n :=
  nearestAway_eq (by norm_num)

/-- `IsNearestInt q n`: every other integer is farther from `q` than `n` is. -/
def IsNearestInt (q : ℚ) (n : ℤ) : Prop := ∀ m : ℤ, m ≠ n → |q - n| < |q - m|

theorem isNearestInt_of_abs_sub_lt {q : ℚ} {n : ℤ} (h : |q - n| < 1 / 2) : IsNearestInt q n := by
  intro m hne
  have hsum := one_le_abs_sub_add_abs_sub hne q
  linarith

theorem IsNearestInt.eq_of_abs_sub_lt {q : ℚ} {m n : ℤ} (h : IsNearestInt q n)
    (hm : |q - m| < 1 / 2) : n = m := by
  by_contra hne
  have hsum := one_le_abs_sub_add_abs_sub hne q
  have hless := h m (Ne.symm hne)
  linarith

end RehashReport.Rounding

namespace RehashReport.Binary64

variable {x : Binary64} {q : ℚ}

theorem lt_safeLimit_of_le {q : ℚ} (h : |q| ≤ 2 ^ 53) : |q| < safeLimit := by
  refine lt_safeLimit (h.trans ?_)
  norm_num

theorem abs_intCast_le {n : ℤ} (h : |n| ≤ 2 ^ 53) : |(n : ℚ)| ≤ 2 ^ 53 := by
  rw [← Int.cast_abs]
  exact_mod_cast h

theorem IsWorth.mapInteger (hx : IsWorth x q) {f : ℚ → ℤ} (h : |f q| ≤ 2 ^ 53) :
    IsWorth (x.mapInteger f) (f q) := by
  obtain ⟨negative, code, rfl, rfl⟩ := hx.exists_eq
  have hround := round_isWorth negative (lt_safeLimit_of_le (abs_intCast_le h))
  rwa [closest_intCast h] at hround

theorem HasValue.mapInteger (hx : HasValue x q) {f : ℚ → ℤ} {n : ℕ} (hf : f q = n)
    (h : n ≤ 2 ^ 53) : HasValue (x.mapInteger f) n := by
  obtain ⟨code, rfl, rfl⟩ := hx
  have hn : ((n : ℕ) : ℚ) ≤ 2 ^ 53 := by exact_mod_cast h
  have hround := round_hasValue (Nat.cast_nonneg n) (lt_safeLimit (hn.trans (by norm_num)))
  rw [(isMagnitude_natCast h).rounded_eq] at hround
  show HasValue (round false (f (magnitude code))) n
  rw [hf]
  exact hround

theorem IsWorth.floor (hx : IsWorth x q) (h : |⌊q⌋| ≤ 2 ^ 53) : IsWorth x.floor ⌊q⌋ :=
  hx.mapInteger h

theorem IsWorth.ceil (hx : IsWorth x q) (h : |⌈q⌉| ≤ 2 ^ 53) : IsWorth x.ceil ⌈q⌉ := by
  have hceil : q.ceil = ⌈q⌉ := eq_of_forall_ge_iff fun n => by
    rw [Rat.ceil_le_iff, Int.ceil_le]
  rw [← hceil] at h ⊢
  exact hx.mapInteger h

theorem HasValue.floor (hx : HasValue x q) (h : q < 2 ^ 53) : HasValue x.floor ⌊q⌋₊ := by
  refine hx.mapInteger (f := Rat.floor) (Int.natCast_floor_eq_floor hx.nonneg).symm ?_
  have hle : ((⌊q⌋₊ : ℕ) : ℚ) ≤ 2 ^ 53 := (Nat.floor_le hx.nonneg).trans h.le
  exact_mod_cast hle

theorem HasValue.nearest (hx : HasValue x q) (h : q < 2 ^ 52) :
    HasValue x.nearest ⌊q + 1 / 2⌋₊ := by
  have hq := hx.nonneg
  refine hx.mapInteger (f := Rounding.nearestAway) ?_ ?_
  · rw [Rounding.nearestAway_of_nonneg hq, Int.natCast_floor_eq_floor (by linarith)]
  · have hle : ((⌊q + 1 / 2⌋₊ : ℕ) : ℚ) ≤ 2 ^ 53 := by
      refine (Nat.floor_le (by linarith)).trans ?_
      linarith
    exact_mod_cast hle

/-! ## The nearest integer -/

/-- The sign of a number does not matter for its distance from the nearest integer. -/
theorem abs_sub_nearestAway_abs (q : ℚ) :
    |(|q| - Rounding.nearestAway |q|)| = |q - Rounding.nearestAway q| := by
  rcases le_total 0 q with hq | hq
  · rw [abs_of_nonneg hq]
  · rw [abs_of_nonpos hq, Rounding.nearestAway_neg, Int.cast_neg, neg_sub_neg, abs_sub_comm]

/-- Values from `2 ^ 53` on are integers. -/
theorem IsWorth.exists_intCast (hx : IsWorth x q) (h : 2 ^ 53 ≤ |q|) : ∃ n : ℤ, q = n := by
  obtain ⟨m, hm⟩ := hx.abs.isMagnitude.exists_natCast h
  rcases abs_choice q with hq | hq
  · exact ⟨m, by rw [← hq, hm, Int.cast_natCast]⟩
  · exact ⟨-m, by rw [Int.cast_neg, Int.cast_natCast, ← hm, hq, neg_neg]⟩

theorem IsWorth.nearest (hx : IsWorth x q) (h : |q| < safeLimit) :
    IsWorth x.nearest (Rounding.nearestAway q) := by
  by_cases hlarge : 2 ^ 53 ≤ |q|
  · obtain ⟨n, hn⟩ := hx.exists_intCast hlarge
    have hself := hx.closest_eq
    obtain ⟨negative, code, rfl, hvalue⟩ := hx.exists_eq
    have hround := round_isWorth negative h
    rw [hself] at hround
    show IsWorth (round negative (Rounding.nearestAway (signed negative (magnitude code)))) _
    rw [hvalue, hn, Rounding.nearestAway_intCast, ← hn]
    exact hround
  · refine hx.mapInteger ?_
    have hnear := Rounding.abs_sub_nearestAway_le q
    have hbound : |(Rounding.nearestAway q : ℚ)| < 2 ^ 53 + 1 := by
      have hsum := abs_sub_abs_le_abs_sub (Rounding.nearestAway q : ℚ) q
      rw [abs_sub_comm] at hsum
      linarith
    rw [← Int.cast_abs] at hbound
    exact Int.lt_add_one_iff.1 (by exact_mod_cast hbound)

/-- What is between a number and the nearest integer needs no rounding. -/
theorem IsMagnitude.abs_sub_nearestAway (h : IsMagnitude q) :
    IsMagnitude |q - Rounding.nearestAway q| := by
  have hq := h.nonneg
  by_cases hlarge : 2 ^ 53 ≤ q
  · obtain ⟨n, rfl⟩ := h.exists_natCast hlarge
    rw [← Int.cast_natCast, Rounding.nearestAway_intCast, sub_self, abs_zero]
    exact isMagnitude_zero
  · obtain ⟨n, hn⟩ : ∃ n : ℕ, Rounding.nearestAway q = n := by
      rw [Rounding.nearestAway_of_nonneg hq]
      exact Int.eq_ofNat_of_zero_le (Int.floor_nonneg.2 (by linarith))
    have hnear := Rounding.abs_sub_nearestAway_le q
    rw [hn, Int.cast_natCast] at hnear ⊢
    refine h.abs_sub_natCast (not_le.1 hlarge) ?_
    by_cases hhalf : q < 1 / 2
    · -- then zero is the nearest integer
      have hzero := Rounding.nearestAway_eq (q := q) (n := 0) (by
        rw [Int.cast_zero, sub_zero, abs_of_nonneg hq]
        exact hhalf)
      rw [hn] at hzero
      rw [show n = 0 by exact_mod_cast hzero, Nat.cast_zero, sub_zero, abs_of_nonneg hq]
    · exact hnear.trans (not_lt.1 hhalf)

/-- The distance from the nearest integer is computed exactly. -/
theorem IsWorth.abs_sub_nearest (hx : IsWorth x q) (h : |q| < safeLimit) :
    HasValue (x - x.nearest).abs |q - Rounding.nearestAway q| := by
  have hnear := Rounding.abs_sub_nearestAway_le q
  have hdistance := hx.abs.isMagnitude.abs_sub_nearestAway
  rw [abs_sub_nearestAway_abs] at hdistance
  have hdifference := hx.sub (hx.nearest h) (lt_safeLimit_of_le (hnear.trans (by norm_num)))
  rw [closest_eq_of_isMagnitude_abs hdistance] at hdifference
  exact hdifference.abs

/-! ## Whole numbers

Sums and differences of up to 53 digits are exact. -/

section

variable {y : Binary64} {m n : ℕ}

theorem HasValue.natCast_add (hx : HasValue x (m : ℕ)) (hy : HasValue y (n : ℕ))
    (h : m + n ≤ 2 ^ 53) : HasValue (x + y) (m + n : ℕ) := by
  have hle : ((m + n : ℕ) : ℚ) ≤ 2 ^ 53 := by exact_mod_cast h
  rw [Nat.cast_add] at hle
  have hsum := hx.add hy (lt_safeLimit (hle.trans (by norm_num)))
  rwa [← Nat.cast_add, (isMagnitude_natCast h).rounded_eq] at hsum

theorem HasValue.natCast_sub (hx : HasValue x (m : ℕ)) (hy : HasValue y (n : ℕ)) (hnm : n ≤ m)
    (h : m ≤ 2 ^ 53) : HasValue (x - y) (m - n : ℕ) := by
  have hle : ((m - n : ℕ) : ℚ) ≤ 2 ^ 53 := by exact_mod_cast (Nat.sub_le m n).trans h
  rw [Nat.cast_sub hnm] at hle
  have hdifference := hx.sub hy.isWorth (by exact_mod_cast hnm)
    (lt_safeLimit (hle.trans (by norm_num)))
  rwa [← Nat.cast_sub hnm, (isMagnitude_natCast ((Nat.sub_le m n).trans h)).rounded_eq]
    at hdifference

theorem HasValue.isWorth_intCast (h : HasValue x (n : ℕ)) : IsWorth x (n : ℤ) := by
  rw [Int.cast_natCast]
  exact h.isWorth

/-- A difference of whole numbers of either sign. -/
theorem IsWorth.intCast_sub {a b : ℤ} (hx : IsWorth x a) (hy : IsWorth y b)
    (h : |a - b| ≤ 2 ^ 53) : IsWorth (x - y) (a - b : ℤ) := by
  have hdifference := hx.sub hy (lt_safeLimit_of_le (by exact_mod_cast abs_intCast_le h))
  rwa [← Int.cast_sub, closest_intCast h] at hdifference

end

/-! ## Conversion -/

/-- An integer is converted to the nearest one within the bounds of a width. -/
theorem IsWorth.toIntWithin_eq {n : ℤ} (hx : IsWorth x n) (low high : ℤ) :
    x.toIntWithin low high = max low (min high n) := by
  obtain ⟨negative, code, rfl, hn⟩ := hx.exists_eq
  rw [Binary64.toIntWithin, hn, Rounding.truncate_intCast]

/-- Within the bounds of a width, an integer is converted as it is. -/
theorem IsWorth.toIntWithin {low high n : ℤ} (hx : IsWorth x n) (hlow : low ≤ n)
    (hhigh : n ≤ high) : x.toIntWithin low high = n := by
  rw [hx.toIntWithin_eq]
  omega

theorem HasValue.toNat64 {n : ℕ} (hx : HasValue x n) (h : n < 2 ^ 64) : x.toNat64 = n := by
  rw [Binary64.toNat64, hx.isWorth_intCast.toIntWithin (by omega) (by omega), Int.toNat_natCast]

end RehashReport.Binary64
