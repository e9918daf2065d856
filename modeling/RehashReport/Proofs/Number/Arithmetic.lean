import Mathlib
import RehashReport.Number.Arithmetic
import RehashReport.Proofs.Number.Magnitude

/-!
# Arithmetic without a minus

Floating-point operations on numbers that are not negative, said by their values.  `HasValue x q`
means that `x` is finite, carries no minus and has the value `q`.  Every operation that stays below
`safeLimit` gives such a number, whose value is the exact result, rounded once (`HasValue.mul`,
`HasValue.div`, `HasValue.add`).  Comparisons are comparisons of values (`HasValue.le_iff`).
-/

namespace RehashReport.Binary64

/-- A bound below which nothing is rounded to infinity. -/
def safeLimit : ℚ := (2 : ℚ) ^ (1023 : ℤ)

theorem lt_safeLimit {q : ℚ} (h : q ≤ 2 ^ 100) : q < safeLimit := by
  have hpow : (2 : ℚ) ^ (100 : ℤ) < safeLimit := zpow_lt_zpow_right₀ one_lt_two (by norm_num)
  exact h.trans_lt hpow

theorem nearestCode_lt_codeLimit {q : ℚ} (hq : 0 ≤ q) (h : q < safeLimit) :
    nearestCode q < codeLimit := by
  rcases hq.eq_or_lt with rfl | hq
  · simp [nearestCode, codeLimit, binadeSize]
  obtain ⟨k, hk⟩ := exists_inBinade hq
  obtain ⟨h0, h1, -⟩ := nearestEven_bounds hq hk
  have hk' : k ≤ 2044 := by
    by_contra hlt
    have hle := hk.2.resolve_left (by omega)
    rw [binadeSize_mul_unit] at hle
    have hmono : safeLimit ≤ (2 : ℚ) ^ (leastExponent + k + 52) :=
      zpow_le_zpow_right₀ one_le_two (by unfold leastExponent; omega)
    linarith
  have hgrid : k * binadeSize ≤ 2044 * binadeSize := Nat.mul_le_mul_right _ hk'
  rw [nearestCode_of_inBinade hq hk, codeLimit]
  unfold binadeSize at *
  omega

/-- `HasValue x q`: the number `x` is finite, has no minus, and is worth `q`. -/
def HasValue (x : Binary64) (q : ℚ) : Prop :=
  ∃ code : Fin codeLimit, x = .finite false code ∧ magnitude code = q

namespace HasValue

variable {x y : Binary64} {q r : ℚ}

theorem toRat_eq (h : HasValue x q) : x.toRat = q := by
  obtain ⟨code, rfl, rfl⟩ := h
  simp [toRat, signed]

theorem isFinite (h : HasValue x q) : x.isFinite = true := by
  obtain ⟨code, rfl, -⟩ := h
  rfl

theorem nonneg (h : HasValue x q) : 0 ≤ q := by
  obtain ⟨code, -, rfl⟩ := h
  exact magnitude_nonneg code

theorem le_iff (hx : HasValue x q) (hy : HasValue y r) : x ≤ y ↔ q ≤ r := by
  obtain ⟨code, rfl, rfl⟩ := hx
  obtain ⟨code', rfl, rfl⟩ := hy
  show ble _ _ = true ↔ _
  simp [ble, signed]

end HasValue

/-- Rounding a number that is not negative. -/
theorem round_hasValue {q : ℚ} (hq : 0 ≤ q) (h : q < safeLimit) :
    HasValue (round false q) (rounded q) := by
  refine ⟨⟨nearestCode q, nearestCode_lt_codeLimit hq h⟩, ?_, rfl⟩
  have hcode : round false q = ofCode false (nearestCode q) := by
    rcases hq.eq_or_lt with rfl | hpos
    · simp [round, nearestCode]
    · rw [round, if_neg (by linarith), if_neg hpos.ne']
  rw [hcode, ofCode, dif_pos]

theorem ofRat_hasValue {q : ℚ} (hq : 0 ≤ q) (h : q < safeLimit) :
    HasValue (ofRat q) (rounded q) :=
  round_hasValue hq h

theorem ofNat_hasValue {n : ℕ} (h : (n : ℚ) < safeLimit) : HasValue (ofNat n) (rounded n) :=
  ofRat_hasValue (Nat.cast_nonneg n) h

namespace HasValue

variable {x y : Binary64} {q r : ℚ}

/-- The product is the exact product, rounded. -/
theorem mul (hx : HasValue x q) (hy : HasValue y r) (h : q * r < safeLimit) :
    HasValue (x * y) (rounded (q * r)) := by
  have hqr := mul_nonneg hx.nonneg hy.nonneg
  obtain ⟨code, rfl, rfl⟩ := hx
  obtain ⟨code', rfl, rfl⟩ := hy
  exact round_hasValue hqr h

/-- The quotient is the exact quotient, rounded. -/
theorem div (hx : HasValue x q) (hy : HasValue y r) (hr : 0 < r) (h : q / r < safeLimit) :
    HasValue (x / y) (rounded (q / r)) := by
  have hqr := div_nonneg hx.nonneg hy.nonneg
  obtain ⟨code, rfl, rfl⟩ := hx
  obtain ⟨code', rfl, rfl⟩ := hy
  have hne : code'.val ≠ 0 := by
    intro h0
    rw [h0, magnitude_zero] at hr
    exact lt_irrefl 0 hr
  show HasValue (if code'.val = 0 then _ else _) _
  rw [if_neg hne]
  exact round_hasValue hqr h

/-- The sum is the exact sum, rounded. -/
theorem add (hx : HasValue x q) (hy : HasValue y r) (h : q + r < safeLimit) :
    HasValue (x + y) (rounded (q + r)) := by
  have hqr := add_nonneg hx.nonneg hy.nonneg
  obtain ⟨code, rfl, rfl⟩ := hx
  obtain ⟨code', rfl, rfl⟩ := hy
  exact round_hasValue hqr h

end HasValue

theorem zero_hasValue : HasValue zero 0 := by
  refine ⟨⟨0, by decide⟩, rfl, ?_⟩
  simp

end RehashReport.Binary64
