import Mathlib
import RehashReport.Proofs.Number.Exact

/-!
# Arithmetic with a minus

Floating-point operations on finite numbers of either sign, said by their values.  `IsWorth x q`
means that `x` is finite and has the value `q`; of a zero it does not tell the sign.  `closest`
rounds a number of either sign, and every operation that stays below `safeLimit` gives the exact
result, rounded once (`IsWorth.add`, `IsWorth.mul`, `IsWorth.div`).  A difference is not rounded to
zero unless it is zero (`IsWorth.closest_sub_pos`).  A sum with a number that has no minus has none
either, unless it is less than zero (`IsWorth.add_hasValue`).  Where only the sign
matters there is no bound to keep: what has no minus gets none (`isNegative_mul`, `isNegative_div`).
-/

namespace RehashReport.Binary64

/-! ## Rounding of either sign -/

/-- The number of the format that is closest to a given one, ties to even. -/
def closest (q : ℚ) : ℚ := if q < 0 then -rounded (-q) else rounded q

theorem closest_of_nonneg {q : ℚ} (h : 0 ≤ q) : closest q = rounded q := by
  rw [closest, if_neg (not_lt.2 h)]

theorem closest_of_nonpos {q : ℚ} (h : q ≤ 0) : closest q = -rounded (-q) := by
  rcases h.eq_or_lt with rfl | h
  · simp [closest]
  · rw [closest, if_pos h]

@[simp] theorem closest_zero : closest 0 = 0 := by
  rw [closest_of_nonneg le_rfl, rounded_zero]

theorem closest_neg (q : ℚ) : closest (-q) = -closest q := by
  rcases le_total 0 q with h | h
  · rw [closest_of_nonneg h, closest_of_nonpos (by linarith), neg_neg]
  · rw [closest_of_nonpos h, closest_of_nonneg (by linarith), neg_neg]

/-- Rounding keeps the order, also across zero. -/
theorem closest_mono {q r : ℚ} (h : q ≤ r) : closest q ≤ closest r := by
  rcases le_total 0 q with hq | hq
  · rw [closest_of_nonneg hq, closest_of_nonneg (hq.trans h)]
    exact rounded_mono hq h
  · rcases le_total 0 r with hr | hr
    · rw [closest_of_nonpos hq, closest_of_nonneg hr]
      have := rounded_nonneg (-q)
      have := rounded_nonneg r
      linarith
    · rw [closest_of_nonpos hq, closest_of_nonpos hr, neg_le_neg_iff]
      exact rounded_mono (by linarith) (by linarith)

/-- Magnitudes stay as they are. -/
theorem IsMagnitude.closest_eq {q : ℚ} (h : IsMagnitude q) : closest q = q := by
  rw [closest_of_nonneg h.nonneg, h.rounded_eq]

/-- Magnitudes stay as they are, whatever their sign. -/
theorem closest_eq_of_isMagnitude_abs {q : ℚ} (h : IsMagnitude |q|) : closest q = q := by
  rcases le_total 0 q with hq | hq
  · rw [abs_of_nonneg hq] at h
    exact h.closest_eq
  · rw [abs_of_nonpos hq] at h
    rw [closest_of_nonpos hq, h.rounded_eq, neg_neg]

/-- Rounding does not lead past a magnitude on either side of zero. -/
theorem IsMagnitude.abs_closest_le {q r : ℚ} (hr : IsMagnitude r) (h : |q| ≤ r) :
    |closest q| ≤ r := by
  obtain ⟨hlow, hhigh⟩ := abs_le.1 h
  rw [abs_le]
  constructor
  · calc -r = closest (-r) := by rw [closest_neg, hr.closest_eq]
      _ ≤ closest q := closest_mono hlow
  · calc closest q ≤ closest r := closest_mono hhigh
      _ = r := hr.closest_eq

theorem closest_natCast {n : ℕ} (h : n ≤ 2 ^ 53) : closest n = n :=
  (isMagnitude_natCast h).closest_eq

theorem closest_one : closest 1 = 1 := isMagnitude_one.closest_eq

theorem closest_intCast {n : ℤ} (h : |n| ≤ 2 ^ 53) : closest n = n := by
  rcases Int.eq_nat_or_neg n with ⟨m, rfl | rfl⟩
  · rw [Nat.abs_cast] at h
    rw [Int.cast_natCast, closest_natCast (by exact_mod_cast h)]
  · rw [abs_neg, Nat.abs_cast] at h
    rw [Int.cast_neg, Int.cast_natCast, closest_neg, closest_natCast (by exact_mod_cast h)]

/-! ## Values -/

/-- `IsWorth x q`: the number `x` is finite and has the value `q`. -/
def IsWorth (x : Binary64) (q : ℚ) : Prop := x.isFinite = true ∧ x.toRat = q

theorem HasValue.isWorth {x : Binary64} {q : ℚ} (h : HasValue x q) : IsWorth x q :=
  ⟨h.isFinite, h.toRat_eq⟩

/-- Numbers without a minus that have the same value are equal. -/
theorem HasValue.unique {x y : Binary64} {q : ℚ} (hx : HasValue x q) (hy : HasValue y q) :
    x = y := by
  obtain ⟨i, rfl, hi⟩ := hx
  obtain ⟨j, rfl, hj⟩ := hy
  rw [Fin.ext (magnitude_strictMono.injective (hi.trans hj.symm))]

theorem isWorth_finite (negative : Bool) (code : Fin codeLimit) :
    IsWorth (.finite negative code) (signed negative (magnitude code)) := ⟨rfl, rfl⟩

namespace IsWorth

variable {x y : Binary64} {q r : ℚ}

theorem exists_eq (h : IsWorth x q) :
    ∃ negative code, x = .finite negative code ∧ signed negative (magnitude code) = q := by
  obtain ⟨hfinite, hq⟩ := h
  cases x with
  | finite negative code => exact ⟨negative, code, rfl, hq⟩
  | infinite _ => cases hfinite
  | nan => cases hfinite

theorem le_iff (hx : IsWorth x q) (hy : IsWorth y r) : x ≤ y ↔ q ≤ r := by
  obtain ⟨_, _, rfl, rfl⟩ := hx.exists_eq
  obtain ⟨_, _, rfl, rfl⟩ := hy.exists_eq
  exact decide_eq_true_iff

theorem lt_iff (hx : IsWorth x q) (hy : IsWorth y r) : x < y ↔ q < r := by
  obtain ⟨_, _, rfl, rfl⟩ := hx.exists_eq
  obtain ⟨_, _, rfl, rfl⟩ := hy.exists_eq
  exact decide_eq_true_iff

/-- What lies between two numbers is a number. -/
theorem between {v : Binary64} (hx : IsWorth x q) (hy : IsWorth y r) (hxv : x ≤ v) (hvy : v ≤ y) :
    IsWorth v v.toRat ∧ q ≤ v.toRat ∧ v.toRat ≤ r := by
  have hv : IsWorth v v.toRat := by
    obtain ⟨_, _, rfl, -⟩ := hx.exists_eq
    obtain ⟨_, _, rfl, -⟩ := hy.exists_eq
    cases v with
    | finite negative code => exact isWorth_finite negative code
    | nan => cases hxv
    | infinite negative =>
      cases negative with
      | true => cases hxv
      | false => cases hvy
  exact ⟨hv, (hx.le_iff hv).1 hxv, (hv.le_iff hy).1 hvy⟩

theorem neg (h : IsWorth x q) : IsWorth (-x) (-q) := by
  obtain ⟨negative, code, rfl, rfl⟩ := h.exists_eq
  refine ⟨rfl, ?_⟩
  show signed (!negative) (magnitude code) = _
  cases negative <;> simp [signed]

theorem abs (h : IsWorth x q) : HasValue x.abs |q| := by
  obtain ⟨negative, code, rfl, rfl⟩ := h.exists_eq
  refine ⟨code, rfl, ?_⟩
  have := magnitude_nonneg code
  cases negative <;> simp [signed, abs_of_nonneg this]

/-- Its value is not rounded any more. -/
theorem closest_eq (h : IsWorth x q) : closest q = q :=
  closest_eq_of_isMagnitude_abs h.abs.isMagnitude

end IsWorth

theorem round_isWorth (zeroNegative : Bool) {q : ℚ} (h : |q| < safeLimit) :
    IsWorth (round zeroNegative q) (closest q) := by
  rw [round]
  split_ifs with hneg hzero
  · rw [abs_of_neg hneg] at h
    have hcode := nearestCode_lt_codeLimit (neg_nonneg.2 hneg.le) h
    rw [ofCode, dif_pos hcode, closest, if_pos hneg]
    exact isWorth_finite true _
  · subst hzero
    rw [closest_zero, ofCode, dif_pos (by decide)]
    refine ⟨rfl, ?_⟩
    cases zeroNegative <;> simp [toRat, signed]
  · have hq : 0 ≤ q := not_lt.1 hneg
    rw [abs_of_nonneg hq] at h
    have hcode := nearestCode_lt_codeLimit hq h
    rw [ofCode, dif_pos hcode, closest, if_neg hneg]
    exact isWorth_finite false _

namespace IsWorth

variable {x y : Binary64} {q r : ℚ}

/-- The sum is the exact sum, rounded. -/
theorem add (hx : IsWorth x q) (hy : IsWorth y r) (h : |q + r| < safeLimit) :
    IsWorth (x + y) (closest (q + r)) := by
  obtain ⟨_, _, rfl, rfl⟩ := hx.exists_eq
  obtain ⟨_, _, rfl, rfl⟩ := hy.exists_eq
  exact round_isWorth _ h

/-- The difference is the exact difference, rounded. -/
theorem sub (hx : IsWorth x q) (hy : IsWorth y r) (h : |q - r| < safeLimit) :
    IsWorth (x - y) (closest (q - r)) := by
  rw [sub_eq_add_neg] at h ⊢
  exact hx.add hy.neg h

/-- The product is the exact product, rounded. -/
theorem mul (hx : IsWorth x q) (hy : IsWorth y r) (h : |q * r| < safeLimit) :
    IsWorth (x * y) (closest (q * r)) := by
  obtain ⟨_, _, rfl, rfl⟩ := hx.exists_eq
  obtain ⟨_, _, rfl, rfl⟩ := hy.exists_eq
  exact round_isWorth _ h

/-- The quotient is the exact quotient, rounded. -/
theorem div (hx : IsWorth x q) (hy : HasValue y r) (hr : 0 < r) (h : |q / r| < safeLimit) :
    IsWorth (x / y) (closest (q / r)) := by
  obtain ⟨a, m, rfl, rfl⟩ := hx.exists_eq
  obtain ⟨n, rfl, rfl⟩ := hy
  have hne : n.val ≠ 0 := by
    intro hn
    rw [hn, magnitude_zero] at hr
    exact lt_irrefl 0 hr
  show IsWorth (if n.val = 0 then _ else _) _
  rw [if_neg hne]
  exact round_isWorth _ h

theorem exists_mul_unit (h : IsWorth x q) : ∃ n : ℤ, q = n * unit 0 := by
  obtain ⟨negative, code, -, rfl⟩ := h.exists_eq
  obtain ⟨n, hn⟩ := IsMagnitude.exists_mul_unit ⟨code, rfl⟩
  rw [hn]
  cases negative with
  | false => exact ⟨n, by simp [signed]⟩
  | true => exact ⟨-n, by simp [signed]⟩

/-- The difference of two different numbers is not rounded to zero. -/
theorem closest_sub_pos (hx : IsWorth x q) (hy : IsWorth y r) (h : r < q) :
    0 < closest (q - r) := by
  obtain ⟨m, rfl⟩ := hx.exists_mul_unit
  obtain ⟨n, rfl⟩ := hy.exists_mul_unit
  have hunit := unit_pos 0
  have hnm : n + 1 ≤ m := by exact_mod_cast lt_of_mul_lt_mul_right h hunit.le
  have hnm : (n : ℚ) + 1 ≤ m := by exact_mod_cast hnm
  have hleast := isMagnitude_mul_unit (m := 1) 0 (by norm_num [binadeSize])
  rw [Nat.cast_one, one_mul] at hleast
  calc 0 < unit 0 := hunit
    _ = closest (unit 0) := hleast.closest_eq.symm
    _ ≤ closest (m * unit 0 - n * unit 0) := closest_mono (by nlinarith)

/-- A sum with a number that has no minus has none, unless it is less than zero. -/
theorem add_hasValue (hx : IsWorth x q) (hy : HasValue y r) (hqr : 0 ≤ q + r)
    (h : q + r < safeLimit) : HasValue (x + y) (rounded (q + r)) := by
  obtain ⟨a, m, rfl, rfl⟩ := hx.exists_eq
  obtain ⟨n, rfl, rfl⟩ := hy
  show HasValue (round (a && false) _) _
  rw [Bool.and_false]
  exact round_hasValue hqr h

end IsWorth

/-- A difference from a number that has no minus has none, unless it is less than zero. -/
theorem HasValue.sub {x y : Binary64} {q r : ℚ} (hx : HasValue x q) (hy : IsWorth y r)
    (hqr : r ≤ q) (h : q - r < safeLimit) : HasValue (x - y) (rounded (q - r)) := by
  obtain ⟨m, rfl, rfl⟩ := hx
  obtain ⟨b, n, rfl, rfl⟩ := hy.exists_eq
  show HasValue (round (false && !b) (magnitude m + signed (!b) (magnitude n))) _
  have hsigned : signed (!b) (magnitude n) = -signed b (magnitude n) := by
    cases b <;> simp [signed]
  rw [Bool.false_and, hsigned, ← sub_eq_add_neg]
  exact round_hasValue (sub_nonneg.2 hqr) h

/-- A number that is greater than zero has no minus. -/
theorem IsWorth.hasValue_of_pos {x : Binary64} {q : ℚ} (h : IsWorth x q) (hq : 0 < q) :
    HasValue x q := by
  obtain ⟨negative, code, rfl, rfl⟩ := h.exists_eq
  cases negative with
  | false => exact ⟨code, rfl, rfl⟩
  | true => exact absurd hq (not_lt.2 (neg_nonpos.2 (magnitude_nonneg code)))

/-! ## The sign alone

What has no minus keeps none under the operations, however large it is: infinities and NaNs
included. -/

theorem HasValue.isNegative {x : Binary64} {q : ℚ} (h : HasValue x q) : x.isNegative = false := by
  obtain ⟨code, rfl, -⟩ := h
  rfl

theorem isNegative_round {q : ℚ} (hq : 0 ≤ q) : (round false q).isNegative = false := by
  have hcode : ∀ code, (ofCode false code).isNegative = false := by
    intro code
    rw [ofCode]
    split_ifs <;> rfl
  rw [round, if_neg (not_lt.2 hq)]
  split_ifs <;> exact hcode _

section

variable {x y : Binary64} (hx : x.isNegative = false)

include hx

theorem not_lt_zero_of_isNegative : ¬x < zero := by
  cases x with
  | finite negative code =>
    obtain rfl : negative = false := hx
    have hvalue : HasValue (.finite false code) (magnitude code) := ⟨code, rfl, rfl⟩
    rw [hvalue.isWorth.lt_iff zero_hasValue.isWorth]
    exact not_lt.2 hvalue.nonneg
  | infinite negative =>
    obtain rfl : negative = false := hx
    exact Bool.false_ne_true
  | nan => exact Bool.false_ne_true

theorem isNegative_nearest : x.nearest.isNegative = false := by
  cases x with
  | finite negative code =>
    obtain rfl : negative = false := hx
    refine isNegative_round ?_
    have hcode := magnitude_nonneg code
    rw [Rounding.nearestAway, if_pos (by exact hcode)]
    have hfloor : 0 ≤ (signed false (magnitude code) + 1 / 2).floor :=
      Rat.le_floor_iff.2 (by
        show ((0 : ℤ) : ℚ) ≤ magnitude code + 1 / 2
        push_cast
        linarith)
    exact_mod_cast hfloor
  | infinite negative => exact hx
  | nan => rfl

theorem isNegative_mul (hy : y.isNegative = false) : (x * y).isNegative = false := by
  cases x with
  | nan => rfl
  | finite a m =>
    obtain rfl : a = false := hx
    cases y with
    | nan => rfl
    | finite b n =>
      obtain rfl : b = false := hy
      exact isNegative_round (mul_nonneg (magnitude_nonneg m) (magnitude_nonneg n))
    | infinite b =>
      obtain rfl : b = false := hy
      show (if m.val = 0 then nan else infinite false).isNegative = false
      split_ifs <;> rfl
  | infinite a =>
    obtain rfl : a = false := hx
    cases y with
    | nan => rfl
    | finite b n =>
      obtain rfl : b = false := hy
      show (if n.val = 0 then nan else infinite false).isNegative = false
      split_ifs <;> rfl
    | infinite b =>
      obtain rfl : b = false := hy
      rfl

theorem isNegative_div (hy : y.isNegative = false) : (x / y).isNegative = false := by
  cases x with
  | nan => rfl
  | finite a m =>
    obtain rfl : a = false := hx
    cases y with
    | nan => rfl
    | finite b n =>
      obtain rfl : b = false := hy
      show (if n.val = 0 then if m.val = 0 then nan else infinite false
        else round false (magnitude m / magnitude n)).isNegative = false
      split_ifs
      · rfl
      · rfl
      · exact isNegative_round (div_nonneg (magnitude_nonneg m) (magnitude_nonneg n))
    | infinite b =>
      obtain rfl : b = false := hy
      rfl
  | infinite a =>
    obtain rfl : a = false := hx
    cases y with
    | nan => rfl
    | finite b n =>
      obtain rfl : b = false := hy
      rfl
    | infinite b => rfl

end

end RehashReport.Binary64
