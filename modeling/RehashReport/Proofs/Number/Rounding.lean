import Mathlib
import RehashReport.Number.Binary64

/-!
# Rounding to integers and to powers of a base

What the functions of the namespace `RehashReport.Rounding` guarantee.  The nearest integer is
monotone in its argument, fixes integers and is never more than a half away
(`nearestEven_mono`, `nearestEven_intCast`, `abs_nearestEven_sub_le`), and no other integer is
(`eq_nearestEven`).  The exponents of a positive number are its logarithms to base two and ten
(`floorLog2_eq_log`, `floorLog10_eq_log`).
-/

namespace RehashReport.Rounding

/-! ## Halves to even -/

theorem floor_le_nearestEven (q : ℚ) : q.floor ≤ nearestEven q := by
  unfold nearestEven
  dsimp only
  split_ifs <;> omega

theorem nearestEven_le_floor_add_one (q : ℚ) : nearestEven q ≤ q.floor + 1 := by
  unfold nearestEven
  dsimp only
  split_ifs <;> omega

/-- Greater numbers have greater nearest integers. -/
theorem nearestEven_mono {q r : ℚ} (h : q ≤ r) : nearestEven q ≤ nearestEven r := by
  rcases (Rat.floor_monotone h).lt_or_eq with hlt | heq
  · have hq := nearestEven_le_floor_add_one q
    have hr := floor_le_nearestEven r
    omega
  · -- within one unit the excess decides
    have hexcess : q - q.floor ≤ r - r.floor := by rw [heq]; linarith
    unfold nearestEven
    dsimp only
    rw [heq] at hexcess ⊢
    split_ifs <;> first | omega | (exfalso; linarith)

@[simp] theorem nearestEven_intCast (n : ℤ) : nearestEven (n : ℚ) = n := by
  simp [nearestEven]

/-- The nearest integer is at most a half away. -/
theorem abs_nearestEven_sub_le (q : ℚ) : |(nearestEven q : ℚ) - q| ≤ 1 / 2 := by
  have hlow := Rat.floor_le q
  have hhigh := Rat.lt_floor_add_one q
  push_cast at hhigh
  rw [abs_le]
  unfold nearestEven
  dsimp only
  split_ifs <;> push_cast <;> constructor <;> linarith

/-- Where two integers are equally near, the even one is taken. -/
theorem even_nearestEven_of_tie {q : ℚ} (h : |(nearestEven q : ℚ) - q| = 1 / 2) :
    nearestEven q % 2 = 0 := by
  have hlow := Rat.floor_le q
  have hhigh := Rat.lt_floor_add_one q
  push_cast at hhigh
  by_contra hodd
  -- an odd integer is taken only where the excess is not a half
  have hlt : |(nearestEven q : ℚ) - q| < 1 / 2 := by
    rw [abs_lt]
    unfold nearestEven at hodd ⊢
    dsimp only at hodd ⊢
    split_ifs at hodd ⊢ with h1 h2 h3
    · constructor <;> linarith
    · push_cast
      constructor <;> linarith
    · exact absurd h3 hodd
    · omega
  linarith

theorem one_le_abs_intCast_sub {m n : ℤ} (hne : m ≠ n) : (1 : ℚ) ≤ |(m : ℚ) - n| := by
  have := Int.one_le_abs (sub_ne_zero.2 hne)
  exact_mod_cast this

/-- No other integer is as near and, where two are, even. -/
theorem eq_nearestEven {q : ℚ} {n : ℤ} (hnear : |(n : ℚ) - q| ≤ 1 / 2)
    (htie : |(n : ℚ) - q| = 1 / 2 → n % 2 = 0) : n = nearestEven q := by
  by_contra hne
  have hnear' := abs_nearestEven_sub_le q
  have hdistance := one_le_abs_intCast_sub hne
  have hsum : |(n : ℚ) - nearestEven q| ≤ |(n : ℚ) - q| + |(nearestEven q : ℚ) - q| := by
    rw [abs_sub_comm (nearestEven q : ℚ)]
    exact abs_sub_le _ _ _
  -- both are a half away, hence even, and one apart
  have heven := htie (by linarith)
  have heven' := even_nearestEven_of_tie (q := q) (by linarith)
  have hone : |n - nearestEven q| ≤ 1 := by
    have : |(n : ℚ) - nearestEven q| ≤ 1 := by linarith
    exact_mod_cast this
  rw [abs_le] at hone
  omega

/-! ## Powers of a base below a number -/

theorem log10_eq_log (n : ℕ) : log10 n = Nat.log 10 n := by
  induction n using log10.induct with
  | case1 n hlt => rw [log10, if_pos hlt, Nat.log_of_lt hlt]
  | case2 n hge ih =>
    rw [log10, if_neg hge, ih, ← Nat.log_of_one_lt_of_le (by decide) (not_lt.1 hge)]

theorem ceil_eq (q : ℚ) : q.ceil = ⌈q⌉ :=
  eq_of_forall_ge_iff fun _ => Rat.ceil_le_iff.trans Int.ceil_le.symm

/-- The powers from a number on are those beyond the number before it. -/
theorem clog_eq {base n : ℕ} (hbase : 1 < base) (hn : 1 < n) :
    Nat.clog base n = Nat.log base (n - 1) + 1 := by
  refine eq_of_forall_ge_iff fun e => ?_
  rw [Nat.clog_le_iff_le_pow hbase, Nat.add_one_le_iff, Nat.log_lt_iff_lt_pow hbase (by omega)]
  omega

/-- The exponent is the logarithm to the base, above one and below. -/
theorem floorLog_eq_log {base : ℕ} (hbase : 1 < base) {log : ℕ → ℕ}
    (hlog : ∀ n, log n = Nat.log base n) {q : ℚ} (h : 0 < q) : floorLog log q = Int.log base q := by
  by_cases hq : 1 ≤ q
  · rw [floorLog, if_pos hq, hlog, Int.log_of_one_le_right base hq, ← Int.floor_toNat]
    rfl
  · rw [not_le] at hq
    have hceil : 1 < ⌈q⁻¹⌉₊ := Nat.lt_ceil.2 (by simpa using (one_lt_inv₀ h).2 hq)
    rw [floorLog, if_neg (not_le.2 hq), hlog, Int.log_of_right_le_one base hq.le,
      clog_eq hbase hceil, one_div, ceil_eq, Int.ceil_toNat, Nat.cast_add_one]

theorem floorLog2_eq_log {q : ℚ} (h : 0 < q) : floorLog2 q = Int.log 2 q :=
  floorLog_eq_log one_lt_two (fun _ => Nat.log2_eq_log_two) h

theorem floorLog10_eq_log {q : ℚ} (h : 0 < q) : floorLog10 q = Int.log 10 q :=
  floorLog_eq_log (by decide) log10_eq_log h

end RehashReport.Rounding
