import Mathlib
import RehashReport.Proofs.Number.Magnitude

/-!
# The error of several roundings

`Near n q r` says that `r` is what `q` becomes under `n` roundings, each of which changes a number
by at most its share `roundoff`.  The relation is kept by what happens between the roundings: it can
be chained (`Near.trans`), scaled (`Near.mul_right`) and divided by another one (`Near.div`), and
the numbers of roundings add up.  In the end it gives a bound of the error relative to the exact
result (`Near.abs_sub_le`), and errors of that kind do not grow when many results are added up
(`abs_sum_sub_le`).
-/

namespace RehashReport.Binary64

/-- What is left of a number from which one rounding takes as much as it can. -/
def kept : ℚ := 1 - roundoff

theorem kept_pos : 0 < kept := by
  norm_num [kept, roundoff, binadeSize]

/-- `Near n q r`: the errors of `n` roundings can lead from `q` to `r`. -/
def Near (n : ℕ) (q r : ℚ) : Prop := q * kept ^ n ≤ r ∧ r * kept ^ n ≤ q

/-- One rounding of a number that is not too small. -/
theorem near_rounded {q : ℚ} (h : leastNormal ≤ q) : Near 1 q (rounded q) := by
  have herror := abs_le.1 (abs_rounded_sub_le_mul h)
  have hq : 0 ≤ q := le_trans (mul_nonneg (Nat.cast_nonneg _) (unit_pos 0).le) h
  have hupper := rounded_le_mul h
  unfold Near kept
  rw [pow_one]
  constructor
  · linarith
  · have hroundoff : 0 ≤ 1 - roundoff := kept_pos.le
    calc rounded q * (1 - roundoff) ≤ q * (1 + roundoff) * (1 - roundoff) := by gcongr
      _ = q - q * roundoff ^ 2 := by ring
      _ ≤ q := sub_le_self _ (by positivity)

theorem near_rounded_natCast {n : ℕ} (h : 0 < n) : Near 1 n (rounded n) := by
  apply near_rounded
  apply leastNormal_le_one.trans
  exact_mod_cast h

namespace Near

variable {m n : ℕ} {p q r s : ℚ}

theorem trans (h : Near m p q) (h' : Near n q r) : Near (m + n) p r := by
  have hm := pow_nonneg kept_pos.le m
  have hn := pow_nonneg kept_pos.le n
  constructor
  · calc p * kept ^ (m + n) = p * kept ^ m * kept ^ n := by ring
      _ ≤ q * kept ^ n := by gcongr; exact h.1
      _ ≤ r := h'.1
  · calc r * kept ^ (m + n) = r * kept ^ n * kept ^ m := by ring
      _ ≤ q * kept ^ m := by gcongr; exact h'.2
      _ ≤ p := h.2

theorem mul_right (h : Near n p q) (hr : 0 ≤ r) : Near n (p * r) (q * r) := by
  constructor
  · rw [mul_right_comm]
    exact mul_le_mul_of_nonneg_right h.1 hr
  · rw [mul_right_comm]
    exact mul_le_mul_of_nonneg_right h.2 hr

/-- Of a quotient both parts may be rounded. -/
theorem div (h : Near m p q) (h' : Near n r s) (hp : 0 ≤ p) (hq : 0 ≤ q) (hr : 0 < r)
    (hs : 0 < s) : Near (m + n) (p / r) (q / s) := by
  have hm := pow_pos kept_pos m
  have hn := pow_pos kept_pos n
  constructor
  · rw [div_mul_eq_mul_div, div_le_div_iff₀ hr hs]
    calc p * kept ^ (m + n) * s = p * kept ^ m * (s * kept ^ n) := by ring
      _ ≤ q * r := mul_le_mul h.1 h'.2 (by positivity) hq
  · rw [div_mul_eq_mul_div, div_le_div_iff₀ hs hr]
    calc q * kept ^ (m + n) * r = q * kept ^ m * (r * kept ^ n) := by ring
      _ ≤ p * s := mul_le_mul h.2 h'.1 (by positivity) hp

/-- The error as a share of the exact result. -/
theorem abs_sub_le (h : Near n q r) (hq : 0 ≤ q) {e : ℚ}
    (hlow : 1 - e ≤ kept ^ n) (hhigh : 1 ≤ (1 + e) * kept ^ n) : |r - q| ≤ q * e := by
  have hn := pow_pos kept_pos n
  have hbelow : q * (1 - e) ≤ r := (mul_le_mul_of_nonneg_left hlow hq).trans h.1
  have habove : r ≤ q * (1 + e) := by
    refine le_of_mul_le_mul_right ?_ hn
    calc r * kept ^ n ≤ q := h.2
      _ = q * 1 := (mul_one q).symm
      _ ≤ q * ((1 + e) * kept ^ n) := by gcongr
      _ = q * (1 + e) * kept ^ n := by ring
  rw [abs_le]
  constructor <;> linarith

end Near

/-- The error of a sum is at most the sum of the errors. -/
theorem abs_sum_sub_le_sum {α : Type} {f g e : α → ℚ} {xs : List α}
    (h : ∀ x ∈ xs, |f x - g x| ≤ e x) : |(xs.map f).sum - (xs.map g).sum| ≤ (xs.map e).sum := by
  induction xs with
  | nil => simp
  | cons x xs ih =>
    have hhead := h x List.mem_cons_self
    have htail := ih fun y hy => h y (List.mem_cons_of_mem _ hy)
    simp only [List.map_cons, List.sum_cons]
    calc |f x + (xs.map f).sum - (g x + (xs.map g).sum)|
        = |(f x - g x) + ((xs.map f).sum - (xs.map g).sum)| := by ring_nf
      _ ≤ |f x - g x| + |(xs.map f).sum - (xs.map g).sum| := abs_add_le _ _
      _ ≤ e x + (xs.map e).sum := add_le_add hhead htail

/-- Errors that are shares of the exact results make the same share of their sum. -/
theorem abs_sum_sub_le {α : Type} {f g : α → ℚ} {e : ℚ} {xs : List α}
    (h : ∀ x ∈ xs, |f x - g x| ≤ g x * e) :
    |(xs.map f).sum - (xs.map g).sum| ≤ (xs.map g).sum * e := by
  rw [← List.sum_map_mul_right]
  exact abs_sum_sub_le_sum h

end RehashReport.Binary64
