import Mathlib
import RehashReport.Chart.Drawing
import RehashReport.Proofs.Number.Integer

/-!
# Pixels of values

What a scale does to values of its range.  Every step of the calculation is monotone, rounding
included, so values keep their order on the way to pixels (`Lays.pixel_le_pixel`).  At the ends of
the range the calculation is exact but for the slack, which is too small to reach another pixel;
hence every value of the range has a pixel between the ends of the scale (`Lays.spans_pixel`), and
no point of an axis loses its tick (`Lays.ticks_mesh`).
-/

namespace RehashReport.Chart

open Binary64

/-! ## Parts of a distance -/

theorem slack_hasValue : HasValue pixelSlack (rounded (1 / 1000)) :=
  ofRat_hasValue (by norm_num) (lt_safeLimit (by norm_num))

theorem slack_le : rounded (1 / 1000) ≤ 1 / 2 :=
  isMagnitude_half.rounded_le (by norm_num) (by norm_num)

/-- How many pixels from the first one a part of a distance is. -/
def pixelsAt (distance : ℕ) (part : ℚ) : ℤ :=
  ⌊closest (closest (distance * part) + rounded (1 / 1000))⌋

theorem pixelsAt_mono (distance : ℕ) {p q : ℚ} (h : p ≤ q) :
    pixelsAt distance p ≤ pixelsAt distance q := by
  refine Int.floor_mono (closest_mono (add_le_add_left (closest_mono ?_) _))
  exact mul_le_mul_of_nonneg_left h (Nat.cast_nonneg _)

/-- The slack alone is less than a pixel. -/
@[simp] theorem pixelsAt_zero (distance : ℕ) : pixelsAt distance 0 = 0 := by
  rw [pixelsAt, mul_zero, closest_zero, zero_add, (isMagnitude_rounded _).closest_eq,
    Int.floor_eq_zero_iff]
  exact ⟨rounded_nonneg _, slack_le.trans_lt (by norm_num)⟩

/-- The slack does not reach beyond the distance. -/
theorem pixelsAt_one_le {distance : ℕ} (h : distance ≤ 2 ^ 20) :
    pixelsAt distance 1 ≤ distance := by
  have hslack := rounded_nonneg (1 / 1000)
  have hhalves := isMagnitude_halves (n := 2 * distance + 1) (by omega)
  have hle : rounded (distance + rounded (1 / 1000)) ≤ ((2 * distance + 1 : ℕ) : ℚ) / 2 := by
    refine hhalves.rounded_le (by positivity) ?_
    push_cast
    linarith [slack_le]
  rw [pixelsAt, mul_one, closest_natCast (by omega), closest_of_nonneg (by positivity)]
  refine Int.le_of_lt_add_one (Int.floor_lt.2 ?_)
  push_cast at hle ⊢
  linarith

theorem ofInt_isWorth {n : ℤ} (h : |n| ≤ 2 ^ 53) : IsWorth (ofInt n) n := by
  have hround := round_isWorth false (lt_safeLimit_of_le (abs_intCast_le h))
  rwa [closest_intCast h] at hround

/-- The part of a range from `a` to `b` that is below `q`. -/
def part (a b q : ℚ) : ℚ := closest (closest (q - a) / closest (b - a))

@[simp] theorem part_self (a b : ℚ) : part a b a = 0 := by
  rw [part, sub_self, closest_zero, zero_div, closest_zero]

/-! ## Scales -/

namespace Scale

/-- In a range of a single value there is one pixel for all values. -/
theorem pixel_of_single {s : Scale} {a : ℚ} (hlow : IsWorth s.range.low a)
    (hhigh : IsWorth s.range.high a) (x : Binary64) :
    s.pixel x = (s.last - s.first).tdiv 2 := by
  rw [pixel]
  dsimp only
  rw [if_pos ⟨(hlow.le_iff hhigh).2 le_rfl, (hhigh.le_iff hlow).2 le_rfl⟩]

/-- `Lays s a b n`: the scale lays the range from `a` to `b` along `n` pixels and one more.  The
range may be as narrow as two neighbouring numbers. -/
structure Lays (s : Scale) (a b : ℚ) (n : ℕ) : Prop where
  low : IsWorth s.range.low a
  high : IsWorth s.range.high b
  wide : a < b
  low_bound : |a| ≤ 2 ^ 65
  high_bound : |b| ≤ 2 ^ 65
  long : 0 < n
  bound : n ≤ 2 ^ 20

namespace Lays

variable {s : Scale} {a b q r : ℚ} {n : ℕ} (h : Lays s a b n) {x y : Binary64}

include h

/-- The width of the range is not lost in rounding. -/
theorem width_pos : 0 < closest (b - a) := h.high.closest_sub_pos h.low h.wide

theorem part_mono (hqr : q ≤ r) : part a b q ≤ part a b r := by
  refine closest_mono ?_
  exact div_le_div_of_nonneg_right (closest_mono (by linarith)) h.width_pos.le

theorem part_high : part a b b = 1 := by
  rw [part, div_self h.width_pos.ne', closest_one]

theorem part_mem (haq : a ≤ q) (hqb : q ≤ b) : 0 ≤ part a b q ∧ part a b q ≤ 1 := by
  rw [← h.part_high]
  exact ⟨(part_self a b).ge.trans (h.part_mono haq), h.part_mono hqb⟩

/-- No value of the range is outside of the distance. -/
theorem pixelsAt_mem (haq : a ≤ q) (hqb : q ≤ b) :
    0 ≤ pixelsAt n (part a b q) ∧ pixelsAt n (part a b q) ≤ n := by
  obtain ⟨hlow, hhigh⟩ := h.part_mem haq hqb
  exact ⟨(pixelsAt_zero n).ge.trans (pixelsAt_mono n hlow),
    (pixelsAt_mono n hhigh).trans (pixelsAt_one_le h.bound)⟩

/-- The part is calculated as such. -/
theorem part_isWorth (hx : IsWorth x q) (haq : a ≤ q) (hqb : q ≤ b) :
    IsWorth ((x - s.range.low) / (s.range.high - s.range.low)) (part a b q) := by
  have hpos := h.width_pos
  have ha := abs_le.1 h.low_bound
  have hb := abs_le.1 h.high_bound
  have hwidth : IsWorth (s.range.high - s.range.low) (closest (b - a)) :=
    h.high.sub h.low (lt_safeLimit (by
      rw [abs_le]
      constructor <;> linarith))
  have hbelow : IsWorth (x - s.range.low) (closest (q - a)) :=
    hx.sub h.low (lt_safeLimit (by
      rw [abs_le]
      constructor <;> linarith))
  have hnonneg : 0 ≤ closest (q - a) := by
    rw [← closest_zero]
    exact closest_mono (by linarith)
  have hle : closest (q - a) / closest (b - a) ≤ 1 := by
    rw [div_le_one hpos]
    exact closest_mono (by linarith)
  refine hbelow.div (hwidth.hasValue_of_pos hpos) hpos ?_
  rw [abs_of_nonneg (div_nonneg hnonneg hpos.le)]
  exact lt_safeLimit (hle.trans (by norm_num))

theorem closest_mul_part_mem (haq : a ≤ q) (hqb : q ≤ b) :
    0 ≤ closest (n * part a b q) ∧ closest (n * part a b q) ≤ n := by
  obtain ⟨hlow, hhigh⟩ := h.part_mem haq hqb
  have hn : (0 : ℚ) ≤ n := Nat.cast_nonneg n
  have hself := closest_natCast (h.bound.trans (by norm_num))
  constructor
  · rw [← closest_zero]
    exact closest_mono (mul_nonneg hn hlow)
  · rw [← hself]
    refine closest_mono ?_
    rw [hself]
    exact mul_le_of_le_one_right hn hhigh

theorem not_single : ¬(s.range.low ≤ s.range.high ∧ s.range.high ≤ s.range.low) := by
  rintro ⟨-, hle⟩
  rw [h.high.le_iff h.low] at hle
  exact absurd h.wide (not_lt.2 hle)

/-- A distance to the right or down times the part of a value. -/
theorem mul_part_isWorth (hx : IsWorth x q) (haq : a ≤ q) (hqb : q ≤ b) {m : ℤ} (hm : |m| = n) :
    IsWorth (ofInt m * ((x - s.range.low) / (s.range.high - s.range.low)))
      (closest (m * part a b q)) := by
  have hbound := h.bound
  obtain ⟨hlow, hhigh⟩ := h.part_mem haq hqb
  have hn : |(m : ℚ)| ≤ 2 ^ 20 := by
    rw [← Int.cast_abs, hm]
    exact_mod_cast hbound
  refine (ofInt_isWorth (by omega)).mul (h.part_isWorth hx haq hqb) (lt_safeLimit ?_)
  rw [abs_mul, abs_of_nonneg hlow]
  nlinarith [abs_nonneg (m : ℚ)]

/-- The pixel of a value on a scale to the right or down. -/
theorem pixel_eq_add (hn : s.last - s.first = n) (hx : IsWorth x q) (haq : a ≤ q) (hqb : q ≤ b) :
    s.pixel x = s.first + pixelsAt n (part a b q) := by
  obtain ⟨hzero, hle⟩ := h.pixelsAt_mem haq hqb
  obtain ⟨hnonneg, hsmall⟩ := h.closest_mul_part_mem haq hqb
  have hn0 := h.long
  have hbound := h.bound
  have hn1 : (n : ℚ) ≤ 2 ^ 20 := by exact_mod_cast hbound
  have hslack := rounded_nonneg (1 / 1000)
  have hproduct := h.mul_part_isWorth hx haq hqb (m := n) (by simp)
  rw [Int.cast_natCast] at hproduct
  have hsum := hproduct.add slack_hasValue.isWorth (lt_safeLimit_of_le (by
    rw [abs_le]
    constructor <;> linarith [slack_le]))
  rw [pixelsAt] at hzero hle
  have hfloor := hsum.floor (by
    rw [abs_le]
    omega)
  obtain ⟨_, _, hpart, -⟩ := (h.part_isWorth hx haq hqb).exists_eq
  rw [pixel]
  dsimp only
  rw [if_neg h.not_single]
  rw [hpart] at hfloor ⊢
  dsimp only
  rw [hn, if_pos (by omega), toInt32, hfloor.toIntWithin (by omega) (by omega), pixelsAt]

/-- The pixel of a value on a scale to the left or up. -/
theorem pixel_eq_sub (hn : s.first - s.last = n) (hx : IsWorth x q) (haq : a ≤ q) (hqb : q ≤ b) :
    s.pixel x = s.first - pixelsAt n (part a b q) := by
  obtain ⟨hzero, hle⟩ := h.pixelsAt_mem haq hqb
  obtain ⟨hnonneg, hsmall⟩ := h.closest_mul_part_mem haq hqb
  have hn0 := h.long
  have hbound := h.bound
  have hn1 : (n : ℚ) ≤ 2 ^ 20 := by exact_mod_cast hbound
  have hslack := rounded_nonneg (1 / 1000)
  have hproduct := h.mul_part_isWorth hx haq hqb (m := -n) (by simp)
  rw [Int.cast_neg, Int.cast_natCast, neg_mul, closest_neg] at hproduct
  have hdifference := hproduct.sub slack_hasValue.isWorth (lt_safeLimit_of_le (by
    rw [abs_le]
    constructor <;> linarith [slack_le]))
  rw [← neg_add', closest_neg] at hdifference
  rw [pixelsAt] at hzero hle
  have hceil := hdifference.ceil (by
    rw [Int.ceil_neg, abs_le]
    omega)
  rw [Int.ceil_neg] at hceil
  obtain ⟨_, _, hpart, -⟩ := (h.part_isWorth hx haq hqb).exists_eq
  rw [pixel]
  dsimp only
  rw [if_neg h.not_single]
  rw [hpart] at hceil ⊢
  dsimp only
  rw [show s.last - s.first = -n by omega, if_neg (by omega), if_pos (by omega), toInt32,
    hceil.toIntWithin (by omega) (by omega), pixelsAt, sub_eq_add_neg]

/-- Values are drawn in their order. -/
theorem pixel_le_pixel (hn : s.last - s.first = n) (hx : IsWorth x q) (hy : IsWorth y r)
    (haq : a ≤ q) (hqr : q ≤ r) (hrb : r ≤ b) : s.pixel x ≤ s.pixel y := by
  rw [h.pixel_eq_add hn hx haq (hqr.trans hrb), h.pixel_eq_add hn hy (haq.trans hqr) hrb]
  exact Int.add_le_add_left (pixelsAt_mono n (h.part_mono hqr)) _

/-- On a scale to the left or up they are drawn in the opposite order. -/
theorem pixel_anti (hn : s.first - s.last = n) (hx : IsWorth x q) (hy : IsWorth y r)
    (haq : a ≤ q) (hqr : q ≤ r) (hrb : r ≤ b) : s.pixel y ≤ s.pixel x := by
  rw [h.pixel_eq_sub hn hx haq (hqr.trans hrb), h.pixel_eq_sub hn hy (haq.trans hqr) hrb]
  exact Int.sub_le_sub_left (pixelsAt_mono n (h.part_mono hqr)) _

/-- On a scale to the left or up the range starts at the first pixel. -/
theorem pixel_low (hn : s.first - s.last = n) (hx : IsWorth x a) : s.pixel x = s.first := by
  rw [h.pixel_eq_sub hn hx le_rfl h.wide.le, part_self, pixelsAt_zero, sub_zero]

/-- Every value of the range is drawn between the ends. -/
theorem spans_pixel (hn : |s.last - s.first| = n) (hx : IsWorth x q) (haq : a ≤ q) (hqb : q ≤ b) :
    s.spans (s.pixel x) = true := by
  obtain ⟨hzero, hle⟩ := h.pixelsAt_mem haq hqb
  rw [spans, Bool.and_eq_true, decide_eq_true_eq, decide_eq_true_eq]
  rcases abs_eq (Int.natCast_nonneg n) |>.1 hn with hright | hleft
  · rw [h.pixel_eq_add hright hx haq hqb]
    omega
  · rw [h.pixel_eq_sub (by omega) hx haq hqb]
    omega

variable {most : ℕ} {label : Binary64 → String} {text : ℕ → String} {values : List ℕ}
  (hpoints : s.range.keyPoints most = values.map .ofNat)

omit h in
include hpoints in
theorem bold_mesh : (mesh s most label).bold = values.map fun v => s.pixel (.ofNat v) := by
  rw [mesh, hpoints, List.map_map]
  rfl

include hpoints in
/-- Whole numbers of the range that are points all have a tick with their label. -/
theorem ticks_mesh (hn : |s.last - s.first| = n) (hb : b ≤ 2 ^ 53)
    (hvalues : ∀ v ∈ values, a ≤ v ∧ (v : ℚ) ≤ b)
    (htext : ∀ v ∈ values, label (.ofNat v) = text v) :
    (mesh s most label).ticks = values.map fun v => ⟨s.pixel (.ofNat v), text v⟩ := by
  rw [mesh]
  dsimp only
  rw [hpoints, List.map_map, List.filter_eq_self.2]
  · refine List.map_congr_left ?_
    intro v hv
    rw [Function.comp_apply, htext v hv]
  · intro t ht
    obtain ⟨v, hv, rfl⟩ := List.mem_map.1 ht
    obtain ⟨hav, hvb⟩ := hvalues v hv
    have hsmall : (v : ℚ) ≤ 2 ^ 53 := hvb.trans hb
    have hsmall : v ≤ 2 ^ 53 := by exact_mod_cast hsmall
    exact h.spans_pixel hn (natCast_hasValue hsmall).isWorth hav hvb

end Lays

end Scale

end RehashReport.Chart
