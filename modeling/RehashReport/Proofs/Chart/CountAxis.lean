import Mathlib
import RehashReport.Proofs.Chart.Bars
import RehashReport.Proofs.Chart.Label
import RehashReport.Proofs.Chart.Places
import RehashReport.Proofs.Chart.Scale

/-!
# The axis of rehash counts

The horizontal axis of a chart whose rehash counts are `0, 1, …, n - 1`.  Its range is that of `n`
places (`covers_countRange`), so its points are the rehash counts, and none of their labels is left
out for being outside of the plotting area (`ticks_counts`).  A bar is narrower than a place and its
pixels keep the order of values, hence each bar stands over the label of its own rehash count
(`bar_around_pixel`, `draw_counts`).

What the label of a position says, for every position on every axis.  An axis of rehash counts is
part of the range from `-1 / 2` to `2 ^ 64`, whatever the rehash counts are
(`bounds_of_countRange`).  In that range the positions next to a whole number are labelled with it
and all others are not, and just below zero the label has no minus; but the label has room for 63
bits only, so greater numbers all have the label of the greatest one that has room
(`rehashCountLabel_nearest`).  The chart of great rehash counts therefore shows wrong numbers
(`not_numeral_of_rehashCountLabel`).
-/

namespace RehashReport.Chart.Series

open Binary64

/-! ## The range -/

theorem foldl_min_zero (ns : List UInt64) : ns.foldl min 0 = 0 := by
  induction ns with
  | nil => rfl
  | cons n ns ih =>
    have hmin : min 0 n = 0 := if_pos (UInt64.le_iff_toNat_le.2 (Nat.zero_le _))
    rw [List.foldl_cons, hmin, ih]

theorem foldl_max_range' {m : ℕ} (h : m < UInt64.size) :
    ((List.range' 1 m).map UInt64.ofNat).foldl max 0 = .ofNat m := by
  induction m with
  | zero => rfl
  | succ m ih =>
    have hmax : max (UInt64.ofNat m) (.ofNat (1 + 1 * m)) = .ofNat (m + 1) := by
      rw [one_mul, Nat.add_comm]
      refine if_pos (UInt64.le_iff_toNat_le.2 ?_)
      rw [UInt64.toNat_ofNat_of_lt' (by omega), UInt64.toNat_ofNat_of_lt' h]
      exact Nat.le_succ m
    rw [List.range'_concat, List.map_append, List.foldl_append, ih (by omega)]
    exact hmax

section

variable {n : ℕ} (hn : 0 < n) (hlarge : n < 2 ^ 50) {s : Series}
  (hcounts : s.rehashCounts = (List.range n).map .ofNat)

include hn hlarge hcounts

theorem leastCount_toNat : s.leastCount.toNat = 0 := by
  obtain ⟨m, rfl⟩ := Nat.exists_eq_succ_of_ne_zero hn.ne'
  rw [List.range_eq_range', List.range'_succ, List.map_cons] at hcounts
  rw [leastCount, hcounts]
  exact congrArg UInt64.toNat (foldl_min_zero _)

theorem greatestCount_toNat : s.greatestCount.toNat = n - 1 := by
  obtain ⟨m, rfl⟩ := Nat.exists_eq_succ_of_ne_zero hn.ne'
  rw [List.range_eq_range', List.range'_succ, List.map_cons] at hcounts
  have hsize : m < UInt64.size := by
    rw [UInt64.size]
    omega
  rw [greatestCount, hcounts]
  refine (congrArg UInt64.toNat (foldl_max_range' hsize)).trans ?_
  rw [UInt64.toNat_ofNat_of_lt' hsize]
  rfl

/-- The axis has a place for every rehash count. -/
theorem covers_countRange : Covers s.countRange n := by
  have hcast : ((n - 1 : ℕ) : ℚ) = n - 1 := by
    rw [Nat.cast_sub hn, Nat.cast_one]
  have hbound : (n : ℚ) ≤ 2 ^ 50 := by exact_mod_cast hlarge.le
  refine ⟨hn, hlarge, ?_, ?_⟩
  · have hlow := (natCast_hasValue (n := 0) (Nat.zero_le _)).isWorth.sub half_hasValue.isWorth
      (lt_safeLimit_of_le (by norm_num [abs_of_neg]))
    rw [Nat.cast_zero, zero_sub, ← neg_div, closest_neg_half] at hlow
    rw [countRange, leastCount_toNat hn hlarge hcounts]
    exact hlow
  · have hhalves := isMagnitude_halves (n := 2 * n - 1) (by omega)
    rw [Nat.cast_sub (by omega)] at hhalves
    have hhigh := (natCast_hasValue (n := n - 1) (by omega)).add half_hasValue
      (lt_safeLimit (by rw [hcast]; linarith))
    rw [hcast, show (n : ℚ) - 1 + 1 / 2 = (((2 * n : ℕ) : ℚ) - (1 : ℕ)) / 2 by push_cast; ring,
      hhalves.rounded_eq] at hhigh
    rw [countRange, greatestCount_toNat hn hlarge hcounts]
    rw [show (n : ℚ) - 1 / 2 = (((2 * n : ℕ) : ℚ) - (1 : ℕ)) / 2 by push_cast; ring]
    exact hhigh

/-- The axis is drawn with room for half a bar at its ends. -/
theorem lays_countScale : s.countScale.Lays (-1 / 2) (n - 1 / 2) 544 := by
  have hcovers := covers_countRange hn hlarge hcounts
  have hone := hcovers.one_le
  have hcast := hcovers.cast_le
  refine ⟨hcovers.low, hcovers.high.isWorth, by linarith, ?_, ?_, by norm_num, by norm_num⟩
  · norm_num [abs_of_neg]
  · rw [abs_le]
    constructor <;> linarith

/-- A bar stands over the middle of its place. -/
theorem bar_around_pixel {i : ℕ} (hi : i < n) (shares : Scale) (colour : Image.Colour)
    (share : Binary64) :
    (bar s.countScale shares colour (.ofNat i) share).left ≤ s.countScale.pixel (.ofNat i) ∧
      s.countScale.pixel (.ofNat i) ≤
        (bar s.countScale shares colour (.ofNat i) share).right := by
  have hlays := lays_countScale hn hlarge hcounts
  have hcovers := covers_countRange hn hlarge hcounts
  obtain ⟨w, hw, hw2⟩ := exists_barHalfWidth_hasValue
  have hw0 := hw.nonneg
  have hi0 : (0 : ℚ) ≤ i := Nat.cast_nonneg i
  have hin : (i : ℚ) + 1 ≤ n := by exact_mod_cast hi
  have hcast := hcovers.cast_le
  have hvalue := natCast_hasValue (n := i) (by omega)
  have hself := closest_natCast (n := i) (by omega)
  have hleft := hvalue.isWorth.sub hw.isWorth (lt_safeLimit_of_le (by
    rw [abs_le]
    constructor <;> linarith))
  have hright := hvalue.isWorth.add hw.isWorth (lt_safeLimit_of_le (by
    rw [abs_le]
    constructor <;> linarith))
  -- rounding leaves the sides on their sides, and within the range
  have hlow := closest_mono (show -1 / 2 ≤ (i : ℚ) - w by linarith)
  have hlow' := closest_mono (show (i : ℚ) - w ≤ i by linarith)
  have hhigh := closest_mono (show (i : ℚ) ≤ i + w by linarith)
  have hhigh' := closest_mono (show (i : ℚ) + w ≤ n - 1 / 2 by linarith)
  rw [closest_neg_half] at hlow
  rw [hself] at hlow' hhigh
  rw [hcovers.high.isMagnitude.closest_eq] at hhigh'
  have hcount : (UInt64.ofNat i).toNat = i :=
    UInt64.toNat_ofNat_of_lt' (by rw [UInt64.size]; omega)
  rw [bar, Rectangle.ofCorners, hcount]
  exact ⟨(min_le_left _ _).trans
      (hlays.pixel_le_pixel rfl hleft hvalue.isWorth hlow hlow' (by linarith)),
    (hlays.pixel_le_pixel rfl hvalue.isWorth hright (by linarith) hhigh hhigh').trans
      (le_max_right _ _)⟩

omit hn hlarge in
theorem countLabels_eq : s.countLabels = n + 1 := by
  rw [countLabels, hcounts, List.length_map, List.length_range]

theorem keyPoints_countScale :
    s.countScale.range.keyPoints s.countLabels = (List.range n).map .ofNat := by
  have hcovers := covers_countRange hn hlarge hcounts
  rw [countLabels_eq hcounts]
  refine hcovers.keyPointsFrom_eq ?_
  rw [countScale, hcovers.width_hasValue.toRat_eq]
  exact nearLog_floorLog10 hcovers.one_le

/-- No label of the axis is left out. -/
theorem ticks_counts :
    s.draw.vertical.ticks =
      (List.range n).map fun i => ⟨s.countScale.pixel (.ofNat i), i.repr⟩ := by
  have hbound := (covers_countRange hn hlarge hcounts).cast_le
  refine (lays_countScale hn hlarge hcounts).ticks_mesh (keyPoints_countScale hn hlarge hcounts)
    rfl (by linarith) ?_ ?_
  · intro i hi
    have hin : (i : ℚ) + 1 ≤ n := by exact_mod_cast List.mem_range.1 hi
    have hi0 : (0 : ℚ) ≤ i := Nat.cast_nonneg i
    constructor <;> linarith
  · intro i hi
    have hin := List.mem_range.1 hi
    exact rehashCountLabel_natCast (by omega)

end

/-! ## Bars and labels -/

/-- **Every bar has a label of its own.**  Let the rehash counts of a chart be `0, 1, …, n - 1`.
The points of its horizontal axis are just these, whichever exponent near the decimal logarithm of
the width the search starts from.  The ticks carry their numerals, in this order and without a gap,
and the two bars of every rehash count stand over its tick. -/
theorem draw_counts {n : ℕ} (hn : 0 < n) (hlarge : n < 2 ^ 50) {s : Series}
    (hcounts : s.rehashCounts = (List.range n).map .ofNat) (hcheck : s.check = .ok ()) :
    s.countRange.low.toRat = -1 / 2 ∧ s.countRange.high.toRat = n - 1 / 2 ∧
      s.countLabels = n + 1 ∧
      (∀ e, NearLog n e →
        s.countRange.keyPointsFrom s.countLabels e = (List.range n).map .ofNat) ∧
      s.draw.vertical.bold = (List.range n).map (fun i => s.countScale.pixel (.ofNat i)) ∧
      s.draw.vertical.ticks =
        (List.range n).map (fun i => ⟨s.countScale.pixel (.ofNat i), i.repr⟩) ∧
      ∀ i < n, (Binary64.ofNat i).toRat = i ∧ rehashCountLabel (.ofNat i) = i.repr ∧
        ∃ b c, s.draw.bars[i]? = some b ∧ s.draw.bars[n + i]? = some c ∧
          b.left ≤ s.countScale.pixel (.ofNat i) ∧ s.countScale.pixel (.ofNat i) ≤ b.right ∧
          c.left ≤ s.countScale.pixel (.ofNat i) ∧ s.countScale.pixel (.ofNat i) ≤ c.right := by
  have hcovers := covers_countRange hn hlarge hcounts
  refine ⟨hcovers.low.2, hcovers.high.toRat_eq, countLabels_eq hcounts, ?_, ?_,
    ticks_counts hn hlarge hcounts, ?_⟩
  · intro e he
    rw [countLabels_eq hcounts]
    exact hcovers.keyPointsFrom_eq he
  · exact Scale.Lays.bold_mesh (keyPoints_countScale hn hlarge hcounts)
  · intro i hi
    have hcount : s.rehashCounts[i]? = some (.ofNat i) := by
      rw [hcounts, List.getElem?_map, List.getElem?_range hi, Option.map_some]
    obtain ⟨x, y, -, -, hb, hc⟩ := getElem?_draw hcheck hcount
    have hlength : s.rehashCounts.length = n := by
      rw [hcounts, List.length_map, List.length_range]
    rw [hlength] at hc
    obtain ⟨hleft, hright⟩ := bar_around_pixel hn hlarge hcounts hi s.shareScale cumulativeColour x
    obtain ⟨hleft', hright'⟩ := bar_around_pixel hn hlarge hcounts hi s.shareScale frequencyColour y
    exact ⟨(natCast_hasValue (by omega)).toRat_eq, rehashCountLabel_natCast (by omega),
      _, _, hb, hc, hleft, hright, hleft', hright'⟩

/-- Ten rehash counts, the search started one decade too high. -/
theorem draw_counts_ten :
    let s : Series := ⟨(List.range 10).map .ofNat, List.replicate 10 .zero,
      List.replicate 10 (.ofNat 10)⟩
    s.check = .ok () ∧ NearLog (10 : ℕ) 2 ∧
      s.countRange.keyPointsFrom 11 2 = (List.range 10).map .ofNat ∧
      s.draw.vertical.ticks.map Tick.label =
        ["0", "1", "2", "3", "4", "5", "6", "7", "8", "9"] := by
  intro s
  have hcheck : s.check = .ok () := by decide +kernel
  have hnear : NearLog (10 : ℕ) 2 := ⟨by norm_num, 1, by norm_num, by norm_num, by norm_num⟩
  obtain ⟨-, -, -, hpoints, -, hticks, -⟩ :=
    draw_counts (n := 10) (by norm_num) (by norm_num) rfl hcheck
  refine ⟨hcheck, hnear, hpoints 2 hnear, ?_⟩
  rw [hticks, List.map_map]
  decide

end RehashReport.Chart.Series

namespace RehashReport.Chart

open Binary64
open Rounding (IsNearestInt isNearestInt_of_abs_sub_lt)

/-! ## Positions on an axis -/

theorem two_pow_64_hasValue : HasValue (.ofNat (2 ^ 64)) (2 ^ 64) := by
  have h := ofNat_hasValue (n := 2 ^ 64) (lt_safeLimit (by norm_num))
  rw [Nat.cast_pow, Nat.cast_ofNat, (isMagnitude_two_pow 64).rounded_eq] at h
  exact h

/-- Half a place beyond the greatest of all rehash counts is lost in rounding. -/
theorem rounded_beyond_greatest : rounded (2 ^ 64 + 1 / 2) = 2 ^ 64 := by
  decide +kernel

/-- Whatever the rehash counts are, their axis goes from `-1 / 2` to `2 ^ 64` at most. -/
theorem bounds_of_countRange {s : Series} {v : Binary64} (hlow : s.countRange.low ≤ v)
    (hhigh : v ≤ s.countRange.high) : -half ≤ v ∧ v ≤ .ofNat (2 ^ 64) := by
  have hleast := rounded_count_le s.leastCount
  have hleast0 := rounded_nonneg s.leastCount.toNat
  have hgreatest := rounded_count_le s.greatestCount
  have hgreatest0 := rounded_nonneg s.greatestCount.toNat
  have hstart := (count_hasValue s.leastCount).isWorth.sub half_hasValue.isWorth
    (lt_safeLimit (abs_le.2 ⟨by linarith, by linarith⟩))
  have hend := (count_hasValue s.greatestCount).add half_hasValue (lt_safeLimit (by linarith))
  obtain ⟨hv, hle, hle'⟩ := hstart.between hend.isWorth hlow hhigh
  rw [half_hasValue.isWorth.neg.le_iff hv, hv.le_iff two_pow_64_hasValue.isWorth]
  constructor
  · calc -(1 / 2) = closest (-1 / 2) := by rw [closest_neg_half, neg_div]
      _ ≤ closest (rounded s.leastCount.toNat - 1 / 2) := closest_mono (by linarith)
      _ ≤ v.toRat := hle
  · calc v.toRat ≤ rounded (rounded s.greatestCount.toNat + 1 / 2) := hle'
      _ ≤ rounded (2 ^ 64 + 1 / 2) := rounded_mono (by linarith) (by linarith)
      _ = 2 ^ 64 := rounded_beyond_greatest

/-! ## Labels -/

/-- **What the axis of rehash counts is labelled with.**  A position on it has no label just if it
is a billionth or more from every integer.  Every other one has a nearest integer, and that is a
natural number.  If it has 63 bits at most, the label is its decimal numeral; the label of all
greater ones is the numeral of the greatest number of 63 bits. -/
theorem rehashCountLabel_nearest {v : Binary64} (hlow : -half ≤ v) (hhigh : v ≤ .ofNat (2 ^ 64)) :
    (rehashCountLabel v = "" ↔ ∀ n : ℤ, 1 / 10 ^ 9 ≤ |v.toRat - n|) ∧
      (rehashCountLabel v ≠ "" → ∃ n : ℕ, IsNearestInt v.toRat n ∧
        (n < 2 ^ 63 → rehashCountLabel v = n.repr) ∧
        (2 ^ 63 ≤ n → rehashCountLabel v = Nat.repr (2 ^ 63 - 1))) := by
  obtain ⟨hv, hq, hq'⟩ := half_hasValue.isWorth.neg.between two_pow_64_hasValue.isWorth hlow hhigh
  have hlimit : |v.toRat| < safeLimit := lt_safeLimit (abs_le.2 ⟨by linarith, by linarith⟩)
  by_cases hfar : ∀ n : ℤ, 1 / 10 ^ 9 ≤ |v.toRat - n|
  · have hlabel := rehashCountLabel_of_far hv hlimit hfar
    exact ⟨iff_of_true hlabel hfar, fun hne => absurd hlabel hne⟩
  · obtain ⟨n, hn⟩ : ∃ n : ℤ, |v.toRat - n| < 1 / 10 ^ 9 := by
      simpa only [not_forall, not_le] using hfar
    -- no integer below zero is that near to the axis
    obtain ⟨m, rfl⟩ : ∃ m : ℕ, n = m := by
      have hlt : (-1 : ℚ) < n := by linarith [(abs_lt.1 hn).2]
      exact Int.eq_ofNat_of_zero_le (Int.lt_iff_add_one_le.1 (by exact_mod_cast hlt))
    have hlabel := rehashCountLabel_of_near_natCast hv hlimit hn
    have hne : rehashCountLabel v ≠ "" := by
      rw [hlabel]
      exact Nat.repr_ne_empty
    refine ⟨iff_of_false hne hfar, fun _ => ⟨m, ?_, ?_, ?_⟩⟩
    · exact isNearestInt_of_abs_sub_lt (hn.trans (by norm_num))
    · intro hm
      rw [hlabel, min_eq_right (by omega)]
    · intro hm
      rw [hlabel, min_eq_left (by omega)]

/-- A position just below zero, on the axis of two rehash counts: its label has no minus. -/
theorem rehashCountLabel_nearest_belowZero :
    let s : Series := ⟨[0, 1], [.zero, .ofNat 50], [.ofNat 50, .ofNat 50]⟩
    let v := Binary64.ofRat (-1 / 10 ^ 12)
    s.countRange.low ≤ v ∧ v ≤ s.countRange.high ∧ -half ≤ v ∧ v ≤ .ofNat (2 ^ 64) ∧
      v < .zero ∧ rehashCountLabel v = "0" := by
  intro s v
  have hlow : s.countRange.low ≤ v := by decide +kernel
  have hhigh : v ≤ s.countRange.high := by decide +kernel
  obtain ⟨hbelow, habove⟩ := bounds_of_countRange hlow hhigh
  obtain ⟨hempty, hlabel⟩ := rehashCountLabel_nearest hbelow habove
  have hzero : |v.toRat - (0 : ℤ)| < 1 / 10 ^ 9 := by decide +kernel
  obtain ⟨n, hnearest, hnumeral, -⟩ := hlabel fun h => not_le.2 hzero (hempty.1 h 0)
  have hn : (n : ℤ) = 0 := hnearest.eq_of_abs_sub_lt (hzero.trans (by norm_num))
  obtain rfl : n = 0 := by exact_mod_cast hn
  exact ⟨hlow, hhigh, hbelow, habove, by decide +kernel, hnumeral (by norm_num)⟩

/-- The axis of the least and the greatest rehash count has a point at `10 ^ 19`.  It is labelled,
but with another number. -/
theorem not_numeral_of_rehashCountLabel :
    let s := Samples.ofList [⟨0, 3⟩, ⟨18446744073709551615, 1⟩]
    let d := Distribution.ofTotal s 4
    let c := Series.ofDistribution d
    let v := Binary64.ofNat (10 ^ 19)
    Distribution.ofSamples s = .ok d ∧ v ∈ c.countRange.keyPoints c.countLabels ∧
      -half ≤ v ∧ v ≤ .ofNat (2 ^ 64) ∧ v.toRat = (10 ^ 19 : ℕ) ∧ rehashCountLabel v ≠ "" ∧
      rehashCountLabel v ≠ Nat.repr (10 ^ 19) ∧
      c.draw.vertical.ticks = [⟨80, "0"⟩, ⟨374, "9223372036854775807"⟩] := by
  decide +kernel

end RehashReport.Chart
