import Mathlib
import RehashReport.Proofs.Chart.Bars
import RehashReport.Proofs.Chart.Label
import RehashReport.Proofs.Chart.Points
import RehashReport.Proofs.Chart.Scale
import RehashReport.Proofs.Chart.Tallest

/-!
# The axis of shares

The vertical axis of the chart of a distribution.  It begins with zero, and as the tallest bar is
about half as high as the whole at least, it ends far enough from zero for every whole step to be
counted exactly (`Rises.pointCount_eq`).  Steps of ten and more give at most eleven points; steps of
two give more than that.  The search therefore settles on five or on ten, wherever it starts
(`Rises.spacing_eq`), and the labels show the values of the ticks although they have no places
(`draw_shares`).
-/

namespace RehashReport.Chart

open Binary64

/-- `Rises r y`: the range from zero to `y`, about as far as the bars of a distribution need. -/
structure Rises (r : Range) (y : ℚ) : Prop where
  low : HasValue r.low (0 : ℕ)
  high : HasValue r.high y
  le_high : 5249 / 100 ≤ y
  high_le : y ≤ 105

namespace Rises

open Range

variable {r : Range} {y : ℚ} (h : Rises r y) {step : Binary64} {s : ℕ}

include h

/-! ### Counting -/

theorem first_hasValue (hs : HasValue step s) (hs1 : 0 < s) (hsb : s ≤ 1000) :
    HasValue (r.first step) (0 : ℕ) := by
  have hlow := h.low
  rw [Nat.cast_zero] at hlow ⊢
  refine first_of_low_zero hlow hs (by exact_mod_cast hs1) ?_
  have hsb : (s : ℚ) ≤ 1000 := by exact_mod_cast hsb
  linarith

theorem splits (hs1 : 0 < s) (hsb : s ≤ 1000) : Splits y s ⌊y / s⌋₊ := by
  have hlow := h.le_high
  have hhigh := h.high_le
  have hsb : (s : ℚ) ≤ 1000 := by exact_mod_cast hsb
  exact splits_natCast h.high.isMagnitude hs1 (by linarith) (Or.inr (by linarith))

theorem last_hasValue (hs : HasValue step s) (hs1 : 0 < s) (hsb : s ≤ 1000) :
    HasValue (r.last step) (⌊y / s⌋₊ * s : ℕ) := by
  rw [Nat.cast_mul]
  exact Range.last_hasValue (h.splits hs1 hsb) h.high hs

theorem floor_div_le (hs1 : 0 < s) : ⌊y / s⌋₊ ≤ 105 := by
  have hlow := h.le_high
  have hhigh := h.high_le
  have hs0 : (1 : ℚ) ≤ s := by exact_mod_cast hs1
  refine Nat.floor_le_of_le ((div_le_self (by linarith) hs0).trans ?_)
  exact_mod_cast hhigh

theorem floor_div_mul_le (hs1 : 0 < s) (hsb : s ≤ 1000) : (⌊y / s⌋₊ + 1) * s ≤ 2 ^ 53 := by
  have hle := Nat.mul_le_mul (Nat.add_le_add_right (h.floor_div_le hs1) 1) hsb
  omega

/-- Every multiple of a whole step is counted, and nothing else. -/
theorem pointCount_eq {p c k : ℕ} (hp : p * c = 10) (hp0 : 0 < p) (hp10 : p ≤ 10) (hc0 : 0 < c)
    (hc5 : c ≤ 5) (hk : k ≤ 2) :
    r.pointCount (decade (k + 1)) p = ⌊y / (c * 10 ^ k : ℕ)⌋₊ + 1 := by
  have hpow : 10 ^ k ≤ 10 ^ 2 := Nat.pow_le_pow_right (by norm_num) hk
  have hsb := Nat.mul_le_mul hc5 hpow
  have hs1 : 0 < c * 10 ^ k := by positivity
  have hdecade : p * (c * 10 ^ k) = 10 ^ (k + 1) := by
    rw [← Nat.mul_assoc, hp, pow_succ, Nat.mul_comm]
  have hstep := part_hasValue (k := k) hp hp0 hp10 (by omega) (by omega)
  set s := c * 10 ^ k with hs
  set m := ⌊y / (s : ℚ)⌋₊ with hm
  have hspan := (h.last_hasValue hstep hs1 (by omega)).natCast_sub
    (h.first_hasValue hstep hs1 (by omega)) (Nat.zero_le _) (by
      have := h.floor_div_mul_le hs1 (by omega)
      rw [Nat.succ_mul] at this
      omega)
  rw [Nat.sub_zero, ← hm] at hspan
  have hparts : ((m * s : ℕ) : ℚ) * p = m * 10 ^ (k + 1) := by
    have hcast : (p : ℚ) * s = 10 ^ (k + 1) := by exact_mod_cast hdecade
    rw [Nat.cast_mul, mul_assoc, mul_comm (s : ℚ), hcast]
  have hcount := pointCount_bounds (decade_hasValue (by omega)) (by positivity) hp0 (by omega)
    hspan hparts.ge hparts.le (by have := h.floor_div_le hs1; omega)
  omega

/-- Tens and more give at most eleven points. -/
theorem pointCount_le {k p : ℕ} (hk0 : 0 < k) (hk : k ≤ 2) (hp : p ∈ [2, 5, 10]) :
    r.pointCount (decade (k + 1)) p ≤ 11 := by
  obtain ⟨c, hc, hp0, hp10, hc0, hc5⟩ := exists_cofactor hp
  have hten : 10 ≤ c * 10 ^ k := by
    have hpow : 10 ^ 1 ≤ 10 ^ k := Nat.pow_le_pow_right (by norm_num) hk0
    exact Nat.mul_le_mul hc0 hpow
  have hten : (10 : ℚ) ≤ (c * 10 ^ k : ℕ) := by exact_mod_cast hten
  have hlow := h.le_high
  have hhigh := h.high_le
  have hfloor : ⌊y / (c * 10 ^ k : ℕ)⌋₊ < 11 := by
    rw [Nat.floor_lt (div_nonneg (by linarith) (by linarith)), div_lt_iff₀ (by linarith),
      Nat.cast_ofNat]
    linarith
  rw [h.pointCount_eq hc hp0 hp10 hc0 hc5 hk]
  omega

/-- Twos give more. -/
theorem lt_pointCount_twos : 11 < r.pointCount (decade 1) 5 := by
  have hlow := h.le_high
  have hfloor : 11 ≤ ⌊y / (2 * 10 ^ 0 : ℕ)⌋₊ := by
    refine Nat.le_floor ?_
    norm_num
    linarith
  rw [h.pointCount_eq (k := 0) (c := 2) rfl (by norm_num) (by norm_num) two_pos (by norm_num)
    (by norm_num)]
  omega

/-! ### The points -/

/-- Among the parts of ten, the search stops with fives or before. -/
theorem exists_refine :
    ∃ (step : Binary64) (s : ℕ), HasValue step s ∧ (s = 5 ∨ s = 10) ∧ ⌊y / s⌋₊ ≤ 10 ∧
      r.refine 11 (decade 1) [2, 5, 10] (decade 1) = (step, false) := by
  have hfives := h.pointCount_eq (k := 0) (c := 5) (p := 2) rfl (by norm_num) (by norm_num)
    (by norm_num) (by norm_num) (by norm_num)
  by_cases hmany : 11 < r.pointCount (decade 1) 2
  · have hten : HasValue (decade 1) (10 : ℕ) := by
      have hdecade := decade_hasValue (k := 1) (by norm_num)
      rwa [pow_one] at hdecade
    have hfloor : ⌊y / (10 : ℕ)⌋₊ < 11 := by
      have hlow := h.le_high
      have hhigh := h.high_le
      rw [Nat.floor_lt (div_nonneg (by linarith) (by norm_num)), div_lt_iff₀ (by norm_num)]
      push_cast
      linarith
    refine ⟨decade 1, 10, hten, Or.inr rfl, by omega, ?_⟩
    rw [refine, if_pos hmany]
  · refine ⟨decade 1 / .ofNat 2, 5, ?_, Or.inl rfl, ?_, ?_⟩
    · exact part_hasValue (k := 0) (c := 5) rfl (by norm_num) (by norm_num) (by norm_num)
        (by norm_num)
    · rw [hfives] at hmany
      rw [pow_zero, Nat.mul_one] at hmany
      omega
    · rw [refine, if_neg hmany, refine, if_pos h.lt_pointCount_twos]

theorem width_hasValue : HasValue r.width y := by
  have hlow := h.le_high
  have hhigh := h.high_le
  have hwidth := h.high.sub h.low.isWorth (by push_cast; linarith)
    (lt_safeLimit (by push_cast; linarith))
  rwa [Nat.cast_zero, sub_zero, h.high.isMagnitude.rounded_eq] at hwidth

/-- From ten on, no decade has more than ten steps in the range. -/
theorem floor_width_le {k : ℕ} (hk0 : 0 < k) (hk : k ≤ 22) :
    (r.width / decade k).floor.toNat64 ≤ 10 := by
  have hlow := h.le_high
  have hhigh := h.high_le
  have hten : (10 : ℚ) ≤ 10 ^ k := le_self_pow₀ (by norm_num) hk0.ne'
  have hle : y / 10 ^ k ≤ ((21 : ℕ) : ℚ) / 2 := by
    rw [div_le_iff₀ (by positivity)]
    push_cast
    linarith
  have hround := (isMagnitude_halves (by norm_num)).rounded_le
    (div_nonneg (by linarith) (by positivity)) hle
  have hfloor := (h.width_hasValue.div (decade_hasValue hk) (by positivity)
    (lt_safeLimit (hle.trans (by norm_num)))).floor (hround.trans_lt (by norm_num))
  have hnat : ⌊rounded (y / 10 ^ k)⌋₊ < 11 := by
    rw [Nat.floor_lt (rounded_nonneg _)]
    exact hround.trans_lt (by norm_num)
  rw [hfloor.toNat64 (by omega)]
  omega

/-- A search that starts with ones starts with tens instead. -/
theorem spacing_zero : r.spacing 11 0 = r.search 11 decades (decadeSpacing 1) := by
  have hlow := h.le_high
  have hhigh := h.high_le
  have hquotient := h.width_hasValue.div decade_zero_hasValue one_pos (lt_safeLimit (by linarith))
  rw [div_one, h.high.isMagnitude.rounded_eq] at hquotient
  have hfloor : 52 ≤ ⌊y⌋₊ := by
    refine Nat.le_floor ?_
    push_cast
    linarith
  have hfloor' : ⌊y⌋₊ ≤ 105 := Nat.floor_le_of_le (by exact_mod_cast hhigh)
  have hmany : 11 < 1 + (r.width / decade 0).floor.toNat64 := by
    rw [(hquotient.floor (by linarith)).toNat64 (by omega)]
    omega
  have hscaled : (⟨decade 0 * ten, decade 0 / ten * ten⟩ : Spacing) = decadeSpacing 1 := by
    decide +kernel
  have hone : Binary64.ofRat ((10 : ℚ) ^ (0 : ℤ)) = decade 0 := by
    rw [decade, zpow_zero, pow_zero]
  rw [spacing, hone, if_pos hmany, hscaled]

/-- The search settles on fives or on tens, wherever it starts. -/
theorem spacing_eq {e : ℤ} (he : NearLog y e) {step : Binary64}
    (hfine : r.refine 11 (decade 1) [2, 5, 10] (decade 1) = (step, false)) :
    r.spacing 11 e = ⟨step, decade 1 / ten⟩ := by
  have hhigh := h.high_le
  obtain ⟨k, rfl, hk⟩ := he.exists_nat (k := 3) (by linarith)
  have hsearch : ∀ j, 1 ≤ j → j ≤ 3 →
      r.search 11 decades (decadeSpacing j) = ⟨step, decade 1 / ten⟩ := by
    intro j hj hj3
    refine search_eq hj (by omega) ?_ hfine (by rw [decades]; omega)
    intro i hi hij p hp
    obtain ⟨i, rfl⟩ := Nat.exists_eq_succ_of_ne_zero (by omega : i ≠ 0)
    exact h.pointCount_le (by omega) (by omega) hp
  rcases Nat.eq_zero_or_pos k with rfl | hpos
  · rw [Nat.cast_zero, h.spacing_zero]
    exact hsearch 1 le_rfl (by norm_num)
  · rw [Range.spacing_eq (by have := h.floor_width_le hpos (by omega); omega)]
    exact hsearch k hpos hk

/-- The points of the axis are the multiples of five or of ten. -/
theorem exists_keyPointsFrom :
    ∃ s : ℕ, (s = 5 ∨ s = 10) ∧ ⌊y / s⌋₊ ≤ 10 ∧ ∀ e, NearLog y e →
      r.keyPointsFrom 11 e = (List.range (⌊y / s⌋₊ + 1)).map fun i => .ofNat (i * s) := by
  obtain ⟨step, s, hstep, hs, hcount, hfine⟩ := h.exists_refine
  refine ⟨s, hs, hcount, ?_⟩
  intro e he
  have hlow := h.le_high
  have hhigh := h.high_le
  have hs1 : 0 < s := by omega
  obtain ⟨g, hgrain, hg⟩ := exists_grain_hasValue (k := 1) (by norm_num)
  have hwide : ((0 : ℕ) : ℚ) + 1 ≤ y := by
    push_cast
    linarith
  have hbound : y - ((0 : ℕ) : ℚ) ≤ 2 ^ 53 := by
    push_cast
    linarith
  rw [keyPointsFrom_of_wide h.low.isWorth h.high.isWorth hwide hbound, h.spacing_eq he hfine]
  exact points_eq hstep hs1 hgrain hg (h.first_hasValue hstep hs1 (by omega))
    (h.last_hasValue hstep hs1 (by omega)) (h.floor_div_mul_le hs1 (by omega))

end Rises

/-! ## Ticks and labels -/

namespace Series

/-- The multiples of a step up to a bound. -/
theorem mem_multiples_iff {s v : ℕ} {y : ℚ} (hs : 0 < s) (hy : 0 ≤ y) :
    v ∈ (List.range (⌊y / s⌋₊ + 1)).map (· * s) ↔ s ∣ v ∧ (v : ℚ) ≤ y := by
  have hs0 : (0 : ℚ) < s := by exact_mod_cast hs
  have hle : ∀ i : ℕ, i ≤ ⌊y / s⌋₊ ↔ ((i * s : ℕ) : ℚ) ≤ y := by
    intro i
    rw [Nat.le_floor_iff (div_nonneg hy hs0.le), le_div_iff₀ hs0, Nat.cast_mul]
  simp only [List.mem_map, List.mem_range, Nat.lt_succ_iff, hle]
  constructor
  · rintro ⟨i, hi, rfl⟩
    exact ⟨Nat.dvd_mul_left s i, hi⟩
  · rintro ⟨⟨i, rfl⟩, hv⟩
    exact ⟨i, by rwa [Nat.mul_comm] at hv, Nat.mul_comm i s⟩

theorem pairwise_multiples {s : ℕ} (hs : 0 < s) (n : ℕ) :
    ((List.range n).map (· * s)).Pairwise (· < ·) := by
  rw [List.pairwise_map]
  refine List.pairwise_lt_range.imp ?_
  intro i j hij
  exact Nat.mul_lt_mul_of_pos_right hij hs

section

variable {s : Series} {y : ℚ} (h : Rises s.shareRange y)

include h

/-- The points of the axis are all multiples of five or all multiples of ten up to its end. -/
theorem exists_multiples :
    ∃ (step : ℕ) (values : List ℕ), (step = 5 ∨ step = 10) ∧ values.length ≤ 11 ∧
      (∀ v : ℕ, v ∈ values ↔ step ∣ v ∧ (v : ℚ) ≤ y) ∧ values.Pairwise (· < ·) ∧
      ∀ e, NearLog y e → s.shareRange.keyPointsFrom shareLabels e = values.map .ofNat := by
  obtain ⟨step, hstep, hcount, hpoints⟩ := h.exists_keyPointsFrom
  have hstep0 : 0 < step := by omega
  refine ⟨step, (List.range (⌊y / step⌋₊ + 1)).map (· * step), hstep, ?_, ?_, ?_, ?_⟩
  · rw [List.length_map, List.length_range]
    omega
  · intro v
    exact mem_multiples_iff hstep0 h.high.nonneg
  · exact pairwise_multiples hstep0 _
  · intro e he
    rw [shareLabels, hpoints e he, List.map_map]
    rfl

/-- The drawing starts the search from an exponent that is just right. -/
theorem keyPoints_shareScale {points : List Binary64}
    (hpoints : ∀ e, NearLog y e → s.shareRange.keyPointsFrom shareLabels e = points) :
    s.shareScale.range.keyPoints shareLabels = points := by
  refine hpoints _ ?_
  rw [shareScale, h.width_hasValue.toRat_eq]
  exact nearLog_floorLog10 (by linarith [h.le_high])

/-- No label of the axis is left out. -/
theorem ticks_shares {values : List ℕ}
    (hpoints : s.shareScale.range.keyPoints shareLabels = values.map .ofNat)
    (hvalues : ∀ v ∈ values, (v : ℚ) ≤ y) :
    s.draw.horizontal.ticks =
      values.map fun v => ⟨s.shareScale.pixel (.ofNat v), v.repr ++ "%"⟩ := by
  have hlays := lays_shareScale h.high (by linarith [h.le_high]) h.high_le
  refine hlays.ticks_mesh hpoints rfl (by linarith [h.high_le]) ?_ ?_
  · intro v hv
    exact ⟨Nat.cast_nonneg v, hvalues v hv⟩
  · intro v hv
    have hsmall : v ≤ 105 := by exact_mod_cast (hvalues v hv).trans h.high_le
    exact shareLabel_natCast (by omega)

end

/-- The axis of a distribution goes up to about its tallest bar. -/
theorem exists_rises {s : Samples} (hpos : 0 < s.bucketTotal)
    (hfits : s.bucketTotal < UInt64.size) :
    ∃ y, Rises (ofDistribution (.ofTotal s (.ofNat s.bucketTotal))).shareRange y := by
  obtain ⟨y, hy, hlow, hhigh⟩ := exists_shareRange_hasValue hpos hfits
  refine ⟨y, ?_, hy, hlow, hhigh⟩
  rw [Nat.cast_zero]
  exact zero_hasValue

/-- **The axis of shares is labelled exactly.**  Of a table with records that has a distribution,
the tallest bar is at least about half as high as the whole, and the axis ends between `52.49` and
`105`.  The points of the axis are all multiples of five or all multiples of ten up to its end, at
most eleven of them, whichever exponent near the decimal logarithm of the width the search starts
from.  Each has a tick, with its exact value as the label, so no two labels are equal. -/
theorem draw_shares {s : Samples} {d : Distribution} (hs : s.size ≠ 0)
    (hd : Distribution.ofSamples s = .ok d) :
    50 - 1 / 2 ^ 46 ≤ (ofDistribution d).tallest.toRat ∧
      5249 / 100 ≤ (ofDistribution d).shareRange.high.toRat ∧
      (ofDistribution d).shareRange.high.toRat ≤ 105 ∧
      ∃ (step : ℕ) (values : List ℕ), (step = 5 ∨ step = 10) ∧ values.length ≤ 11 ∧
        (∀ v : ℕ, v ∈ values ↔ step ∣ v ∧ (v : ℚ) ≤ (ofDistribution d).shareRange.high.toRat) ∧
        values.Pairwise (· < ·) ∧
        (∀ e, NearLog (ofDistribution d).shareRange.high.toRat e →
          (ofDistribution d).shareRange.keyPointsFrom shareLabels e = values.map .ofNat) ∧
        (∀ v ∈ values, (Binary64.ofNat v).toRat = v ∧ shareLabel (.ofNat v) = v.repr ++ "%") ∧
        (ofDistribution d).draw.horizontal.bold =
          values.map (fun v => (ofDistribution d).shareScale.pixel (.ofNat v)) ∧
        (ofDistribution d).draw.horizontal.ticks =
          values.map (fun v => ⟨(ofDistribution d).shareScale.pixel (.ofNat v), v.repr ++ "%"⟩) ∧
        ((ofDistribution d).draw.horizontal.ticks.map Tick.label).Nodup := by
  obtain ⟨hpos, hfits, rfl⟩ := Distribution.eq_ofTotal_of_ofSamples hs hd
  obtain ⟨t, ht, htallest, -⟩ := exists_tallest_hasValue hpos hfits
  obtain ⟨y, hy⟩ := exists_rises hpos hfits
  obtain ⟨step, values, hstep, hlength, hmem, hpairwise, hpoints⟩ := exists_multiples hy
  have hlow := hy.le_high
  have hhigh := hy.high_le
  have hdrawn := keyPoints_shareScale hy hpoints
  have hticks := ticks_shares hy hdrawn fun v hv => ((hmem v).1 hv).2
  rw [ht.toRat_eq, hy.high.toRat_eq]
  refine ⟨htallest, hlow, hhigh, step, values, hstep, hlength, hmem, hpairwise, hpoints, ?_, ?_,
    hticks, ?_⟩
  · intro v hv
    have hv : (v : ℚ) ≤ 105 := ((hmem v).1 hv).2.trans hhigh
    have hv : v ≤ 105 := by exact_mod_cast hv
    exact ⟨(natCast_hasValue (by omega)).toRat_eq, shareLabel_natCast (by omega)⟩
  · exact Scale.Lays.bold_mesh hdrawn
  · rw [hticks, List.map_map]
    exact (hpairwise.imp ne_of_lt).map _ fun _ _ hne heq => hne (percent_injective heq)

/-- Two equal halves: the tallest bar has just the least height. -/
theorem draw_shares_halves :
    let s := Samples.ofList [⟨0, 1⟩, ⟨1, 1⟩]
    let d := Distribution.ofTotal s 2
    s.size ≠ 0 ∧ Distribution.ofSamples s = .ok d ∧
      50 - 1 / 2 ^ 46 ≤ (ofDistribution d).tallest.toRat ∧ (ofDistribution d).tallest.toRat = 50 ∧
      (ofDistribution d).draw.horizontal.ticks.map Tick.label =
        ["0%", "5%", "10%", "15%", "20%", "25%", "30%", "35%", "40%", "45%", "50%"] := by
  intro s d
  have hs : s.size ≠ 0 := by decide
  have hd : Distribution.ofSamples s = .ok d := by decide +kernel
  exact ⟨hs, hd, (draw_shares hs hd).1, by decide +kernel, by decide +kernel⟩

end Series

end RehashReport.Chart
