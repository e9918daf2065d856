import Mathlib
import RehashReport.Proofs.Chart.Check
import RehashReport.Proofs.Distribution.Sums

/-!
# Distributions can be drawn

A share is rounded four times on its way to a percentage: both counts when they become floating
point, the product with a hundred, and the quotient.  This file bounds what comes of it.  The exact
quotient is at most a hundred and one rounding error of the product, which lies below the magnitude
right after a hundred; as rounding is monotone, no percentage is beyond that magnitude
(`percentage_hasValue`).  The tolerance of a chart is far wider, so every distribution of a table
with records passes the check of its chart, and one without records fails it for being empty
(`check_ofTotal`, `check_ofTotal_of_isEmpty`).
-/

namespace RehashReport

open Binary64

/-! ## The magnitude after a hundred -/

/-- The unit in the last place around a hundred. -/
theorem unit_hundred : unit 1028 = 1 / 2 ^ 46 := by
  norm_num [unit, leastExponent]

/-- The least magnitude above a hundred. -/
def aboveHundred : ℚ := 100 + 1 / 2 ^ 46

theorem aboveHundred_eq : aboveHundred = ((100 * 2 ^ 46 + 1 : ℕ) : ℚ) * unit 1028 := by
  rw [unit_hundred, aboveHundred]
  norm_num

@[simp] theorem rounded_aboveHundred : rounded aboveHundred = aboveHundred := by
  rw [aboveHundred_eq]
  exact rounded_mul_unit 1028 (by norm_num [binadeSize])

/-- No magnitude lies between a hundred and the one after it. -/
theorem magnitude_nearestCode_hundred_succ :
    magnitude (nearestCode 100 + 1) = 100 + 1 / 2 ^ 46 := by
  have hcode : nearestCode 100 = 1028 * binadeSize + 100 * 2 ^ 46 := by
    have hm : magnitude (1028 * binadeSize + 100 * 2 ^ 46) = 100 := by
      rw [magnitude_grid (by norm_num [binadeSize]) (Or.inr (by norm_num [binadeSize])),
        unit_hundred]
      norm_num
    rw [← nearestCode_magnitude (1028 * binadeSize + 100 * 2 ^ 46), hm]
  rw [hcode, add_assoc,
    magnitude_grid (by norm_num [binadeSize]) (Or.inr (by norm_num [binadeSize])), unit_hundred]
  norm_num

/-! ## Percentages -/

/-- A count of 64 bits as a floating-point number. -/
theorem count_hasValue (c : UInt64) : HasValue (.ofNat c.toNat) (rounded c.toNat) := by
  refine ofNat_hasValue (lt_safeLimit ?_)
  have h : ((c.toNat : ℕ) : ℚ) < ((2 ^ 64 : ℕ) : ℚ) := by exact_mod_cast c.toNat_lt
  refine h.le.trans ?_
  norm_num

theorem rounded_count_le (c : UInt64) : rounded c.toNat ≤ 2 ^ 64 := by
  refine (isMagnitude_two_pow 64).rounded_le (Nat.cast_nonneg _) ?_
  exact_mod_cast c.toNat_lt.le

/-- The value of a percentage before its last rounding. -/
def rawPercentage (total count : ℕ) : ℚ := rounded (rounded count * 100) / rounded total

/-- `IsPercentage total count share`: the share is the percentage of the count in the total, with
both conversions, the product and the quotient each rounded to nearest, ties to even. -/
def IsPercentage (total count : ℕ) (share : ℚ) : Prop :=
  ∃ a t p, RoundsTo count a ∧ RoundsTo total t ∧ RoundsTo (a * 100) p ∧ RoundsTo (p / t) share

theorem isPercentage_rounded (total count : ℕ) :
    IsPercentage total count (rounded (rawPercentage total count)) := by
  have ha := rounded_nonneg (count : ℚ)
  have ht := rounded_nonneg (total : ℚ)
  refine ⟨_, _, _, rounded_roundsTo (Nat.cast_nonneg _), rounded_roundsTo (Nat.cast_nonneg _),
    rounded_roundsTo (by positivity), rounded_roundsTo ?_⟩
  exact div_nonneg (rounded_nonneg _) ht

/-- Before its last rounding, a percentage exceeds a hundred by less than the magnitude after it. -/
theorem rawPercentage_le {total count : UInt64} (htotal : 0 < total.toNat)
    (h : count.toNat ≤ total.toNat) :
    rawPercentage total.toNat count.toNat ≤ aboveHundred := by
  set a := rounded count.toNat
  set t := rounded total.toNat with ht
  have ht1 : 1 ≤ t := one_le_rounded_natCast htotal
  have hat : a ≤ t := rounded_mono (Nat.cast_nonneg _) (by exact_mod_cast h)
  have ha : 0 ≤ a := rounded_nonneg _
  have hnormal : leastNormal ≤ t * 100 := by linarith [leastNormal_le_one]
  have hproduct : rounded (a * 100) ≤ t * 100 * (1 + roundoff) :=
    calc rounded (a * 100) ≤ rounded (t * 100) := rounded_mono (by positivity) (by gcongr)
      _ ≤ t * 100 * (1 + roundoff) := rounded_le_mul hnormal
  have herror : 100 * (1 + roundoff) ≤ aboveHundred := by
    norm_num [roundoff, aboveHundred, binadeSize]
  calc rounded (a * 100) / t ≤ t * 100 * (1 + roundoff) / t := by gcongr
    _ = 100 * (1 + roundoff) := by field_simp
    _ ≤ aboveHundred := herror

/-- A share of a total is worth its exact percentage with every step rounded. -/
theorem percentage_hasValue {total count : UInt64} (htotal : 0 < total.toNat)
    (h : count.toNat ≤ total.toNat) :
    HasValue (Distribution.percentage total count)
      (rounded (rawPercentage total.toNat count.toNat)) := by
  have ht := one_le_rounded_natCast htotal
  have hproduct : rounded count.toNat * 100 < safeLimit := by
    refine lt_safeLimit ?_
    linarith [rounded_count_le count]
  have hquotient : rawPercentage total.toNat count.toNat < safeLimit := by
    refine lt_safeLimit ((rawPercentage_le htotal h).trans ?_)
    norm_num [aboveHundred]
  exact ((count_hasValue count).mul hundred_hasValue hproduct).div (count_hasValue total)
    (by linarith) hquotient

/-- No share of a total is worth more than the magnitude after a hundred. -/
theorem rounded_rawPercentage_le {total count : UInt64} (htotal : 0 < total.toNat)
    (h : count.toNat ≤ total.toNat) :
    rounded (rawPercentage total.toNat count.toNat) ≤ aboveHundred := by
  rw [← rounded_aboveHundred]
  refine rounded_mono ?_ (rawPercentage_le htotal h)
  exact div_nonneg (rounded_nonneg _) (rounded_nonneg _)

/-! ## The check of a chart -/

namespace Chart

/-- The tolerance leaves room for the magnitude after a hundred. -/
theorem aboveHundred_le_bound : aboveHundred ≤ rounded (100 + rounded (1 / 1000000000)) := by
  have hself : rounded (1 / 2 ^ 46) = 1 / 2 ^ 46 := by
    have h := rounded_mul_unit (m := 1) 1028 (by norm_num [binadeSize])
    rwa [unit_hundred, Nat.cast_one, one_mul] at h
  have htolerance : 1 / 2 ^ 46 ≤ rounded (1 / 1000000000) := by
    rw [← hself]
    exact rounded_mono (by norm_num) (by norm_num)
  rw [← rounded_aboveHundred]
  refine rounded_mono (by norm_num [aboveHundred]) ?_
  rw [aboveHundred]
  linarith

/-- A share that does not exceed the magnitude after a hundred can be drawn. -/
theorem tolerable_of_hasValue {share : Binary64} {q : ℚ} (h : HasValue share q)
    (hq : q ≤ aboveHundred) : Tolerable share where
  finite := h.isFinite
  low_le := by
    rw [tolerance_hasValue.isWorth.neg.2, h.toRat_eq]
    linarith [tolerance_hasValue.nonneg, h.nonneg]
  le_high := by
    rw [hundred_add_tolerance_hasValue.toRat_eq, h.toRat_eq]
    exact hq.trans aboveHundred_le_bound

end Chart

namespace Distribution

section

variable {s : Samples} (hpos : 0 < s.bucketTotal) (hfits : s.bucketTotal < UInt64.size)

include hpos hfits

/-- The share of any part of a table's buckets. -/
theorem share_hasValue {count : UInt64} (hcount : count.toNat ≤ s.bucketTotal) :
    ∃ q, HasValue (percentage (.ofNat s.bucketTotal) count) q ∧ q ≤ aboveHundred ∧
      IsPercentage s.bucketTotal count.toNat q := by
  have htotal : (UInt64.ofNat s.bucketTotal).toNat = s.bucketTotal :=
    UInt64.toNat_ofNat_of_lt' hfits
  rw [← htotal] at hcount hpos
  have hvalue := percentage_hasValue hpos hcount
  have hle := rounded_rawPercentage_le hpos hcount
  rw [htotal] at hvalue hle
  exact ⟨_, hvalue, hle, isPercentage_rounded _ _⟩

omit hpos in
/-- The sums of suffixes start at the second record, and none exceeds the total. -/
theorem tailSum_le {sum : UInt64} (h : sum ∈ suffixSums s.bucketCounts.toList.tail) :
    sum.toNat ≤ s.bucketTotal := by
  have hle : trueSum s.bucketCounts.toList.tail ≤ s.bucketTotal := trueSum_tail_le _
  exact (toNat_le_of_mem_suffixSums (hle.trans_lt hfits) h).trans hle

/-- What all shares of a distribution have in common. -/
theorem shares_hasValue {share : Binary64}
    (h : share ∈ (ofTotal s (.ofNat s.bucketTotal)).frequencies ++
      (ofTotal s (.ofNat s.bucketTotal)).cumulative) :
    ∃ q, HasValue share q ∧ q ≤ aboveHundred := by
  have hshare : ∀ {count : UInt64}, count.toNat ≤ s.bucketTotal →
      ∃ q, HasValue (percentage (.ofNat s.bucketTotal) count) q ∧ q ≤ aboveHundred := by
    intro count hcount
    obtain ⟨q, hq, hle, -⟩ := share_hasValue hpos hfits hcount
    exact ⟨q, hq, hle⟩
  rcases List.mem_append.1 h with hfrequency | hcumulative
  · obtain ⟨count, hcount, rfl⟩ := List.mem_map.1 hfrequency
    exact hshare (le_trueSum_of_mem hcount)
  · rcases List.mem_cons.1 hcumulative with rfl | htail
    · exact ⟨0, zero_hasValue, by norm_num [aboveHundred]⟩
    · obtain ⟨sum, hsum, rfl⟩ := List.mem_map.1 htail
      exact hshare (tailSum_le hfits hsum)

/-- A series of shares is computed entry by entry. -/
theorem forall₂_isPercentage {counts : List UInt64} (h : ∀ c ∈ counts, c.toNat ≤ s.bucketTotal) :
    List.Forall₂ (fun c share => IsPercentage s.bucketTotal c.toNat share.toRat) counts
      (counts.map (percentage (.ofNat s.bucketTotal))) := by
  rw [List.forall₂_map_right_iff, List.forall₂_same]
  intro c hc
  obtain ⟨q, hq, -, hpercentage⟩ := share_hasValue hpos hfits (h c hc)
  rwa [hq.toRat_eq]

end

/-- The three series of a table with records are of one length. -/
theorem length_series {s : Samples} (hs : s.size ≠ 0) (total : UInt64) :
    (ofTotal s total).rehashCounts.length = s.size ∧
      (ofTotal s total).cumulative.length = s.size ∧
      (ofTotal s total).frequencies.length = s.size := by
  refine ⟨s.length_rehashCounts, ?_, length_frequencies s total⟩
  rw [length_cumulative]
  omega

/-- The chart of a distribution with records and buckets can be drawn. -/
theorem check_ofTotal {s : Samples} (hs : s.size ≠ 0) (hpos : 0 < s.bucketTotal)
    (hfits : s.bucketTotal < UInt64.size) :
    (Chart.Series.ofDistribution (ofTotal s (.ofNat s.bucketTotal))).check = .ok () := by
  obtain ⟨hcounts, hcumulative, hfrequencies⟩ := length_series hs (.ofNat s.bucketTotal)
  refine Chart.Series.check_eq_ok_iff.2 ⟨?_, hcumulative.trans hcounts.symm,
    hfrequencies.trans hcounts.symm, ?_⟩
  · intro hnil
    exact hs (hcounts.symm.trans (List.length_eq_zero_iff.2 hnil))
  · intro share hshare
    rw [List.mem_append, or_comm, ← List.mem_append] at hshare
    obtain ⟨q, hq, hle⟩ := shares_hasValue hpos hfits hshare
    exact Chart.tolerable_of_hasValue hq hle

/-- The chart of a distribution without records cannot. -/
theorem check_ofTotal_of_isEmpty {s : Samples} (hs : s.size = 0) (total : UInt64) :
    (Chart.Series.ofDistribution (ofTotal s total)).check = .error .empty := by
  have hnil : (Chart.Series.ofDistribution (ofTotal s total)).rehashCounts = [] :=
    List.length_eq_zero_iff.1 (s.length_rehashCounts.trans hs)
  exact Chart.Series.check_eq_error_iff.2 (.empty hnil)

/-- **Every distribution can be drawn.**  A table with records and a total that is neither zero nor
too large for 64 bits has a distribution.  Its shares are percentages with every step rounded to
nearest, they are finite, not negative and at most the magnitude right after a hundred, and the
chart of the distribution passes its check.  Without records there is a distribution too, but
nothing to draw. -/
theorem shares_drawable (s : Samples) :
    (s.size ≠ 0 → 0 < s.bucketTotal → s.bucketTotal < 2 ^ 64 →
      ∃ d, ofSamples s = .ok d ∧
        List.Forall₂ (fun c share => IsPercentage s.bucketTotal c.toNat share.toRat)
          s.bucketCounts.toList d.frequencies ∧
        (∃ shares, d.cumulative = .zero :: shares ∧
          List.Forall₂ (fun sum share => IsPercentage s.bucketTotal sum.toNat share.toRat)
            d.tailSums shares) ∧
        (∀ share ∈ d.frequencies ++ d.cumulative, share.isFinite = true ∧ 0 ≤ share.toRat ∧
          share.toRat ≤ 100 + 1 / 2 ^ 46) ∧
        (Chart.Series.ofDistribution d).check = .ok ()) ∧
    (s.size = 0 → ∃ d, ofSamples s = .ok d ∧
      (Chart.Series.ofDistribution d).check = .error .empty) ∧
    magnitude (nearestCode 100 + 1) = 100 + 1 / 2 ^ 46 := by
  refine ⟨?_, ?_, magnitude_nearestCode_hundred_succ⟩
  · intro hs hpos hfits
    refine ⟨_, ofSamples_of_total hfits (Or.inr hpos.ne'), ?_, ⟨_, rfl, ?_⟩, ?_, ?_⟩
    · exact forall₂_isPercentage hpos hfits fun c hc => le_trueSum_of_mem hc
    · exact forall₂_isPercentage hpos hfits fun sum hsum => tailSum_le hfits hsum
    · intro share hshare
      obtain ⟨q, hq, hle⟩ := shares_hasValue hpos hfits hshare
      rw [hq.toRat_eq]
      exact ⟨hq.isFinite, hq.nonneg, hle⟩
    · exact check_ofTotal hs hpos hfits
  · intro hs
    have htotal := Samples.bucketTotal_of_isEmpty hs
    refine ⟨_, ofSamples_of_total (by rw [htotal]; decide) (Or.inl hs), ?_⟩
    exact check_ofTotal_of_isEmpty hs _

/-- A single count whose share of itself is rounded to more than a hundred. -/
theorem shares_drawable_overshoot :
    (Samples.ofList [⟨0, 547326792947875⟩]).size ≠ 0 ∧
      0 < (Samples.ofList [⟨0, 547326792947875⟩]).bucketTotal ∧
      (Samples.ofList [⟨0, 547326792947875⟩]).bucketTotal < 2 ^ 64 ∧
      (percentage 547326792947875 547326792947875).toRat = 100 + 1 / 2 ^ 46 ∧
      ∃ d, ofSamples (.ofList [⟨0, 547326792947875⟩]) = .ok d ∧
        (Chart.Series.ofDistribution d).check = .ok () := by
  obtain ⟨d, hd, -, -, -, hcheck⟩ :=
    (shares_drawable (.ofList [⟨0, 547326792947875⟩])).1 (by decide) (by decide) (by decide)
  exact ⟨by decide, by decide, by decide, by decide +kernel, d, hd, hcheck⟩

end Distribution

end RehashReport
