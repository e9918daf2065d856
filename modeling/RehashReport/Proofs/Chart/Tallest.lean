import Mathlib
import RehashReport.Proofs.Chart.Bars
import RehashReport.Proofs.Distribution.Shares
import RehashReport.Proofs.Number.Exact

/-!
# The tallest bar

How high the bars of a distribution are.  The first share and the first cumulative share after the
leading zero are shares of two parts that make up the whole, so one of the two parts is at least
half (`exists_large_share`).  Rounding keeps doubles, hence the half is not lost in the conversion
of the counts, and what the product and the quotient can take from it is far below the tolerance
(`le_rounded_rawPercentage`).  With the bound of a hundred that bars are cut at, the axis ends
between `52.49` and `105` (`exists_shareRange_hasValue`).
-/

namespace RehashReport

open Binary64

/-! ## Half of the whole -/

namespace Distribution

/-- The greatest magnitude below fifty. -/
theorem isMagnitude_belowFifty : IsMagnitude (50 - 1 / 2 ^ 47) := by
  have h := isMagnitude_div_two_pow (m := 50 * 2 ^ 47 - 1) (l := 47) (by norm_num) (by norm_num)
  norm_num at h ⊢
  exact h

/-- The percentage of at least half of a total is at most the magnitude below fifty. -/
theorem le_rounded_rawPercentage {total count : ℕ} (htotal : 0 < total) (h : total ≤ 2 * count) :
    50 - 1 / 2 ^ 47 ≤ rounded (rawPercentage total count) := by
  have hcount : (1 : ℚ) ≤ count := by
    have : 1 ≤ count := by omega
    exact_mod_cast this
  have htotal : (1 : ℚ) ≤ total := by exact_mod_cast htotal
  have hdouble : (total : ℚ) ≤ 2 * count := by exact_mod_cast h
  set a := rounded count with ha
  set t := rounded total with ht
  have ha1 : 1 ≤ a := isMagnitude_one.le_rounded hcount
  have ht1 : 1 ≤ t := isMagnitude_one.le_rounded htotal
  have hta : t ≤ 2 * a := by
    rw [ha, ← rounded_two_mul (leastNormal_le_one.trans hcount)]
    exact rounded_mono (by linarith) hdouble
  have hproduct : a * 100 * (1 - roundoff) ≤ rounded (a * 100) := by
    have hnormal : leastNormal ≤ a * 100 := by linarith [leastNormal_le_one]
    linarith [(abs_le.1 (abs_rounded_sub_le_mul hnormal)).1]
  have hroundoff : 50 - 1 / 2 ^ 47 ≤ 50 * (1 - roundoff) := by norm_num [roundoff, binadeSize]
  have hpos : 0 ≤ 1 - roundoff := by norm_num [roundoff, binadeSize]
  refine isMagnitude_belowFifty.le_rounded (hroundoff.trans ?_)
  rw [rawPercentage, le_div_iff₀ (by linarith)]
  calc 50 * (1 - roundoff) * t ≤ 50 * (1 - roundoff) * (2 * a) := by gcongr
    _ = a * 100 * (1 - roundoff) := by ring
    _ ≤ rounded (a * 100) := hproduct

/-- The first part of a table or the rest is at least half of it. -/
theorem exists_large_share {s : Samples} (hpos : 0 < s.bucketTotal)
    (hfits : s.bucketTotal < UInt64.size) :
    ∃ share ∈ (ofTotal s (.ofNat s.bucketTotal)).frequencies ++
        (ofTotal s (.ofNat s.bucketTotal)).cumulative,
      ∃ q, HasValue share q ∧ 50 - 1 / 2 ^ 47 ≤ q := by
  have hderived := derivedFrom_ofTotal hfits
  have hlarge : ∀ count ≤ s.bucketTotal, s.bucketTotal ≤ 2 * count →
      ∃ q, HasValue (share s.bucketTotal count) q ∧ 50 - 1 / 2 ^ 47 ≤ q := by
    intro count hle hhalf
    exact ⟨_, share_isRounded hpos hfits hle, le_rounded_rawPercentage hpos hhalf⟩
  obtain ⟨c, hc⟩ := s.exists_getElem?_bucketCounts (Samples.size_pos_of_bucketTotal_pos hpos)
  have hsum : s.bucketTotal = c.toNat + s.bucketsFrom 1 := Samples.bucketsFrom_eq_add hc
  by_cases hhalf : s.bucketTotal ≤ 2 * c.toNat
  · have hmem := List.mem_of_getElem? (hderived.getElem?_frequencies hc)
    exact ⟨_, List.mem_append_left _ hmem, hlarge _ (by omega) hhalf⟩
  · -- the rest is the greater part, so it has records
    have hs : 1 < s.size := by
      by_contra hle
      have hsize : s.size = 1 := by
        have := Samples.size_pos_of_bucketTotal_pos hpos
        omega
      have hrest := s.bucketsFrom_size
      rw [hsize] at hrest
      omega
    have hmem := List.mem_of_getElem? (hderived.cumulative 1 le_rfl hs)
    exact ⟨_, List.mem_append_right _ hmem, hlarge _ (s.bucketsFrom_le 1) (by omega)⟩

end Distribution

/-! ## The end of the axis -/

namespace Chart

namespace Series

variable {s : Samples} (hpos : 0 < s.bucketTotal) (hfits : s.bucketTotal < UInt64.size)

include hpos hfits

/-- The tallest bar of a distribution is at least half as high as all of its buckets. -/
theorem exists_tallest_hasValue :
    ∃ t, HasValue (ofDistribution (.ofTotal s (.ofNat s.bucketTotal))).tallest t ∧
      50 - 1 / 2 ^ 46 ≤ t ∧ t ≤ 100 := by
  set d := Distribution.ofTotal s (.ofNat s.bucketTotal) with hd
  have hmem : ∀ share,
      share ∈ d.frequencies ++ d.cumulative ↔ share ∈ (ofDistribution d).shares := by
    intro share
    rw [shares, List.mem_append, List.mem_append, or_comm]
    rfl
  have hfinite := isFinite_of_check
    (Distribution.check_ofTotal (Samples.size_pos_of_bucketTotal_pos hpos).ne' hpos hfits)
  obtain ⟨t, ht, hle, hmax⟩ := exists_tallest hfinite
  refine ⟨t, ht, ?_, hle⟩
  obtain ⟨share, hshare, q, hq, hlarge⟩ := Distribution.exists_large_share hpos hfits
  have hbar := hmax share ((hmem share).1 hshare)
  rw [hq.toRat_eq] at hbar
  calc 50 - 1 / 2 ^ 46 ≤ height (50 - 1 / 2 ^ 47) := by norm_num [height]
    _ ≤ height q := height_mono hlarge
    _ ≤ t := hbar

/-- The end of the axis leaves some room above the tallest bar. -/
theorem exists_shareRange_hasValue :
    ∃ y, HasValue (ofDistribution (.ofTotal s (.ofNat s.bucketTotal))).shareRange.high y ∧
      5249 / 100 ≤ y ∧ y ≤ 105 := by
  obtain ⟨t, ht, hlow, hhigh⟩ := exists_tallest_hasValue hpos hfits
  obtain ⟨hend, -, hle⟩ := shareRange_hasValue ht hhigh
  have hgrid := isMagnitude_div_two_pow (m := 13439) (l := 8) (by norm_num) (by norm_num)
  have hlow' : ((13439 : ℕ) : ℚ) / 2 ^ 8 ≤ t * rounded (105 / 100) := by
    have hroom := le_rounded_headroom
    norm_num
    nlinarith
  refine ⟨_, hend, ?_, max_le hle (by norm_num)⟩
  calc (5249 / 100 : ℚ) ≤ (13439 : ℕ) / 2 ^ 8 := by norm_num
    _ ≤ rounded (t * rounded (105 / 100)) := hgrid.le_rounded hlow'
    _ ≤ max (rounded (t * rounded (105 / 100))) 1 := le_max_left _ _

end Series

end Chart

end RehashReport
