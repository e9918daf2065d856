import Mathlib
import RehashReport.Proofs.Distribution.Derivation
import RehashReport.Proofs.Distribution.Plottable
import RehashReport.Proofs.Number.Error
import RehashReport.Proofs.Number.Exact

/-!
# How good shares are

A share of a distribution next to the rational number it stands for.  Both counts, the product and
the quotient are rounded, and none of the four results is so small that it loses digits
(`leastNormal_le_rawPercentage`).  Hence a share is off by at most five parts in `2 ^ 53` of itself
(`share_accurate`), also where a count has more than 53 digits.  As the error is a share of the
exact value, the errors of all records together are that share of a hundred, however many records
there are (`abs_sum_frequencies_sub_le`).

Every rounding is monotone, so a greater part of a table never has the smaller share (`share_mono`):
no cumulative share is less than the next one or than that of its record alone, and the last two are
equal.
-/

namespace RehashReport

open Binary64

namespace Distribution

/-! ## Values -/

/-- What the share of a part of a whole is worth. -/
theorem share_isRounded {total count : ℕ} (htotal : 0 < total) (hfits : total < UInt64.size)
    (h : count ≤ total) : HasValue (share total count) (rounded (rawPercentage total count)) := by
  have htoNat : (UInt64.ofNat total).toNat = total := UInt64.toNat_ofNat_of_lt' hfits
  have hcount : (UInt64.ofNat count).toNat = count := UInt64.toNat_ofNat_of_lt' (h.trans_lt hfits)
  have hpos : 0 < (UInt64.ofNat total).toNat := by rwa [htoNat]
  have hle : (UInt64.ofNat count).toNat ≤ (UInt64.ofNat total).toNat := by rwa [htoNat, hcount]
  have hvalue := percentage_hasValue hpos hle
  rwa [percentage, htoNat, hcount] at hvalue

/-! ## Accuracy -/

/-- The percentage of a count in a total, not rounded. -/
def exactShare (total count : ℕ) : ℚ := 100 * count / total

/-- `Accurate x q`: the number is finite, and differs from `q` by at most five parts in `2 ^ 53` of
it. -/
def Accurate (x : Binary64) (q : ℚ) : Prop :=
  x.isFinite = true ∧ |x.toRat - q| ≤ q * (5 / 2 ^ 53)

section

variable {total count : ℕ}

theorem exactShare_nonneg : 0 ≤ exactShare total count := by
  unfold exactShare
  positivity

theorem one_le_rounded_count_mul (hcount : 0 < count) : 1 ≤ rounded count * 100 := by
  linarith [one_le_rounded_natCast hcount]

/-- The quotient of two counts is far from the numbers that have lost digits. -/
theorem leastNormal_le_rawPercentage (htotal : 0 < total) (hfits : total < UInt64.size)
    (hcount : 0 < count) : leastNormal ≤ rawPercentage total count := by
  have hproduct : 1 ≤ rounded (rounded count * 100) :=
    isMagnitude_one.le_rounded (one_le_rounded_count_mul hcount)
  have hpos : 0 < rounded total := one_pos.trans_le (one_le_rounded_natCast htotal)
  have hle : rounded total ≤ 2 ^ 64 := by
    have h := rounded_count_le (.ofNat total)
    rwa [UInt64.toNat_ofNat_of_lt' hfits] at h
  calc leastNormal ≤ 1 / 2 ^ 64 := leastNormal_le_inv_two_pow (by norm_num)
    _ ≤ rounded (rounded count * 100) / rounded total := by gcongr

/-- Four roundings lead from the exact percentage to the computed one. -/
theorem near_rounded_rawPercentage (htotal : 0 < total) (hfits : total < UInt64.size)
    (hcount : 0 < count) :
    Near 4 (exactShare total count) (rounded (rawPercentage total count)) := by
  have hproduct : Near 2 (count * 100) (rounded (rounded count * 100)) :=
    ((near_rounded_natCast hcount).mul_right (by norm_num)).trans
      (near_rounded (leastNormal_le_one.trans (one_le_rounded_count_mul hcount)))
  have hpos : 0 < rounded total := one_pos.trans_le (one_le_rounded_natCast htotal)
  have hquotient := hproduct.div (near_rounded_natCast htotal) (by positivity) (rounded_nonneg _)
    (by exact_mod_cast htotal) hpos
  rw [mul_comm (count : ℚ)] at hquotient
  exact hquotient.trans (near_rounded (leastNormal_le_rawPercentage htotal hfits hcount))

theorem share_accurate (htotal : 0 < total) (hfits : total < UInt64.size) (h : count ≤ total) :
    Accurate (share total count) (exactShare total count) := by
  have hvalue := share_isRounded htotal hfits h
  refine ⟨hvalue.isFinite, ?_⟩
  rw [hvalue.toRat_eq]
  rcases Nat.eq_zero_or_pos count with rfl | hcount
  · -- nothing is rounded for a count of zero, which is below the normal numbers
    simp [exactShare, rawPercentage]
  · refine (near_rounded_rawPercentage htotal hfits hcount).abs_sub_le exactShare_nonneg ?_ ?_
    · norm_num [kept, roundoff, binadeSize]
    · norm_num [kept, roundoff, binadeSize]

theorem sum_exactShare (total : ℕ) (counts : List UInt64) :
    (counts.map fun c => exactShare total c.toNat).sum = exactShare total (trueSum counts) := by
  induction counts with
  | nil => simp [exactShare]
  | cons c cs ih =>
    simp only [List.map_cons, List.sum_cons, ih, trueSum_cons]
    unfold exactShare
    push_cast
    ring

theorem exactShare_self (htotal : 0 < total) : exactShare total total = 100 := by
  have hne : (total : ℚ) ≠ 0 := by exact_mod_cast htotal.ne'
  unfold exactShare
  field_simp

end

section

variable {s : Samples} {d : Distribution} (hpos : 0 < s.bucketTotal)
  (hfits : s.bucketTotal < UInt64.size) (hd : d.DerivedFrom s)

include hpos hfits hd

/-- The errors of all frequencies make up the same share of a hundred as each does of its own. -/
theorem abs_sum_frequencies_sub_le :
    |(d.frequencies.map toRat).sum - 100| ≤ 100 * (5 / 2 ^ 53) := by
  have hall : ∀ c ∈ s.bucketCounts.toList,
      |(share s.bucketTotal c.toNat).toRat - exactShare s.bucketTotal c.toNat| ≤
        exactShare s.bucketTotal c.toNat * (5 / 2 ^ 53) := by
    intro c hc
    exact (share_accurate hpos hfits (le_trueSum_of_mem hc)).2
  have hle := abs_sum_sub_le hall
  rw [sum_exactShare, ← Samples.bucketTotal, exactShare_self hpos] at hle
  rw [hd.frequencies, List.map_map]
  exact hle

end

/-! ## Order -/

theorem rawPercentage_mono {total small large : ℕ} (h : small ≤ large) :
    rawPercentage total small ≤ rawPercentage total large := by
  have hcount : rounded small ≤ rounded large :=
    rounded_mono (Nat.cast_nonneg _) (by exact_mod_cast h)
  have hproduct : rounded (rounded small * 100) ≤ rounded (rounded large * 100) :=
    rounded_mono (mul_nonneg (rounded_nonneg _) (by norm_num)) (by linarith)
  exact div_le_div_of_nonneg_right hproduct (rounded_nonneg _)

/-- A greater part of the whole does not have the smaller share. -/
theorem share_mono {total small large : ℕ} (htotal : 0 < total) (hfits : total < UInt64.size)
    (h : small ≤ large) (hle : large ≤ total) : share total small ≤ share total large := by
  rw [(share_isRounded htotal hfits (h.trans hle)).le_iff (share_isRounded htotal hfits hle)]
  refine rounded_mono ?_ (rawPercentage_mono h)
  exact div_nonneg (rounded_nonneg _) (rounded_nonneg _)

section

variable {s : Samples} {d : Distribution} (hpos : 0 < s.bucketTotal)
  (hfits : s.bucketTotal < UInt64.size) (hd : d.DerivedFrom s) {i : ℕ} (hi : 1 ≤ i)

include hpos hfits hd hi

/-- The cumulative shares do not go up from one record to the next. -/
theorem exists_cumulative_succ_le (his : i + 1 < s.size) :
    ∃ x y, d.cumulative[i]? = some x ∧ d.cumulative[i + 1]? = some y ∧ y ≤ x :=
  ⟨_, _, hd.cumulative i hi (by omega), hd.cumulative (i + 1) (by omega) his,
    share_mono hpos hfits (s.bucketsFrom_succ_le i) (s.bucketsFrom_le i)⟩

/-- The share of a record is at most that of the records from it on. -/
theorem exists_frequency_le_cumulative (his : i < s.size) :
    ∃ x y, d.cumulative[i]? = some x ∧ d.frequencies[i]? = some y ∧ y ≤ x := by
  obtain ⟨c, hc⟩ := s.exists_getElem?_bucketCounts his
  have hle : c.toNat ≤ s.bucketsFrom i := by
    rw [Samples.bucketsFrom_eq_add hc]
    omega
  exact ⟨_, _, hd.cumulative i hi his, hd.getElem?_frequencies hc,
    share_mono hpos hfits hle (s.bucketsFrom_le i)⟩

end

/-- From the last record on there is nothing but that record. -/
theorem getElem?_cumulative_last {s : Samples} {d : Distribution} (hd : d.DerivedFrom s)
    (hs : 2 ≤ s.size) : d.cumulative[s.size - 1]? = d.frequencies[s.size - 1]? := by
  obtain ⟨c, hc⟩ := s.exists_getElem?_bucketCounts (i := s.size - 1) (by omega)
  have hlast : s.bucketsFrom (s.size - 1) = c.toNat := by
    rw [Samples.bucketsFrom_eq_add hc, show s.size - 1 + 1 = s.size by omega, s.bucketsFrom_size,
      Nat.add_zero]
  rw [hd.cumulative _ (by omega) (by omega), hlast, hd.getElem?_frequencies hc]

/-! ## Main result -/

/-- **Shares are accurate and add up to a hundred.**  Every share of a table with records, and every
share of its last records, is finite and differs from the exact percentage by at most five parts in
`2 ^ 53` of that percentage.  The shares of all records, added up exactly, differ from a hundred by
less than `10 ^ (-13)`, however many records there are. -/
theorem shares_accurate {s : Samples} {d : Distribution} (hs : s.size ≠ 0)
    (hd : ofSamples s = .ok d) :
    0 < s.bucketTotal ∧
      List.Forall₂ (fun c x => Accurate x (exactShare s.bucketTotal c.toNat))
        s.bucketCounts.toList d.frequencies ∧
      (∀ i, 1 ≤ i → i < s.size → ∃ x, d.cumulative[i]? = some x ∧
        Accurate x (exactShare s.bucketTotal (s.bucketsFrom i))) ∧
      |(d.frequencies.map toRat).sum - 100| < 1 / 10 ^ 13 := by
  obtain ⟨hpos, hfits, rfl⟩ := eq_ofTotal_of_ofSamples hs hd
  have hderived := derivedFrom_ofTotal hfits
  refine ⟨hpos, ?_, ?_, ?_⟩
  · rw [hderived.frequencies, List.forall₂_map_right_iff, List.forall₂_same]
    intro c hc
    exact share_accurate hpos hfits (le_trueSum_of_mem hc)
  · intro i hi his
    exact ⟨_, hderived.cumulative i hi his, share_accurate hpos hfits (s.bucketsFrom_le i)⟩
  · refine (abs_sum_frequencies_sub_le hpos hfits hderived).trans_lt ?_
    norm_num

/-- Thirds of a total, of counts that are themselves too long for 53 digits. -/
theorem shares_accurate_thirds :
    ∃ d, ofSamples (.ofList [⟨0, 0x20000000000001⟩, ⟨1, 0x20000000000001⟩, ⟨2, 0x20000000000001⟩]) =
        .ok d ∧
      (d.frequencies.map toRat).sum ≠ 100 ∧
      |(d.frequencies.map toRat).sum - 100| < 1 / 10 ^ 13 ∧
      ∃ x, d.cumulative[1]? = some x ∧ Accurate x (200 / 3) := by
  set s := Samples.ofList [⟨0, 0x20000000000001⟩, ⟨1, 0x20000000000001⟩, ⟨2, 0x20000000000001⟩]
  have hd : ofSamples s = .ok (ofTotal s (.ofNat s.bucketTotal)) :=
    ofSamples_of_total (by decide) (by decide)
  obtain ⟨-, -, hcumulative, hsum⟩ := shares_accurate (by decide) hd
  have hshare : exactShare s.bucketTotal (s.bucketsFrom 1) = 200 / 3 := by decide +kernel
  refine ⟨_, hd, by decide +kernel, hsum, ?_⟩
  rw [← hshare]
  exact hcumulative 1 le_rfl (by decide)

end Distribution

end RehashReport
