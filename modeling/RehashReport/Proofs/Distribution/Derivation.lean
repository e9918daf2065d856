import Mathlib
import RehashReport.Proofs.Distribution.Sums

/-!
# Distributions without a word size

What deriving a distribution comes to when all sums are taken of natural numbers.  It fails for a
total of `2 ^ 64` or more (`ofSamples_eq_overflow_iff`) and for records without buckets
(`ofSamples_eq_zeroTotal_iff`), and for nothing else.  The sums of suffixes can be had from one sum
that runs from the last record to the second (`reverse_runningSums`); it never wraps around
(`map_toNat_runningSums`), and each of its values is the sum of a suffix (`getElem?_tailSums`).
-/

namespace RehashReport

namespace Samples

variable (s : Samples)

theorem bucketTotal_eq_zero_iff : s.bucketTotal = 0 ↔ ∀ c ∈ s.bucketCounts.toList, c = 0 := by
  simp [bucketTotal, trueSum, List.sum_eq_zero_iff, ← UInt64.toNat_inj]

/-- The true number of buckets in the records from a position on. -/
def bucketsFrom (i : ℕ) : ℕ := trueSum (s.bucketCounts.toList.drop i)

theorem bucketsFrom_le (i : ℕ) : s.bucketsFrom i ≤ s.bucketTotal :=
  trueSum_drop_le _ i

variable {s} in
theorem bucketsFrom_eq_add {i : ℕ} {c : UInt64} (h : s.bucketCounts.toList[i]? = some c) :
    s.bucketsFrom i = c.toNat + s.bucketsFrom (i + 1) := by
  obtain ⟨hi, rfl⟩ := List.getElem?_eq_some_iff.1 h
  rw [bucketsFrom, List.drop_eq_getElem_cons hi, trueSum_cons, bucketsFrom]

theorem bucketsFrom_succ_le (i : ℕ) : s.bucketsFrom (i + 1) ≤ s.bucketsFrom i := by
  rw [bucketsFrom, ← List.drop_drop]
  exact trueSum_drop_le _ 1

theorem exists_getElem?_bucketCounts {i : ℕ} (h : i < s.size) :
    ∃ c, s.bucketCounts.toList[i]? = some c := by
  rw [← s.length_bucketCounts] at h
  exact ⟨_, List.getElem?_eq_getElem h⟩

/-- Nothing comes after the last record. -/
theorem bucketsFrom_size : s.bucketsFrom s.size = 0 := by
  rw [bucketsFrom, ← s.length_bucketCounts, List.drop_length, trueSum_nil]

end Samples

namespace Distribution

/-! ## How a derivation ends -/

section

variable {s : Samples}

theorem ofSamples_eq_overflow_iff :
    ofSamples s = .error .overflow ↔ UInt64.size ≤ s.bucketTotal := by
  constructor
  · intro h
    by_contra hfits
    by_cases hzero : s.size = 0 ∨ s.bucketTotal ≠ 0
    · rw [ofSamples_of_total (not_le.1 hfits) hzero] at h
      cases h
    · rw [not_or, not_not] at hzero
      rw [ofSamples_of_zero hzero.1 hzero.2] at h
      cases h
  · exact ofSamples_of_overflow

theorem ofSamples_eq_zeroTotal_iff {n : ℕ} :
    ofSamples s = .error (.zeroTotal n) ↔ s.size = n ∧ n ≠ 0 ∧ s.bucketTotal = 0 := by
  constructor
  · intro h
    by_cases hlarge : UInt64.size ≤ s.bucketTotal
    · rw [ofSamples_of_overflow hlarge] at h
      cases h
    by_cases hzero : s.size = 0 ∨ s.bucketTotal ≠ 0
    · rw [ofSamples_of_total (not_le.1 hlarge) hzero] at h
      cases h
    · rw [not_or, not_not] at hzero
      rw [ofSamples_of_zero hzero.1 hzero.2] at h
      cases h
      exact ⟨rfl, hzero⟩
  · rintro ⟨rfl, hs, hzero⟩
    exact ofSamples_of_zero hs hzero

end

/-! ## The running sum -/

/-- The values of a sum that starts somewhere and takes in one count after another. -/
def runningSums (sum : UInt64) : List UInt64 → List UInt64
  | [] => []
  | count :: counts => (sum + count) :: runningSums (sum + count) counts

theorem runningSums_concat (sum : UInt64) (counts : List UInt64) (count : UInt64) :
    runningSums sum (counts ++ [count]) =
      runningSums sum counts ++ [(runningSums sum counts).getLastD sum + count] := by
  induction counts generalizing sum with
  | nil => rfl
  | cons c cs ih =>
    rw [List.cons_append, runningSums, ih, runningSums, List.getLastD_cons, List.cons_append]

/-- Run backwards, the sum meets the sums of all suffixes, the shortest one first. -/
theorem reverse_runningSums (counts : List UInt64) :
    (runningSums 0 counts.reverse).reverse = suffixSums counts := by
  induction counts with
  | nil => rfl
  | cons c cs ih =>
    have hlast : (runningSums 0 cs.reverse).getLastD 0 = (suffixSums cs).headD 0 := by
      rw [← ih, List.headD_eq_head?_getD, List.head?_reverse, List.getLastD_eq_getLast?]
    rw [List.reverse_cons, runningSums_concat, List.reverse_append, ih, hlast, suffixSums,
      UInt64.add_comm]
    rfl

theorem trueSum_reverse (counts : List UInt64) : trueSum counts.reverse = trueSum counts := by
  rw [trueSum, List.map_reverse, List.sum_reverse, trueSum]

/-- A sum that fits in the end has never wrapped around. -/
theorem map_toNat_runningSums {sum : UInt64} {counts : List UInt64}
    (h : sum.toNat + trueSum counts < UInt64.size) :
    sum.toNat :: (runningSums sum counts).map UInt64.toNat =
      (counts.map UInt64.toNat).scanl (· + ·) sum.toNat := by
  induction counts generalizing sum with
  | nil => rfl
  | cons c cs ih =>
    rw [trueSum_cons] at h
    have hadd := toNat_add_of_lt (a := sum) (b := c) (by omega)
    rw [List.map_cons, List.scanl_cons, ← hadd, ← ih (by omega)]
    rfl

/-! ## The series -/

/-- The percentage of one number in another, without a bound on either. -/
def share (total count : ℕ) : Binary64 := .ofNat count * .ofNat 100 / .ofNat total

/-- `DerivedFrom d s`: the series of the distribution are those of the table, with all sums taken of
natural numbers. -/
structure DerivedFrom (d : Distribution) (s : Samples) : Prop where
  rehashCounts : d.rehashCounts = s.rehashCounts.toList
  total : d.total.toNat = s.bucketTotal
  frequencies : d.frequencies = s.bucketCounts.toList.map fun c => share s.bucketTotal c.toNat
  length_tailSums : d.tailSums.length = s.size - 1
  tailSums : ∀ k, k + 1 < s.size →
    ∃ sum, d.tailSums[k]? = some sum ∧ sum.toNat = s.bucketsFrom (k + 1)
  length_cumulative : d.cumulative.length = max s.size 1
  cumulative_zero : d.cumulative[0]? = some .zero
  cumulative : ∀ i, 1 ≤ i → i < s.size →
    d.cumulative[i]? = some (share s.bucketTotal (s.bucketsFrom i))

theorem DerivedFrom.getElem?_frequencies {d : Distribution} {s : Samples} (h : d.DerivedFrom s)
    {i : ℕ} {c : UInt64} (hc : s.bucketCounts.toList[i]? = some c) :
    d.frequencies[i]? = some (share s.bucketTotal c.toNat) := by
  rw [h.frequencies, List.getElem?_map, hc, Option.map_some]

section

variable {s : Samples} (hfits : s.bucketTotal < UInt64.size)

include hfits

theorem getElem?_tailSums (total : UInt64) {k : ℕ} (hk : k + 1 < s.size) :
    ∃ sum, (ofTotal s total).tailSums[k]? = some sum ∧ sum.toNat = s.bucketsFrom (k + 1) := by
  have htail : trueSum s.bucketCounts.toList.tail < UInt64.size :=
    (trueSum_tail_le _).trans_lt hfits
  have hlength : k < (ofTotal s total).tailSums.length := by
    rw [length_tailSums]
    omega
  refine ⟨_, List.getElem?_eq_getElem hlength, ?_⟩
  rw [Samples.bucketsFrom, ← List.drop_tail]
  exact toNat_suffixSums htail hlength

theorem percentage_eq_share (c : UInt64) :
    percentage (.ofNat s.bucketTotal) c = share s.bucketTotal c.toNat := by
  rw [percentage, UInt64.toNat_ofNat_of_lt' hfits, share]

theorem getElem?_cumulative {i : ℕ} (hi : 1 ≤ i) (his : i < s.size) :
    (ofTotal s (.ofNat s.bucketTotal)).cumulative[i]? =
      some (share s.bucketTotal (s.bucketsFrom i)) := by
  obtain ⟨k, rfl⟩ := Nat.exists_eq_add_of_le' hi
  obtain ⟨sum, hsum, htoNat⟩ := getElem?_tailSums hfits (.ofNat s.bucketTotal) his
  simp only [ofTotal] at hsum
  simp only [ofTotal, List.getElem?_cons_succ, List.getElem?_map, hsum, Option.map_some]
  rw [percentage_eq_share hfits, htoNat]

theorem derivedFrom_ofTotal : (ofTotal s (.ofNat s.bucketTotal)).DerivedFrom s where
  rehashCounts := rfl
  total := UInt64.toNat_ofNat_of_lt' hfits
  frequencies := List.map_congr_left fun c _ => percentage_eq_share hfits c
  length_tailSums := length_tailSums s _
  tailSums _ hk := getElem?_tailSums hfits _ hk
  length_cumulative := length_cumulative s _
  cumulative_zero := rfl
  cumulative _ hi his := getElem?_cumulative hfits hi his

end

/-- **A distribution is what its definition says.**  Deriving one fails just for a total of `2 ^ 64`
or more and for records without a bucket.  Otherwise all sums of the result are true sums, of which
the shares are taken, and there is an entry for every record, but for the first one in the sums of
suffixes.  These are the values, last one first, of a sum that runs over the records from the last
to the second, and it has the same values if it is taken of natural numbers. -/
theorem ofSamples_exact (s : Samples) :
    (ofSamples s = .error .overflow ↔ 2 ^ 64 ≤ s.bucketTotal) ∧
    (∀ n, ofSamples s = .error (.zeroTotal n) ↔
      s.size = n ∧ 1 ≤ n ∧ ∀ c ∈ s.bucketCounts.toList, c = 0) ∧
    ((∃ d, ofSamples s = .ok d) ↔
      s.bucketTotal < 2 ^ 64 ∧ (s.size = 0 ∨ ∃ c ∈ s.bucketCounts.toList, c ≠ 0)) ∧
    ∀ d, ofSamples s = .ok d →
      d.DerivedFrom s ∧
      let values := runningSums 0 s.bucketCounts.toList.tail.reverse
      d.tailSums = values.reverse ∧
      0 :: values.map UInt64.toNat =
        (s.bucketCounts.toList.tail.reverse.map UInt64.toNat).scanl (· + ·) 0 := by
  refine ⟨ofSamples_eq_overflow_iff, ?_, ?_, ?_⟩
  · intro n
    rw [ofSamples_eq_zeroTotal_iff, Samples.bucketTotal_eq_zero_iff, Nat.one_le_iff_ne_zero]
  · have hne : s.bucketTotal ≠ 0 ↔ ∃ c ∈ s.bucketCounts.toList, c ≠ 0 := by
      simp only [ne_eq, Samples.bucketTotal_eq_zero_iff, not_forall, exists_prop]
    simp only [ofSamples_eq_ok_iff, hne, exists_and_left, exists_eq, and_true]
    rfl
  · intro d hd
    obtain ⟨hfits, -, rfl⟩ := ofSamples_eq_ok_iff.1 hd
    refine ⟨derivedFrom_ofTotal hfits, (reverse_runningSums _).symm ▸ rfl, ?_⟩
    have hvalues :
        (0 : UInt64).toNat + trueSum s.bucketCounts.toList.tail.reverse < UInt64.size := by
      rw [trueSum_reverse, UInt64.toNat_zero, Nat.zero_add]
      exact (trueSum_tail_le _).trans_lt hfits
    exact map_toNat_runningSums hvalues

/-- The greatest total that there can be, with one half of it in the first record. -/
theorem ofSamples_exact_largest :
    (Samples.ofList [⟨0, 0x8000000000000000⟩, ⟨1, 0x7FFFFFFFFFFFFFFE⟩, ⟨2, 1⟩]).bucketTotal =
        2 ^ 64 - 1 ∧
      ∃ d, ofSamples (.ofList [⟨0, 0x8000000000000000⟩, ⟨1, 0x7FFFFFFFFFFFFFFE⟩, ⟨2, 1⟩]) = .ok d ∧
        d.DerivedFrom (.ofList [⟨0, 0x8000000000000000⟩, ⟨1, 0x7FFFFFFFFFFFFFFE⟩, ⟨2, 1⟩]) ∧
        d.tailSums = [0x7FFFFFFFFFFFFFFF, 1] := by
  obtain ⟨-, -, hok, hderived⟩ :=
    ofSamples_exact (.ofList [⟨0, 0x8000000000000000⟩, ⟨1, 0x7FFFFFFFFFFFFFFE⟩, ⟨2, 1⟩])
  obtain ⟨d, hd⟩ := hok.2 ⟨by decide, Or.inr ⟨1, by decide, by decide⟩⟩
  obtain ⟨hfrom, hsums, -⟩ := hderived d hd
  exact ⟨by decide, d, hd, hfrom, hsums.trans (by decide)⟩

end Distribution

end RehashReport
