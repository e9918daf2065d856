import Mathlib
import RehashReport.Distribution

/-!
# Sums of counts

The 64-bit sums of a distribution against sums of natural numbers.  The checked sum exists exactly
when the true sum fits (`checkedSum_eq_some`, `checkedSum_eq_none`), and then no sum of a suffix
wraps around (`toNat_suffixSums`).  With that, the three ways in which deriving a distribution can
end are told apart by the true total alone (`ofSamples_of_overflow`, `ofSamples_of_zero`,
`ofSamples_of_total`).
-/

namespace RehashReport

theorem toNat_add_of_lt {a b : UInt64} (h : a.toNat + b.toNat < UInt64.size) :
    (a + b).toNat = a.toNat + b.toNat := by
  rw [UInt64.toNat_add]
  exact Nat.mod_eq_of_lt h

/-- The true sum of some counts. -/
def trueSum (counts : List UInt64) : ℕ := (counts.map UInt64.toNat).sum

@[simp] theorem trueSum_nil : trueSum [] = 0 := rfl

@[simp] theorem trueSum_cons (c : UInt64) (cs : List UInt64) :
    trueSum (c :: cs) = c.toNat + trueSum cs := by
  simp [trueSum]

theorem le_trueSum_of_mem {c : UInt64} {cs : List UInt64} (h : c ∈ cs) : c.toNat ≤ trueSum cs :=
  List.single_le_sum (fun _ _ => Nat.zero_le _) _ (List.mem_map_of_mem h)

theorem trueSum_drop_le (cs : List UInt64) (k : ℕ) : trueSum (cs.drop k) ≤ trueSum cs := by
  have h : trueSum cs = trueSum (cs.take k) + trueSum (cs.drop k) := by
    rw [trueSum, trueSum, trueSum, ← List.sum_append, ← List.map_append, List.take_append_drop]
  omega

theorem trueSum_tail_le (cs : List UInt64) : trueSum cs.tail ≤ trueSum cs := by
  rw [← List.drop_one]
  exact trueSum_drop_le cs 1

namespace Samples

/-- The true number of buckets in a table. -/
def bucketTotal (s : Samples) : ℕ := trueSum s.bucketCounts.toList

theorem length_bucketCounts (s : Samples) : s.bucketCounts.toList.length = s.size := by
  rw [Array.length_toList, size, s.aligned]

theorem length_rehashCounts (s : Samples) : s.rehashCounts.toList.length = s.size :=
  Array.length_toList

theorem bucketTotal_of_isEmpty {s : Samples} (hs : s.size = 0) : s.bucketTotal = 0 := by
  have hnil : s.bucketCounts.toList = [] := by
    rw [← List.length_eq_zero_iff, length_bucketCounts, hs]
  rw [bucketTotal, hnil, trueSum_nil]

theorem size_pos_of_bucketTotal_pos {s : Samples} (h : 0 < s.bucketTotal) : 0 < s.size := by
  apply Nat.pos_of_ne_zero
  intro hs
  rw [bucketTotal_of_isEmpty hs] at h
  exact lt_irrefl 0 h

end Samples

namespace Distribution

/-! ## The checked sum -/

theorem foldlM_checkedAdd (counts : List UInt64) (a : UInt64) :
    counts.foldlM checkedAdd a =
      if a.toNat + trueSum counts < UInt64.size then some (.ofNat (a.toNat + trueSum counts))
      else none := by
  induction counts generalizing a with
  | nil => simp [UInt64.toNat_lt_size]
  | cons c cs ih =>
    rw [List.foldlM_cons, checkedAdd, trueSum_cons]
    by_cases h : a.toNat + c.toNat < UInt64.size
    · rw [if_pos h]
      show List.foldlM checkedAdd (a + c) cs = _
      rw [ih, toNat_add_of_lt h, Nat.add_assoc]
    · rw [if_neg h, if_neg (by omega)]
      rfl

/-- The checked sum exists if and only if the true sum fits, and is then the true sum. -/
theorem checkedSum_eq (counts : List UInt64) :
    checkedSum counts =
      if trueSum counts < UInt64.size then some (.ofNat (trueSum counts)) else none := by
  rw [checkedSum, foldlM_checkedAdd]
  simp

/-! ## Sums of suffixes -/

@[simp] theorem length_suffixSums (counts : List UInt64) :
    (suffixSums counts).length = counts.length := by
  induction counts with
  | nil => rfl
  | cons c cs ih => simp [suffixSums, ih]

/-- No sum of a suffix wraps around, if the sum of all does not. -/
theorem toNat_suffixSums {counts : List UInt64} (h : trueSum counts < UInt64.size) {k : ℕ}
    (hk : k < (suffixSums counts).length) :
    (suffixSums counts)[k].toNat = trueSum (counts.drop k) := by
  induction counts generalizing k with
  | nil => simp [suffixSums] at hk
  | cons c cs ih =>
    rw [trueSum_cons] at h
    have hcs : trueSum cs < UInt64.size := by omega
    cases k with
    | succ k =>
      have hk' : k < (suffixSums cs).length := by simpa [suffixSums] using hk
      simpa [suffixSums] using ih hcs hk'
    | zero =>
      -- the head is the count and the sum of the rest, which is the head before it
      have hrest : ((suffixSums cs).headD 0).toNat = trueSum cs := by
        cases cs with
        | nil => rfl
        | cons d ds => simpa [suffixSums] using ih hcs (k := 0) (by simp)
      rw [List.drop_zero, trueSum_cons, ← hrest]
      simp only [suffixSums, List.getElem_cons_zero]
      exact toNat_add_of_lt (by rw [hrest]; exact h)

/-- A sum of a suffix is at most the sum of all. -/
theorem toNat_le_of_mem_suffixSums {counts : List UInt64} (h : trueSum counts < UInt64.size)
    {sum : UInt64} (hsum : sum ∈ suffixSums counts) : sum.toNat ≤ trueSum counts := by
  obtain ⟨k, hk, rfl⟩ := List.getElem_of_mem hsum
  rw [toNat_suffixSums h hk]
  exact trueSum_drop_le counts k

/-! ## Deriving a distribution -/

/-- The series that a table with a given total has. -/
def ofTotal (s : Samples) (total : UInt64) : Distribution where
  rehashCounts := s.rehashCounts.toList
  total := total
  frequencies := s.bucketCounts.toList.map (percentage total)
  tailSums := suffixSums s.bucketCounts.toList.tail
  cumulative := .zero :: (suffixSums s.bucketCounts.toList.tail).map (percentage total)

theorem ofSamples_of_overflow {s : Samples} (h : UInt64.size ≤ s.bucketTotal) :
    ofSamples s = .error .overflow := by
  rw [ofSamples]
  dsimp only
  rw [checkedSum_eq, if_neg (by rw [Samples.bucketTotal] at h; omega)]

theorem ofSamples_of_zero {s : Samples} (hs : s.size ≠ 0) (h : s.bucketTotal = 0) :
    ofSamples s = .error (.zeroTotal s.size) := by
  have hne : s.bucketCounts.toList ≠ [] := by
    rw [← List.length_pos_iff_ne_nil, Samples.length_bucketCounts]
    omega
  rw [Samples.bucketTotal] at h
  rw [ofSamples]
  dsimp only
  rw [checkedSum_eq, h, if_pos (by decide)]
  dsimp only
  rw [if_pos ⟨hne, rfl⟩, Samples.length_bucketCounts]

theorem ofSamples_of_total {s : Samples} (h : s.bucketTotal < UInt64.size)
    (hs : s.size = 0 ∨ s.bucketTotal ≠ 0) :
    ofSamples s = .ok (ofTotal s (.ofNat s.bucketTotal)) := by
  have hnot : ¬(s.bucketCounts.toList ≠ [] ∧ UInt64.ofNat s.bucketTotal = 0) := by
    rintro ⟨hne, hzero⟩
    rw [← List.length_pos_iff_ne_nil, Samples.length_bucketCounts] at hne
    have hzero := congrArg UInt64.toNat hzero
    rw [UInt64.toNat_ofNat_of_lt' h] at hzero
    have : s.bucketTotal = 0 := hzero
    omega
  rw [ofSamples]
  dsimp only
  rw [checkedSum_eq, ← Samples.bucketTotal, if_pos h]
  dsimp only
  rw [if_neg hnot, ofTotal]

/-- A table has a distribution if its total fits and is not zero, unless it is empty. -/
theorem ofSamples_eq_ok_iff {s : Samples} {d : Distribution} :
    ofSamples s = .ok d ↔ s.bucketTotal < UInt64.size ∧ (s.size = 0 ∨ s.bucketTotal ≠ 0) ∧
      d = ofTotal s (.ofNat s.bucketTotal) := by
  constructor
  · intro hd
    have hfits : s.bucketTotal < UInt64.size := by
      by_contra hlarge
      rw [ofSamples_of_overflow (not_lt.1 hlarge)] at hd
      cases hd
    have hne : s.size = 0 ∨ s.bucketTotal ≠ 0 := by
      by_contra hzero
      rw [not_or, not_not] at hzero
      rw [ofSamples_of_zero hzero.1 hzero.2] at hd
      cases hd
    rw [ofSamples_of_total hfits hne] at hd
    exact ⟨hfits, hne, (Except.ok.inj hd).symm⟩
  · rintro ⟨hfits, hne, rfl⟩
    exact ofSamples_of_total hfits hne

/-- A table with records has a distribution only if its total is neither zero nor too large. -/
theorem eq_ofTotal_of_ofSamples {s : Samples} {d : Distribution} (hs : s.size ≠ 0)
    (hd : ofSamples s = .ok d) :
    0 < s.bucketTotal ∧ s.bucketTotal < UInt64.size ∧ d = ofTotal s (.ofNat s.bucketTotal) := by
  obtain ⟨hfits, hne, heq⟩ := ofSamples_eq_ok_iff.1 hd
  exact ⟨Nat.pos_of_ne_zero (hne.resolve_left hs), hfits, heq⟩

/-! ## The lengths of the series -/

section

variable (s : Samples) (total : UInt64)

theorem length_frequencies : (ofTotal s total).frequencies.length = s.size := by
  simp [ofTotal, Samples.size, s.aligned]

theorem length_tailSums : (ofTotal s total).tailSums.length = s.size - 1 := by
  simp [ofTotal, Samples.size, s.aligned]

/-- The leading zero stands also where there is nothing to sum up. -/
theorem length_cumulative : (ofTotal s total).cumulative.length = max s.size 1 := by
  have h := length_tailSums s total
  simp only [ofTotal] at h
  simp only [ofTotal, List.length_cons, List.length_map, h]
  omega

end

end Distribution

end RehashReport
