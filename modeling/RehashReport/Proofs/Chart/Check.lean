import Mathlib
import RehashReport.Chart.Series
import RehashReport.Proofs.Number.Signed

/-!
# What can be drawn

The check of a chart, said apart from it.  Series that can be drawn have something to draw, are of
one length and hold tolerable shares only (`IsSound`), and whatever else the check meets is the
first fault there is (`HasFault`): the lengths come before the shares, the cumulative shares before
the others, and an earlier share before a later one (`check_eq_error_iff`).  A tolerable share is a
number, so neither an infinity nor what is no number, and lies between bounds that are all but zero
and a hundred (`inRange_eq_true_iff`, `bounds_close`).
-/

namespace RehashReport

open Binary64

/-! ## Bounds -/

theorem hundred_hasValue : HasValue (.ofNat 100) 100 := by
  have h := ofNat_hasValue (n := 100) (lt_safeLimit (by norm_num))
  rwa [rounded_natCast (by norm_num [binadeSize])] at h

namespace Chart

theorem tolerance_hasValue : HasValue tolerance (rounded (1 / 1000000000)) :=
  ofRat_hasValue (by norm_num) (lt_safeLimit (by norm_num))

theorem rounded_tolerance_le : rounded (1 / 1000000000) ≤ 1 := by
  calc rounded (1 / 1000000000) ≤ rounded 1 := rounded_mono (by norm_num) (by norm_num)
    _ = 1 := rounded_one

/-- The upper bound of what can be drawn. -/
theorem hundred_add_tolerance_hasValue :
    HasValue (hundred + tolerance) (rounded (100 + rounded (1 / 1000000000))) := by
  refine hundred_hasValue.add tolerance_hasValue (lt_safeLimit ?_)
  linarith [rounded_tolerance_le]

/-! ## Shares -/

/-- A share that can be drawn: a number between the bounds, which are rounded as all numbers are. -/
structure Tolerable (share : Binary64) : Prop where
  finite : share.isFinite = true
  low_le : (-tolerance).toRat ≤ share.toRat
  le_high : share.toRat ≤ (hundred + tolerance).toRat

/-- Only numbers are in the range, neither infinities nor what is no number. -/
theorem inRange_eq_true_iff {share : Binary64} : inRange share = true ↔ Tolerable share := by
  have hlow : IsWorth (-tolerance) (-tolerance).toRat := ⟨tolerance_hasValue.isWorth.neg.1, rfl⟩
  have hhigh : IsWorth (hundred + tolerance) (hundred + tolerance).toRat :=
    ⟨hundred_add_tolerance_hasValue.isFinite, rfl⟩
  rw [inRange, Bool.and_eq_true, decide_eq_true_eq, decide_eq_true_eq]
  constructor
  · rintro ⟨hle, hle'⟩
    obtain ⟨hshare, hbounds⟩ := hlow.between hhigh hle hle'
    exact ⟨hshare.1, hbounds.1, hbounds.2⟩
  · intro h
    have hshare : IsWorth share share.toRat := ⟨h.finite, rfl⟩
    exact ⟨(hlow.le_iff hshare).2 h.low_le, (hshare.le_iff hhigh).2 h.le_high⟩

theorem inRange_eq_false_iff {share : Binary64} : inRange share = false ↔ ¬Tolerable share := by
  rw [← inRange_eq_true_iff, Bool.not_eq_true]

/-- The bounds are a little more than a thousand millionth outside of the range at most. -/
theorem bounds_close :
    -(1001 / 10 ^ 12) ≤ (-tolerance).toRat ∧
      (hundred + tolerance).toRat ≤ 100 + 1001 / 10 ^ 12 := by
  decide +kernel

namespace Series

/-! ## Series -/

/-- Series that can be drawn. -/
structure IsSound (s : Series) : Prop where
  nonempty : s.rehashCounts ≠ []
  length_cumulative : s.cumulative.length = s.rehashCounts.length
  length_frequency : s.frequency.length = s.rehashCounts.length
  tolerable : ∀ share ∈ s.cumulative ++ s.frequency, Tolerable share

/-- `HasFault s fault`: the fault is the first one of the series. -/
inductive HasFault (s : Series) : SeriesFault → Prop
  /-- There is no rehash count. -/
  | empty : s.rehashCounts = [] → HasFault s .empty
  /-- A series of shares is not as long as that of the rehash counts. -/
  | unequalLengths : s.rehashCounts ≠ [] →
      s.cumulative.length ≠ s.rehashCounts.length ∨ s.frequency.length ≠ s.rehashCounts.length →
      HasFault s
        (.unequalLengths s.rehashCounts.length s.cumulative.length s.frequency.length)
  /-- A share is not tolerable, but all those before it are. -/
  | outOfRange {front back : List Binary64} {share : Binary64} : s.rehashCounts ≠ [] →
      s.cumulative.length = s.rehashCounts.length →
      s.frequency.length = s.rehashCounts.length →
      s.cumulative ++ s.frequency = front ++ share :: back → (∀ x ∈ front, Tolerable x) →
      ¬Tolerable share → HasFault s (.outOfRange share)

variable {s : Series} {fault : SeriesFault}

theorem fault?_eq_some_iff : s.fault? = some fault ↔ HasFault s fault := by
  simp only [fault?, List.length_eq_zero_iff]
  constructor
  · intro h
    split_ifs at h with hempty hlengths
    · obtain rfl := Option.some.inj h
      exact .empty hempty
    · obtain rfl := Option.some.inj h
      exact .unequalLengths hempty hlengths
    · rw [not_or, not_not, not_not] at hlengths
      obtain ⟨share, hfind, rfl⟩ := Option.map_eq_some_iff.1 h
      obtain ⟨hbad, front, back, hshares, hfront⟩ := List.find?_eq_some_iff_append.1 hfind
      rw [Bool.not_eq_true'] at hbad
      refine .outOfRange hempty hlengths.1 hlengths.2 hshares ?_ (inRange_eq_false_iff.1 hbad)
      intro x hx
      have hx := hfront x hx
      rw [Bool.not_not] at hx
      exact inRange_eq_true_iff.1 hx
  · intro h
    cases h with
    | empty hempty => rw [if_pos hempty]
    | unequalLengths hempty hlengths => rw [if_neg hempty, if_pos hlengths]
    | @outOfRange front back share hempty hcumulative hfrequency hshares hfront hbad =>
      have hfind : s.shares.find? (fun x => !inRange x) = some share := by
        rw [List.find?_eq_some_iff_append]
        refine ⟨by rw [inRange_eq_false_iff.2 hbad]; rfl, front, back, hshares, ?_⟩
        intro x hx
        rw [inRange_eq_true_iff.2 (hfront x hx)]
        rfl
      rw [if_neg hempty, if_neg (by simp [hcumulative, hfrequency]), hfind]
      rfl

theorem fault?_eq_none_iff : s.fault? = none ↔ IsSound s := by
  simp only [fault?, List.length_eq_zero_iff]
  constructor
  · intro h
    split_ifs at h with hempty hlengths
    rw [not_or, not_not, not_not] at hlengths
    rw [Option.map_eq_none_iff, List.find?_eq_none] at h
    refine ⟨hempty, hlengths.1, hlengths.2, ?_⟩
    intro share hshare
    have hrange := h share hshare
    rw [Bool.not_eq_true, Bool.not_eq_false'] at hrange
    exact inRange_eq_true_iff.1 hrange
  · intro h
    have hfind : s.shares.find? (fun x => !inRange x) = none := by
      rw [List.find?_eq_none]
      intro share hshare
      rw [inRange_eq_true_iff.2 (h.tolerable share hshare)]
      exact Bool.false_ne_true
    rw [if_neg h.nonempty, if_neg (by simp [h.length_cumulative, h.length_frequency]), hfind]
    rfl

/-- The check names the first fault. -/
theorem check_eq_error_iff : s.check = .error fault ↔ HasFault s fault := by
  rw [← fault?_eq_some_iff, check]
  cases s.fault? <;> simp

theorem check_eq_ok_iff : s.check = .ok () ↔ IsSound s := by
  rw [← fault?_eq_none_iff, check]
  cases s.fault? <;> simp

/-- Series have a fault just when they cannot be drawn. -/
theorem exists_hasFault_iff : (∃ fault, HasFault s fault) ↔ ¬IsSound s := by
  simp only [← fault?_eq_some_iff, ← fault?_eq_none_iff, ← Option.isSome_iff_exists,
    Option.isSome_iff_ne_none, ne_eq]

end Series

end Chart

end RehashReport
