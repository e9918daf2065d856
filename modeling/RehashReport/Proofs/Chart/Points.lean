import Mathlib
import RehashReport.Proofs.Chart.Axis

/-!
# The search and the walk for the points of an axis

The two loops that make the points of an axis.  The search refines decade after decade; where the
decades are powers of ten that need no rounding, its state on entering a decade depends on nothing
but the decade, so it passes through all that are coarse enough and stops in the first that is not
(`search_eq`).  Where it starts matters little: `NearLog` admits every exponent next to the true
one (`NearLog.exists_nat`), as a rounded logarithm may miss it by one.

The walk starts from zero and adds the step; with whole steps every sum is exact, so it meets all
multiples up to the last one and none beyond (`points_eq`).
-/

namespace RehashReport.Chart

open Binary64

/-! ## Decades -/

/-- A power of ten. -/
def decade (k : ℕ) : Binary64 := .ofRat (10 ^ k)

/-- The spacing with which the search enters a decade. -/
def decadeSpacing (k : ℕ) : Spacing := ⟨decade k, decade k / ten⟩

theorem isMagnitude_decade {k : ℕ} (hk : k ≤ 22) : IsMagnitude (10 ^ k) := by
  have hsize : 5 ^ k ≤ 2 * binadeSize := by
    calc 5 ^ k ≤ 5 ^ 22 := Nat.pow_le_pow_right (by norm_num) hk
      _ ≤ 2 * binadeSize := by norm_num [binadeSize]
  have h := isMagnitude_mul_unit (1074 + k) hsize
  rw [unit_add, unit_whole, mul_one] at h
  push_cast at h
  rwa [show (5 : ℚ) ^ k * 2 ^ k = 10 ^ k by
    rw [← mul_pow]
    norm_num] at h

theorem decade_le {k : ℕ} (hk : k ≤ 22) : (10 : ℚ) ^ k ≤ 2 ^ 99 := by
  calc (10 : ℚ) ^ k ≤ 10 ^ 22 := pow_le_pow_right₀ (by norm_num) hk
    _ ≤ 2 ^ 99 := by norm_num

theorem decade_hasValue {k : ℕ} (hk : k ≤ 22) : HasValue (decade k) (10 ^ k) := by
  have h := ofRat_hasValue (q := 10 ^ k) (by positivity)
    (lt_safeLimit ((decade_le hk).trans (by norm_num)))
  rwa [(isMagnitude_decade hk).rounded_eq] at h

theorem decade_zero_hasValue : HasValue (decade 0) 1 := by
  have h := decade_hasValue (k := 0) (by norm_num)
  rwa [pow_zero] at h

theorem ten_hasValue : HasValue ten 10 := natCast_hasValue (n := 10) (by norm_num)

/-- The search leaves a decade for the one below. -/
theorem decade_succ_div_ten {k : ℕ} (hk : k + 1 ≤ 22) : decade (k + 1) / ten = decade k := by
  have hquotient : (10 : ℚ) ^ (k + 1) / 10 = 10 ^ k := by
    rw [pow_succ]
    field_simp
  have h := (decade_hasValue hk).div ten_hasValue (by norm_num) (by
    rw [hquotient]
    exact lt_safeLimit ((decade_le (by omega)).trans (by norm_num)))
  rw [hquotient, (isMagnitude_decade (by omega)).rounded_eq] at h
  exact h.unique (decade_hasValue (by omega))

/-- The grain of a decade does not vanish, also where it has to be rounded. -/
theorem exists_grain_hasValue {k : ℕ} (hk : k ≤ 22) :
    ∃ g, HasValue (decade k / ten) g ∧ 0 < g := by
  have hone : (1 : ℚ) ≤ 10 ^ k := one_le_pow₀ (by norm_num)
  have hlimit := decade_le hk
  have hpart : IsMagnitude ((1 : ℕ) / 2 ^ 4) := isMagnitude_div_two_pow (by norm_num) (by norm_num)
  refine ⟨_, (decade_hasValue hk).div ten_hasValue (by norm_num) (lt_safeLimit (by linarith)), ?_⟩
  refine lt_of_lt_of_le ?_ (hpart.le_rounded ?_)
  · norm_num
  · norm_num
    linarith

/-- The parts that the search tries. -/
theorem exists_cofactor {p : ℕ} (hp : p ∈ [2, 5, 10]) :
    ∃ c, p * c = 10 ∧ 0 < p ∧ p ≤ 10 ∧ 0 < c ∧ c ≤ 5 := by
  simp only [List.mem_cons, List.not_mem_nil, or_false] at hp
  rcases hp with rfl | rfl | rfl
  exacts [⟨5, by norm_num⟩, ⟨2, by norm_num⟩, ⟨1, by norm_num⟩]

/-- A part of a decade is whole. -/
theorem part_hasValue {p c k : ℕ} (hp : p * c = 10) (hp0 : 0 < p) (hp10 : p ≤ 10)
    (hk : k + 1 ≤ 22) (hck : c * 10 ^ k ≤ 2 ^ 53) :
    HasValue (decade (k + 1) / .ofNat p) (c * 10 ^ k : ℕ) := by
  have hpq : (0 : ℚ) < p := by exact_mod_cast hp0
  have hquotient : (10 : ℚ) ^ (k + 1) / p = (c * 10 ^ k : ℕ) := by
    have hp : (p : ℚ) * c = 10 := by exact_mod_cast hp
    rw [div_eq_iff hpq.ne', pow_succ]
    push_cast
    linear_combination (-(10 : ℚ) ^ k) * hp
  have hle : ((c * 10 ^ k : ℕ) : ℚ) ≤ 2 ^ 53 := by exact_mod_cast hck
  have h := (decade_hasValue hk).div (natCast_hasValue (n := p) (by omega)) hpq
    (lt_safeLimit (by
      rw [hquotient]
      exact hle.trans (by norm_num)))
  rwa [hquotient, (isMagnitude_natCast hck).rounded_eq] at h

/-! ## Where the search starts -/

/-- `NearLog q e`: the exponent `e` is not negative and at most one away from that of the greatest
power of ten that is at most `q`. -/
def NearLog (q : ℚ) (e : ℤ) : Prop :=
  0 ≤ e ∧ ∃ k : ℤ, (10 : ℚ) ^ k ≤ q ∧ q < (10 : ℚ) ^ (k + 1) ∧ |e - k| ≤ 1

theorem nearLog_floorLog10 {q : ℚ} (h : 1 ≤ q) : NearLog q (Rounding.floorLog10 q) := by
  have hpos : 0 < q := one_pos.trans_le h
  have hle := Int.zpow_log_le_self (b := 10) (by decide) hpos
  have hlt := Int.lt_zpow_succ_log_self (b := 10) (by decide) q
  rw [Nat.cast_ofNat] at hle hlt
  rw [Rounding.floorLog10_eq_log hpos]
  refine ⟨?_, _, hle, hlt, by simp⟩
  rw [Int.log_of_one_le_right 10 h]
  exact Int.natCast_nonneg _

theorem NearLog.exists_nat {q : ℚ} {e : ℤ} (h : NearLog q e) {k : ℕ} (hk : q < 10 ^ k) :
    ∃ n : ℕ, e = n ∧ n ≤ k := by
  obtain ⟨hnonneg, l, hl, -, hnear⟩ := h
  obtain ⟨n, rfl⟩ := Int.eq_ofNat_of_zero_le hnonneg
  refine ⟨n, rfl, ?_⟩
  have hpow : (10 : ℚ) ^ l < 10 ^ (k : ℤ) := by
    rw [zpow_natCast]
    exact hl.trans_lt hk
  have hlk := (zpow_lt_zpow_iff_right₀ (by norm_num : (1 : ℚ) < 10)).1 hpow
  have := (abs_le.1 hnear).2
  omega

namespace Range

variable {r : Range} {most : ℕ}

/-! ## The search -/

/-- Where all parts give few enough points, a decade is taken whole. -/
theorem refine_of_forall_le {start : Binary64} {ns : List ℕ}
    (h : ∀ n ∈ ns, r.pointCount start n ≤ most) (step : Binary64) :
    (r.refine most start ns step).2 = true := by
  induction ns generalizing step with
  | nil => rfl
  | cons n ns ih =>
    rw [refine, if_neg (not_lt.2 (h n List.mem_cons_self))]
    exact ih (fun m hm => h m (List.mem_cons_of_mem _ hm)) _

theorem search_decade {k : ℕ} (hk : k + 1 ≤ 22)
    (h : ∀ n ∈ [2, 5, 10], r.pointCount (decade (k + 1)) n ≤ most) (fuel : ℕ) :
    r.search most (fuel + 1) (decadeSpacing (k + 1)) = r.search most fuel (decadeSpacing k) := by
  have hall := refine_of_forall_le h (decade (k + 1))
  rw [search, decadeSpacing]
  dsimp only
  obtain ⟨step, hstep⟩ : ∃ step,
      r.refine most (decade (k + 1)) [2, 5, 10] (decade (k + 1)) = (step, true) :=
    ⟨_, Prod.ext rfl hall⟩
  rw [hstep]
  dsimp only
  rw [decade_succ_div_ten hk]
  rfl

/-- The search goes down to the first decade that has a part with too many points. -/
theorem search_eq {j k : ℕ} {step : Binary64} (hjk : j ≤ k) (hk : k ≤ 22)
    (hcoarse : ∀ i, j < i → i ≤ k → ∀ n ∈ [2, 5, 10], r.pointCount (decade i) n ≤ most)
    (hfine : r.refine most (decade j) [2, 5, 10] (decade j) = (step, false)) {fuel : ℕ}
    (hfuel : k < fuel) : r.search most fuel (decadeSpacing k) = ⟨step, decade j / ten⟩ := by
  induction k, hjk using Nat.le_induction generalizing fuel with
  | base =>
    obtain ⟨fuel, rfl⟩ := Nat.exists_eq_succ_of_ne_zero (by omega : fuel ≠ 0)
    rw [search, decadeSpacing]
    dsimp only
    rw [hfine]
  | succ k hjk ih =>
    obtain ⟨fuel, rfl⟩ := Nat.exists_eq_succ_of_ne_zero (by omega : fuel ≠ 0)
    rw [search_decade hk (hcoarse (k + 1) (by omega) le_rfl)]
    exact ih (by omega) (fun i hi hik => hcoarse i hi (by omega)) (by omega)

/-- The decade to start from is kept, unless its points are too many already. -/
theorem spacing_eq {k : ℕ} (h : 1 + (r.width / decade k).floor.toNat64 ≤ most) :
    r.spacing most k = r.search most decades (decadeSpacing k) := by
  rw [spacing, zpow_natCast, ← decade, if_neg (not_lt.2 h)]
  rfl

/-! ## The walk -/

section

variable {step grain base last : Binary64} {s m : ℕ} (hstep : HasValue step s)
  (hgrain : grain.isNegative = false) (hbase : HasValue base (0 : ℕ))
  (hlast : HasValue last (m * s : ℕ)) (hbound : (m + 1) * s ≤ 2 ^ 53)

include hbase hlast hbound

include hstep hgrain in
/-- One step of the walk. -/
theorem emit_multiple {i : ℕ} (hi : i ≤ m) (fuel : ℕ) :
    emit ⟨step, grain⟩ base last (fuel + 1) (.ofNat (i * s)) =
      .ofNat (i * s) :: emit ⟨step, grain⟩ base last fuel (.ofNat ((i + 1) * s)) := by
  have hle : i * s ≤ m * s := Nat.mul_le_mul_right s hi
  have hnext : (i + 1) * s ≤ (m + 1) * s := Nat.mul_le_mul_right s (by omega)
  rw [Nat.succ_mul] at hbound
  have hdistance := natCast_hasValue (n := i * s) (by omega)
  -- the last point is not passed yet
  have hrest : -epsilon ≤ last - .ofNat (i * s) - base := by
    have hrest := (hlast.natCast_sub hdistance hle (by omega)).natCast_sub hbase (by omega)
      (by omega)
    rw [epsilon_hasValue.isWorth.neg.le_iff hrest.isWorth]
    have := hrest.nonneg
    have : (0 : ℚ) < 1 / 2 ^ 52 := by positivity
    linarith
  -- and no distance is rounded to less than nothing
  have hgrid : ¬(Binary64.ofNat (i * s) / grain).nearest * grain < .zero :=
    not_lt_zero_of_isNegative (isNegative_mul
      (isNegative_nearest (isNegative_div hdistance.isNegative hgrain)) hgrain)
  have hpoint : Binary64.ofNat (i * s) + base = .ofNat (i * s) :=
    (hdistance.natCast_add hbase (by omega)).unique hdistance
  have hadd : Binary64.ofNat (i * s) + step = .ofNat ((i + 1) * s) := by
    rw [Nat.succ_mul] at hnext ⊢
    exact (hdistance.natCast_add hstep (by omega)).unique (natCast_hasValue (by omega))
  rw [emit, if_pos hrest]
  dsimp only
  rw [if_neg hgrid, hpoint, hadd]

/-- The walk ends after the last multiple. -/
theorem emit_beyond (hs : 0 < s) (fuel : ℕ) :
    emit ⟨step, grain⟩ base last fuel (.ofNat ((m + 1) * s)) = [] := by
  cases fuel with
  | zero => rfl
  | succ fuel =>
    have hdistance := (natCast_hasValue hbound).isWorth_intCast
    rw [Nat.succ_mul] at hbound
    have hrest := (hlast.isWorth_intCast.intCast_sub hdistance (by
      rw [Nat.succ_mul, abs_le]
      omega)).intCast_sub hbase.isWorth_intCast (by
      rw [Nat.succ_mul, abs_le]
      omega)
    have hpassed : ((m * s : ℕ) : ℤ) - ((m + 1) * s : ℕ) - (0 : ℕ) ≤ -1 := by
      rw [Nat.succ_mul]
      omega
    have hpassed : ((((m * s : ℕ) : ℤ) - ((m + 1) * s : ℕ) - (0 : ℕ) : ℤ) : ℚ) ≤ -1 := by
      exact_mod_cast hpassed
    have hnot : ¬-epsilon ≤ last - .ofNat ((m + 1) * s) - base := by
      rw [epsilon_hasValue.isWorth.neg.le_iff hrest, not_le]
      refine hpassed.trans_lt ?_
      norm_num
    rw [emit, if_neg hnot]

include hstep hgrain in
/-- From any multiple on, the walk meets all that follow. -/
theorem emit_multiples (hs : 0 < s) {i n fuel : ℕ} (hn : i + n = m + 1) (hfuel : n ≤ fuel) :
    emit ⟨step, grain⟩ base last fuel (.ofNat (i * s)) =
      (List.range' i n).map fun j => .ofNat (j * s) := by
  induction n generalizing i fuel with
  | zero =>
    obtain rfl : i = m + 1 := hn
    rw [List.range'_zero, List.map_nil]
    exact emit_beyond hbase hlast hbound hs fuel
  | succ n ih =>
    obtain ⟨fuel, rfl⟩ := Nat.exists_eq_succ_of_ne_zero (by omega : fuel ≠ 0)
    rw [Nat.succ_eq_add_one, emit_multiple hstep hgrain hbase hlast hbound (by omega),
      ih (by omega) (by omega), List.range'_succ, List.map_cons]

end

/-- The walk has enough steps. -/
theorem le_stepLimit {step grain base last : Binary64} {s m : ℕ} (hstep : HasValue step s)
    (hs : 0 < s) (hbase : HasValue base (0 : ℕ)) (hlast : HasValue last (m * s : ℕ)) :
    m + 1 ≤ stepLimit ⟨step, grain⟩ base last := by
  have hs0 : (0 : ℚ) < s := by exact_mod_cast hs
  set way := last.toRat - base.toRat + last.abs.toRat / 0x10000000000000 with hway
  have hm : (m : ℚ) ≤ way / step.toRat := by
    rw [hway, hlast.toRat_eq, hbase.toRat_eq, hstep.toRat_eq, hlast.isWorth.abs.toRat_eq,
      le_div_iff₀ hs0, abs_of_nonneg (Nat.cast_nonneg _)]
    push_cast
    have : (0 : ℚ) ≤ m * s / 0x10000000000000 := by positivity
    linarith
  have hceil : (m : ℤ) ≤ (way / step.toRat).ceil := by exact_mod_cast hm.trans Rat.le_ceil
  rw [stepLimit]
  dsimp only
  rw [← hway]
  omega

/-- The points from zero on are the multiples of the step. -/
theorem points_eq {step grain : Binary64} {g : ℚ} {s m : ℕ} (hstep : HasValue step s) (hs : 0 < s)
    (hgrain : HasValue grain g) (hg : 0 < g) (hfirst : HasValue (r.first step) (0 : ℕ))
    (hlast : HasValue (r.last step) (m * s : ℕ)) (hbound : (m + 1) * s ≤ 2 ^ 53) :
    r.points ⟨step, grain⟩ = (List.range (m + 1)).map fun i => .ofNat (i * s) := by
  have hbase : HasValue ((r.first step / grain).floor * grain) (0 : ℕ) := by
    have hfloor := (hfirst.div hgrain hg (by
      rw [Nat.cast_zero, zero_div]
      exact lt_safeLimit (by norm_num))).floor (by simp)
    have hbase := hfloor.mul hgrain (by
      simp only [Nat.cast_zero, zero_div, rounded_zero, Nat.floor_zero, zero_mul]
      exact lt_safeLimit (by norm_num))
    simpa using hbase
  have hdistance : r.first step - (r.first step / grain).floor * grain = .ofNat (0 * s) := by
    rw [Nat.zero_mul]
    exact (hfirst.natCast_sub hbase le_rfl (Nat.zero_le _)).unique (natCast_hasValue (by omega))
  rw [points]
  dsimp only
  rw [hdistance, emit_multiples hstep hgrain.isNegative hbase hlast hbound hs (Nat.zero_add _)
    (le_stepLimit hstep hs hbase hlast), List.range_eq_range']

/-- A range that is not too narrow has the points of its spacing. -/
theorem keyPointsFrom_of_wide {a b : ℚ} (hlow : IsWorth r.low a) (hhigh : IsWorth r.high b)
    (hwide : a + 1 ≤ b) (hbound : b - a ≤ 2 ^ 53) (exponent : ℤ) :
    r.keyPointsFrom most exponent = r.points (r.spacing most exponent) := by
  have hdistance := (hlow.sub hhigh (lt_safeLimit_of_le (by
    rw [abs_le]
    constructor <;> linarith))).abs
  have hone : 1 ≤ |closest (a - b)| := by
    rw [← neg_sub, closest_neg, abs_neg]
    refine le_abs.2 (Or.inl ?_)
    rw [← closest_one]
    exact closest_mono (by linarith)
  have hnot : ¬(r.low - r.high).abs < epsilon := by
    rw [hdistance.isWorth.lt_iff epsilon_hasValue.isWorth, not_lt]
    refine le_trans ?_ hone
    norm_num
  rw [keyPointsFrom, if_neg hnot]

end Range

end RehashReport.Chart
