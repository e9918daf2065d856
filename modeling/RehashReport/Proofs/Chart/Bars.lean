import Mathlib
import RehashReport.Chart.Drawing
import RehashReport.Proofs.Chart.Scale
import RehashReport.Proofs.Distribution.Plottable

/-!
# Bars

Where the bars of a chart are drawn, for all series that pass the check.  Such series hold finite
shares only (`isFinite_of_check`), and a finite share is drawn at its value, cut to what lies
between zero and a hundred (`clampShare_isWorth`).  The axis goes at least as far as any of these
values, and at most to `105` (`exists_reaches`); hence a bar stands on the pixel of zero and ends at
that of its share (`Reaches.bottom_bar`, `Reaches.top_bar`), and a greater share does not have the
lower bar (`Reaches.pixel_le_pixel`).  `Shows` says for which rehash count and share a bar is drawn:
there is one for every share, and there are no others.
-/

namespace RehashReport

open Binary64

/-! ## Maxima -/

namespace Binary64.HasValue

variable {x y : Binary64} {p q r : ℚ}

/-- What is greater than a number without a minus has none either. -/
theorem maximum (hx : HasValue x q) (hy : IsWorth y r) : HasValue (x.maximum y) (max q r) := by
  have hlt := hx.isWorth.lt_iff hy
  have hmaximum : x.maximum y = if x < y then y else x := by
    obtain ⟨_, rfl, -⟩ := hx
    obtain ⟨_, _, rfl, -⟩ := hy.exists_eq
    rfl
  rw [hmaximum]
  split_ifs with h
  · have hqr := hlt.1 h
    rw [max_eq_right hqr.le]
    exact hy.hasValue_of_pos (hx.nonneg.trans_lt hqr)
  · rwa [max_eq_left (not_lt.1 fun hqr => h (hlt.2 hqr))]

/-- The greatest of some numbers is none of those below, and no bound of all is below it. -/
theorem foldl_maximum {xs : List Binary64} {a : Binary64} (ha : HasValue a p) {b : ℚ} (hp : p ≤ b)
    (h : ∀ x ∈ xs, ∃ q, IsWorth x q ∧ q ≤ b) :
    ∃ t, HasValue (xs.foldl Binary64.maximum a) t ∧ p ≤ t ∧ t ≤ b ∧ ∀ x ∈ xs, x.toRat ≤ t := by
  induction xs generalizing a p with
  | nil => exact ⟨p, ha, le_rfl, hp, by simp⟩
  | cons x xs ih =>
    obtain ⟨q, hx, hq⟩ := h x List.mem_cons_self
    obtain ⟨t, ht, hle, hb, hall⟩ :=
      ih (ha.maximum hx) (max_le hp hq) fun y hy => h y (List.mem_cons_of_mem _ hy)
    refine ⟨t, ht, (le_max_left _ _).trans hle, hb, ?_⟩
    rintro y (_ | ⟨_, hy⟩)
    · rw [hx.2]
      exact (le_max_right _ _).trans hle
    · exact hall y hy

end Binary64.HasValue

theorem Binary64.maximum_eq_or (x y : Binary64) : x.maximum y = x ∨ x.maximum y = y := by
  unfold Binary64.maximum
  split
  · exact Or.inr rfl
  · exact Or.inl rfl
  · split_ifs
    · exact Or.inr rfl
    · exact Or.inl rfl

/-- The greatest of some numbers is one of them. -/
theorem Binary64.foldl_maximum_eq_or (xs : List Binary64) (a : Binary64) :
    xs.foldl Binary64.maximum a = a ∨ xs.foldl Binary64.maximum a ∈ xs := by
  induction xs generalizing a with
  | nil => exact Or.inl rfl
  | cons x xs ih =>
    rw [List.foldl_cons]
    rcases ih (a.maximum x) with heq | hmem
    · rw [heq]
      rcases maximum_eq_or a x with ha | hx
      · exact Or.inl ha
      · rw [hx]
        exact Or.inr List.mem_cons_self
    · exact Or.inr (List.mem_cons_of_mem x hmem)

namespace Chart

/-! ## Widths -/

theorem half_hasValue : HasValue half (1 / 2) := by
  have hhalf := ofRat_hasValue (q := 1 / 2) (by norm_num) (lt_safeLimit (by norm_num))
  rwa [isMagnitude_half.rounded_eq] at hhalf

/-- Half of a bar is at most half of a place. -/
theorem exists_barHalfWidth_hasValue : ∃ w, HasValue barHalfWidth w ∧ w ≤ 1 / 2 := by
  have hwidth := ofRat_hasValue (q := 4 / 5) (by norm_num) (lt_safeLimit (by norm_num))
  have hle : rounded (4 / 5) ≤ 1 := isMagnitude_one.rounded_le (by norm_num) (by norm_num)
  have hhalf := hwidth.div (natCast_hasValue (n := 2) (by norm_num)) (by norm_num)
    (lt_safeLimit (by push_cast; linarith))
  refine ⟨_, hhalf, isMagnitude_half.rounded_le ?_ ?_⟩
  · exact div_nonneg (rounded_nonneg _) (by norm_num)
  · push_cast
    linarith

/-! ## Heights -/

/-- The height at which a share is drawn. -/
def height (q : ℚ) : ℚ := max 0 (min q 100)

theorem height_nonneg (q : ℚ) : 0 ≤ height q := le_max_left _ _

theorem height_le (q : ℚ) : height q ≤ 100 := max_le (by norm_num) (min_le_right _ _)

theorem height_mono {q r : ℚ} (h : q ≤ r) : height q ≤ height r :=
  max_le_max le_rfl (min_le_min h le_rfl)

theorem clampShare_isWorth {share : Binary64} {q : ℚ} (h : IsWorth share q) :
    IsWorth (clampShare share) (height q) := by
  have hlow := h.lt_iff zero_hasValue.isWorth
  have hhigh := hundred_hasValue.isWorth.lt_iff h
  unfold clampShare clamp height
  split_ifs with h0 h1
  · have hq := hlow.1 h0
    rw [min_eq_left (by linarith), max_eq_left hq.le]
    exact zero_hasValue.isWorth
  · rw [min_eq_right (hhigh.1 h1).le, max_eq_right (by norm_num)]
    exact hundred_hasValue.isWorth
  · have hq0 : 0 ≤ q := not_lt.1 fun hq => h0 (hlow.2 hq)
    have hq1 : q ≤ 100 := not_lt.1 fun hq => h1 (hhigh.2 hq)
    rwa [min_eq_left hq1, max_eq_right hq0]

/-- A tolerable share is cut to its range, and moved by little. -/
theorem abs_clampShare_sub_le {share : Binary64} (h : Tolerable share) :
    (clampShare share).isFinite = true ∧ 0 ≤ (clampShare share).toRat ∧
      (clampShare share).toRat ≤ 100 ∧
      |(clampShare share).toRat - share.toRat| ≤ 1001 / 10 ^ 12 := by
  obtain ⟨hfinite, hvalue⟩ := clampShare_isWorth ⟨h.finite, rfl⟩
  obtain ⟨hlow, hhigh⟩ := bounds_close
  have hlow := hlow.trans h.low_le
  have hhigh := h.le_high.trans hhigh
  rw [hvalue]
  refine ⟨hfinite, height_nonneg _, height_le _, ?_⟩
  rw [height, abs_le]
  rcases le_total share.toRat 100 with hle | hge
  · rw [min_eq_left hle]
    rcases le_total 0 share.toRat with hnonneg | hneg
    · rw [max_eq_right hnonneg]
      constructor <;> linarith
    · rw [max_eq_left hneg]
      constructor <;> linarith
  · rw [min_eq_right hge, max_eq_right (by norm_num)]
    constructor <;> linarith

/-! ## The end of the axis -/

/-- The headroom takes a hundred to just `105`. -/
theorem rounded_mul_headroom : rounded (100 * rounded (105 / 100)) = 105 := by
  decide +kernel

theorem le_rounded_headroom : 105 / 100 ≤ rounded (105 / 100) := by
  decide +kernel

theorem headroom_hasValue : HasValue headroom (rounded (105 / 100)) :=
  ofRat_hasValue (by norm_num) (lt_safeLimit (by norm_num))

namespace Series

variable {s : Series}

/-- Series that can be drawn have as many shares of either kind as rehash counts. -/
theorem length_of_check (h : s.check = .ok ()) :
    s.cumulative.length = s.rehashCounts.length ∧ s.frequency.length = s.rehashCounts.length := by
  have hsound := check_eq_ok_iff.1 h
  exact ⟨hsound.length_cumulative, hsound.length_frequency⟩

/-- Series that can be drawn have no share that is not a number. -/
theorem isFinite_of_check (h : s.check = .ok ()) : ∀ share ∈ s.shares, share.isFinite = true := by
  intro share hshare
  exact ((check_eq_ok_iff.1 h).tolerable share hshare).finite

/-- The tallest bar is as high as any, and not too high. -/
theorem exists_tallest (h : ∀ share ∈ s.shares, share.isFinite = true) :
    ∃ t, HasValue s.tallest t ∧ t ≤ 100 ∧ ∀ share ∈ s.shares, height share.toRat ≤ t := by
  have hall : ∀ x ∈ s.shares.map clampShare, ∃ q, IsWorth x q ∧ q ≤ 100 := by
    intro x hx
    obtain ⟨share, hshare, rfl⟩ := List.mem_map.1 hx
    exact ⟨_, clampShare_isWorth ⟨h share hshare, rfl⟩, height_le _⟩
  obtain ⟨t, ht, -, hle, hmax⟩ := zero_hasValue.foldl_maximum (by norm_num) hall
  refine ⟨t, ht, hle, ?_⟩
  intro share hshare
  rw [← (clampShare_isWorth ⟨h share hshare, rfl⟩).2]
  exact hmax _ (List.mem_map_of_mem hshare)

/-- The tallest bar is that of some share, unless nothing has a height. -/
theorem exists_mem_tallest (h : ∀ share ∈ s.shares, share.isFinite = true) {t : ℚ}
    (ht : HasValue s.tallest t) (hpos : 0 < t) : ∃ share ∈ s.shares, height share.toRat = t := by
  rcases foldl_maximum_eq_or (s.shares.map clampShare) .zero with hzero | hmem
  · rw [tallest, hzero] at ht
    rw [← ht.toRat_eq, zero_hasValue.toRat_eq] at hpos
    exact absurd hpos (lt_irrefl 0)
  · obtain ⟨share, hshare, heq⟩ := List.mem_map.1 hmem
    refine ⟨share, hshare, ?_⟩
    rw [← (clampShare_isWorth ⟨h share hshare, rfl⟩).2, heq]
    exact ht.toRat_eq

/-- `Reaches s y`: the shares are numbers, and the vertical axis of the chart ends at `y`, which is
not below any bar. -/
structure Reaches (s : Series) (y : ℚ) : Prop where
  finite : ∀ share ∈ s.shares, share.isFinite = true
  high : HasValue s.shareRange.high y
  one_le : 1 ≤ y
  le : y ≤ 105
  height_le : ∀ share ∈ s.shares, height share.toRat ≤ y

/-- Where the axis ends, given the height of the tallest bar: at that and some more, but at one at
least. -/
def axisEnd (t : ℚ) : ℚ := max (rounded (t * rounded (105 / 100))) 1

theorem shareRange_hasValue {t : ℚ} (ht : HasValue s.tallest t) (hle : t ≤ 100) :
    HasValue s.shareRange.high (axisEnd t) ∧
      t ≤ rounded (t * rounded (105 / 100)) ∧ rounded (t * rounded (105 / 100)) ≤ 105 := by
  have ht0 := ht.nonneg
  have hroom := le_rounded_headroom
  have hhigh : t * rounded (105 / 100) ≤ 100 * rounded (105 / 100) := by gcongr
  have hroom' : rounded (105 / 100) ≤ 2 :=
    (isMagnitude_natCast (n := 2) (by norm_num)).rounded_le (by norm_num) (by norm_num)
  have hproduct := ht.mul headroom_hasValue (lt_safeLimit (by nlinarith))
  have hone := natCast_hasValue (n := 1) (by norm_num)
  rw [Nat.cast_one] at hone
  refine ⟨hproduct.maximum hone.isWorth, ht.isMagnitude.le_rounded (by nlinarith), ?_⟩
  have hmono := rounded_mono (by nlinarith) hhigh
  rwa [rounded_mul_headroom] at hmono

theorem reaches_of_tallest (h : ∀ share ∈ s.shares, share.isFinite = true) {t : ℚ}
    (ht : HasValue s.tallest t) (hle : t ≤ 100)
    (hmax : ∀ share ∈ s.shares, height share.toRat ≤ t) :
    Reaches s (axisEnd t) := by
  obtain ⟨hhigh, hlow, hle'⟩ := shareRange_hasValue ht hle
  refine ⟨h, hhigh, le_max_right _ _, max_le hle' (by norm_num), ?_⟩
  intro share hshare
  exact (hmax share hshare).trans (hlow.trans (le_max_left _ _))

theorem exists_reaches (h : ∀ share ∈ s.shares, share.isFinite = true) : ∃ y, Reaches s y := by
  obtain ⟨t, ht, hle, hmax⟩ := exists_tallest h
  exact ⟨_, reaches_of_tallest h ht hle hmax⟩

theorem lays_shareScale {y : ℚ} (hhigh : HasValue s.shareRange.high y) (hone : 1 ≤ y)
    (hle : y ≤ 105) : s.shareScale.Lays 0 y 404 := by
  refine ⟨zero_hasValue.isWorth, hhigh.isWorth, by linarith, by norm_num, ?_, by norm_num,
    by norm_num⟩
  rw [abs_le]
  constructor <;> linarith

/-! ## Tops and bottoms -/

namespace Reaches

variable {y : ℚ} (h : Reaches s y) {x x' : Binary64} {counts : Scale} {colour : Image.Colour}
  {count : UInt64}

include h

theorem pixel_le_pixel (hx : x ∈ s.shares) (hx' : x' ∈ s.shares)
    (hle : height x.toRat ≤ height x'.toRat) :
    s.shareScale.pixel (clampShare x') ≤ s.shareScale.pixel (clampShare x) :=
  (lays_shareScale h.high h.one_le h.le).pixel_anti rfl (clampShare_isWorth ⟨h.finite x hx, rfl⟩)
    (clampShare_isWorth ⟨h.finite x' hx', rfl⟩) (height_nonneg _) hle (h.height_le x' hx')

theorem pixel_le_zero (hx : x ∈ s.shares) :
    s.shareScale.pixel (clampShare x) ≤ s.shareScale.pixel .zero :=
  (lays_shareScale h.high h.one_le h.le).pixel_anti rfl zero_hasValue.isWorth
    (clampShare_isWorth ⟨h.finite x hx, rfl⟩) le_rfl (height_nonneg _) (h.height_le x hx)

/-- A bar ends at the pixel of its share. -/
theorem top_bar (hx : x ∈ s.shares) :
    (bar counts s.shareScale colour count x).top = s.shareScale.pixel (clampShare x) :=
  min_eq_right (h.pixel_le_zero hx)

/-- It stands on the pixel of zero. -/
theorem bottom_bar (hx : x ∈ s.shares) :
    (bar counts s.shareScale colour count x).bottom = s.shareScale.pixel .zero :=
  max_eq_left (h.pixel_le_zero hx)

end Reaches

/-! ## Positions -/

/-- The bars of a rehash count. -/
theorem getElem?_draw (h : s.check = .ok ()) {i : ℕ} {count : UInt64}
    (hcount : s.rehashCounts[i]? = some count) :
    ∃ x y, s.cumulative[i]? = some x ∧ s.frequency[i]? = some y ∧
      s.draw.bars[i]? = some (bar s.countScale s.shareScale cumulativeColour count x) ∧
      s.draw.bars[s.rehashCounts.length + i]? =
        some (bar s.countScale s.shareScale frequencyColour count y) := by
  obtain ⟨hcumulative, hfrequency⟩ := length_of_check h
  obtain ⟨hi, -⟩ := List.getElem?_eq_some_iff.1 hcount
  have hx := List.getElem?_eq_getElem (hcumulative ▸ hi)
  have hy := List.getElem?_eq_getElem (hfrequency ▸ hi)
  have hlength : (bars s cumulativeColour s.cumulative).length = s.rehashCounts.length := by
    rw [bars, List.length_zipWith, hcumulative, min_self]
  refine ⟨_, _, hx, hy, ?_, ?_⟩
  · rw [draw, List.getElem?_append_left (by omega), bars, List.getElem?_zipWith, hcount, hx]
  · rw [draw, List.getElem?_append_right (by omega), hlength, Nat.add_sub_cancel_left, bars,
      List.getElem?_zipWith, hcount, hy]

/-- `Shows s i x b`: the bar `b` is drawn for the rehash count at position `i` and its share `x` in
one of the two series. -/
inductive Shows (s : Series) (i : ℕ) (x : Binary64) (b : Rectangle) : Prop
  | cumulative : s.cumulative[i]? = some x → s.draw.bars[i]? = some b → Shows s i x b
  | frequency : s.frequency[i]? = some x → s.draw.bars[s.rehashCounts.length + i]? = some b →
      Shows s i x b

theorem Shows.mem_bars {i : ℕ} {x : Binary64} {b : Rectangle} (h : Shows s i x b) :
    b ∈ s.draw.bars := by
  cases h with
  | cumulative _ hb => exact List.mem_of_getElem? hb
  | frequency _ hb => exact List.mem_of_getElem? hb

theorem length_bars (h : s.check = .ok ()) : s.draw.bars.length = 2 * s.rehashCounts.length := by
  obtain ⟨hcumulative, hfrequency⟩ := length_of_check h
  rw [draw, List.length_append, bars, bars, List.length_zipWith, List.length_zipWith, hcumulative,
    hfrequency, min_self, two_mul]

section

variable (h : s.check = .ok ()) {i : ℕ} {x : Binary64} {b : Rectangle}

include h

/-- What a bar that is drawn is made from. -/
theorem Shows.exists_bar (hb : Shows s i x b) :
    x ∈ s.shares ∧ ∃ count colour, s.rehashCounts[i]? = some count ∧
      b = bar s.countScale s.shareScale colour count x := by
  obtain ⟨hcumulative, hfrequency⟩ := length_of_check h
  cases hb with
  | cumulative hx hb =>
    obtain ⟨hi, -⟩ := List.getElem?_eq_some_iff.1 hx
    have hcount := List.getElem?_eq_getElem (hcumulative ▸ hi)
    obtain ⟨x', -, hx', -, hbar, -⟩ := getElem?_draw h hcount
    obtain rfl : x = x' := Option.some.inj (hx.symm.trans hx')
    exact ⟨List.mem_append_left _ (List.mem_of_getElem? hx), _, _, hcount,
      Option.some.inj (hb.symm.trans hbar)⟩
  | frequency hx hb =>
    obtain ⟨hi, -⟩ := List.getElem?_eq_some_iff.1 hx
    have hcount := List.getElem?_eq_getElem (hfrequency ▸ hi)
    obtain ⟨-, x', -, hx', -, hbar⟩ := getElem?_draw h hcount
    obtain rfl : x = x' := Option.some.inj (hx.symm.trans hx')
    exact ⟨List.mem_append_right _ (List.mem_of_getElem? hx), _, _, hcount,
      Option.some.inj (hb.symm.trans hbar)⟩

/-- Every share has a bar. -/
theorem exists_shows_of_mem_shares (hx : x ∈ s.shares) : ∃ i b, Shows s i x b := by
  obtain ⟨hcumulative, hfrequency⟩ := length_of_check h
  rcases List.mem_append.1 hx with hx | hx
  · obtain ⟨i, hi⟩ := List.mem_iff_getElem?.1 hx
    obtain ⟨hlt, -⟩ := List.getElem?_eq_some_iff.1 hi
    obtain ⟨_, _, -, -, hb, -⟩ := getElem?_draw h (List.getElem?_eq_getElem (hcumulative ▸ hlt))
    exact ⟨i, _, .cumulative hi hb⟩
  · obtain ⟨i, hi⟩ := List.mem_iff_getElem?.1 hx
    obtain ⟨hlt, -⟩ := List.getElem?_eq_some_iff.1 hi
    obtain ⟨_, _, -, -, -, hb⟩ := getElem?_draw h (List.getElem?_eq_getElem (hfrequency ▸ hlt))
    exact ⟨i, _, .frequency hi hb⟩

/-- There are no other bars. -/
theorem exists_shows_of_mem_bars (hb : b ∈ s.draw.bars) : ∃ i x, Shows s i x b := by
  obtain ⟨k, hk⟩ := List.mem_iff_getElem?.1 hb
  obtain ⟨hlt, -⟩ := List.getElem?_eq_some_iff.1 hk
  rw [length_bars h] at hlt
  by_cases hfirst : k < s.rehashCounts.length
  · obtain ⟨x, -, hx, -⟩ := getElem?_draw h (List.getElem?_eq_getElem hfirst)
    exact ⟨k, x, .cumulative hx hk⟩
  · obtain ⟨i, rfl⟩ := Nat.exists_eq_add_of_le (not_lt.1 hfirst)
    have hi : i < s.rehashCounts.length := by omega
    obtain ⟨-, x, -, hx, -⟩ := getElem?_draw h (List.getElem?_eq_getElem hi)
    exact ⟨i, x, .frequency hx hk⟩

end

end Series

end Chart

end RehashReport
