import Mathlib
import RehashReport.Proofs.Chart.Bars

/-!
# Bars in the plotting area

No bar leaves the plotting area, whatever the rehash counts and the shares of a chart are.

From left to right, the ends of the axis are half a place beyond the outermost rehash counts, and
the sides of a bar are less than that from its own.  All of these are rounded, for large counts
until nothing is left of a half, but rounding keeps their order (`Frames`).  If it makes the two
ends equal, all values have the pixel in the middle (`Frames.pixel_mem`).

Upward, the axis ends at the tallest bar and a twentieth of it, or at one.  A bar takes at most
`20 / 21` of that, and the tallest one just as much if it is not below one.  Two multiples of
`2 ^ -12` on either side of `20 / 21` leave room for the rounding of the product and the quotient,
and there is no end of a pixel between them (`pixelsAt_le_of_le`, `le_pixelsAt_of_le`).
-/

namespace RehashReport.Chart

open Binary64

namespace Series

variable {s : Series}

/-! ## Left and right -/

section

variable {count : UInt64}

theorem leastCount_le (h : count ∈ s.rehashCounts) : s.leastCount ≤ count := by
  rw [leastCount]
  cases hcounts : s.rehashCounts with
  | nil => simp [hcounts] at h
  | cons n ns =>
    rw [hcounts] at h
    have hmin : (n :: ns).min? = some (ns.foldl min n) := rfl
    exact (List.min?_eq_some_iff.1 hmin).2 count h

theorem le_greatestCount (h : count ∈ s.rehashCounts) : count ≤ s.greatestCount := by
  rw [greatestCount]
  cases hcounts : s.rehashCounts with
  | nil => simp [hcounts] at h
  | cons n ns =>
    rw [hcounts] at h
    have hmax : (n :: ns).max? = some (ns.foldl max n) := rfl
    have : Std.LawfulOrderLeftLeaningMax UInt64 := by
      constructor
      · intro a b hle
        show (if a ≤ b then b else a) = a
        split_ifs with hab
        · exact UInt64.le_antisymm hle hab
        · rfl
      · intro a b hle
        exact if_pos (UInt64.le_of_lt (UInt64.not_le.1 hle))
    exact (List.max?_eq_some_iff.1 hmax).2 count h

end

/-- `Frames s a b`: the horizontal axis goes from `a` to `b`, and every bar has its sides between
them. -/
structure Frames (s : Series) (a b : ℚ) : Prop where
  low : IsWorth s.countScale.range.low a
  high : IsWorth s.countScale.range.high b
  low_bound : |a| ≤ 2 ^ 65
  high_bound : |b| ≤ 2 ^ 65
  low_le : ∀ count ∈ s.rehashCounts, a ≤ closest (rounded count.toNat - barHalfWidth.toRat)
  le_high : ∀ count ∈ s.rehashCounts, closest (rounded count.toNat + barHalfWidth.toRat) ≤ b

theorem barHalfWidth_hasValue :
    HasValue barHalfWidth barHalfWidth.toRat ∧ barHalfWidth.toRat ≤ 1 / 2 := by
  obtain ⟨w, hw, hle⟩ := exists_barHalfWidth_hasValue
  rw [hw.toRat_eq]
  exact ⟨hw, hle⟩

theorem exists_frames (s : Series) : ∃ a b, Frames s a b := by
  obtain ⟨hwidth, hhalf⟩ := barHalfWidth_hasValue
  have hleast := rounded_count_le s.leastCount
  have hleast0 := rounded_nonneg s.leastCount.toNat
  have hgreatest := rounded_count_le s.greatestCount
  have hgreatest0 := rounded_nonneg s.greatestCount.toNat
  have hlow : |rounded s.leastCount.toNat - 1 / 2| ≤ 2 ^ 65 := by
    rw [abs_le]
    constructor <;> linarith
  have hhigh : |rounded s.greatestCount.toNat + 1 / 2| ≤ 2 ^ 65 := by
    rw [abs_le]
    constructor <;> linarith
  refine ⟨_, _, ?_, ?_, (isMagnitude_two_pow 65).abs_closest_le hlow,
    (isMagnitude_two_pow 65).abs_closest_le hhigh, ?_, ?_⟩
  · exact (count_hasValue s.leastCount).isWorth.sub half_hasValue.isWorth
      (lt_safeLimit (hlow.trans (by norm_num)))
  · exact (count_hasValue s.greatestCount).isWorth.add half_hasValue.isWorth
      (lt_safeLimit (hhigh.trans (by norm_num)))
  · intro count hcount
    have hle := UInt64.le_iff_toNat_le.1 (leastCount_le hcount)
    have hmono : rounded s.leastCount.toNat ≤ rounded count.toNat :=
      rounded_mono (Nat.cast_nonneg _) (by exact_mod_cast hle)
    exact closest_mono (by linarith)
  · intro count hcount
    have hle := UInt64.le_iff_toNat_le.1 (le_greatestCount hcount)
    have hmono : rounded count.toNat ≤ rounded s.greatestCount.toNat :=
      rounded_mono (Nat.cast_nonneg _) (by exact_mod_cast hle)
    exact closest_mono (by linarith)

section

variable (count : UInt64)

theorem leftSide_isWorth :
    IsWorth (.ofNat count.toNat - barHalfWidth)
      (closest (rounded count.toNat - barHalfWidth.toRat)) := by
  obtain ⟨hwidth, hhalf⟩ := barHalfWidth_hasValue
  have hwidth0 := hwidth.nonneg
  have hcount := rounded_count_le count
  have hcount0 := rounded_nonneg count.toNat
  refine (count_hasValue count).isWorth.sub hwidth.isWorth (lt_safeLimit ?_)
  rw [abs_le]
  constructor <;> linarith

theorem rightSide_isWorth :
    IsWorth (.ofNat count.toNat + barHalfWidth)
      (closest (rounded count.toNat + barHalfWidth.toRat)) := by
  obtain ⟨hwidth, hhalf⟩ := barHalfWidth_hasValue
  have hwidth0 := hwidth.nonneg
  have hcount := rounded_count_le count
  have hcount0 := rounded_nonneg count.toNat
  refine (count_hasValue count).isWorth.add hwidth.isWorth (lt_safeLimit ?_)
  rw [abs_le]
  constructor <;> linarith

theorem leftSide_le_rightSide :
    closest (rounded count.toNat - barHalfWidth.toRat) ≤
      closest (rounded count.toNat + barHalfWidth.toRat) := by
  have hwidth0 := barHalfWidth_hasValue.1.nonneg
  exact closest_mono (by linarith)

end

namespace Frames

variable {a b q r : ℚ} {x y : Binary64} (h : Frames s a b)

include h

/-- Values of the axis have their pixels in the area, and in their order. -/
theorem pixel_mem (hx : IsWorth x q) (hy : IsWorth y r) (haq : a ≤ q) (hqr : q ≤ r) (hrb : r ≤ b) :
    80 ≤ s.countScale.pixel x ∧ s.countScale.pixel x ≤ s.countScale.pixel y ∧
      s.countScale.pixel y ≤ 624 := by
  rcases (haq.trans (hqr.trans hrb)).eq_or_lt with rfl | hlt
  · -- the two ends have been rounded to one number
    have hmiddle : ∀ z, s.countScale.pixel z = 272 := by
      intro z
      rw [Scale.pixel_of_single h.low h.high]
      rfl
    rw [hmiddle, hmiddle]
    norm_num
  · have hlays : s.countScale.Lays a b 544 :=
      ⟨h.low, h.high, hlt, h.low_bound, h.high_bound, by norm_num, by norm_num⟩
    have hleft := hlays.spans_pixel rfl hx haq (hqr.trans hrb)
    have hright := hlays.spans_pixel rfl hy (haq.trans hqr) hrb
    rw [Scale.spans, Bool.and_eq_true, decide_eq_true_eq, decide_eq_true_eq] at hleft hright
    exact ⟨hleft.1, hlays.pixel_le_pixel rfl hx hy haq hqr hrb, hright.2⟩

variable {count : UInt64} (hcount : count ∈ s.rehashCounts) (shares : Scale)
  (colour : Image.Colour) (share : Binary64)

include hcount

theorem sides_mem :
    80 ≤ s.countScale.pixel (.ofNat count.toNat - barHalfWidth) ∧
      s.countScale.pixel (.ofNat count.toNat - barHalfWidth) ≤
        s.countScale.pixel (.ofNat count.toNat + barHalfWidth) ∧
      s.countScale.pixel (.ofNat count.toNat + barHalfWidth) ≤ 624 :=
  h.pixel_mem (leftSide_isWorth count) (rightSide_isWorth count) (h.low_le count hcount)
    (leftSide_le_rightSide count) (h.le_high count hcount)

/-- A bar starts at the pixel of its left side. -/
theorem left_bar :
    (bar s.countScale shares colour count share).left =
      s.countScale.pixel (.ofNat count.toNat - barHalfWidth) :=
  min_eq_left (h.sides_mem hcount).2.1

/-- It ends at the pixel of its right side. -/
theorem right_bar :
    (bar s.countScale shares colour count share).right =
      s.countScale.pixel (.ofNat count.toNat + barHalfWidth) :=
  max_eq_right (h.sides_mem hcount).2.1

end Frames

/-! ## Up -/

section

variable {q t : ℚ}

/-- No bar takes more of the axis than `20 / 21` and a little. -/
theorem le_mul_axisEnd (hqt : q ≤ t) : q ≤ 3901 / 4096 * axisEnd t := by
  have hone : 1 ≤ axisEnd t := le_max_right _ _
  by_cases hsmall : t ≤ 1 / 2
  · linarith
  · have ht : 1 / 2 ≤ t := (not_le.1 hsmall).le
    have hroom := le_rounded_headroom
    have hproduct : t * (105 / 100) ≤ t * rounded (105 / 100) := by gcongr
    have hnormal : leastNormal ≤ t * rounded (105 / 100) :=
      (leastNormal_le_inv_two_pow (l := 1) (by norm_num)).trans (by norm_num; linarith)
    have herror := (abs_le.1 (abs_rounded_sub_le_mul hnormal)).1
    have hroundoff : 1 ≤ 3901 / 4096 * (105 / 100 * (1 - roundoff)) := by
      norm_num [roundoff, binadeSize]
    have hkept : 0 ≤ 1 - roundoff := by norm_num [roundoff, binadeSize]
    calc q ≤ t * 1 := by linarith
      _ ≤ t * (3901 / 4096 * (105 / 100 * (1 - roundoff))) := by gcongr
      _ = 3901 / 4096 * (t * (105 / 100) * (1 - roundoff)) := by ring
      _ ≤ 3901 / 4096 * (t * rounded (105 / 100) * (1 - roundoff)) := by gcongr
      _ ≤ 3901 / 4096 * rounded (t * rounded (105 / 100)) := by gcongr; linarith
      _ ≤ 3901 / 4096 * axisEnd t := by gcongr; exact le_max_left _ _

/-- The tallest bar takes little less, unless it is below one. -/
theorem mul_axisEnd_le (ht : 1 ≤ t) : 3900 / 4096 * axisEnd t ≤ t := by
  have hroom : rounded (105 / 100) ≤ 105 / 100 * (1 + roundoff) :=
    rounded_le_mul (leastNormal_le_one.trans (by norm_num))
  have hnormal : leastNormal ≤ t * rounded (105 / 100) := by
    have hlow := le_rounded_headroom
    have hone := leastNormal_le_one
    nlinarith
  have hproduct : rounded (t * rounded (105 / 100)) ≤ t * (4096 / 3900) := by
    have hroundoff : 105 / 100 * (1 + roundoff) * (1 + roundoff) ≤ 4096 / 3900 := by
      norm_num [roundoff, binadeSize]
    have hpos : 0 ≤ 1 + roundoff := by norm_num [roundoff, binadeSize]
    calc rounded (t * rounded (105 / 100)) ≤ t * rounded (105 / 100) * (1 + roundoff) :=
          rounded_le_mul hnormal
      _ ≤ t * (105 / 100 * (1 + roundoff)) * (1 + roundoff) := by gcongr
      _ = t * (105 / 100 * (1 + roundoff) * (1 + roundoff)) := by ring
      _ ≤ t * (4096 / 3900) := by gcongr
  have hend : axisEnd t ≤ t * (4096 / 3900) := max_le hproduct (by linarith)
  linarith

end

/-- Magnitudes are taken as they are, but for the rounding of their quotient. -/
theorem part_zero {q y : ℚ} (hq : IsMagnitude q) (hy : IsMagnitude y) :
    part 0 y q = closest (q / y) := by
  rw [part, sub_zero, sub_zero, hq.closest_eq, hy.closest_eq]

theorem closest_div_4096 {m : ℕ} (h : m ≤ 2 ^ 53) : closest ((m : ℚ) / 4096) = m / 4096 := by
  have hgrid := isMagnitude_div_two_pow (l := 12) h (by norm_num)
  norm_num at hgrid
  exact hgrid.closest_eq

section

variable {q y : ℚ} (hq : IsMagnitude q) (hy : IsMagnitude y) (hpos : 0 < y)

include hq hy hpos

theorem pixelsAt_le_of_le (hle : q ≤ 3901 / 4096 * y) : pixelsAt 404 (part 0 y q) ≤ 384 := by
  have hgrid := closest_div_4096 (m := 3901) (by norm_num)
  have hpart : part 0 y q ≤ 3901 / 4096 := by
    rw [Nat.cast_ofNat] at hgrid
    rw [part_zero hq hy, ← hgrid]
    exact closest_mono ((div_le_iff₀ hpos).2 hle)
  have hpixels : pixelsAt 404 (3901 / 4096) = 384 := by decide +kernel
  exact (pixelsAt_mono 404 hpart).trans hpixels.le

theorem le_pixelsAt_of_le (hle : 3900 / 4096 * y ≤ q) : 384 ≤ pixelsAt 404 (part 0 y q) := by
  have hgrid := closest_div_4096 (m := 3900) (by norm_num)
  have hpart : 3900 / 4096 ≤ part 0 y q := by
    rw [Nat.cast_ofNat] at hgrid
    rw [part_zero hq hy, ← hgrid]
    exact closest_mono ((le_div_iff₀ hpos).2 hle)
  have hpixels : pixelsAt 404 (3900 / 4096) = 384 := by decide +kernel
  exact hpixels.ge.trans (pixelsAt_mono 404 hpart)

end

/-! ## The bars -/

theorem isMagnitude_height {share : Binary64} (h : share.isFinite = true) :
    IsMagnitude (height share.toRat) := by
  have hvalue := (clampShare_isWorth ⟨h, rfl⟩).abs
  rw [abs_of_nonneg (height_nonneg _)] at hvalue
  exact hvalue.isMagnitude

namespace Reaches

variable {y : ℚ} (h : Reaches s y) {x : Binary64} {counts : Scale} {colour : Image.Colour}
  {count : UInt64} (hx : x ∈ s.shares)

include h hx

/-- A bar is as high as the pixels of its share. -/
theorem top_bar_eq :
    (bar counts s.shareScale colour count x).top =
      419 - pixelsAt 404 (part 0 y (height x.toRat)) := by
  rw [h.top_bar hx, (lays_shareScale h.high h.one_le h.le).pixel_eq_sub rfl
    (clampShare_isWorth ⟨h.finite x hx, rfl⟩) (height_nonneg _) (h.height_le x hx)]
  rfl

theorem bottom_bar_eq : (bar counts s.shareScale colour count x).bottom = 419 := by
  rw [h.bottom_bar hx]
  exact (lays_shareScale h.high h.one_le h.le).pixel_low rfl zero_hasValue.isWorth

theorem top_bar_le : (bar counts s.shareScale colour count x).top ≤ 419 := by
  have hpixels := (lays_shareScale h.high h.one_le h.le).pixelsAt_mem (height_nonneg x.toRat)
    (h.height_le x hx)
  rw [h.top_bar_eq hx]
  omega

end Reaches

/-- **Bars stay in the plotting area, and the tallest one fills it.**  Whatever the rehash counts
and the shares of a chart are, it has two bars for each rehash count, and none of them leaves the
area or comes closer to its upper end than the headroom.  If a share is drawn that is not below one,
some bar ends just there. -/
theorem draw_bars_in_area (h : s.check = .ok ()) :
    s.draw.bars.length = 2 * s.rehashCounts.length ∧
      (∀ b ∈ s.draw.bars, 80 ≤ b.left ∧ b.left ≤ b.right ∧ b.right ≤ 624 ∧ b.bottom = 419 ∧
        35 ≤ b.top ∧ b.top ≤ 419) ∧
      ((∃ share ∈ s.shares, Binary64.ofNat 1 ≤ clampShare share) →
        ∃ b ∈ s.draw.bars, b.top = 35) := by
  have hfinite := isFinite_of_check h
  obtain ⟨t, ht, hle, hmax⟩ := exists_tallest hfinite
  have hreaches := reaches_of_tallest hfinite ht hle hmax
  have hend := hreaches.high.isMagnitude
  have hpos : 0 < axisEnd t := zero_lt_one.trans_le hreaches.one_le
  refine ⟨length_bars h, ?_, ?_⟩
  · intro b hb
    obtain ⟨i, x, hshows⟩ := exists_shows_of_mem_bars h hb
    obtain ⟨hx, count, colour, hcount, rfl⟩ := hshows.exists_bar h
    obtain ⟨low, high, hframes⟩ := exists_frames s
    have hcount := List.mem_of_getElem? hcount
    have hheight := le_mul_axisEnd (hmax x hx)
    have hpixels := pixelsAt_le_of_le (isMagnitude_height (hfinite x hx)) hend hpos hheight
    obtain ⟨hleft, hsides, hright⟩ := hframes.sides_mem hcount
    rw [hframes.left_bar hcount, hframes.right_bar hcount]
    refine ⟨hleft, hsides, hright, hreaches.bottom_bar_eq hx, ?_, hreaches.top_bar_le hx⟩
    rw [hreaches.top_bar_eq hx]
    omega
  · rintro ⟨share, hshare, hone⟩
    have hclamped := clampShare_isWorth ⟨hfinite share hshare, rfl⟩
    rw [(natCast_hasValue (n := 1) (by norm_num)).isWorth.le_iff hclamped, Nat.cast_one] at hone
    have hone := hone.trans (hmax share hshare)
    obtain ⟨x, hx, rfl⟩ := exists_mem_tallest hfinite ht (zero_lt_one.trans_le hone)
    obtain ⟨i, b, hshows⟩ := exists_shows_of_mem_shares h hx
    obtain ⟨-, count, colour, -, rfl⟩ := hshows.exists_bar h
    have hmagnitude := isMagnitude_height (hfinite x hx)
    have hupper := pixelsAt_le_of_le hmagnitude hend hpos (le_mul_axisEnd le_rfl)
    have hlower := le_pixelsAt_of_le hmagnitude hend hpos (mul_axisEnd_le hone)
    refine ⟨_, hshows.mem_bars, ?_⟩
    rw [hreaches.top_bar_eq hx]
    omega

/-- Three of the largest counts there are, which are one number when they are rounded, so the axis
has no width; and shares that are a little outside of their range. -/
theorem draw_bars_in_area_narrow :
    let s : Series := ⟨[0xFFFFFFFFFFFFFFFF, 0xFFFFFFFFFFFFFFFE, 0xFFFFFFFFFFFFFFFF],
      [.ofRat (-1 / 2000000000), .ofRat (100 + 1 / 2000000000), .ofNat 100],
      [.ofNat 40, .zero, .ofRat (1 / 3)]⟩
    s.check = .ok () ∧ (∃ share ∈ s.shares, Binary64.ofNat 1 ≤ clampShare share) ∧
      s.draw.bars.length = 6 ∧
      (∀ b ∈ s.draw.bars, 80 ≤ b.left ∧ b.left ≤ b.right ∧ b.right ≤ 624 ∧ b.bottom = 419 ∧
        35 ≤ b.top ∧ b.top ≤ 419) ∧ ∃ b ∈ s.draw.bars, b.top = 35 := by
  intro s
  have hcheck : s.check = .ok () := by decide +kernel
  have htall : ∃ share ∈ s.shares, Binary64.ofNat 1 ≤ clampShare share :=
    ⟨.ofNat 40, by simp [s, shares], by decide +kernel⟩
  obtain ⟨hlength, hall, htop⟩ := draw_bars_in_area hcheck
  exact ⟨hcheck, htall, hlength, hall, htop htall⟩

end Series

end RehashReport.Chart
