import Mathlib
import RehashReport.Proofs.Chart.Area

/-!
# The order of bars

Bars stand in the order of their rehash counts, without overlap, and end in the order of their
shares.  Rehash counts that differ after rounding still differ by one at least, as rounding takes
whole numbers to whole numbers, and two bars together are less than that wide; hence one of them
ends before the other starts, and neither the rounding of the two sides nor that of their pixels can
reverse this (`Frames.right_le_left`).
-/

namespace RehashReport.Chart.Series

open Binary64

variable {s : Series}

/-- Rounded counts that differ are a whole place apart. -/
theorem rounded_count_add_one_le {m n : UInt64} (h : rounded m.toNat < rounded n.toNat) :
    rounded m.toNat + 1 ≤ rounded n.toNat := by
  obtain ⟨i, hi⟩ := exists_rounded_natCast m.toNat
  obtain ⟨j, hj⟩ := exists_rounded_natCast n.toNat
  rw [hi, hj] at h ⊢
  have hij : i < j := by exact_mod_cast h
  exact_mod_cast hij

namespace Frames

variable {a b : ℚ} (h : Frames s a b) {m n : UInt64} (hm : m ∈ s.rehashCounts)
  (hn : n ∈ s.rehashCounts) {shares : Scale} {colour colour' : Image.Colour} {x y : Binary64}

include h hm hn

/-- A bar ends before that of a greater count starts, or where it starts. -/
theorem right_le_left (hmn : rounded m.toNat < rounded n.toNat) :
    (bar s.countScale shares colour m x).right ≤ (bar s.countScale shares colour' n y).left := by
  obtain ⟨-, hhalf⟩ := barHalfWidth_hasValue
  have hstep := rounded_count_add_one_le hmn
  have hsides : closest (rounded m.toNat + barHalfWidth.toRat) ≤
      closest (rounded n.toNat - barHalfWidth.toRat) := closest_mono (by linarith)
  have hfirst := (h.low_le m hm).trans (leftSide_le_rightSide m)
  have hlast := (leftSide_le_rightSide n).trans (h.le_high n hn)
  obtain ⟨-, hpixels, -⟩ :=
    h.pixel_mem (rightSide_isWorth m) (leftSide_isWorth n) hfirst hsides hlast
  rw [h.right_bar hm, h.left_bar hn]
  exact hpixels

/-- Bars of counts that are one number after rounding have the same place. -/
theorem sides_eq (hmn : rounded m.toNat = rounded n.toNat) :
    (bar s.countScale shares colour m x).left = (bar s.countScale shares colour' n y).left ∧
      (bar s.countScale shares colour m x).right =
        (bar s.countScale shares colour' n y).right := by
  have heq : Binary64.ofNat m.toNat = .ofNat n.toNat := by
    have hvalue := count_hasValue n
    rw [← hmn] at hvalue
    exact (count_hasValue m).unique hvalue
  rw [h.left_bar hm, h.left_bar hn, h.right_bar hm, h.right_bar hn, heq]
  exact ⟨rfl, rfl⟩

end Frames

/-- **Bars keep the order of the data.**  Take any two bars of a chart, of one series or of both.
If the rehash count of the first is the smaller one as a floating-point number, the first bar is to
the left of the second, with one column of pixels in common at most; and if the two are equal as
such, so are the places of the bars.  If the share of the first, cut to its range, is not the
greater one, the first bar does not end above the second. -/
theorem draw_bars_in_order (h : s.check = .ok ()) {i j : ℕ} {m n : UInt64} {x y : Binary64}
    {b c : Rectangle} (hm : s.rehashCounts[i]? = some m) (hn : s.rehashCounts[j]? = some n)
    (hb : Shows s i x b) (hc : Shows s j y c) :
    (Binary64.ofNat m.toNat < .ofNat n.toNat → b.right ≤ c.left) ∧
      (Binary64.ofNat m.toNat ≤ .ofNat n.toNat → Binary64.ofNat n.toNat ≤ .ofNat m.toNat →
        b.left = c.left ∧ b.right = c.right) ∧
      (clampShare x ≤ clampShare y → c.top ≤ b.top) := by
  obtain ⟨hx, m', colour, hm', rfl⟩ := hb.exists_bar h
  obtain ⟨hy, n', colour', hn', rfl⟩ := hc.exists_bar h
  obtain rfl : m = m' := Option.some.inj (hm.symm.trans hm')
  obtain rfl : n = n' := Option.some.inj (hn.symm.trans hn')
  obtain ⟨low, high, hframes⟩ := exists_frames s
  have hmmem := List.mem_of_getElem? hm
  have hnmem := List.mem_of_getElem? hn
  have hmvalue := (count_hasValue m).isWorth
  have hnvalue := (count_hasValue n).isWorth
  refine ⟨?_, ?_, ?_⟩
  · intro hlt
    exact hframes.right_le_left hmmem hnmem ((hmvalue.lt_iff hnvalue).1 hlt)
  · intro hle hge
    have heq := le_antisymm ((hmvalue.le_iff hnvalue).1 hle) ((hnvalue.le_iff hmvalue).1 hge)
    exact hframes.sides_eq hmmem hnmem heq
  · intro hle
    have hfinite := isFinite_of_check h
    obtain ⟨z, hreaches⟩ := exists_reaches hfinite
    have hxvalue := clampShare_isWorth ⟨hfinite x hx, rfl⟩
    have hyvalue := clampShare_isWorth ⟨hfinite y hy, rfl⟩
    rw [hreaches.top_bar hx, hreaches.top_bar hy]
    exact hreaches.pixel_le_pixel hx hy ((hxvalue.le_iff hyvalue).1 hle)

/-- Counts out of order, two of which are one number when they are rounded and have no other number
between them and the third. -/
theorem draw_bars_in_order_rounded :
    let s : Series := ⟨[0x20000000000002, 0x20000000000001, 0x20000000000000],
      [.ofNat 3, .ofNat 50, .ofNat 20], [.ofNat 30, .ofNat 20, .ofNat 50]⟩
    s.check = .ok () ∧ ∃ b c d, Shows s 0 (.ofNat 3) b ∧ Shows s 1 (.ofNat 20) c ∧
      Shows s 2 (.ofNat 20) d ∧ d.right ≤ b.left ∧ c.left = d.left ∧ c.right = d.right ∧
      c.top = d.top ∧ d.top ≤ b.top := by
  intro s
  have hcheck : s.check = .ok () := by decide +kernel
  obtain ⟨b, hb⟩ : ∃ b, s.draw.bars[0]? = some b := ⟨_, rfl⟩
  obtain ⟨c, hc⟩ : ∃ c, s.draw.bars[4]? = some c := ⟨_, rfl⟩
  obtain ⟨d, hd⟩ : ∃ d, s.draw.bars[2]? = some d := ⟨_, rfl⟩
  have hb : Shows s 0 (.ofNat 3) b := .cumulative rfl hb
  have hc : Shows s 1 (.ofNat 20) c := .frequency rfl hc
  have hd : Shows s 2 (.ofNat 20) d := .cumulative rfl hd
  obtain ⟨hleft, -, -⟩ := draw_bars_in_order hcheck rfl rfl hd hb
  obtain ⟨-, hplace, htop⟩ := draw_bars_in_order hcheck rfl rfl hc hd
  obtain ⟨-, -, htop'⟩ := draw_bars_in_order hcheck rfl rfl hd hc
  obtain ⟨-, -, hheight⟩ := draw_bars_in_order hcheck rfl rfl hb hd
  obtain ⟨hsame, hsame'⟩ := hplace (by decide +kernel) (by decide +kernel)
  refine ⟨hcheck, b, c, d, hb, hc, hd, hleft (by decide +kernel), hsame, hsame', ?_,
    hheight (by decide +kernel)⟩
  exact le_antisymm (htop' (by decide +kernel)) (htop (by decide +kernel))

end RehashReport.Chart.Series
