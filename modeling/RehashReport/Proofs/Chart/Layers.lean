import Mathlib
import RehashReport.Proofs.Chart.Bars
import RehashReport.Proofs.Distribution.Shares

/-!
# The two layers of bars

A rehash count has two bars in one place, of which the cumulative one is painted first.  The other
one is painted over it, but not beyond its top, unless the cumulative share is the smaller one
(`backs_of_le`).  In a distribution it is not, for every record but the first: rounding keeps the
order of the exact shares, and drawing keeps the order of the rounded ones (`draw_layers`).
-/

namespace RehashReport.Chart

open Binary64

/-- `Backs b f`: the bar `f` in front takes the place of the bar `b` behind it from the ground up,
and does not go beyond its top. -/
structure Rectangle.Backs (b f : Rectangle) : Prop where
  left : b.left = f.left
  right : b.right = f.right
  bottom : b.bottom = f.bottom
  top : b.top ≤ f.top

namespace Series

/-- The cumulative bar stands behind the other one if its share is not the smaller. -/
theorem backs_of_le {s : Series} (h : s.check = .ok ()) {i : ℕ} {x y : Binary64}
    (hx : s.cumulative[i]? = some x) (hy : s.frequency[i]? = some y) (hle : y ≤ x) :
    ∃ b f, s.draw.bars[i]? = some b ∧ s.draw.bars[s.rehashCounts.length + i]? = some f ∧
      b.colour = cumulativeColour ∧ f.colour = frequencyColour ∧ b.Backs f := by
  have hfinite := isFinite_of_check h
  obtain ⟨hcumulative, -⟩ := length_of_check h
  obtain ⟨hi, -⟩ := List.getElem?_eq_some_iff.1 hx
  have hcount := List.getElem?_eq_getElem (hcumulative ▸ hi)
  obtain ⟨x', y', hx', hy', hb, hf⟩ := getElem?_draw h hcount
  obtain rfl : x = x' := Option.some.inj (hx.symm.trans hx')
  obtain rfl : y = y' := Option.some.inj (hy.symm.trans hy')
  have hxmem : x ∈ s.shares := List.mem_append_left _ (List.mem_of_getElem? hx)
  have hymem : y ∈ s.shares := List.mem_append_right _ (List.mem_of_getElem? hy)
  have hxworth : IsWorth x x.toRat := ⟨hfinite x hxmem, rfl⟩
  have hyworth : IsWorth y y.toRat := ⟨hfinite y hymem, rfl⟩
  have hvalue : y.toRat ≤ x.toRat := (hyworth.le_iff hxworth).1 hle
  obtain ⟨z, hz⟩ := exists_reaches hfinite
  refine ⟨_, _, hb, hf, rfl, rfl, rfl, rfl, ?_, ?_⟩
  · rw [hz.bottom_bar hxmem, hz.bottom_bar hymem]
  · rw [hz.top_bar hxmem, hz.top_bar hymem]
    exact hz.pixel_le_pixel hymem hxmem (height_mono hvalue)

/-- **Rounding does not reverse the order of shares.**  In the distribution of a table with two
records or more, no cumulative share from the second record on is less than the next one or than the
share of its record alone, and of the last record the two are the same number.  So from the second
record on every cumulative bar stands behind the other bar of its rehash count, as wide and on the
same ground, and its top is not below. -/
theorem draw_layers {s : Samples} {d : Distribution} (hs : 2 ≤ s.size)
    (hd : Distribution.ofSamples s = .ok d) :
    (∀ i, 1 ≤ i → i + 1 < s.size →
      ∃ x y, d.cumulative[i]? = some x ∧ d.cumulative[i + 1]? = some y ∧ y ≤ x) ∧
    (∀ i, 1 ≤ i → i < s.size →
      ∃ x y, d.cumulative[i]? = some x ∧ d.frequencies[i]? = some y ∧ y ≤ x) ∧
    (∃ x, d.cumulative[s.size - 1]? = some x ∧ d.frequencies[s.size - 1]? = some x) ∧
    ∀ i, 1 ≤ i → i < s.size →
      ∃ b f, (ofDistribution d).draw.bars[i]? = some b ∧
        (ofDistribution d).draw.bars[s.size + i]? = some f ∧
        b.colour = cumulativeColour ∧ f.colour = frequencyColour ∧ b.Backs f := by
  have hs0 : s.size ≠ 0 := by omega
  obtain ⟨hpos, hfits, rfl⟩ := Distribution.eq_ofTotal_of_ofSamples hs0 hd
  have hderived := Distribution.derivedFrom_ofTotal hfits
  refine ⟨?_, ?_, ?_, ?_⟩
  · intro i hi his
    exact Distribution.exists_cumulative_succ_le hpos hfits hderived hi his
  · intro i hi his
    exact Distribution.exists_frequency_le_cumulative hpos hfits hderived hi his
  · obtain ⟨c, hc⟩ := s.exists_getElem?_bucketCounts (i := s.size - 1) (by omega)
    have hlast := Distribution.getElem?_cumulative_last hderived hs
    rw [hderived.getElem?_frequencies hc] at hlast
    exact ⟨_, hlast, hderived.getElem?_frequencies hc⟩
  · intro i hi his
    obtain ⟨x, y, hx, hy, hle⟩ :=
      Distribution.exists_frequency_le_cumulative hpos hfits hderived hi his
    have hbars := backs_of_le (Distribution.check_ofTotal hs0 hpos hfits) hx hy hle
    have hlength := (Distribution.length_series hs0 (.ofNat s.bucketTotal)).1
    rwa [show (ofDistribution (.ofTotal s (.ofNat s.bucketTotal))).rehashCounts.length = s.size
      from hlength] at hbars

/-- Two bars in the last place there is, with a count that is rounded. -/
theorem draw_layers_rounded :
    2 ≤ (Samples.ofList [⟨0xFFFFFFFFFFFFFFFF, 1⟩, ⟨0xFFFFFFFFFFFFFFFF, 0x20000000000001⟩,
        ⟨2, 1⟩]).size ∧
      ∃ d, Distribution.ofSamples (.ofList [⟨0xFFFFFFFFFFFFFFFF, 1⟩,
          ⟨0xFFFFFFFFFFFFFFFF, 0x20000000000001⟩, ⟨2, 1⟩]) = .ok d ∧
        (∃ x, d.cumulative[2]? = some x ∧ d.frequencies[2]? = some x) ∧
        ∃ b f, (ofDistribution d).draw.bars[1]? = some b ∧
          (ofDistribution d).draw.bars[4]? = some f ∧ b.Backs f := by
  set s := Samples.ofList [⟨0xFFFFFFFFFFFFFFFF, 1⟩, ⟨0xFFFFFFFFFFFFFFFF, 0x20000000000001⟩, ⟨2, 1⟩]
  have hs : 2 ≤ s.size := by decide
  have hd : Distribution.ofSamples s = .ok (.ofTotal s (.ofNat s.bucketTotal)) :=
    Distribution.ofSamples_of_total (by decide) (by decide)
  obtain ⟨-, -, hlast, hbars⟩ := draw_layers hs hd
  obtain ⟨b, f, hb, hf, -, -, hbacks⟩ := hbars 1 le_rfl (by decide)
  exact ⟨hs, _, hd, hlast, b, f, hb, hf, hbacks⟩

end Series

end RehashReport.Chart
