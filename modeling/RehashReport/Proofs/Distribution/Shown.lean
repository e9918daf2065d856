import Mathlib
import RehashReport.Proofs.Distribution.Rows
import RehashReport.Proofs.Distribution.Shares
import RehashReport.Proofs.Table

/-!
# Shares as they are shown

What the percentages of a table are worth to a reader, who has the text alone.  A cell has the
share that was computed, to the hundredth (`reads_share_iff`), and the hundredths of a number are
half a hundredth off at most, keep the order, and lose what a share may have above a hundred
(`hundredths_le_hundred`).  So what is shown is as true as two places allow (`shown_shares`).
-/

namespace RehashReport

open Binary64

/-! ## Hundredths -/

/-- A number to two places, and the even one of two that are equally near. -/
def hundredths (q : ℚ) : ℚ := Rounding.nearestEven (q * 100) / 100

@[simp] theorem hundredths_zero : hundredths 0 = 0 := by
  have hzero := Rounding.nearestEven_intCast 0
  rw [Int.cast_zero] at hzero
  rw [hundredths, zero_mul, hzero, Int.cast_zero, zero_div]

theorem hundredths_mono {q r : ℚ} (h : q ≤ r) : hundredths q ≤ hundredths r := by
  have hint : Rounding.nearestEven (q * 100) ≤ Rounding.nearestEven (r * 100) :=
    Rounding.nearestEven_mono (by linarith)
  have hcast : (Rounding.nearestEven (q * 100) : ℚ) ≤ Rounding.nearestEven (r * 100) := by
    exact_mod_cast hint
  rw [hundredths, hundredths]
  linarith

theorem hundredths_nonneg {q : ℚ} (h : 0 ≤ q) : 0 ≤ hundredths q := by
  have hmono := hundredths_mono h
  rwa [hundredths_zero] at hmono

theorem abs_hundredths_sub_le (q : ℚ) : |hundredths q - q| ≤ 5 / 1000 := by
  have hnear := Rounding.abs_nearestEven_sub_le (q * 100)
  rw [abs_le] at hnear ⊢
  rw [hundredths]
  constructor <;> linarith

/-- What a share may have above a hundred is not shown. -/
theorem hundredths_le_hundred {q : ℚ} (h : q ≤ aboveHundred) : hundredths q ≤ 100 := by
  have hnear := (abs_le.1 (Rounding.abs_nearestEven_sub_le (aboveHundred * 100))).2
  have hlt : (Rounding.nearestEven (aboveHundred * 100) : ℚ) < (10001 : ℤ) := by
    rw [aboveHundred] at hnear ⊢
    norm_num at hnear ⊢
    linarith
  have hle : Rounding.nearestEven (aboveHundred * 100) ≤ 10000 := by
    have := Int.cast_lt.1 hlt
    omega
  have hcast : (Rounding.nearestEven (aboveHundred * 100) : ℚ) ≤ 10000 := by
    exact_mod_cast hle
  refine (hundredths_mono h).trans ?_
  rw [hundredths]
  linarith

namespace Table

open Numeral (Unsigned)

/-! ## Percentages -/

/-- A text is a percentage: digits, a point, digits again and the sign for it. -/
def Reads (text : List Char) (q : ℚ) : Prop :=
  ∃ whole fraction w f, text = whole ++ '.' :: (fraction ++ ['%']) ∧ Unsigned 10 whole w ∧
    Unsigned 10 fraction f ∧ q = w + f / 10 ^ fraction.length

theorem point_not_mem {text : List Char} {n : ℕ} (h : Unsigned 10 text n) : '.' ∉ text := by
  intro hpoint
  obtain ⟨d, hd⟩ := h.exists_digitValue _ hpoint
  cases hd

/-- No text is two percentages. -/
theorem Reads.unique {text : List Char} {q r : ℚ} (hq : Reads text q) (hr : Reads text r) :
    q = r := by
  have hsplit : ∀ {whole fraction : List Char} {w f : ℕ}, Unsigned 10 whole w →
      Unsigned 10 fraction f →
        Text.split '.' (whole ++ '.' :: (fraction ++ ['%'])) = [whole, fraction ++ ['%']] := by
    intro whole fraction w f hw hf
    have hfraction : '.' ∉ fraction ++ ['%'] := by
      simpa using point_not_mem hf
    rw [Text.split, List.splitOn_append_cons_self_of_not_mem (point_not_mem hw),
      List.splitOn_eq_singleton hfraction]
  obtain ⟨whole, fraction, w, f, rfl, hw, hf, rfl⟩ := hq
  obtain ⟨whole', fraction', w', f', htext, hw', hf', rfl⟩ := hr
  have hpieces := hsplit hw hf
  rw [htext, hsplit hw' hf'] at hpieces
  simp only [List.cons.injEq, List.append_left_inj, and_true] at hpieces
  obtain ⟨rfl, rfl⟩ := hpieces
  rw [hw.unique hw', hf.unique hf']

/-- A share is shown to the hundredth. -/
theorem reads_share_iff {x : Binary64} {q r : ℚ} (h : HasValue x q) :
    Reads (x.fixed 2 ++ "%").toList r ↔ r = hundredths q := by
  obtain ⟨code, rfl, rfl⟩ := h
  have hreads :
      Reads ((finite false code).fixed 2 ++ "%").toList (hundredths (magnitude code)) := by
    have hwritten : WrittenTo 2 (finite false code) ((finite false code).fixed 2) :=
      writtenTo_fixed (by decide) _
    generalize (finite false code).fixed 2 = text at hwritten
    cases hwritten with
    | @finite _ _ units fraction hnear htie hlength hfraction =>
      have hhundred : (10 : ℚ) ^ 2 = 100 := by norm_num
      rw [hhundred] at hnear htie
      have hunits : (units : ℤ) = Rounding.nearestEven (magnitude code * 100) := by
        refine Rounding.eq_nearestEven (by exact_mod_cast hnear) fun h => ?_
        have := htie (by exact_mod_cast h)
        omega
      have hparts : (units : ℚ) =
          ((units / 10 ^ 2 : ℕ) : ℚ) * 100 + ((units % 10 ^ 2 : ℕ) : ℚ) := by
        exact_mod_cast (Nat.div_add_mod' units (10 ^ 2)).symm
      refine ⟨(units / 10 ^ 2).repr.toList, fraction, units / 10 ^ 2, units % 10 ^ 2, ?_,
        Numeral.unsigned_repr _, hfraction, ?_⟩
      · simp [String.toList_append]
      · rw [hundredths, ← hunits, Int.cast_natCast, hlength, hhundred, hparts]
        ring
  exact ⟨fun hr => hr.unique hreads, fun hr => hr ▸ hreads⟩

/-! ## Cells -/

/-- The last lines of a text, so many of them. -/
def lastLines (count : ℕ) (text : List Char) : List (List Char) :=
  (Text.split '\n' text).drop ((Text.split '\n' text).length - count)

/-- A text ends in a table of so many rows that shows a percentage in a row and a column, both
counted from zero. -/
def Shows (text : String) (size row column : ℕ) (q : ℚ) : Prop :=
  ∃ line pieces cell, (lastLines (2 * size + 3) text.toList)[2 * row + 3]? = some line ∧
    Text.split '|' line = [] :: pieces ++ [[]] ∧ (pieces.map Text.trim)[column]? = some cell ∧
      Reads cell q

section

variable {rows : List Distribution.Row} (hrows : rows ≠ []) (title : Option String)

include hrows

/-- A table has its grid below the title. -/
theorem lastLines_render :
    lastLines (2 * rows.length + 3) (render title rows).toList = grid rows := by
  have hgrid := split_render hrows
  have hlength := length_grid rows
  cases title with
  | none => rw [lastLines, hgrid, hlength, Nat.sub_self, List.drop_zero]
  | some title =>
    obtain ⟨above, habove⟩ : ∃ above, (render (some title) rows).toList =
        above ++ '\n' :: (render none rows).toList := by
      have hbreak : "\n".toList = ['\n'] := rfl
      rw [render_some hrows title]
      exact ⟨_, by rw [String.toList_append, String.toList_append, hbreak, List.append_assoc,
        List.singleton_append]⟩
    have hcut : Text.split '\n' (above ++ '\n' :: (render none rows).toList) =
        Text.split '\n' above ++ grid rows := by
      rw [← hgrid]
      exact List.splitOn_append_cons_self above _
    rw [lastLines, habove, hcut, List.length_append, hlength, Nat.add_sub_cancel, List.drop_left]

theorem shows_iff {i j : ℕ} {q : ℚ} :
    Shows (render title rows) rows.length i j q ↔
      ∃ row cell, rows[i]? = some row ∧ (cells row)[j]? = some cell ∧ Reads cell q := by
  rw [Shows, lastLines_render hrows title]
  constructor
  · rintro ⟨text, pieces, cell, htext, hsplit, hcell, hq⟩
    have hi : i < rows.length := by
      obtain ⟨hlt, -⟩ := List.getElem?_eq_some_iff.1 htext
      rw [length_grid] at hlt
      omega
    have hrow := List.getElem?_eq_getElem hi
    rw [map_trim_of_line hrow htext hsplit] at hcell
    exact ⟨_, cell, hrow, hcell, hq⟩
  · rintro ⟨row, cell, hrow, hcell, hq⟩
    obtain ⟨text, pieces, htext, hsplit, htrim⟩ := exists_line hrow
    exact ⟨text, pieces, cell, htext, hsplit, by rwa [htrim], hq⟩

/-- A column of shares shows their hundredths. -/
theorem shows_share_iff {j : ℕ} {share : Distribution.Row → Binary64}
    (hcell : ∀ row, (cells row)[j]? = some ((share row).fixed 2 ++ "%").toList)
    (hvalue : ∀ row ∈ rows, ∃ q, HasValue (share row) q) {i : ℕ} {q : ℚ} :
    Shows (render title rows) rows.length i j q ↔
      (rows.map fun row => hundredths (share row).toRat)[i]? = some q := by
  rw [shows_iff hrows title, List.getElem?_map, Option.map_eq_some_iff]
  refine exists_congr fun row => ?_
  simp only [hcell, Option.some_inj, exists_and_left, exists_eq_left']
  refine and_congr_right fun hrow => ?_
  obtain ⟨v, hv⟩ := hvalue row (List.mem_of_getElem? hrow)
  rw [reads_share_iff hv, hv.toRat_eq, eq_comm]

end

end Table

namespace Distribution

/-! ## One share -/

section

variable {total count : ℕ} (htotal : 0 < total) (hfits : total < UInt64.size)

include htotal hfits

theorem abs_hundredths_share_sub_le (h : count ≤ total) :
    |hundredths (share total count).toRat - exactShare total count| ≤ 5 / 1000 + 1 / 10 ^ 13 := by
  have hexact : exactShare total count ≤ 100 := by
    have hpos : (0 : ℚ) < total := by exact_mod_cast htotal
    have hle : (count : ℚ) ≤ total := by exact_mod_cast h
    rw [exactShare, div_le_iff₀ hpos]
    linarith
  have herror : |(share total count).toRat - exactShare total count| ≤ 1 / 10 ^ 13 :=
    calc |(share total count).toRat - exactShare total count|
        ≤ exactShare total count * (5 / 2 ^ 53) := (share_accurate htotal hfits h).2
      _ ≤ 100 * (5 / 2 ^ 53) := by gcongr
      _ ≤ 1 / 10 ^ 13 := by norm_num
  calc |hundredths (share total count).toRat - exactShare total count|
      ≤ |hundredths (share total count).toRat - (share total count).toRat| +
        |(share total count).toRat - exactShare total count| := abs_sub_le _ _ _
    _ ≤ 5 / 1000 + 1 / 10 ^ 13 := add_le_add (abs_hundredths_sub_le _) herror

/-- A greater part of the whole is not shown as the smaller share. -/
theorem hundredths_share_mono {small : ℕ} (h : small ≤ count) (hle : count ≤ total) :
    hundredths (share total small).toRat ≤ hundredths (share total count).toRat := by
  have hsmall := share_isRounded htotal hfits (h.trans hle)
  have hcount := share_isRounded htotal hfits hle
  have hmono := (hsmall.le_iff hcount).1 (share_mono htotal hfits h hle)
  rw [hsmall.toRat_eq, hcount.toRat_eq]
  exact hundredths_mono hmono

end

/-! ## All shares -/

/-- Numbers that are true of the shares of a table to the hundredth: each of them is a percentage
and close to the exact one, the frequencies add up to about a hundred, and the cumulative shares
fall, but never below the frequency beside them. -/
structure TrueToHundredth (s : Samples) (frequencies cumulative : List ℚ) : Prop where
  bounds : ∀ q ∈ frequencies ++ cumulative, 0 ≤ q ∧ q ≤ 100
  frequencies_close : List.Forall₂
    (fun c q => |q - exactShare s.bucketTotal c.toNat| ≤ 5 / 1000 + 1 / 10 ^ 13)
    s.bucketCounts.toList frequencies
  length_cumulative : cumulative.length = s.size
  cumulative_zero : cumulative[0]? = some 0
  cumulative_close : ∀ i q, 1 ≤ i → cumulative[i]? = some q →
    |q - exactShare s.bucketTotal (s.bucketsFrom i)| ≤ 5 / 1000 + 1 / 10 ^ 13
  sum_close : |frequencies.sum - 100| ≤ s.size * (5 / 1000) + 1 / 10 ^ 12
  cumulative_falls : ∀ i x y, 1 ≤ i → cumulative[i]? = some x → cumulative[i + 1]? = some y → y ≤ x
  frequency_le : ∀ i x y, 1 ≤ i → frequencies[i]? = some x → cumulative[i]? = some y → x ≤ y

section

variable {s : Samples} {d : Distribution}

theorem abs_sum_hundredths_sub_le (hpos : 0 < s.bucketTotal) (hfits : s.bucketTotal < UInt64.size)
    (hd : d.DerivedFrom s) :
    |(d.frequencies.map fun x => hundredths x.toRat).sum - 100| ≤
      s.size * (5 / 1000) + 1 / 10 ^ 12 := by
  have hlength : d.frequencies.length = s.size := by
    rw [hd.frequencies, List.length_map, s.length_bucketCounts]
  have hshown : |(d.frequencies.map fun x => hundredths x.toRat).sum -
      (d.frequencies.map toRat).sum| ≤ s.size * (5 / 1000) := by
    rw [← hlength, ← nsmul_eq_mul, ← List.sum_replicate, ← List.map_const']
    exact abs_sum_sub_le_sum fun x _ => abs_hundredths_sub_le x.toRat
  calc |(d.frequencies.map fun x => hundredths x.toRat).sum - 100|
      ≤ |(d.frequencies.map fun x => hundredths x.toRat).sum - (d.frequencies.map toRat).sum| +
        |(d.frequencies.map toRat).sum - 100| := abs_sub_le _ _ _
    _ ≤ s.size * (5 / 1000) + 100 * (5 / 2 ^ 53) :=
        add_le_add hshown (abs_sum_frequencies_sub_le hpos hfits hd)
    _ ≤ s.size * (5 / 1000) + 1 / 10 ^ 12 := by
        gcongr
        norm_num

theorem hundredths_trueToHundredth (hs : s.size ≠ 0) (hd : ofSamples s = .ok d) :
    TrueToHundredth s (d.frequencies.map fun x => hundredths x.toRat)
      (d.cumulative.map fun x => hundredths x.toRat) := by
  obtain ⟨hpos, hfits, rfl⟩ := eq_ofTotal_of_ofSamples hs hd
  have hderived := derivedFrom_ofTotal hfits
  have hlength : (ofTotal s (.ofNat s.bucketTotal)).cumulative.length = s.size := by
    rw [hderived.length_cumulative]
    omega
  have hcumulative : ∀ i q, 1 ≤ i →
      ((ofTotal s (.ofNat s.bucketTotal)).cumulative.map fun x => hundredths x.toRat)[i]? = some q →
        i < s.size ∧ q = hundredths (share s.bucketTotal (s.bucketsFrom i)).toRat := by
    intro i q hi hq
    have his : i < s.size := by
      obtain ⟨hlt, -⟩ := List.getElem?_eq_some_iff.1 hq
      rwa [List.length_map, hlength] at hlt
    rw [List.getElem?_map, hderived.cumulative i hi his, Option.map_some, Option.some_inj] at hq
    exact ⟨his, hq.symm⟩
  constructor
  case bounds =>
    intro q hq
    rw [← List.map_append] at hq
    obtain ⟨x, hx, rfl⟩ := List.mem_map.1 hq
    obtain ⟨v, hv, hle⟩ := shares_hasValue hpos hfits hx
    rw [hv.toRat_eq]
    exact ⟨hundredths_nonneg hv.nonneg, hundredths_le_hundred hle⟩
  case frequencies_close =>
    rw [hderived.frequencies, List.map_map, List.forall₂_map_right_iff, List.forall₂_same]
    intro c hc
    exact abs_hundredths_share_sub_le hpos hfits (le_trueSum_of_mem hc)
  case length_cumulative => rw [List.length_map, hlength]
  case cumulative_zero =>
    rw [List.getElem?_map, hderived.cumulative_zero, Option.map_some, zero_hasValue.toRat_eq,
      hundredths_zero]
  case cumulative_close =>
    intro i q hi hq
    obtain ⟨-, rfl⟩ := hcumulative i q hi hq
    exact abs_hundredths_share_sub_le hpos hfits (s.bucketsFrom_le i)
  case sum_close => exact abs_sum_hundredths_sub_le hpos hfits hderived
  case cumulative_falls =>
    intro i x y hi hx hy
    obtain ⟨-, rfl⟩ := hcumulative i x hi hx
    obtain ⟨-, rfl⟩ := hcumulative (i + 1) y (by omega) hy
    exact hundredths_share_mono hpos hfits (s.bucketsFrom_succ_le i) (s.bucketsFrom_le i)
  case frequency_le =>
    intro i x y hi hx hy
    obtain ⟨his, rfl⟩ := hcumulative i y hi hy
    obtain ⟨c, hc⟩ := s.exists_getElem?_bucketCounts his
    rw [List.getElem?_map, hderived.getElem?_frequencies hc, Option.map_some, Option.some_inj] at hx
    have hle : c.toNat ≤ s.bucketsFrom i := by
      rw [Samples.bucketsFrom_eq_add hc]
      omega
    rw [← hx]
    exact hundredths_share_mono hpos hfits hle (s.bucketsFrom_le i)

/-- A column of the rows is the series that it comes from. -/
theorem map_rows (hd : ofSamples s = .ok d) {series : List Binary64} {share : Row → Binary64}
    (hlength : series.length = s.size)
    (hshare : ∀ (i : ℕ) (row : Row), (d.rows s)[i]? = some row → series[i]? = some (share row)) :
    (d.rows s).map share = series := by
  have hrows := length_rows_of_ofSamples hd
  refine List.ext_getElem (by rw [List.length_map, hrows, hlength]) fun i hi hi' => ?_
  rw [List.length_map] at hi
  have hrow := hshare i _ (List.getElem?_eq_getElem hi)
  rw [List.getElem?_eq_getElem hi', Option.some_inj] at hrow
  rw [List.getElem_map, hrow]

/-- **Shares are shown as they are, to the hundredth.**  The two columns of shares in the table of
a distribution, with a title above it or without one, show one number in each row and no other.
These are percentages without a sign, each of them half a hundredth from the exact one at most, but
for `10 ^ (-13)`; the frequencies add up to a hundred as well as that allows; and from the second
row on the cumulative shares fall and are at least the frequencies beside them. -/
theorem shown_shares (hs : s.size ≠ 0) (hd : ofSamples s = .ok d) :
    ∃ frequencies cumulative : List ℚ, TrueToHundredth s frequencies cumulative ∧
      ∀ title i q,
        (Table.Shows (Table.render title (d.rows s)) s.size i 2 q ↔ frequencies[i]? = some q) ∧
        (Table.Shows (Table.render title (d.rows s)) s.size i 3 q ↔ cumulative[i]? = some q) := by
  refine ⟨_, _, hundredths_trueToHundredth hs hd, fun title i q => ?_⟩
  have hlength := length_rows_of_ofSamples hd
  have hrows : d.rows s ≠ [] := by
    rw [← List.length_pos_iff_ne_nil, hlength]
    exact Nat.pos_of_ne_zero hs
  obtain ⟨hpos, hfits, heq⟩ := eq_ofTotal_of_ofSamples hs hd
  obtain ⟨-, hcumulative, hfrequencies⟩ := length_series hs (.ofNat s.bucketTotal)
  rw [← heq] at hcumulative hfrequencies
  have hfrequency := map_rows hd hfrequencies fun i row hrow =>
    ((getElem?_rows_of_ofSamples hd i row).1 hrow).2.1
  have hcumulated := map_rows hd hcumulative fun i row hrow =>
    ((getElem?_rows_of_ofSamples hd i row).1 hrow).2.2
  have hvalue : ∀ x ∈ d.frequencies ++ d.cumulative, ∃ q, HasValue x q := by
    intro x hx
    rw [heq] at hx
    obtain ⟨v, hv, -⟩ := shares_hasValue hpos hfits hx
    exact ⟨v, hv⟩
  rw [← hfrequency, ← hcumulated, List.map_map, List.map_map, ← hlength]
  rw [← hfrequency, ← hcumulated, List.forall_mem_append, List.forall_mem_map,
    List.forall_mem_map] at hvalue
  exact ⟨Table.shows_share_iff hrows title (fun _ => rfl) hvalue.1,
    Table.shows_share_iff hrows title (fun _ => rfl) hvalue.2⟩

end

/-- A share that is computed as more than a hundred is shown as a hundred. -/
theorem shown_shares_overshoot :
    let s := Samples.ofList [⟨0, 547326792947875⟩]
    let d := ofTotal s (.ofNat s.bucketTotal)
    s.size ≠ 0 ∧ ofSamples s = .ok d ∧ d.frequencies.map toRat = [100 + 1 / 2 ^ 46] ∧
      ∃ frequencies cumulative : List ℚ, TrueToHundredth s frequencies cumulative ∧
        Table.Shows (Table.render none (d.rows s)) s.size 0 2 100 ∧ frequencies[0]? = some 100 := by
  intro s d
  have hs : s.size ≠ 0 := by decide
  have hd : ofSamples s = .ok d := ofSamples_of_total (by decide) (by decide)
  have hshows : Table.Shows (Table.render none (d.rows s)) s.size 0 2 100 := by
    have hwhole : Numeral.Unsigned 10 ['1', '0', '0'] 100 := Numeral.unsigned_repr 100
    have hfraction : Numeral.Unsigned 10 ['0', '0'] 0 :=
      Numeral.unsigned_toDigits (by decide) (by decide) 1 0
    have hreads : Table.Reads "100.00%".toList 100 :=
      ⟨['1', '0', '0'], ['0', '0'], 100, 0, rfl, hwhole, hfraction, by norm_num⟩
    have hcell : (Table.cells ⟨0, 547326792947875, percentage 547326792947875 547326792947875,
        .zero⟩)[2]? = some "100.00%".toList := by decide +kernel
    have hrows : d.rows s ≠ [] := List.cons_ne_nil _ _
    exact (Table.shows_iff hrows none).2 ⟨_, _, rfl, hcell, hreads⟩
  obtain ⟨frequencies, cumulative, htrue, hread⟩ := shown_shares hs hd
  exact ⟨hs, hd, by decide +kernel, frequencies, cumulative, htrue, hshows,
    (hread none 0 100).1.1 hshows⟩

end Distribution

end RehashReport
