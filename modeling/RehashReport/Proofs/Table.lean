import Mathlib
import RehashReport.Proofs.Number.Decimal
import RehashReport.Proofs.Text.Blank
import RehashReport.Proofs.Text.Split
import RehashReport.Table

/-!
# Tables can be read back

A table is a rectangle, and nothing that it shows is lost in it.  Its cells are words, without
blanks, line ends and bars (`isWord_cells`), and every column is wide enough for all of its cells
(`fits_widths`); hence all lines have one length, a line splits at its bars into the padded cells,
and trimming takes the padding off again (`Fits.exists_pieces`).  Two tables are the same only if
their lines show the same (`render_reads_back`).
-/

namespace RehashReport.Table

open Numeral (Unsigned)
open Text (isBlank)

/-! ## Words -/

/-- A text without bars and blanks, line ends among them. -/
def IsWord (text : List Char) : Prop := ∀ c ∈ text, c ≠ '|' ∧ isBlank c = false

instance : DecidablePred IsWord := fun text => List.decidableBAll _ text

theorem IsWord.append {text rest : List Char} (h : IsWord text) (hrest : IsWord rest) :
    IsWord (text ++ rest) := by
  intro c hc
  rcases List.mem_append.1 hc with hc | hc
  · exact h c hc
  · exact hrest c hc

theorem isWord_of_unsigned {text : List Char} {n : ℕ} (h : Unsigned 10 text n) : IsWord text := by
  intro c hc
  refine ⟨?_, h.isBlank_eq_false c hc⟩
  rintro rfl
  obtain ⟨d, hd⟩ := h.exists_digitValue _ hc
  cases hd

theorem isWord_of_writtenTo {places : ℕ} {x : Binary64} {text : String}
    (h : Binary64.WrittenTo places x text) : IsWord text.toList := by
  cases h with
  | @finite negative _ units _ _ _ _ hfraction =>
    have hsign : IsWord (if negative then "-" else "").toList := by
      cases negative <;> decide
    have hwhole := isWord_of_unsigned (Numeral.unsigned_repr (units / 10 ^ places))
    have hpoint : IsWord ".".toList := by decide
    have hplaces := isWord_of_unsigned hfraction
    simp only [String.toList_append, String.toList_ofList]
    exact hsign.append ((hwhole.append hpoint).append hplaces)
  | @infinite negative => cases negative <;> decide
  | nan => decide

theorem isWord_share (x : Binary64) : IsWord (x.fixed 2 ++ "%").toList := by
  rw [String.toList_append]
  exact (isWord_of_writtenTo (Binary64.writtenTo_fixed (by decide) x)).append (by decide)

/-- All cells are words. -/
theorem isWord_cells (row : Distribution.Row) : ∀ cell ∈ cells row, IsWord cell := by
  intro cell hcell
  rw [cells] at hcell
  simp only [List.mem_cons, List.not_mem_nil, or_false] at hcell
  rcases hcell with rfl | rfl | rfl | rfl
  · exact isWord_of_unsigned (Numeral.unsigned_repr _)
  · exact isWord_of_unsigned (Numeral.unsigned_repr _)
  · exact isWord_share row.frequency
  · exact isWord_share row.cumulative

/-- There is a cell for each column. -/
theorem length_cells (row : Distribution.Row) : (cells row).length = header.length := by
  simp only [cells, header, List.length_cons, List.length_nil]

theorem isWord_header : ∀ cell ∈ header, IsWord cell := by
  simp only [header, List.forall_mem_cons]
  decide

/-! ## Padding -/

section

variable {width : ℕ} {cell : List Char}

theorem mem_pad {c : Char} (hc : c ∈ pad width cell) : c ∈ cell ∨ c = ' ' := by
  rw [pad] at hc
  simp only [List.cons_append, List.append_assoc, List.mem_cons, List.mem_append,
    List.mem_replicate, List.not_mem_nil, or_false] at hc
  tauto

theorem length_pad (h : cell.length ≤ width) : (pad width cell).length = width + 2 := by
  rw [pad]
  simp only [List.cons_append, List.append_assoc, List.length_cons, List.length_append,
    List.length_replicate, List.length_nil]
  omega

/-- Trimming takes the padding off. -/
theorem trim_pad (h : IsWord cell) : Text.trim (pad width cell) = cell := by
  have hpad : pad width cell =
      [' '] ++ cell ++ (List.replicate (width - cell.length) ' ' ++ [' ']) := by
    simp [pad]
  have hfront : ∀ c ∈ [' '], isBlank c = true := List.forall_mem_singleton.2 rfl
  have hback : ∀ c ∈ List.replicate (width - cell.length) ' ' ++ [' '], isBlank c = true := by
    intro c hc
    rcases List.mem_append.1 hc with hc | hc
    · rw [List.eq_of_mem_replicate hc]
      rfl
    · exact hfront c hc
  rw [hpad, Text.trim, Text.stripBy_append cell hfront hback]
  exact Text.stripBy_eq_self fun c hc => (h c hc).2

end

/-! ## Lines -/

theorem mem_zipWith_pad {widths : List ℕ} {cells : List (List Char)} {piece : List Char} {c : Char}
    (hpiece : piece ∈ List.zipWith pad widths cells) (hc : c ∈ piece) :
    ∃ cell ∈ cells, c ∈ cell ∨ c = ' ' := by
  rw [← List.map_uncurry_zip_eq_zipWith] at hpiece
  obtain ⟨⟨width, cell⟩, hmem, rfl⟩ := List.mem_map.1 hpiece
  exact ⟨cell, (List.of_mem_zip hmem).2, mem_pad hc⟩

theorem mem_line {widths : List ℕ} {cells : List (List Char)} {c : Char}
    (hc : c ∈ line widths cells) : c = '|' ∨ c = ' ' ∨ ∃ cell ∈ cells, c ∈ cell := by
  rw [line, List.mem_cons, List.mem_flatMap] at hc
  rcases hc with rfl | ⟨piece, hpiece, hc⟩
  · exact .inl rfl
  · rw [List.mem_append, List.mem_singleton] at hc
    rcases hc with hc | rfl
    · obtain ⟨cell, hcell, hc | rfl⟩ := mem_zipWith_pad hpiece hc
      · exact .inr (.inr ⟨cell, hcell, hc⟩)
      · exact .inr (.inl rfl)
    · exact .inl rfl

/-- The cells of a line fit in columns of some widths. -/
def Fits (widths : List ℕ) (cells : List (List Char)) : Prop :=
  List.Forall₂ (fun width cell => cell.length ≤ width) widths cells

theorem mem_rule {widths : List ℕ} {c : Char} (hc : c ∈ rule widths) : c = '+' ∨ c = '-' := by
  rw [rule, List.mem_cons, List.mem_flatMap] at hc
  rcases hc with rfl | ⟨width, -, hc⟩
  · exact .inl rfl
  · rw [List.mem_append, List.mem_replicate, List.mem_singleton] at hc
    tauto

namespace Fits

variable {widths : List ℕ} {cells : List (List Char)} (h : Fits widths cells)

include h

/-- A line of cells is as long as a rule. -/
theorem length_line : (line widths cells).length = (rule widths).length := by
  rw [line, rule, List.length_cons, List.length_cons]
  congr 1
  induction h with
  | nil => rfl
  | cons hcell _ ih =>
    rw [List.zipWith_cons_cons, List.flatMap_cons, List.flatMap_cons, List.length_append,
      List.length_append, List.length_append, List.length_append, ih, length_pad hcell,
      List.length_replicate]
    rfl

theorem map_trim_pad (hwords : ∀ cell ∈ cells, IsWord cell) :
    (List.zipWith pad widths cells).map Text.trim = cells := by
  induction h with
  | nil => rfl
  | @cons width cell widths cells hcell _ ih =>
    rw [List.zipWith_cons_cons, List.map_cons, trim_pad (hwords cell List.mem_cons_self),
      ih fun x hx => hwords x (List.mem_cons_of_mem cell hx)]

/-- Between its bars a line has its cells, apart from the padding. -/
theorem exists_pieces (hwords : ∀ cell ∈ cells, IsWord cell) :
    ∃ pieces, Text.split '|' (line widths cells) = [] :: pieces ++ [[]] ∧
      pieces.map Text.trim = cells := by
  have hbars : ∀ piece ∈ List.zipWith pad widths cells, '|' ∉ piece := by
    intro piece hpiece hbar
    obtain ⟨cell, hcell, hbar⟩ := mem_zipWith_pad hpiece hbar
    rcases hbar with hbar | hbar
    · exact (hwords cell hcell _ hbar).1 rfl
    · cases hbar
  refine ⟨List.zipWith pad widths cells, ?_, h.map_trim_pad hwords⟩
  rw [line, Text.split_cons, if_pos rfl, Text.split_flatMap_append hbars, List.cons_append]

end Fits

/-! ## Widths -/

theorem fits_widen {widths : List ℕ} {cells : List (List Char)} (h : cells.length = widths.length) :
    Fits (widen widths cells) cells := by
  induction widths generalizing cells with
  | nil =>
    cases List.length_eq_zero_iff.1 h
    exact .nil
  | cons width widths ih =>
    cases cells with
    | nil => cases h
    | cons cell cells => exact .cons (le_max_right width _) (ih (Nat.succ.inj h))

/-- What fits in some columns fits when they are widened. -/
theorem Fits.widen {widths : List ℕ} {cells other : List (List Char)} (h : Fits widths cells)
    (hother : other.length = widths.length) : Fits (widen widths other) cells := by
  induction h generalizing other with
  | nil => exact .nil
  | cons hcell _ ih =>
    cases other with
    | nil => cases hother
    | cons first other =>
      exact .cons (hcell.trans (le_max_left _ _)) (ih (Nat.succ.inj hother))

theorem length_widen {widths : List ℕ} {cells : List (List Char)}
    (h : cells.length = widths.length) : (widen widths cells).length = widths.length := by
  rw [Table.widen, List.length_zipWith, h, min_self]

/-- After all lines the columns are wide enough for each, and still for what did fit before. -/
theorem fits_foldl_widen {lines : List (List (List Char))} {widths : List ℕ}
    (h : ∀ cells ∈ lines, cells.length = widths.length) :
    (∀ cells, Fits widths cells → Fits (lines.foldl widen widths) cells) ∧
      ∀ cells ∈ lines, Fits (lines.foldl widen widths) cells := by
  induction lines generalizing widths with
  | nil => exact ⟨fun _ hcells => hcells, by simp⟩
  | cons first lines ih =>
    have hfirst := h first List.mem_cons_self
    have hlines : ∀ cells ∈ lines, cells.length = (Table.widen widths first).length := by
      intro cells hcells
      rw [length_widen hfirst]
      exact h cells (List.mem_cons_of_mem first hcells)
    obtain ⟨hkeep, hfits⟩ := ih hlines
    rw [List.foldl_cons]
    constructor
    · intro cells hcells
      exact hkeep cells (hcells.widen hfirst)
    · rw [List.forall_mem_cons]
      exact ⟨hkeep first (fits_widen hfirst), hfits⟩

variable {rows : List Distribution.Row}

/-- Every line of a table fits in its columns. -/
theorem fits_widths : ∀ texts ∈ header :: rows.map cells, Fits (widths rows) texts := by
  have hheader : Fits (header.map List.length) header :=
    List.forall₂_map_left_iff.2 (List.forall₂_same.2 fun _ _ => le_rfl)
  have hlength : ∀ texts ∈ rows.map cells, texts.length = (header.map List.length).length := by
    intro texts htexts
    obtain ⟨row, -, rfl⟩ := List.mem_map.1 htexts
    rw [List.length_map, length_cells]
  obtain ⟨hkeep, hfits⟩ := fits_foldl_widen hlength
  exact List.forall_mem_cons.2 ⟨hkeep header hheader, hfits⟩

theorem isWord_of_mem {texts : List (List Char)} (h : texts ∈ header :: rows.map cells) :
    ∀ cell ∈ texts, IsWord cell := by
  rcases List.mem_cons.1 h with rfl | h
  · exact isWord_header
  · obtain ⟨row, -, rfl⟩ := List.mem_map.1 h
    exact isWord_cells row

/-! ## Grids -/

/-- Between each two of the lines and at both ends stands the rule. -/
theorem getElem?_ruled {α β : Type} (rule : β) (draw : α → β) (lines : List α) (k : ℕ) :
    (k ≤ lines.length →
      (rule :: lines.flatMap fun texts => [draw texts, rule])[2 * k]? = some rule) ∧
    (rule :: lines.flatMap fun texts => [draw texts, rule])[2 * k + 1]? = lines[k]?.map draw := by
  induction lines generalizing k with
  | nil =>
    constructor
    · intro hk
      rw [Nat.le_zero.1 hk]
      rfl
    · simp
  | cons first lines ih =>
    cases k with
    | zero => exact ⟨fun _ => rfl, rfl⟩
    | succ k =>
      obtain ⟨hrule, hline⟩ := ih k
      exact ⟨fun hk => hrule (Nat.le_of_succ_le_succ hk), hline⟩

theorem length_grid (rows : List Distribution.Row) :
    (grid rows).length = 2 * rows.length + 3 := by
  simp only [grid, List.length_cons, List.length_flatMap, List.length_nil, List.map_const',
    List.sum_replicate, List.length_map, smul_eq_mul]
  omega

theorem mem_grid {text : List Char} (h : text ∈ grid rows) :
    text = rule (widths rows) ∨
      ∃ texts ∈ header :: rows.map cells, text = line (widths rows) texts := by
  rw [grid] at h
  rcases List.mem_cons.1 h with rfl | h
  · exact .inl rfl
  · obtain ⟨texts, htexts, h⟩ := List.mem_flatMap.1 h
    rcases List.mem_cons.1 h with rfl | h
    · exact .inr ⟨texts, htexts, rfl⟩
    · exact .inl (List.mem_singleton.1 h)

/-- A table is a rectangle. -/
theorem length_of_mem_grid {text : List Char} (h : text ∈ grid rows) :
    text.length = (rule (widths rows)).length := by
  rcases mem_grid h with rfl | ⟨texts, htexts, rfl⟩
  · rfl
  · exact (fits_widths texts htexts).length_line

theorem lineEnd_not_mem {text : List Char} (h : text ∈ grid rows) : '\n' ∉ text := by
  intro hend
  rcases mem_grid h with rfl | ⟨texts, htexts, rfl⟩
  · rcases mem_rule hend with hend | hend <;> cases hend
  · rcases mem_line hend with hend | hend | ⟨cell, hcell, hend⟩
    · cases hend
    · cases hend
    · have hblank := (isWord_of_mem htexts cell hcell _ hend).2
      cases hblank

/-- The line of a row shows its cells. -/
theorem exists_line {i : ℕ} {row : Distribution.Row} (h : rows[i]? = some row) :
    ∃ text pieces, (grid rows)[2 * i + 3]? = some text ∧
      Text.split '|' text = [] :: pieces ++ [[]] ∧ pieces.map Text.trim = cells row := by
  have hmem : cells row ∈ header :: rows.map cells :=
    List.mem_cons_of_mem _ (List.mem_map_of_mem (List.mem_of_getElem? h))
  obtain ⟨pieces, hsplit, htrim⟩ := (fits_widths _ hmem).exists_pieces (isWord_of_mem hmem)
  refine ⟨line (widths rows) (cells row), pieces, ?_, hsplit, htrim⟩
  obtain ⟨-, hline⟩ := getElem?_ruled (rule (widths rows)) (line (widths rows))
    (header :: rows.map cells) (i + 1)
  have hcells : (header :: rows.map cells)[i + 1]? = some (cells row) := by
    rw [List.getElem?_cons_succ, List.getElem?_map, h]
    rfl
  rw [hcells] at hline
  exact hline

/-- The line of a row shows nothing else. -/
theorem map_trim_of_line {i : ℕ} {row : Distribution.Row} {text : List Char}
    {pieces : List (List Char)} (h : rows[i]? = some row)
    (htext : (grid rows)[2 * i + 3]? = some text)
    (hsplit : Text.split '|' text = [] :: pieces ++ [[]]) : pieces.map Text.trim = cells row := by
  obtain ⟨text', pieces', htext', hsplit', htrim⟩ := exists_line h
  rw [htext', Option.some_inj] at htext
  rw [← htext, hsplit'] at hsplit
  have hpieces : pieces' = pieces := by simpa using hsplit
  rwa [hpieces] at htrim

example : grid [⟨0, 3, .ofNat 75, .zero⟩, ⟨1, 1, .ofNat 25, .ofNat 25⟩] =
    ["+----------+---------+-----------+------------+".toList,
      "| Rehashes | Buckets | Frequency | Cumulative |".toList,
      "+----------+---------+-----------+------------+".toList,
      "| 0        | 3       | 75.00%    | 0.00%      |".toList,
      "+----------+---------+-----------+------------+".toList,
      "| 1        | 1       | 25.00%    | 25.00%     |".toList,
      "+----------+---------+-----------+------------+".toList] := by decide +kernel

/-! ## Texts -/

theorem render_none (h : rows ≠ []) :
    render none rows = String.ofList (Text.join '\n' (grid rows)) := by
  rw [render, if_neg (by simpa using h)]
  rfl

/-- A title stands above the table, with a line of signs between the two. -/
theorem render_some (h : rows ≠ []) (title : String) :
    render (some title) rows =
      title ++ "\n" ++ String.ofList (List.replicate title.utf8ByteSize '=') ++ "\n" ++
        render none rows := by
  have hbreak : "\n".toList = ['\n'] := rfl
  have hgrid : grid rows ≠ [] := List.cons_ne_nil _ _
  rw [render_none h, render, if_neg (by simpa using h), ← String.toList_inj]
  dsimp only [heading]
  rw [List.cons_append, List.cons_append, List.nil_append, Text.join_cons (List.cons_ne_nil _ _),
    Text.join_cons hgrid]
  simp only [String.toList_append, String.toList_ofList, hbreak, List.append_assoc,
    List.cons_append, List.nil_append]

/-- The lines of a table are those of its grid. -/
theorem split_render (h : rows ≠ []) : Text.split '\n' (render none rows).toList = grid rows := by
  rw [render_none h, String.toList_ofList]
  exact List.splitOn_intercalate '\n' (fun _ => lineEnd_not_mem) (List.cons_ne_nil _ _)

/-- A table ends with a rule, not with a line end. -/
theorem getLast?_render (h : rows ≠ []) : (render none rows).toList.getLast? ≠ some '\n' := by
  obtain ⟨hrule, -⟩ := getElem?_ruled (rule (widths rows)) (line (widths rows))
    (header :: rows.map cells) (rows.length + 1)
  have hlast : (grid rows).getLast? = some (rule (widths rows)) := by
    rw [List.getLast?_eq_getElem?, length_grid]
    exact hrule (by simp)
  rw [render_none h, String.toList_ofList, Text.getLast?_join hlast (List.cons_ne_nil _ _)]
  intro hend
  rcases mem_rule (List.mem_of_getLast? hend) with hend | hend <;> cases hend

/-! ## Equal tables -/

/-- Two rows that look the same in a table. -/
structure Alike (row other : Distribution.Row) : Prop where
  rehashCount : row.rehashCount = other.rehashCount
  bucketCount : row.bucketCount = other.bucketCount
  frequency : row.frequency.fixed 2 = other.frequency.fixed 2
  cumulative : row.cumulative.fixed 2 = other.cumulative.fixed 2

theorem cells_eq_iff {row other : Distribution.Row} :
    cells row = cells other ↔ Alike row other := by
  constructor
  · intro h
    rw [cells, cells] at h
    simp only [List.cons.injEq, String.toList_inj, String.append_left_inj, and_true] at h
    obtain ⟨hrehash, hbucket, hfrequency, hcumulative⟩ := h
    have hrehash := UInt64.toNat_inj.1 (Nat.repr_injective hrehash)
    have hbucket := UInt64.toNat_inj.1 (Nat.repr_injective hbucket)
    exact ⟨hrehash, hbucket, hfrequency, hcumulative⟩
  · intro h
    rw [cells, cells, h.rehashCount, h.bucketCount, h.frequency, h.cumulative]

theorem map_cells_eq_iff {others : List Distribution.Row} :
    rows.map cells = others.map cells ↔ List.Forall₂ Alike rows others := by
  rw [← List.forall₂_eq_eq_eq, List.forall₂_map_left_iff, List.forall₂_map_right_iff]
  simp only [cells_eq_iff]

/-- Tables are the same just when their rows look the same. -/
theorem render_eq_iff {others : List Distribution.Row} (h : rows ≠ []) (hothers : others ≠ []) :
    render none rows = render none others ↔ List.Forall₂ Alike rows others := by
  rw [← map_cells_eq_iff]
  constructor
  · intro heq
    have hgrid : grid rows = grid others := by
      rw [← split_render h, heq, split_render hothers]
    have hlength : rows.length = others.length := by
      have := congrArg List.length hgrid
      rw [length_grid, length_grid] at this
      omega
    refine List.ext_getElem (by rwa [List.length_map, List.length_map]) fun i hi hi' => ?_
    rw [List.length_map] at hi hi'
    rw [List.getElem_map, List.getElem_map]
    -- the two rows have one line, and so the same pieces
    obtain ⟨text, pieces, hline, hsplit, htrim⟩ := exists_line (List.getElem?_eq_getElem hi)
    rw [hgrid] at hline
    rw [← htrim, map_trim_of_line (List.getElem?_eq_getElem hi') hline hsplit]
  · intro heq
    rw [render_none h, render_none hothers, grid, grid, widths, widths, heq]

/-! ## The result -/

/-- **A table can be read back.**  The lines of a table without a title are as many as it should
have, all of one length, and the last one has no line end.  Every other one, the first and the last
included, is the same rule; and what stands between the bars of the line of a row, without the
blanks around it, are the numerals of its two counts and its two shares to two places.  So two
tables are the same just when their rows are alike.  With a title the same table stands below it. -/
theorem render_reads_back (h : rows ≠ []) :
    let lines := Text.split '\n' (render none rows).toList
    lines.length = 2 * rows.length + 3 ∧
      (∃ length, ∀ text ∈ lines, text.length = length) ∧
      (render none rows).toList.getLast? ≠ some '\n' ∧
      (∃ rule, (∀ c ∈ rule, c = '+' ∨ c = '-') ∧
        ∀ k ≤ rows.length + 1, lines[2 * k]? = some rule) ∧
      (∀ (i : ℕ) (row : Distribution.Row), rows[i]? = some row →
        ∃ text pieces, lines[2 * i + 3]? = some text ∧
        Text.split '|' text = [] :: pieces ++ [[]] ∧
        pieces.map Text.trim =
          [row.rehashCount.toNat.repr.toList, row.bucketCount.toNat.repr.toList,
            (row.frequency.fixed 2 ++ "%").toList, (row.cumulative.fixed 2 ++ "%").toList] ∧
        row.frequency.WrittenTo 2 (row.frequency.fixed 2) ∧
        row.cumulative.WrittenTo 2 (row.cumulative.fixed 2)) ∧
      (∀ others, others ≠ [] →
        (render none rows = render none others ↔ List.Forall₂ Alike rows others)) ∧
      ∀ title, render (some title) rows =
        title ++ "\n" ++ String.ofList (List.replicate title.utf8ByteSize '=') ++ "\n" ++
          render none rows := by
  intro lines
  have hlines : lines = grid rows := split_render h
  rw [hlines]
  refine ⟨length_grid rows, ⟨_, fun _ => length_of_mem_grid⟩, getLast?_render h, ?_, ?_,
    fun others => render_eq_iff h, render_some h⟩
  · refine ⟨rule (widths rows), fun c => mem_rule, fun k hk => ?_⟩
    obtain ⟨hrule, -⟩ := getElem?_ruled (rule (widths rows)) (line (widths rows))
      (header :: rows.map cells) k
    exact hrule (by simpa using hk)
  · intro i row hrow
    obtain ⟨text, pieces, hline, hsplit, htrim⟩ := exists_line hrow
    exact ⟨text, pieces, hline, hsplit, htrim, Binary64.writtenTo_fixed (by decide) _,
      Binary64.writtenTo_fixed (by decide) _⟩

/-- The largest count there is beside shares that are no numbers, and a share that looks like
another one. -/
theorem render_reads_back_odd :
    let row : Distribution.Row := ⟨0, 0xFFFFFFFFFFFFFFFF, .nan, .infinite true⟩
    let rows := [row, ⟨12, 1, .ofRat (1 / 3), .ofNat 100⟩]
    let others := [row, ⟨12, 1, .ofRat (33 / 100), .ofNat 100⟩]
    let lines := Text.split '\n' (render none rows).toList
    rows ≠ [] ∧ lines.length = 7 ∧ render none rows = render none others ∧
      ∃ text pieces, lines[5]? = some text ∧ Text.split '|' text = [] :: pieces ++ [[]] ∧
        pieces.map Text.trim =
          ["12".toList, "1".toList, "0.33%".toList, "100.00%".toList] := by
  intro row rows others lines
  have hrows : rows ≠ [] := List.cons_ne_nil _ _
  obtain ⟨hlength, -, -, -, hread, hequal, -⟩ := render_reads_back hrows
  obtain ⟨text, pieces, hline, hsplit, htrim, -⟩ := hread 1 _ rfl
  have hcells : cells ⟨12, 1, .ofRat (1 / 3), .ofNat 100⟩ =
      ["12".toList, "1".toList, "0.33%".toList, "100.00%".toList] := by decide +kernel
  have halike : List.Forall₂ Alike rows others :=
    .cons ⟨rfl, rfl, rfl, rfl⟩ (.cons ⟨rfl, rfl, by decide +kernel, rfl⟩ .nil)
  refine ⟨hrows, hlength, (hequal others (List.cons_ne_nil _ _)).2 halike, text, pieces, hline,
    hsplit, ?_⟩
  rw [← hcells]
  exact htrim

end RehashReport.Table
