import Mathlib
import RehashReport.Text.Basic

/-!
# Pieces of a text

Texts are cut and joined as lists are, so each of the two undoes the other
(`List.intercalate_splitOn`, `List.splitOn_intercalate`).  Splitting also undoes joining where the
separator ends every piece (`split_flatMap_append`), and the pieces that it yields never hold the
separator (`not_mem_of_mem_split`).  Only a separator at the front makes the first piece of a text
empty, and only one at the end the last (`head?_split_eq_some_nil_iff`,
`getLast?_of_getLast?_split`), and a join ends as its last piece does (`getLast?_join`).
-/

namespace RehashReport.Text

variable {separator : Char}

theorem join_cons {piece : List Char} {pieces : List (List Char)} (h : pieces ≠ []) :
    join separator (piece :: pieces) = piece ++ separator :: join separator pieces := by
  rw [join, List.intercalate_cons_of_ne_nil h, List.append_assoc, List.singleton_append]
  rfl

theorem split_cons (c : Char) (cs : List Char) :
    split separator (c :: cs) =
      if c = separator then [] :: split separator cs
      else (split separator cs).modifyHead (List.cons c) := by
  simp only [split, List.splitOn_cons_eq_if_modifyHead, beq_iff_eq]

/-- The first piece is empty if the text is, or starts with the separator. -/
theorem head?_split_eq_some_nil_iff {text : List Char} :
    (split separator text).head? = some [] ↔ text = [] ∨ text.head? = some separator := by
  cases text with
  | nil => simp [split]
  | cons c cs =>
    rw [split_cons]
    split_ifs with hc
    · simp [hc]
    · simp [List.head?_modifyHead, hc]

/-- Pieces with the separator behind each are split into themselves and an empty one. -/
theorem split_flatMap_append {pieces : List (List Char)} (h : ∀ piece ∈ pieces, separator ∉ piece) :
    split separator (pieces.flatMap fun piece => piece ++ [separator]) = pieces ++ [[]] := by
  induction pieces with
  | nil => rfl
  | cons piece pieces ih =>
    have hpiece := h piece List.mem_cons_self
    have hpieces := ih fun x hx => h x (List.mem_cons_of_mem piece hx)
    rw [split] at hpieces ⊢
    rw [List.flatMap_cons, List.append_assoc, List.singleton_append,
      List.splitOn_append_cons_self_of_not_mem hpiece, hpieces, List.cons_append]

/-- A join ends as its last piece does, if that one is not empty. -/
theorem getLast?_join {pieces : List (List Char)} {last : List Char}
    (hlast : pieces.getLast? = some last) (hne : last ≠ []) :
    (join separator pieces).getLast? = last.getLast? := by
  induction pieces with
  | nil => cases hlast
  | cons piece pieces ih =>
    cases pieces with
    | nil =>
      rw [List.getLast?_singleton, Option.some_inj] at hlast
      rw [join, List.intercalate_singleton, hlast]
    | cons next rest =>
      have hrest := ih (by simpa using hlast)
      have hjoin : join separator (next :: rest) ≠ [] := by
        intro hnil
        rw [hnil, List.getLast?_nil, eq_comm, List.getLast?_eq_none_iff] at hrest
        exact hne hrest
      rw [join_cons (by simp), List.getLast?_append_of_ne_nil _ (by simp), ← hrest,
        ← List.singleton_append, List.getLast?_append_of_ne_nil _ hjoin]

theorem not_mem_of_mem_split {text piece : List Char} (h : piece ∈ split separator text) :
    separator ∉ piece := by
  induction text generalizing piece with
  | nil =>
    rw [split, List.splitOn_nil, List.mem_singleton] at h
    rw [h]
    exact List.not_mem_nil
  | cons c cs ih =>
    rw [split_cons] at h
    split_ifs at h with hc
    · rcases List.mem_cons.1 h with rfl | h
      · exact List.not_mem_nil
      · exact ih h
    · obtain ⟨first, pieces, hsplit⟩ :=
        List.exists_cons_of_ne_nil (List.splitOn_ne_nil separator cs)
      rw [split, hsplit, List.modifyHead_cons] at h
      rw [split, hsplit] at ih
      rcases List.mem_cons.1 h with rfl | h
      · rw [List.mem_cons, not_or]
        exact ⟨Ne.symm hc, ih List.mem_cons_self⟩
      · exact ih (List.mem_cons_of_mem first h)

/-- A join ends in the separator if its last piece is empty and is not the only one. -/
theorem getLast?_join_concat_nil {pieces : List (List Char)} (h : pieces ≠ []) :
    (join separator (pieces ++ [[]])).getLast? = some separator := by
  induction pieces with
  | nil => exact absurd rfl h
  | cons piece pieces ih =>
    rw [List.cons_append, join_cons (by simp), List.getLast?_append_of_ne_nil _ (by simp)]
    cases pieces with
    | nil => rfl
    | cons next rest =>
      have hrest := ih (List.cons_ne_nil next rest)
      rw [List.getLast?_cons, hrest]
      rfl

/-- A text whose last piece is empty ends in the separator, if it is not empty itself. -/
theorem getLast?_of_getLast?_split {text : List Char} (htext : text ≠ [])
    (h : (split separator text).getLast? = some []) : text.getLast? = some separator := by
  obtain ⟨front, hfront⟩ := List.getLast?_eq_some_iff.1 h
  have hjoin : join separator (front ++ [[]]) = text := by
    rw [← hfront]
    exact List.intercalate_splitOn separator
  have hne : front ≠ [] := by
    rintro rfl
    exact htext hjoin.symm
  rw [← hjoin]
  exact getLast?_join_concat_nil hne

end RehashReport.Text
