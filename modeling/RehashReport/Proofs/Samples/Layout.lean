import Mathlib
import RehashReport.Samples.Layout

/-!
# What a layout reads

Under a header that names its columns, a line gives a record exactly if each of the two columns
stands over one field and that field is a numeral (`read_named_eq_ok_iff`).  Without names, the
first two fields are read (`read_positional_eq_ok_iff`).
-/

namespace RehashReport

/-- The count of a column. -/
def Record.get (r : Record) : Column → UInt64
  | .rehashCount => r.rehashCount
  | .bucketCount => r.bucketCount

/-! ## Successful results -/

section Results

variable {ε ε' α β : Type} {result : Except ε α}

theorem bind_eq_ok_iff {f : α → Except ε β} {b : β} :
    (do f (← result)) = .ok b ↔ ∃ a, result = .ok a ∧ f a = .ok b := by
  cases result <;> simp [bind, Except.bind]

theorem map_eq_ok_iff {f : α → β} {b : β} :
    result.map f = .ok b ↔ ∃ a, result = .ok a ∧ f a = b := by
  cases result <;> simp [Except.map]

theorem mapError_eq_ok_iff {f : ε → ε'} {a : α} : result.mapError f = .ok a ↔ result = .ok a := by
  cases result <;> simp [Except.mapError]

end Results

/-! ## Titles -/

namespace Column

/-- A title is that of a column exactly if it agrees with it to the letter. -/
theorem ofTitle?_eq_some_iff {text : List Char} {column : Column} :
    ofTitle? text = some column ↔ text = column.title.toList := by
  constructor
  · intro h
    rw [ofTitle?] at h
    split_ifs at h with hrehash hbucket <;> cases h
    · exact hrehash
    · exact hbucket
  · rintro rfl
    cases column <;> decide

end Column

/-! ## Counts read so far -/

namespace PartialRecord

@[simp] theorem get?_blank (column : Column) : blank.get? column = none := by
  cases column <;> rfl

@[simp] theorem get?_set_self (r : PartialRecord) (value : UInt64) (column : Column) :
    (r.set value column).get? column = some value := by
  cases column <;> rfl

theorem get?_set_of_ne (r : PartialRecord) (value : UInt64) {column other : Column}
    (h : other ≠ column) : (r.set value column).get? other = r.get? other := by
  cases column <;> cases other <;> first | rfl | exact absurd rfl h

theorem ext_get? {r r' : PartialRecord} (h : ∀ column, r'.get? column = r.get? column) :
    r' = r := by
  obtain ⟨rehashes, buckets⟩ := r
  obtain ⟨rehashes', buckets'⟩ := r'
  have hrehashes : rehashes' = rehashes := h .rehashCount
  have hbuckets : buckets' = buckets := h .bucketCount
  rw [hrehashes, hbuckets]

theorem complete_eq_ok_iff {r : PartialRecord} {row : Record} :
    r.complete = .ok row ↔ ∀ column, r.get? column = some (row.get column) := by
  obtain ⟨rehashes, buckets⟩ := r
  constructor
  · intro h
    rw [complete] at h
    split at h <;> cases h
    next hrehashes hbuckets =>
      rintro (_ | _)
      · exact hrehashes
      · exact hbuckets
  · intro h
    have hrehashes : rehashes = some row.rehashCount := h .rehashCount
    have hbuckets : buckets = some row.bucketCount := h .bucketCount
    rw [hrehashes, hbuckets]
    rfl

end PartialRecord

/-! ## Named columns -/

namespace Layout

/-- The fields of a line that stand under a column. -/
def textsUnder (column : Column) : List (Option Column) → List (List Char) → List (List Char)
  | c :: columns, text :: texts =>
    if c = some column then text :: textsUnder column columns texts
    else textsUnder column columns texts
  | _, _ => []

/-- Texts that are read as numbers, one by one. -/
def ReadAs : List (List Char) → List UInt64 → Prop :=
  List.Forall₂ fun text value => Numeral.read text = .ok value

theorem readNumber_eq_ok_iff (index : ℕ) {text : List Char} {value : UInt64} :
    readNumber index text = .ok value ↔ Numeral.read text = .ok value := by
  rw [readNumber, mapError_eq_ok_iff]

theorem readAs_cons_iff {text : List Char} {texts : List (List Char)} {values : List UInt64} :
    ReadAs (text :: texts) values ↔
      ∃ value rest, Numeral.read text = .ok value ∧ ReadAs texts rest ∧ values = value :: rest := by
  constructor
  · rintro (_ | ⟨htext, hrest⟩)
    exact ⟨_, _, htext, hrest, rfl⟩
  · rintro ⟨value, rest, htext, hrest, rfl⟩
    exact .cons htext hrest

theorem readAs_nil_iff {values : List UInt64} : ReadAs [] values ↔ values = [] :=
  List.forall₂_nil_left_iff

/-- What is known of a column grows by the numbers in the fields under it; there is room for
one. -/
def Gathers (column : Column) (columns : List (Option Column)) (texts : List (List Char))
    (before after : Option UInt64) : Prop :=
  ∃ values, ReadAs (textsUnder column columns texts) values ∧
    after.toList = before.toList ++ values

theorem gathers_iff_of_textsUnder_nil {column : Column} {columns : List (Option Column)}
    {texts : List (List Char)} (h : textsUnder column columns texts = [])
    {before after : Option UInt64} :
    Gathers column columns texts before after ↔ after = before := by
  rw [Gathers, h]
  simp only [readAs_nil_iff, exists_eq_left, List.append_nil]
  constructor
  · intro hlist
    simpa using congrArg List.head? hlist
  · rintro rfl
    rfl

theorem gathers_cons_of_ne {c : Option Column} {column : Column} (h : c ≠ some column)
    {columns : List (Option Column)} {text : List Char} {texts : List (List Char)}
    {before after : Option UInt64} :
    Gathers column (c :: columns) (text :: texts) before after ↔
      Gathers column columns texts before after := by
  rw [Gathers, textsUnder, if_neg h, Gathers]

theorem gathers_cons_self_iff {column : Column} {columns : List (Option Column)}
    {text : List Char} {texts : List (List Char)} {after : Option UInt64} :
    Gathers column (some column :: columns) (text :: texts) none after ↔
      ∃ value, Numeral.read text = .ok value ∧ Gathers column columns texts (some value) after := by
  rw [Gathers, textsUnder, if_pos rfl]
  constructor
  · rintro ⟨values, hvalues, hlist⟩
    obtain ⟨value, rest, hvalue, hrest, rfl⟩ := readAs_cons_iff.1 hvalues
    exact ⟨value, hvalue, rest, hrest, hlist⟩
  · rintro ⟨value, hvalue, rest, hrest, hlist⟩
    exact ⟨value :: rest, .cons hvalue hrest, hlist⟩

theorem not_gathers_of_taken {column : Column} {columns : List (Option Column)}
    {text : List Char} {texts : List (List Char)} {taken : UInt64} {after : Option UInt64} :
    ¬Gathers column (some column :: columns) (text :: texts) (some taken) after := by
  rw [Gathers, textsUnder, if_pos rfl]
  rintro ⟨values, hvalues, hlist⟩
  obtain ⟨value, rest, -, -, rfl⟩ := readAs_cons_iff.1 hvalues
  have hlength := congrArg List.length hlist
  have hroom : after.toList.length ≤ 1 := Option.length_toList_le
  simp only [Option.toList_some, List.length_append, List.length_cons, List.length_nil] at hlength
  omega

theorem readNamed_of_taken {column : Column} {r : PartialRecord} {taken : UInt64}
    (h : r.get? column = some taken) (index : ℕ) (columns : List (Option Column))
    (text : List Char) (texts : List (List Char)) :
    readNamed index r (some column :: columns) (text :: texts) =
      .error (.duplicateColumn column) := by
  rw [readNamed, h]

theorem readNamed_of_free {column : Column} {r : PartialRecord} (h : r.get? column = none)
    {index : ℕ} {columns : List (Option Column)} {text : List Char} {texts : List (List Char)}
    {r' : PartialRecord} :
    readNamed index r (some column :: columns) (text :: texts) = .ok r' ↔
      ∃ value, Numeral.read text = .ok value ∧
        readNamed (index + 1) (r.set value column) columns texts = .ok r' := by
  rw [readNamed, h]
  dsimp only
  cases hread : readNumber index text with
  | error fault =>
    have hnone : ∀ value, Numeral.read text ≠ .ok value := by
      intro value hvalue
      rw [← readNumber_eq_ok_iff index, hread] at hvalue
      cases hvalue
    simp [hnone]
  | ok value =>
    rw [readNumber_eq_ok_iff] at hread
    simp [hread]

theorem readNamed_end_iff {columns : List (Option Column)} {texts : List (List Char)}
    (h : ∀ column, textsUnder column columns texts = []) {r r' : PartialRecord} :
    Except.ok (ε := RowFault) r = .ok r' ↔
      ∀ column, Gathers column columns texts (r.get? column) (r'.get? column) := by
  simp only [gathers_iff_of_textsUnder_nil (h _)]
  constructor
  · rintro ⟨⟩ column
    rfl
  · intro hget
    rw [PartialRecord.ext_get? hget]

/-- Reading fields under columns gathers, for each column, the numbers of the fields under it. -/
theorem readNamed_eq_ok_iff {columns : List (Option Column)} {texts : List (List Char)} {index : ℕ}
    {r r' : PartialRecord} :
    readNamed index r columns texts = .ok r' ↔
      ∀ column, Gathers column columns texts (r.get? column) (r'.get? column) := by
  induction columns generalizing texts index r with
  | nil => exact readNamed_end_iff fun _ => rfl
  | cons c columns ih =>
    cases texts with
    | nil => cases c <;> exact readNamed_end_iff fun _ => rfl
    | cons text texts =>
      cases c with
      | none =>
        simp only [gathers_cons_of_ne (Option.some_ne_none _).symm]
        exact ih
      | some column =>
        cases hr : r.get? column with
        | some taken =>
          rw [readNamed_of_taken hr]
          refine iff_of_false (by simp) ?_
          intro h
          have hcolumn := h column
          rw [hr] at hcolumn
          exact not_gathers_of_taken hcolumn
        | none =>
          rw [readNamed_of_free hr]
          simp only [ih]
          constructor
          · rintro ⟨value, hvalue, hrest⟩ other
            have hother := hrest other
            by_cases hne : other = column
            · subst hne
              rw [PartialRecord.get?_set_self] at hother
              rw [hr]
              exact gathers_cons_self_iff.2 ⟨value, hvalue, hother⟩
            · rw [PartialRecord.get?_set_of_ne r value hne] at hother
              exact (gathers_cons_of_ne (by simpa [eq_comm] using hne)).2 hother
          · intro h
            have hcolumn := h column
            rw [hr] at hcolumn
            obtain ⟨value, hvalue, hrest⟩ := gathers_cons_self_iff.1 hcolumn
            refine ⟨value, hvalue, fun other => ?_⟩
            by_cases hne : other = column
            · subst hne
              rwa [PartialRecord.get?_set_self]
            · rw [PartialRecord.get?_set_of_ne r value hne]
              exact (gathers_cons_of_ne (by simpa [eq_comm] using hne)).1 (h other)

/-- **Reading under names.**  A line is read exactly if each column stands over one field and that
field is a numeral. -/
theorem read_named_eq_ok_iff {columns : List (Option Column)} {texts : List (List Char)}
    {row : Record} :
    read (.named columns) texts = .ok row ↔
      ∀ column, ∃ text, textsUnder column columns texts = [text] ∧
        Numeral.read text = .ok (row.get column) := by
  rw [read, bind_eq_ok_iff]
  constructor
  · rintro ⟨r, hread, hcomplete⟩ column
    obtain ⟨values, hvalues, hlist⟩ := readNamed_eq_ok_iff.1 hread column
    rw [PartialRecord.complete_eq_ok_iff.1 hcomplete column, PartialRecord.get?_blank] at hlist
    have hone : values = [row.get column] := hlist.symm
    rw [hone] at hvalues
    generalize htexts : textsUnder column columns texts = under at hvalues
    obtain _ | ⟨hread, hrest⟩ := hvalues
    cases hrest
    exact ⟨_, rfl, hread⟩
  · intro h
    refine ⟨⟨some row.rehashCount, some row.bucketCount⟩, readNamed_eq_ok_iff.2 ?_, rfl⟩
    intro column
    obtain ⟨text, htexts, hread⟩ := h column
    refine ⟨[row.get column], ?_, ?_⟩
    · rw [htexts]
      exact .cons hread .nil
    · cases column <;> rfl

/-! ## The place of a column -/

/-- One column stands over one text: it occurs once, and the text has its place. -/
theorem textsUnder_eq_singleton_iff {column : Column} {columns : List (Option Column)}
    {texts : List (List Char)} (h : columns.length = texts.length) {text : List Char} :
    textsUnder column columns texts = [text] ↔
      columns.count (some column) = 1 ∧ texts[columns.idxOf (some column)]? = some text := by
  have hnone : ∀ {columns : List (Option Column)} {texts : List (List Char)},
      columns.length = texts.length →
        (textsUnder column columns texts = [] ↔ columns.count (some column) = 0) := by
    intro columns
    induction columns with
    | nil => simp [textsUnder]
    | cons c columns ih =>
      intro texts h
      obtain _ | ⟨text, texts⟩ := texts
      · simp at h
      · have h : columns.length = texts.length := by simpa using h
        by_cases hc : c = some column
        · simp [textsUnder, hc]
        · simp [textsUnder, hc, ih h]
  induction columns generalizing texts with
  | nil => simp [textsUnder]
  | cons c columns ih =>
    obtain _ | ⟨first, texts⟩ := texts
    · simp at h
    · have h : columns.length = texts.length := by simpa using h
      by_cases hc : c = some column
      · rw [textsUnder, if_pos hc, hc, List.count_cons_self, List.idxOf_cons_self,
          List.getElem?_cons_zero, List.cons_eq_cons, hnone h, Option.some_inj, Nat.add_eq_right,
          and_comm]
      · rw [textsUnder, if_neg hc, List.count_cons_of_ne hc, List.idxOf_cons_ne _ hc,
          List.getElem?_cons_succ]
        exact ih h

/-! ## Columns without names -/

/-- The place of a column where the header does not give names. -/
def defaultPlace : Column → ℕ
  | .rehashCount => 0
  | .bucketCount => 1

/-- Without names, the first two fields are read. -/
theorem read_positional_eq_ok_iff {texts : List (List Char)} {row : Record} :
    read .positional texts = .ok row ↔
      ∀ column, ∃ text, texts[defaultPlace column]? = some text ∧
        Numeral.read text = .ok (row.get column) := by
  rw [read]
  constructor
  · intro h
    rw [readPositional.eq_def] at h
    split at h
    next => cases h
    next rehashes =>
      cases hread : readNumber 0 rehashes <;> rw [hread] at h <;> cases h
    next rehashes buckets rest =>
      cases hrehashes : readNumber 0 rehashes with
      | error fault => rw [hrehashes] at h; cases h
      | ok first =>
        cases hbuckets : readNumber 1 buckets with
        | error fault => rw [hrehashes, hbuckets] at h; cases h
        | ok second =>
          rw [hrehashes, hbuckets] at h
          cases h
          rintro (_ | _)
          · exact ⟨rehashes, rfl, (readNumber_eq_ok_iff 0).1 hrehashes⟩
          · exact ⟨buckets, rfl, (readNumber_eq_ok_iff 1).1 hbuckets⟩
  · intro h
    obtain ⟨rehashes, hfirst, hrehashes⟩ := h .rehashCount
    obtain ⟨buckets, hsecond, hbuckets⟩ := h .bucketCount
    obtain _ | ⟨first, _ | ⟨second, rest⟩⟩ := texts
    · cases hfirst
    · cases hsecond
    · cases hfirst
      cases hsecond
      rw [readPositional, (readNumber_eq_ok_iff 0).2 hrehashes,
        (readNumber_eq_ok_iff 1).2 hbuckets]
      rfl

end Layout

end RehashReport
