import Mathlib
import RehashReport.Proofs.Delimited.Writing

/-!
# Between records

What a scan knows of the bytes behind it.  Before a record that is nothing but a position: cursors
that stand there agree in all else (`Tidy.agrees`), and cursors that agree find the same fields in
whatever comes (`Agrees.map_fields_scanFrom`).

For a whole input, `completed` are the records that end within it and `cursorAfter` is the cursor at
its end.  Once a record has ended, both go on from there (`completed_append`, `cursorAfter_append`),
so records that have ended do not depend on what follows.  The position of a record is that after
the bytes up to the end of the record before it (`exists_before_record`).
-/

namespace RehashReport.Delimited

/-! ## Positions -/

/-- The position after some bytes. -/
def Position.after (p : Position) (bytes : List UInt8) : Position :=
  bytes.foldl Position.advance p

@[simp] theorem Position.after_cons (p : Position) (b : UInt8) (bytes : List UInt8) :
    p.after (b :: bytes) = (p.advance b).after bytes := rfl

theorem Position.after_append (p : Position) (u v : List UInt8) :
    p.after (u ++ v) = (p.after u).after v := by
  simp [Position.after, List.foldl_append]

/-- Every byte counts, and for the line every line feed. -/
theorem Position.after_eq (p : Position) (bytes : List UInt8) :
    p.after bytes = ⟨p.byte + bytes.length, p.line + bytes.count lineFeed⟩ := by
  induction bytes generalizing p with
  | nil => rfl
  | cons b bytes ih =>
    rw [Position.after_cons, ih, Position.advance, List.length_cons, List.count_cons]
    by_cases hb : b = lineFeed
    · simp [hb]
      omega
    · simp [hb]
      omega

namespace Cursor

/-! ## One byte -/

/-- What a byte can do: end the open record, pass before a record, or go on with the open one. -/
inductive Moves (c : Cursor) (b : UInt8) : Cursor × Option RawRecord → Prop
  | ends : Moves c b (c.closeRecord b, some c.record)
  | passes : c.place = .recordStart → Moves c b (c.pass b .recordStart, none)
  | goesOn {d : Cursor} : d.opened = c.opened → d.here = c.here.advance b →
      d.place ≠ .recordStart → Moves c b (d, none)

theorem moves_stepBare (c : Cursor) (b : UInt8) : Moves c b (c.stepBare b) := by
  rw [stepBare]
  split_ifs
  · exact .goesOn rfl rfl (by rintro ⟨⟩)
  · exact .ends
  · exact .goesOn rfl rfl (by rintro ⟨⟩)

theorem moves_stepFirst (c : Cursor) (b : UInt8) : Moves c b (c.stepFirst b) := by
  rw [stepFirst]
  split_ifs
  · exact .goesOn rfl rfl (by rintro ⟨⟩)
  · exact c.moves_stepBare b

theorem moves_step (c : Cursor) (b : UInt8) : Moves c b (c.step b) := by
  rw [step.eq_def]
  split
  next hplace =>
    split_ifs
    · exact .passes hplace
    · exact c.moves_stepFirst b
  next => exact c.moves_stepFirst b
  next => exact c.moves_stepBare b
  next => split_ifs <;> exact .goesOn rfl rfl (by rintro ⟨⟩)
  next =>
    split_ifs
    · exact .goesOn rfl rfl (by rintro ⟨⟩)
    · exact c.moves_stepBare b

theorem step_here (c : Cursor) (b : UInt8) : (c.step b).1.here = c.here.advance b := by
  have hmoves := c.moves_step b
  generalize c.step b = next at hmoves
  cases hmoves with
  | ends => rfl
  | passes _ => rfl
  | goesOn _ hhere _ => exact hhere

theorem run_here (c : Cursor) (bytes : List UInt8) : (c.run bytes).here = c.here.after bytes := by
  induction bytes generalizing c with
  | nil => rfl
  | cons b bytes ih => rw [run_cons, ih, step_here, Position.after_cons]

/-- A record that a byte ends is the open one. -/
theorem step_eq_of_emits {c : Cursor} {b : UInt8} {r : RawRecord} (h : (c.step b).2 = some r) :
    c.step b = (c.closeRecord b, some r) ∧ r = c.record := by
  have hmoves := c.moves_step b
  generalize c.step b = next at h hmoves
  cases hmoves with
  | ends =>
    cases h
    exact ⟨rfl, rfl⟩
  | passes _ => cases h
  | goesOn _ _ _ => cases h

/-- The end of the input ends no record but the open one. -/
theorem record_eq_of_flush {c : Cursor} {mid back : List RawRecord} {r : RawRecord}
    (h : c.flush = mid ++ r :: back) : mid = [] ∧ c.record = r := by
  rw [flush.eq_def] at h
  split at h
  · exact absurd h.symm (by simp)
  · rcases List.append_eq_singleton_iff.1 h.symm with ⟨hmid, hr⟩ | ⟨-, hr⟩
    · exact ⟨hmid, (List.cons_eq_cons.1 hr).1.symm⟩
    · cases hr

theorem length_flush_le (c : Cursor) : c.flush.length ≤ 1 := by
  rw [flush.eq_def]
  split <;> simp

/-! ## Cursors that differ in positions only -/

/-- Two cursors have read the same of the open record, wherever they stand. -/
structure Agrees (c d : Cursor) : Prop where
  place : c.place = d.place
  field : c.field = d.field
  fields : c.fields = d.fields

theorem Agrees.fields_record {c d : Cursor} (h : c.Agrees d) :
    c.record.fields = d.record.fields := by
  rw [record, record, h.field, h.fields]

/-- A byte leads cursors that agree to cursors that agree, past the same fields. -/
theorem Agrees.step {c d : Cursor} (h : c.Agrees d) (b : UInt8) :
    (c.step b).1.Agrees (d.step b).1 ∧
      (c.step b).2.map RawRecord.fields = (d.step b).2.map RawRecord.fields := by
  have hbare : (c.stepBare b).1.Agrees (d.stepBare b).1 ∧
      (c.stepBare b).2.map RawRecord.fields = (d.stepBare b).2.map RawRecord.fields := by
    rw [stepBare, stepBare]
    split_ifs
    · exact ⟨⟨rfl, rfl, by simp [closeField, h.field, h.fields]⟩, rfl⟩
    · exact ⟨⟨rfl, rfl, rfl⟩, congrArg some h.fields_record⟩
    · exact ⟨⟨rfl, by simp [push, h.field], h.fields⟩, rfl⟩
  have hpass : ∀ place, (c.pass b place).Agrees (d.pass b place) :=
    fun _ => ⟨rfl, h.field, h.fields⟩
  have hpush : ∀ place, (c.push b place).Agrees (d.push b place) := fun _ =>
    ⟨rfl, by simp [push, h.field], h.fields⟩
  have hfirst : (c.stepFirst b).1.Agrees (d.stepFirst b).1 ∧
      (c.stepFirst b).2.map RawRecord.fields = (d.stepFirst b).2.map RawRecord.fields := by
    rw [stepFirst, stepFirst]
    split_ifs
    · exact ⟨hpass _, rfl⟩
    · exact hbare
  rw [step.eq_def, step.eq_def, h.place]
  cases d.place with
  | recordStart =>
    dsimp only
    split_ifs
    · exact ⟨hpass _, rfl⟩
    · exact hfirst
  | fieldStart => exact hfirst
  | bare => exact hbare
  | quoted =>
    dsimp only
    split_ifs
    · exact ⟨hpass _, rfl⟩
    · exact ⟨hpush _, rfl⟩
  | quoteSeen =>
    dsimp only
    split_ifs
    · exact ⟨hpush _, rfl⟩
    · exact hbare

theorem Agrees.run {c d : Cursor} (h : c.Agrees d) (bytes : List UInt8) :
    (c.run bytes).Agrees (d.run bytes) ∧
      (c.emitted bytes).map RawRecord.fields = (d.emitted bytes).map RawRecord.fields := by
  induction bytes generalizing c d with
  | nil => exact ⟨h, rfl⟩
  | cons b bytes ih =>
    obtain ⟨hnext, hfields⟩ := h.step b
    obtain ⟨hrun, hrest⟩ := ih hnext
    refine ⟨hrun, ?_⟩
    rw [emitted_cons, emitted_cons, List.map_append, List.map_append, hrest, ← Option.toList_map,
      ← Option.toList_map, hfields]

theorem Agrees.map_fields_flush {c d : Cursor} (h : c.Agrees d) :
    c.flush.map RawRecord.fields = d.flush.map RawRecord.fields := by
  rw [flush.eq_def, flush.eq_def, h.place]
  split
  · rfl
  · exact congrArg (fun fields => [fields]) h.fields_record

/-- Nothing of a record is open before it. -/
def Tidy (c : Cursor) : Prop := c.place = .recordStart → c.field = [] ∧ c.fields = []

theorem tidy_startingAt (p : Position) : (startingAt p).Tidy := fun _ => ⟨rfl, rfl⟩

theorem Tidy.step {c : Cursor} (h : c.Tidy) (b : UInt8) : (c.step b).1.Tidy := by
  have hmoves := c.moves_step b
  generalize c.step b = next at hmoves
  cases hmoves with
  | ends => exact tidy_startingAt _
  | passes hplace => exact fun _ => h hplace
  | goesOn _ _ hplace => exact fun hstart => absurd hstart hplace

theorem Tidy.run {c : Cursor} (h : c.Tidy) (bytes : List UInt8) : (c.run bytes).Tidy := by
  induction bytes generalizing c with
  | nil => exact h
  | cons b bytes ih => exact ih (h.step b)

/-- Before a record there is nothing to differ in but positions. -/
theorem Tidy.agrees {c d : Cursor} (hc : c.Tidy) (hd : d.Tidy) (hcplace : c.place = .recordStart)
    (hdplace : d.place = .recordStart) : c.Agrees d := by
  obtain ⟨hcfield, hcfields⟩ := hc hcplace
  obtain ⟨hdfield, hdfields⟩ := hd hdplace
  exact ⟨hcplace.trans hdplace.symm, hcfield.trans hdfield.symm, hcfields.trans hdfields.symm⟩

/-! ## Where records start -/

/-- The open record starts where the last one ended. -/
theorem exists_opened (p : Position) (bytes : List UInt8) :
    ∃ u v, bytes = u ++ v ∧ ((startingAt p).run u).place = .recordStart ∧
      (startingAt p).emitted u = (startingAt p).emitted bytes ∧
      ((startingAt p).run bytes).opened = p.after u := by
  induction bytes using List.reverseRecOn with
  | nil => exact ⟨[], [], rfl, rfl, rfl, rfl⟩
  | append_singleton bytes b ih =>
    obtain ⟨u, v, rfl, hplace, hemitted, hopened⟩ := ih
    set c := (startingAt p).run (u ++ v) with hc
    have hrun : (startingAt p).run (u ++ v ++ [b]) = (c.step b).1 := by
      rw [run_append, run_cons, run_nil]
    have hall : (startingAt p).emitted (u ++ v ++ [b]) =
        (startingAt p).emitted (u ++ v) ++ (c.step b).2.toList := by
      rw [emitted_append, emitted_cons, emitted_nil, List.append_nil]
    have hhere : c.here = p.after (u ++ v) := run_here _ _
    have hmoves := c.moves_step b
    generalize c.step b = next at hrun hall hmoves
    cases hmoves with
    | ends =>
      refine ⟨u ++ v ++ [b], [], by rw [List.append_nil], ?_, rfl, ?_⟩
      · rw [hrun]
        rfl
      · rw [hrun, Position.after_append, ← hhere]
        rfl
    | passes _ =>
      refine ⟨u, v ++ [b], by rw [List.append_assoc], hplace, ?_, ?_⟩
      · rw [hall, hemitted, Option.toList_none, List.append_nil]
      · rw [hrun, ← hopened]
        rfl
    | goesOn hsame _ _ =>
      refine ⟨u, v ++ [b], by rw [List.append_assoc], hplace, ?_, ?_⟩
      · rw [hall, hemitted, Option.toList_none, List.append_nil]
      · rw [hrun, hsame, hopened]

/-- A record that ends within some bytes ends at one of them. -/
theorem exists_of_emitted {c : Cursor} {bytes : List UInt8} {front back : List RawRecord}
    {r : RawRecord} (h : c.emitted bytes = front ++ r :: back) :
    ∃ u b v, bytes = u ++ b :: v ∧ c.emitted u = front ∧ ((c.run u).step b).2 = some r := by
  induction bytes generalizing c front with
  | nil => simp at h
  | cons b bytes ih =>
    rw [emitted_cons] at h
    cases hstep : (c.step b).2 with
    | none =>
      rw [hstep, Option.toList_none, List.nil_append] at h
      obtain ⟨u, b', v, rfl, hfront, hr⟩ := ih h
      refine ⟨b :: u, b', v, rfl, ?_, hr⟩
      rw [emitted_cons, hstep, hfront, Option.toList_none, List.nil_append]
    | some first =>
      rw [hstep, Option.toList_some, List.singleton_append] at h
      cases front with
      | nil =>
        obtain ⟨rfl, -⟩ := List.cons_eq_cons.1 h
        exact ⟨[], b, bytes, rfl, rfl, hstep⟩
      | cons _ front =>
        obtain ⟨rfl, hrest⟩ := List.cons_eq_cons.1 h
        obtain ⟨u, b', v, rfl, hfront, hr⟩ := ih hrest
        refine ⟨b :: u, b', v, rfl, ?_, hr⟩
        rw [emitted_cons, hstep, hfront, Option.toList_some, List.singleton_append]

end Cursor

theorem Cursor.Agrees.map_fields_scanFrom {c d : Cursor} (h : c.Agrees d) (bytes : List UInt8) :
    (scanFrom c bytes).map RawRecord.fields = (scanFrom d bytes).map RawRecord.fields := by
  obtain ⟨hrun, hfields⟩ := h.run bytes
  rw [scanFrom, scanFrom, List.map_append, List.map_append, hfields, hrun.map_fields_flush]

/-! ## Whole inputs -/

/-- The byte order mark at the front of an input, if it has one. -/
def mark (bytes : List UInt8) : List UInt8 :=
  if Utf8.byteOrderMark.isPrefixOf bytes then Utf8.byteOrderMark else []

/-- An input without its byte order mark. -/
def content (bytes : List UInt8) : List UInt8 := bytes.drop (mark bytes).length

/-- The cursor before the content of an input. -/
def opening (bytes : List UInt8) : Cursor := .startingAt (Position.origin.after (mark bytes))

/-- The cursor after an input. -/
def cursorAfter (bytes : List UInt8) : Cursor := (opening bytes).run (content bytes)

/-- The records that end at a byte of an input. -/
def completed (bytes : List UInt8) : List RawRecord := (opening bytes).emitted (content bytes)

theorem mark_of_marked {bytes : List UInt8} (h : Utf8.byteOrderMark <+: bytes) :
    mark bytes = Utf8.byteOrderMark := by
  rw [mark, if_pos (List.isPrefixOf_iff_prefix.2 h)]

theorem mark_of_unmarked {bytes : List UInt8} (h : ¬Utf8.byteOrderMark <+: bytes) :
    mark bytes = [] := by
  rw [mark, if_neg fun hprefix => h (List.isPrefixOf_iff_prefix.1 hprefix)]

theorem mark_append_content (bytes : List UInt8) : mark bytes ++ content bytes = bytes := by
  rw [content]
  by_cases h : Utf8.byteOrderMark <+: bytes
  · rw [mark_of_marked h]
    obtain ⟨rest, rfl⟩ := h
    rw [List.drop_left]
  · rw [mark_of_unmarked h]
    rfl

/-- The records of an input are those that end within it, and one that ends with it. -/
theorem scan_eq (bytes : List UInt8) :
    scan bytes = completed bytes ++ (cursorAfter bytes).flush := by
  show scan bytes = scanFrom (opening bytes) (content bytes)
  by_cases h : Utf8.byteOrderMark <+: bytes
  · rw [opening, content, mark_of_marked h]
    obtain ⟨rest, rfl⟩ := h
    rw [scan_of_marked, List.drop_left]
    rfl
  · rw [opening, content, mark_of_unmarked h, scan_of_unmarked h]
    rfl

/-- Where a record has ended, it is settled whether there is a byte order mark. -/
theorem mark_append {u : List UInt8} (h : completed u ≠ []) (v : List UInt8) :
    mark (u ++ v) = mark u := by
  by_cases hu : Utf8.byteOrderMark <+: u
  · rw [mark_of_marked hu, mark_of_marked (hu.trans (List.prefix_append u v))]
  · rw [mark_of_unmarked hu, mark_of_unmarked]
    intro huv
    have hshort : u <+: Utf8.byteOrderMark :=
      (List.prefix_or_prefix_of_prefix huv (List.prefix_append u v)).resolve_left hu
    have hnone : ∀ w ∈ Utf8.byteOrderMark.inits, completed w = [] := by decide
    exact h (hnone u (List.mem_inits u _ |>.2 hshort))

theorem content_append {u : List UInt8} (h : completed u ≠ []) (v : List UInt8) :
    content (u ++ v) = content u ++ v := by
  have hwhole : mark u ++ content (u ++ v) = mark u ++ (content u ++ v) := by
    rw [← List.append_assoc, mark_append_content, ← mark_append h v, mark_append_content]
  exact List.append_cancel_left hwhole

theorem cursorAfter_append {u : List UInt8} (h : completed u ≠ []) (v : List UInt8) :
    cursorAfter (u ++ v) = (cursorAfter u).run v := by
  rw [cursorAfter, opening, mark_append h, content_append h, Cursor.run_append]
  rfl

/-- What follows does not change the records that have ended. -/
theorem completed_append {u : List UInt8} (h : completed u ≠ []) (v : List UInt8) :
    completed (u ++ v) = completed u ++ (cursorAfter u).emitted v := by
  rw [completed, opening, mark_append h, content_append h, Cursor.emitted_append]
  rfl

theorem scan_append {u : List UInt8} (h : completed u ≠ []) (v : List UInt8) :
    scan (u ++ v) = completed u ++ scanFrom (cursorAfter u) v := by
  rw [scan_eq, completed_append h, cursorAfter_append h, List.append_assoc]
  rfl

theorem tidy_cursorAfter (bytes : List UInt8) : (cursorAfter bytes).Tidy :=
  (Cursor.tidy_startingAt _).run _

/-- Between records, the records of an input are those that have ended. -/
theorem scan_of_recordStart {bytes : List UInt8} (h : (cursorAfter bytes).place = .recordStart) :
    scan bytes = completed bytes := by
  rw [scan_eq, Cursor.flush, h, List.append_nil]

/-- A byte order mark and some of the content behind it are an input with that mark. -/
theorem mark_append_of_content {bytes u v : List UInt8} (h : content bytes = u ++ v) :
    mark (mark bytes ++ u) = mark bytes := by
  by_cases hprefix : Utf8.byteOrderMark <+: bytes
  · rw [mark_of_marked hprefix, mark_of_marked (List.prefix_append _ u)]
  · rw [mark_of_unmarked hprefix, List.nil_append, mark_of_unmarked]
    intro hu
    refine hprefix (hu.trans ⟨v, ?_⟩)
    rw [← h, content, mark_of_unmarked hprefix]
    rfl

/-- Each record is the open one after some of the content, behind the records before it. -/
theorem exists_open_record {bytes : List UInt8} {front back : List RawRecord} {r : RawRecord}
    (h : scan bytes = front ++ r :: back) :
    ∃ u v, content bytes = u ++ v ∧ (opening bytes).emitted u = front ∧
      ((opening bytes).run u).record = r := by
  rw [scan_eq] at h
  rcases List.append_eq_append_iff.1 h with ⟨mid, hfront, hflush⟩ | ⟨mid, hcompleted, hrest⟩
  · -- the end of the input ends the record
    obtain ⟨rfl, hr⟩ := Cursor.record_eq_of_flush hflush
    rw [List.append_nil] at hfront
    exact ⟨content bytes, [], (List.append_nil _).symm, hfront.symm, hr⟩
  · cases mid with
    | nil =>
      rw [List.append_nil] at hcompleted
      have hflush : (cursorAfter bytes).flush = [] ++ r :: back := hrest.symm
      obtain ⟨-, hr⟩ := Cursor.record_eq_of_flush hflush
      exact ⟨content bytes, [], (List.append_nil _).symm, hcompleted, hr⟩
    | cons x mid =>
      obtain ⟨rfl, -⟩ := List.cons_eq_cons.1 hrest
      obtain ⟨u, b, v, hcontent, hfront, hr⟩ := Cursor.exists_of_emitted hcompleted
      exact ⟨u, b :: v, hcontent, hfront, (Cursor.step_eq_of_emits hr).2.symm⟩

/-- **Positions.**  A record stands after some bytes that end where the records before it have
ended, and its position is the one after these bytes. -/
theorem exists_before_record {bytes : List UInt8} {front back : List RawRecord} {r : RawRecord}
    (h : scan bytes = front ++ r :: back) :
    ∃ u v, bytes = u ++ v ∧ completed u = front ∧ (cursorAfter u).place = .recordStart ∧
      r.start = Position.origin.after u := by
  obtain ⟨u, v, hcontent, hfront, rfl⟩ := exists_open_record h
  obtain ⟨u, w, rfl, hplace, hemitted, hopened⟩ := Cursor.exists_opened _ u
  rw [List.append_assoc] at hcontent
  have hmark := mark_append_of_content hcontent
  have hbody : content (mark bytes ++ u) = u := by
    rw [content, hmark, List.drop_left]
  refine ⟨mark bytes ++ u, w ++ v, ?_, ?_, ?_, ?_⟩
  · rw [List.append_assoc, ← hcontent, mark_append_content]
  · rw [completed, opening, hmark, hbody, ← hfront]
    exact hemitted
  · rw [cursorAfter, opening, hmark, hbody]
    exact hplace
  · rw [Position.after_append]
    exact hopened

end RehashReport.Delimited
