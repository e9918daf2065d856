import Mathlib
import RehashReport.Text.Basic
import RehashReport.Text.Numeral

/-!
# What numerals denote

`Denotes` says which texts are numerals and which numbers they stand for, in positional notation
and without a bound; `read_eq_ok_iff` says that reading accepts those below `2 ^ 64` with the same
value.  The usual digits of a number denote it, with any number of zeros in front
(`unsigned_toDigits`), and no text denotes two numbers (`Denotes.unique`).  What is wrong with any
other text is said in the same terms (`read_eq_error_iff`).
-/

namespace RehashReport.Numeral

open Text (isBlank)

/-! ## Positional notation -/

/-- The digits of a text in a base, the highest first. -/
def DigitsOf (base : ℕ) : List Char → List ℕ → Prop :=
  List.Forall₂ fun c d => digitValue base c = some d

/-- One digit or more, and the number that they denote. -/
def Unsigned (base : ℕ) (text : List Char) (n : ℕ) : Prop :=
  text ≠ [] ∧ ∃ ds, DigitsOf base text ds ∧ n = Nat.ofDigits base ds.reverse

/-- Digits with an optional `+` in front of them. -/
inductive Signed (base : ℕ) : List Char → ℕ → Prop
  | plain {text : List Char} {n : ℕ} : Unsigned base text n → Signed base text n
  | plus {text : List Char} {n : ℕ} : Unsigned base text n → Signed base ('+' :: text) n

/-- A numeral and the number that it denotes. -/
inductive Denotes : List Char → ℕ → Prop
  | decimal {text : List Char} {n : ℕ} : Signed 10 text n → Denotes text n
  | hexadecimal {text : List Char} {n : ℕ} : Signed 16 text n → Denotes ('0' :: 'x' :: text) n

variable {base : ℕ}

theorem ofDigits_reverse_cons (base d : ℕ) (ds : List ℕ) :
    Nat.ofDigits base (d :: ds).reverse =
      d * base ^ ds.length + Nat.ofDigits base ds.reverse := by
  rw [List.reverse_cons, Nat.ofDigits_append, Nat.ofDigits_singleton, List.length_reverse]
  ring

theorem DigitsOf.unique {text : List Char} {ds es : List ℕ} (hd : DigitsOf base text ds)
    (he : DigitsOf base text es) : ds = es := by
  induction hd generalizing es with
  | nil =>
    cases he
    rfl
  | cons hc _ ih =>
    obtain _ | ⟨hc', he⟩ := he
    rw [hc] at hc'
    rw [Option.some.inj hc', ih he]

theorem Unsigned.unique {text : List Char} {m n : ℕ} (hm : Unsigned base text m)
    (hn : Unsigned base text n) : m = n := by
  obtain ⟨-, ds, hds, rfl⟩ := hm
  obtain ⟨-, es, hes, rfl⟩ := hn
  rw [hds.unique hes]

/-! ## Reading digits -/

theorem readDigits_cons {v d : ℕ} {c : Char} {cs : List Char} (hd : digitValue base c = some d) :
    readDigits base v (c :: cs) =
      if v * base + d < UInt64.size then readDigits base (v * base + d) cs
      else .error .tooLarge := by
  rw [readDigits, hd]

theorem readDigits_of_digitsOf (hbase : 0 < base) {text : List Char} {ds : List ℕ}
    (hds : DigitsOf base text ds) {v : ℕ}
    (hlt : v * base ^ ds.length + Nat.ofDigits base ds.reverse < UInt64.size) :
    readDigits base v text = .ok (v * base ^ ds.length + Nat.ofDigits base ds.reverse) := by
  induction hds generalizing v with
  | nil => simp [readDigits]
  | @cons c d cs ds hc _ ih =>
    have hsplit : v * base ^ (d :: ds).length + Nat.ofDigits base (d :: ds).reverse =
        (v * base + d) * base ^ ds.length + Nat.ofDigits base ds.reverse := by
      rw [ofDigits_reverse_cons, List.length_cons]
      ring
    rw [hsplit] at hlt ⊢
    -- no value on the way is larger than the last one
    have hstep : v * base + d < UInt64.size :=
      (Nat.le_mul_of_pos_right _ (Nat.pow_pos hbase)).trans_lt
        ((Nat.le_add_right _ _).trans_lt hlt)
    rw [readDigits_cons hc, if_pos hstep, ih hlt]

theorem digitsOf_of_readDigits {text : List Char} {v n : ℕ} (hv : v < UInt64.size)
    (h : readDigits base v text = .ok n) :
    n < UInt64.size ∧
      ∃ ds, DigitsOf base text ds ∧ n = v * base ^ ds.length + Nat.ofDigits base ds.reverse := by
  induction text generalizing v with
  | nil =>
    cases h
    exact ⟨hv, [], .nil, by simp⟩
  | cons c cs ih =>
    cases hc : digitValue base c with
    | none =>
      rw [readDigits, hc] at h
      cases h
    | some d =>
      rw [readDigits_cons hc] at h
      split_ifs at h with hstep
      obtain ⟨hlt, ds, hds, rfl⟩ := ih hstep h
      refine ⟨hlt, d :: ds, .cons hc hds, ?_⟩
      rw [ofDigits_reverse_cons, List.length_cons]
      ring

/-- Digits are read as what they denote, unless that is too large. -/
theorem readDigits_eq_ok_iff (hbase : 0 < base) {text : List Char} (htext : text ≠ []) {n : ℕ} :
    readDigits base 0 text = .ok n ↔ Unsigned base text n ∧ n < UInt64.size := by
  constructor
  · intro h
    obtain ⟨hlt, ds, hds, hn⟩ := digitsOf_of_readDigits (by decide) h
    exact ⟨⟨htext, ds, hds, by rwa [zero_mul, zero_add] at hn⟩, hlt⟩
  · rintro ⟨⟨-, ds, hds, rfl⟩, hlt⟩
    have hread := readDigits_of_digitsOf hbase hds (v := 0)
    rw [zero_mul, zero_add] at hread
    exact hread hlt

/-! ## Signs and prefixes -/

theorem digitValue_eq_none {c : Char} (hc : c = '+' ∨ c = 'x') : digitValue base c = none := by
  rcases hc with rfl | rfl <;> rfl

theorem not_unsigned_cons {c : Char} (hc : c = '+' ∨ c = 'x') {cs : List Char} {n : ℕ} :
    ¬Unsigned base (c :: cs) n := by
  rintro ⟨-, ds, hds, -⟩
  obtain _ | ⟨hvalue, -⟩ := hds
  rw [digitValue_eq_none hc] at hvalue
  cases hvalue

theorem signed_plus_iff {text : List Char} {n : ℕ} :
    Signed base ('+' :: text) n ↔ Unsigned base text n := by
  constructor
  · intro h
    cases h with
    | plain h => exact absurd h (not_unsigned_cons (.inl rfl))
    | plus h => exact h
  · exact .plus

theorem Signed.unique {text : List Char} {m n : ℕ} (hm : Signed base text m)
    (hn : Signed base text n) : m = n := by
  cases hm with
  | plus hm => exact hm.unique (signed_plus_iff.1 hn)
  | plain hm =>
    cases hn with
    | plain hn => exact hm.unique hn
    | plus _ => exact absurd hm (not_unsigned_cons (.inl rfl))

theorem signed_iff_of_ne_plus {text : List Char} (h : ∀ cs, text ≠ '+' :: cs) {n : ℕ} :
    Signed base text n ↔ Unsigned base text n := by
  constructor
  · intro hs
    cases hs with
    | plain hs => exact hs
    | plus _ => exact absurd rfl (h _)
  · exact .plain

theorem readSigned_eq_ok_iff (hbase : 0 < base) {text : List Char} {n : ℕ} :
    readSigned base text = .ok n ↔ Signed base text n ∧ n < UInt64.size := by
  rw [readSigned.eq_def]
  split
  next =>
    have hempty : ¬Signed base [] n := by
      rintro ⟨hne, -⟩
      exact hne rfl
    simp [hempty]
  next c cs => rw [signed_plus_iff, readDigits_eq_ok_iff hbase (List.cons_ne_nil c cs)]
  next hnil hplus =>
    by_cases halone : text = ['+']
    · -- a sign alone is taken for a digit
      have hread : readDigits base 0 ['+'] = .error .invalidDigit := by
        rw [readDigits, digitValue_eq_none (.inl rfl)]
      have hsigned : ¬Signed base ['+'] n := by
        rw [signed_plus_iff]
        exact fun h => h.1 rfl
      simp [halone, hread, hsigned]
    · have hne : ∀ cs, text ≠ '+' :: cs := by
        rintro (_ | ⟨c, cs⟩) h
        · exact halone h
        · exact hplus c cs h
      rw [signed_iff_of_ne_plus hne, readDigits_eq_ok_iff hbase fun h => hnil h]

theorem denotes_prefixed_iff {text : List Char} {n : ℕ} :
    Denotes ('0' :: 'x' :: text) n ↔ Signed 16 text n := by
  constructor
  · intro h
    cases h with
    | hexadecimal h => exact h
    | decimal h =>
      rw [signed_iff_of_ne_plus (by simp)] at h
      obtain ⟨-, ds, hds, -⟩ := h
      obtain _ | ⟨-, hds⟩ := hds
      obtain _ | ⟨hvalue, -⟩ := hds
      rw [digitValue_eq_none (.inr rfl)] at hvalue
      cases hvalue
  · exact .hexadecimal

theorem denotes_iff_of_not_prefixed {text : List Char} (h : ∀ cs, text ≠ '0' :: 'x' :: cs) {n : ℕ} :
    Denotes text n ↔ Signed 10 text n := by
  constructor
  · intro hd
    cases hd with
    | decimal hd => exact hd
    | hexadecimal _ => exact absurd rfl (h _)
  · exact .decimal

/-- No text denotes two numbers. -/
theorem Denotes.unique {text : List Char} {m n : ℕ} (hm : Denotes text m) (hn : Denotes text n) :
    m = n := by
  by_cases hprefix : ∃ cs, text = '0' :: 'x' :: cs
  · obtain ⟨cs, rfl⟩ := hprefix
    rw [denotes_prefixed_iff] at hm hn
    exact hm.unique hn
  · have hne : ∀ cs, text ≠ '0' :: 'x' :: cs := fun cs h => hprefix ⟨cs, h⟩
    rw [denotes_iff_of_not_prefixed hne] at hm hn
    exact hm.unique hn

/-! ## The usual numerals -/

theorem digitValue_digitChar (hbase : base ≤ 16) {d : ℕ} (hd : d < base) :
    digitValue base d.digitChar = some d := by
  have hvalue : ∀ d < 16, digitValue 16 (Nat.digitChar d) = some d := by decide
  have h := hvalue d (hd.trans_le hbase)
  rw [digitValue, Option.filter_eq_some_iff] at h ⊢
  exact ⟨h.1, by simpa using hd⟩

theorem exists_digitsOf_toDigits (hbase : 1 < base) (hle : base ≤ 16) (n : ℕ) :
    ∃ ds, DigitsOf base (Nat.toDigits base n) ds ∧ n = Nat.ofDigits base ds.reverse := by
  induction n using Nat.strong_induction_on with
  | _ n ih =>
    by_cases hlt : n < base
    · refine ⟨[n], ?_, by simp⟩
      rw [Nat.toDigits_of_lt_base hlt]
      exact .cons (digitValue_digitChar hle hlt) .nil
    · have hge : base ≤ n := not_lt.1 hlt
      obtain ⟨ds, hds, hvalue⟩ := ih (n / base) (Nat.div_lt_self (by omega) hbase)
      have hmod : n % base < base := Nat.mod_lt n (by omega)
      refine ⟨ds ++ [n % base], ?_, ?_⟩
      · rw [Nat.toDigits_of_base_le hbase hge]
        exact List.rel_append hds (.cons (digitValue_digitChar hle hmod) .nil)
      · rw [List.reverse_append, List.reverse_singleton, List.singleton_append,
          Nat.ofDigits_cons, ← hvalue, Nat.mod_add_div]

/-- The usual digits of a number denote it, with any number of zeros in front. -/
theorem unsigned_toDigits (hbase : 1 < base) (hle : base ≤ 16) (zeros n : ℕ) :
    Unsigned base (List.replicate zeros '0' ++ Nat.toDigits base n) n := by
  refine ⟨by simp, ?_⟩
  induction zeros with
  | zero => exact exists_digitsOf_toDigits hbase hle n
  | succ zeros ih =>
    obtain ⟨ds, hds, hvalue⟩ := ih
    refine ⟨0 :: ds, ?_, ?_⟩
    · rw [List.replicate_succ, List.cons_append]
      exact .cons (digitValue_digitChar (d := 0) hle (by omega)) hds
    · rw [ofDigits_reverse_cons, zero_mul, zero_add]
      exact hvalue

/-! ## Blanks -/

theorem isBlank_eq_false_of_digitValue {d : ℕ} {c : Char} (h : digitValue base c = some d) :
    isBlank c = false := by
  have hle : ∀ a b : Char, a ≤ b ↔ a.toNat ≤ b.toNat := fun a b => Iff.rfl
  have hrange : (48 ≤ c.toNat ∧ c.toNat ≤ 57) ∨ (97 ≤ c.toNat ∧ c.toNat ≤ 102) ∨
      (65 ≤ c.toNat ∧ c.toNat ≤ 70) := by
    rw [digitValue, Option.filter_eq_some_iff] at h
    obtain ⟨hvalue, -⟩ := h
    split_ifs at hvalue with hdigit hlower hupper
    · exact .inl (by simpa [hle] using hdigit)
    · exact .inr (.inl (by simpa [hle] using hlower))
    · exact .inr (.inr (by simpa [hle] using hupper))
  simp only [isBlank, Bool.or_eq_false_iff, Bool.and_eq_false_imp, beq_eq_false_iff_ne,
    decide_eq_true_eq, decide_eq_false_iff_not]
  omega

theorem Unsigned.exists_digitValue {text : List Char} {n : ℕ} (h : Unsigned base text n) :
    ∀ c ∈ text, ∃ d, digitValue base c = some d := by
  obtain ⟨-, ds, hds, -⟩ := h
  induction hds with
  | nil => simp
  | cons hc _ ih => exact List.forall_mem_cons.2 ⟨⟨_, hc⟩, ih⟩

theorem Unsigned.isBlank_eq_false {text : List Char} {n : ℕ} (h : Unsigned base text n) :
    ∀ c ∈ text, isBlank c = false := by
  intro c hc
  obtain ⟨d, hd⟩ := h.exists_digitValue c hc
  exact isBlank_eq_false_of_digitValue hd

theorem Signed.isBlank_eq_false {text : List Char} {n : ℕ} (h : Signed base text n) :
    ∀ c ∈ text, isBlank c = false := by
  cases h with
  | plain h => exact h.isBlank_eq_false
  | plus h => exact List.forall_mem_cons.2 ⟨rfl, h.isBlank_eq_false⟩

/-- A numeral has no blanks. -/
theorem Denotes.isBlank_eq_false {text : List Char} {n : ℕ} (h : Denotes text n) :
    ∀ c ∈ text, isBlank c = false := by
  cases h with
  | decimal h => exact h.isBlank_eq_false
  | hexadecimal h =>
    exact List.forall_mem_cons.2 ⟨rfl, List.forall_mem_cons.2 ⟨rfl, h.isBlank_eq_false⟩⟩

/-! ## Reading a numeral -/

theorem map_ofNat_eq_ok_iff {result : Except Fault ℕ} {p : ℕ → Prop}
    (h : ∀ n, result = .ok n ↔ p n ∧ n < UInt64.size) {v : UInt64} :
    result.map UInt64.ofNat = .ok v ↔ p v.toNat := by
  constructor
  · intro hmap
    cases result with
    | error fault => cases hmap
    | ok n =>
      obtain ⟨hp, hlt⟩ := (h n).1 rfl
      cases hmap
      rwa [UInt64.toNat_ofNat_of_lt' hlt]
  · intro hp
    rw [(h v.toNat).2 ⟨hp, v.toNat_lt⟩]
    simp [Except.map]

/-- **Reading a numeral.**  A text is read as a number exactly if it denotes that number; numerals
of `2 ^ 64` and more are not read. -/
theorem read_eq_ok_iff {text : List Char} {v : UInt64} :
    read text = .ok v ↔ Denotes text v.toNat := by
  rw [read.eq_def]
  split
  next cs =>
    rw [denotes_prefixed_iff]
    exact map_ofNat_eq_ok_iff (p := Signed 16 cs) fun n => readSigned_eq_ok_iff (by decide)
  next hprefix =>
    rw [denotes_iff_of_not_prefixed fun cs h => hprefix cs h]
    exact map_ofNat_eq_ok_iff (p := Signed 10 text) fun n => readSigned_eq_ok_iff (by decide)

/-! ## Faults -/

/-- The first digits of a text, one or more, denote `2 ^ 64` or more. -/
def RunsOver (base : ℕ) (text : List Char) : Prop :=
  ∃ run rest n, text = run ++ rest ∧ Unsigned base run n ∧ UInt64.size ≤ n

/-- What may stand in front of the digits of a numeral, and their base. -/
inductive Opening : List Char → ℕ → Prop
  | bare : Opening [] 10
  | plus : Opening ['+'] 10
  | hexadecimal : Opening ['0', 'x'] 16
  | hexadecimalPlus : Opening ['0', 'x', '+'] 16

/-- There is neither a digit nor a sign. -/
def IsVoid (text : List Char) : Prop := text = [] ∨ text = ['0', 'x']

/-- Behind what may stand in front of them, the first digits already denote `2 ^ 64` or more. -/
def IsTooLarge (text : List Char) : Prop :=
  ∃ opening base rest, Opening opening base ∧ text = opening ++ rest ∧ RunsOver base rest

/-- What is wrong with a text that is no numeral of a 64-bit number. -/
def Wrong (text : List Char) : Fault → Prop
  | .empty => IsVoid text
  | .tooLarge => IsTooLarge text
  | .invalidDigit => ¬IsVoid text ∧ ¬IsTooLarge text ∧ ¬∃ n < UInt64.size, Denotes text n

/-- The first digits of a text, put behind a value, make it `2 ^ 64` or more. -/
def Overruns (base v : ℕ) (text : List Char) : Prop :=
  ∃ run rest ds, text = run ++ rest ∧ DigitsOf base run ds ∧
    UInt64.size ≤ v * base ^ ds.length + Nat.ofDigits base ds.reverse

theorem overruns_of_le {v : ℕ} (h : UInt64.size ≤ v) (text : List Char) : Overruns base v text :=
  ⟨[], text, [], rfl, .nil, by simpa using h⟩

theorem not_overruns_nil {v : ℕ} (hv : v < UInt64.size) : ¬Overruns base v [] := by
  rintro ⟨run, rest, ds, hrun, hds, hle⟩
  obtain ⟨rfl, -⟩ := List.append_eq_nil_iff.1 hrun.symm
  cases hds
  simp only [List.length_nil, pow_zero, mul_one, List.reverse_nil, Nat.ofDigits_nil,
    Nat.add_zero] at hle
  omega

/-- One more digit is put behind the value. -/
theorem overruns_cons_iff {v : ℕ} (hv : v < UInt64.size) {c : Char} {cs : List Char} :
    Overruns base v (c :: cs) ↔
      ∃ d, digitValue base c = some d ∧ Overruns base (v * base + d) cs := by
  have hsplit : ∀ (d : ℕ) (ds : List ℕ),
      v * base ^ (d :: ds).length + Nat.ofDigits base (d :: ds).reverse =
        (v * base + d) * base ^ ds.length + Nat.ofDigits base ds.reverse := by
    intro d ds
    rw [ofDigits_reverse_cons, List.length_cons]
    ring
  constructor
  · rintro ⟨run, rest, ds, hrun, hds, hle⟩
    cases hds with
    | nil => exact absurd ⟨[], [], [], rfl, .nil, hle⟩ (not_overruns_nil hv)
    | @cons c' d run ds hc hds =>
      obtain ⟨rfl, rfl⟩ := List.cons_eq_cons.1 hrun
      rw [hsplit] at hle
      exact ⟨d, hc, run, rest, ds, rfl, hds, hle⟩
  · rintro ⟨d, hc, run, rest, ds, rfl, hds, hle⟩
    refine ⟨c :: run, rest, d :: ds, rfl, .cons hc hds, ?_⟩
    rwa [hsplit]

/-- Reading digits stops at the first of them with which the value is too large, unless something
that is no digit comes before it. -/
theorem readDigits_eq_tooLarge_iff {text : List Char} {v : ℕ} (hv : v < UInt64.size) :
    readDigits base v text = .error .tooLarge ↔ Overruns base v text := by
  induction text generalizing v with
  | nil => exact iff_of_false (by simp [readDigits]) (not_overruns_nil hv)
  | cons c cs ih =>
    rw [overruns_cons_iff hv]
    cases hc : digitValue base c with
    | none => simp [readDigits, hc]
    | some d =>
      rw [readDigits_cons hc]
      split_ifs with hstep
      · simp [ih hstep]
      · exact iff_of_true rfl ⟨d, rfl, overruns_of_le (not_lt.1 hstep) cs⟩

theorem runsOver_iff {text : List Char} :
    RunsOver base text ↔ readDigits base 0 text = .error .tooLarge := by
  rw [readDigits_eq_tooLarge_iff (by decide)]
  constructor
  · rintro ⟨run, rest, n, htext, ⟨-, ds, hds, rfl⟩, hle⟩
    exact ⟨run, rest, ds, htext, hds, by rwa [zero_mul, zero_add]⟩
  · rintro ⟨run, rest, ds, htext, hds, hle⟩
    rw [zero_mul, zero_add] at hle
    refine ⟨run, rest, _, htext, ⟨?_, ds, hds, rfl⟩, hle⟩
    rintro rfl
    cases hds
    rw [List.reverse_nil, Nat.ofDigits_nil] at hle
    exact absurd hle (by decide)

theorem readDigits_ne_empty (v : ℕ) (text : List Char) :
    readDigits base v text ≠ .error .empty := by
  fun_induction readDigits base v text <;> simp_all

/-- What is no digit denotes nothing, and nothing behind it counts. -/
theorem not_runsOver_cons {c : Char} (hc : digitValue base c = none) (cs : List Char) :
    ¬RunsOver base (c :: cs) := by
  rw [runsOver_iff, readDigits, hc]
  simp

theorem readSigned_eq_empty_iff {text : List Char} :
    readSigned base text = .error .empty ↔ text = [] := by
  rw [readSigned.eq_def]
  split
  next => simp
  next c cs => simp [readDigits_ne_empty]
  next hnil _ => exact iff_of_false (readDigits_ne_empty 0 text) fun h => hnil h

theorem readSigned_eq_tooLarge_iff {text : List Char} :
    readSigned base text = .error .tooLarge ↔
      RunsOver base text ∨ ∃ rest, text = '+' :: rest ∧ RunsOver base rest := by
  have hplus : ∀ cs, ¬RunsOver base ('+' :: cs) :=
    not_runsOver_cons (digitValue_eq_none (.inl rfl))
  rw [readSigned.eq_def]
  split
  next => simp [runsOver_iff, readDigits]
  next c cs => simp [hplus, ← runsOver_iff]
  next hnil hnot =>
    rw [← runsOver_iff, or_iff_left_of_imp]
    rintro ⟨_ | ⟨c, cs⟩, rfl, hrest⟩
    · -- a sign alone has no digits behind it
      rw [runsOver_iff] at hrest
      cases hrest
    · exact absurd rfl (hnot c cs)

/-- The prefix of a hexadecimal numeral is not read in decimal. -/
theorem not_runsOver_prefixed (cs : List Char) : ¬RunsOver 10 ('0' :: 'x' :: cs) := by
  rw [runsOver_iff, readDigits_cons (d := 0) rfl, if_pos (by decide), readDigits,
    digitValue_eq_none (.inr rfl)]
  simp

theorem isTooLarge_prefixed_iff {text : List Char} :
    IsTooLarge ('0' :: 'x' :: text) ↔
      RunsOver 16 text ∨ ∃ rest, text = '+' :: rest ∧ RunsOver 16 rest := by
  constructor
  · rintro ⟨opening, base, rest, hopening, htext, hrest⟩
    cases hopening with
    | bare =>
      rw [List.nil_append] at htext
      rw [← htext] at hrest
      exact absurd hrest (not_runsOver_prefixed text)
    | plus => simp at htext
    | hexadecimal =>
      obtain rfl : text = rest := by simpa using htext
      exact .inl hrest
    | hexadecimalPlus =>
      obtain rfl : text = '+' :: rest := by simpa using htext
      exact .inr ⟨rest, rfl, hrest⟩
  · rintro (hrest | ⟨rest, rfl, hrest⟩)
    · exact ⟨_, 16, text, .hexadecimal, rfl, hrest⟩
    · exact ⟨_, 16, rest, .hexadecimalPlus, rfl, hrest⟩

theorem isTooLarge_iff_of_not_prefixed {text : List Char} (h : ∀ cs, text ≠ '0' :: 'x' :: cs) :
    IsTooLarge text ↔ RunsOver 10 text ∨ ∃ rest, text = '+' :: rest ∧ RunsOver 10 rest := by
  constructor
  · rintro ⟨opening, base, rest, hopening, htext, hrest⟩
    cases hopening with
    | bare =>
      obtain rfl : text = rest := htext
      exact .inl hrest
    | plus => exact .inr ⟨rest, htext, hrest⟩
    | hexadecimal => exact absurd htext (h _)
    | hexadecimalPlus => exact absurd htext (h _)
  · rintro (hrest | ⟨rest, rfl, hrest⟩)
    · exact ⟨[], 10, text, .bare, rfl, hrest⟩
    · exact ⟨['+'], 10, rest, .plus, rfl, hrest⟩

/-- The numbers that can be read are those of 64 bits. -/
theorem exists_denotes_iff {text : List Char} :
    (∃ n < UInt64.size, Denotes text n) ↔ ∃ v, read text = .ok v := by
  simp only [read_eq_ok_iff]
  constructor
  · rintro ⟨n, hlt, hn⟩
    exact ⟨.ofNat n, by rwa [UInt64.toNat_ofNat_of_lt' hlt]⟩
  · rintro ⟨v, hv⟩
    exact ⟨v.toNat, v.toNat_lt, hv⟩

/-- **Why a numeral is not read.**  There is nothing to read, or the first digits are already too
large, or, in every other case, a digit is not valid. -/
theorem read_eq_error_iff {text : List Char} {why : Fault} :
    read text = .error why ↔ Wrong text why := by
  have hmap : ∀ {result : Except Fault ℕ} {why : Fault},
      result.map UInt64.ofNat = .error why ↔ result = .error why := by
    intro result why
    cases result <;> simp [Except.map]
  have hvoid : read text = .error .empty ↔ IsVoid text := by
    rw [read.eq_def]
    split
    next cs => simp [hmap, readSigned_eq_empty_iff, IsVoid]
    next hprefix =>
      have hne : text ≠ ['0', 'x'] := fun h => hprefix [] h
      simp [hmap, readSigned_eq_empty_iff, IsVoid, hne]
  have hlarge : read text = .error .tooLarge ↔ IsTooLarge text := by
    rw [read.eq_def]
    split
    next cs => rw [hmap, readSigned_eq_tooLarge_iff, isTooLarge_prefixed_iff]
    next hprefix =>
      rw [hmap, readSigned_eq_tooLarge_iff, isTooLarge_iff_of_not_prefixed fun cs h => hprefix cs h]
  cases why with
  | empty => exact hvoid
  | tooLarge => exact hlarge
  | invalidDigit =>
    rw [Wrong, ← hvoid, ← hlarge, exists_denotes_iff]
    cases read text with
    | ok v => simp
    | error fault => cases fault <;> simp

end RehashReport.Numeral
