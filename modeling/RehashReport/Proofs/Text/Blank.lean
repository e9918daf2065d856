import Mathlib
import RehashReport.Proofs.Text.Utf8
import RehashReport.Text.Basic

/-!
# Trimming

Trimming takes blanks off both ends and nothing else (`exists_append_stripBy`), and it does not
matter how many there were (`stripBy_append`).  A field of bytes is trimmed twice, first of ASCII
blanks, as bytes, and then of all blanks, as text; that comes to the same as trimming its text
(`exists_decode_trimAscii_iff`).
-/

namespace RehashReport.Text

/-! ## Both ends of a list -/

section

variable {α : Type} {p : α → Bool}

/-- A list is what is left of it after stripping, between two runs of what was stripped. -/
theorem exists_append_stripBy (p : α → Bool) (xs : List α) :
    ∃ u v, xs = u ++ stripBy p xs ++ v ∧ (∀ x ∈ u, p x = true) ∧ ∀ x ∈ v, p x = true := by
  set ys := xs.dropWhile p with hys
  refine ⟨xs.takeWhile p, (ys.reverse.takeWhile p).reverse, ?_, ?_, ?_⟩
  · have hfront : xs.takeWhile p ++ ys = xs := List.takeWhile_append_dropWhile
    have hback : ys = (ys.reverse.dropWhile p).reverse ++ (ys.reverse.takeWhile p).reverse := by
      rw [← List.reverse_append, List.takeWhile_append_dropWhile, List.reverse_reverse]
    rw [stripBy, ← hys, List.append_assoc, ← hback, hfront]
  · intro x hx
    exact List.mem_takeWhile_imp hx
  · intro x hx
    exact List.mem_takeWhile_imp (List.mem_reverse.1 hx)

theorem dropWhile_append_of_all {u xs : List α} (hu : ∀ x ∈ u, p x = true) :
    (u ++ xs).dropWhile p = xs.dropWhile p :=
  List.dropWhile_append_of_pos hu

/-- Runs of what is stripped do not count at either end. -/
theorem stripBy_append {u v : List α} (xs : List α) (hu : ∀ x ∈ u, p x = true)
    (hv : ∀ x ∈ v, p x = true) : stripBy p (u ++ xs ++ v) = stripBy p xs := by
  rw [stripBy, List.append_assoc, dropWhile_append_of_all hu, stripBy, List.dropWhile_append]
  split_ifs with hempty
  · have hall : v.dropWhile p = [] := List.dropWhile_eq_nil_iff.2 hv
    rw [hall, List.isEmpty_iff.1 hempty]
  · have hv' : ∀ x ∈ v.reverse, p x = true := fun x hx => hv x (List.mem_reverse.1 hx)
    rw [List.reverse_append, dropWhile_append_of_all hv']

/-- Where nothing is to be stripped, nothing is. -/
theorem stripBy_eq_self {xs : List α} (h : ∀ x ∈ xs, p x = false) : stripBy p xs = xs := by
  have hdrop : ∀ ys : List α, (∀ y ∈ ys, p y = false) → ys.dropWhile p = ys := by
    intro ys hys
    cases ys with
    | nil => rfl
    | cons y ys => rw [List.dropWhile_cons, hys y List.mem_cons_self, if_neg (by simp)]
  rw [stripBy, hdrop xs h, hdrop xs.reverse fun x hx => h x (List.mem_reverse.1 hx),
    List.reverse_reverse]

end

/-! ## Blanks as bytes -/

/-- The character of a single byte. -/
def charOfByte (b : UInt8) : Char := Char.ofNat b.toNat

theorem toNat_charOfByte (b : UInt8) : (charOfByte b).toNat = b.toNat := by
  have hvalid : b.toNat.isValidChar := Or.inl (by have := b.toNat_lt; omega)
  rw [charOfByte, Char.ofNat, dif_pos hvalid]
  rfl

theorem encode_charOfByte {b : UInt8} (h : b.toNat < 0x80) :
    String.utf8EncodeChar (charOfByte b) = [b] := by
  rw [Utf8.utf8EncodeChar_of_lt (by rwa [toNat_charOfByte]), toNat_charOfByte, UInt8.ofNat_toNat]

theorem isAsciiBlank_cases {b : UInt8} (h : isAsciiBlank b = true) :
    b = 0x20 ∨ b = 0x09 ∨ b = 0x0A ∨ b = 0x0C ∨ b = 0x0D := by
  simpa [isAsciiBlank, or_assoc] using h

theorem toNat_lt_of_isAsciiBlank {b : UInt8} (h : isAsciiBlank b = true) : b.toNat < 0x80 := by
  rcases isAsciiBlank_cases h with rfl | rfl | rfl | rfl | rfl <;> decide

theorem isBlank_charOfByte {b : UInt8} (h : isAsciiBlank b = true) :
    isBlank (charOfByte b) = true := by
  rcases isAsciiBlank_cases h with rfl | rfl | rfl | rfl | rfl <;> decide

/-- A byte below `0x80` in front of a text is a character of it. -/
theorem exists_cons_of_encode {b : UInt8} (hb : b.toNat < 0x80) {text : List Char}
    {bytes : List UInt8} (h : Utf8.encode text = b :: bytes) :
    ∃ rest, text = charOfByte b :: rest ∧ Utf8.encode rest = bytes := by
  have hdecode := Utf8.decode_append (charOfByte b) bytes
  rw [encode_charOfByte hb, List.singleton_append, ← h, Utf8.decode_encode] at hdecode
  split at hdecode
  next rest hrest =>
    cases hdecode
    exact ⟨rest, rfl, Utf8.encode_of_decode hrest⟩
  next => cases hdecode

/-- A byte below `0x80` at the end of a text is a character of it. -/
theorem exists_concat_of_encode {b : UInt8} (hb : b.toNat < 0x80) {text : List Char}
    {bytes : List UInt8} (h : Utf8.encode text = bytes ++ [b]) :
    ∃ rest, text = rest ++ [charOfByte b] ∧ Utf8.encode rest = bytes := by
  rcases text.eq_nil_or_concat with rfl | ⟨rest, c, rfl⟩
  · simp at h
  · rw [List.concat_eq_append, Utf8.encode_append, Utf8.encode_cons, Utf8.encode_nil,
      List.append_nil] at h
    -- the last byte tells that the last character is a single byte
    have hmem : b ∈ String.utf8EncodeChar c := by
      have hlast := congrArg List.getLast? h
      rw [List.getLast?_append_of_ne_nil _ (Utf8.utf8EncodeChar_ne_nil c),
        List.getLast?_concat] at hlast
      exact List.mem_of_getLast? hlast
    have hc : c.toNat < 0x80 := by
      by_contra hge
      have hle := Utf8.le_of_mem_utf8EncodeChar (not_lt.1 hge) hmem
      rw [UInt8.le_iff_toNat_le] at hle
      have : (0x80 : UInt8).toNat = 0x80 := rfl
      omega
    have hsingle : String.utf8EncodeChar c = [b] := by
      rw [Utf8.utf8EncodeChar_of_lt hc] at hmem ⊢
      rw [List.mem_singleton.1 hmem]
    have hbytes : Utf8.encode [c] = Utf8.encode [charOfByte b] := by
      simp [hsingle, encode_charOfByte hb]
    have hchar : c = charOfByte b := List.singleton_injective (Utf8.encode_injective hbytes)
    rw [hsingle] at h
    exact ⟨rest, by rw [List.concat_eq_append, hchar], List.append_cancel_right h⟩

theorem encode_map_charOfByte {bytes : List UInt8} (h : ∀ b ∈ bytes, isAsciiBlank b = true) :
    Utf8.encode (bytes.map charOfByte) = bytes := by
  induction bytes with
  | nil => rfl
  | cons b bs ih =>
    have hb := toNat_lt_of_isAsciiBlank (h b List.mem_cons_self)
    rw [List.map_cons, Utf8.encode_cons, encode_charOfByte hb,
      ih fun x hx => h x (List.mem_cons_of_mem b hx)]
    rfl

/-- ASCII blanks around bytes are characters around their text. -/
theorem encode_eq_append_iff {u v bytes : List UInt8} (hu : ∀ b ∈ u, isAsciiBlank b = true)
    (hv : ∀ b ∈ v, isAsciiBlank b = true) {text : List Char} :
    Utf8.encode text = u ++ bytes ++ v ↔
      ∃ inner, text = u.map charOfByte ++ inner ++ v.map charOfByte ∧
        Utf8.encode inner = bytes := by
  constructor
  · intro h
    induction u generalizing text with
    | cons b u ih =>
      obtain ⟨rest, rfl, hrest⟩ :=
        exists_cons_of_encode (toNat_lt_of_isAsciiBlank (hu b List.mem_cons_self)) h
      obtain ⟨inner, rfl, hinner⟩ := ih (fun x hx => hu x (List.mem_cons_of_mem b hx)) hrest
      exact ⟨inner, rfl, hinner⟩
    | nil =>
      rw [List.nil_append] at h
      -- the blanks behind are taken off from the last one on
      induction v using List.reverseRecOn generalizing text with
      | nil => exact ⟨text, by simp, by simpa using h⟩
      | append_singleton v b ih =>
        rw [← List.append_assoc] at h
        obtain ⟨rest, rfl, hrest⟩ :=
          exists_concat_of_encode (toNat_lt_of_isAsciiBlank (hv b (by simp))) h
        obtain ⟨inner, rfl, hinner⟩ :=
          ih (fun x hx => hv x (List.mem_append_left [b] hx)) hrest
        exact ⟨inner, by simp, hinner⟩
  · rintro ⟨inner, rfl, hinner⟩
    rw [Utf8.encode_append, Utf8.encode_append, hinner, encode_map_charOfByte hu,
      encode_map_charOfByte hv]

/-- Trimming bytes and then what they encode is trimming their text. -/
theorem exists_decode_trimAscii_iff {field : List UInt8} {trimmed : List Char} :
    (∃ text, Utf8.decode (trimAscii field) = .ok text ∧ trim text = trimmed) ↔
      ∃ text, Utf8.encode text = field ∧ trim text = trimmed := by
  obtain ⟨u, v, hfield, hu, hv⟩ := exists_append_stripBy isAsciiBlank field
  have hblank : ∀ {ws : List UInt8}, (∀ b ∈ ws, isAsciiBlank b = true) →
      ∀ c ∈ ws.map charOfByte, isBlank c = true := by
    intro ws hws c hc
    obtain ⟨b, hb, rfl⟩ := List.mem_map.1 hc
    exact isBlank_charOfByte (hws b hb)
  have htrim : ∀ inner : List Char,
      trim (u.map charOfByte ++ inner ++ v.map charOfByte) = trim inner := fun inner =>
    stripBy_append inner (hblank hu) (hblank hv)
  constructor
  · rintro ⟨inner, hinner, rfl⟩
    rw [Utf8.decode_eq_ok_iff] at hinner
    refine ⟨u.map charOfByte ++ inner ++ v.map charOfByte, ?_, htrim inner⟩
    rw [hfield, encode_eq_append_iff hu hv]
    exact ⟨inner, rfl, hinner⟩
  · rintro ⟨text, htext, rfl⟩
    rw [hfield, encode_eq_append_iff hu hv] at htext
    obtain ⟨inner, rfl, hinner⟩ := htext
    exact ⟨inner, Utf8.decode_eq_ok_iff.2 hinner, (htrim inner).symm⟩

end RehashReport.Text
