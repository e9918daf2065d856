import Mathlib
import RehashReport.Text.Basic

/-!
# Text and its bytes

Decoding and encoding are inverse to each other: the bytes of a text decode to it
(`decode_encode`), and bytes that decode to a text are the bytes of that text
(`encode_of_decode`).  Characters below `0x80` are single bytes of the same number, and no other
character has such a byte in its encoding (`utf8EncodeChar_of_lt`, `le_of_mem_utf8EncodeChar`).
-/

namespace RehashReport.Utf8

/-! ## One character -/

theorem next_append (c : Char) (bytes : List UInt8) :
    next (String.utf8EncodeChar c ++ bytes) = some c := by
  have hlen : (String.utf8EncodeChar c).length ≤ 4 := by
    rw [String.length_utf8EncodeChar]
    exact c.utf8Size_le_four
  rw [next, List.take_append, List.take_of_length_le hlen, List.toByteArray_append]
  exact ByteArray.utf8DecodeChar?_utf8EncodeChar_append

/-- What a character is read from starts with its encoding. -/
theorem eq_append_of_next {bytes : List UInt8} {c : Char} (h : next bytes = some c) :
    bytes = String.utf8EncodeChar c ++ bytes.drop c.utf8Size := by
  obtain ⟨rest, hrest⟩ := ByteArray.exists_of_utf8DecodeChar?_eq_some h
  have htake : bytes.take 4 = String.utf8EncodeChar c ++ rest.data.toList := by
    have h := congrArg (fun b => b.data.toList) hrest
    simpa using h
  have hlen := String.length_utf8EncodeChar c
  have hfront : bytes.take c.utf8Size = String.utf8EncodeChar c := by
    have h := congrArg (List.take c.utf8Size) htake
    rwa [List.take_take, Nat.min_eq_left c.utf8Size_le_four, ← hlen, List.take_left,
      hlen] at h
  rw [← hfront, List.take_append_drop]

/-! ## Texts -/

@[simp] theorem encode_nil : encode [] = [] := rfl

@[simp] theorem encode_cons (c : Char) (cs : List Char) :
    encode (c :: cs) = String.utf8EncodeChar c ++ encode cs := rfl

theorem encode_append (s t : List Char) : encode (s ++ t) = encode s ++ encode t :=
  List.flatMap_append

theorem utf8EncodeChar_ne_nil (c : Char) : String.utf8EncodeChar c ≠ [] := by
  rw [← List.length_pos_iff_ne_nil, String.length_utf8EncodeChar]
  exact c.utf8Size_pos

/-- Decoding a text reads its first character and goes on with the rest. -/
theorem decode_append (c : Char) (bytes : List UInt8) :
    decode (String.utf8EncodeChar c ++ bytes) =
      match decode bytes with
      | .ok cs => .ok (c :: cs)
      | .error n => .error (c.utf8Size + n) := by
  have hnext := next_append c bytes
  have hdrop : (String.utf8EncodeChar c ++ bytes).drop c.utf8Size = bytes :=
    List.drop_left' (String.length_utf8EncodeChar c)
  cases hbytes : String.utf8EncodeChar c ++ bytes with
  | nil => exact absurd (List.append_eq_nil_iff.1 hbytes).1 (utf8EncodeChar_ne_nil c)
  | cons b bs =>
    rw [hbytes] at hnext hdrop
    rw [decode, hnext]
    dsimp only
    cases hrest : decode bytes <;> rw [hdrop, hrest]

/-- A text is read back from its bytes. -/
@[simp] theorem decode_encode (text : List Char) : decode (encode text) = .ok text := by
  induction text with
  | nil => rw [encode_nil, decode]
  | cons c cs ih => rw [encode_cons, decode_append, ih]

/-- Only the bytes of a text are read as that text. -/
theorem encode_of_decode {bytes : List UInt8} {text : List Char} (h : decode bytes = .ok text) :
    encode text = bytes := by
  induction text generalizing bytes with
  | nil =>
    cases bytes with
    | nil => rfl
    | cons b bs =>
      rw [decode] at h
      split at h
      · cases h
      · split at h <;> cases h
  | cons c cs ih =>
    cases bytes with
    | nil => rw [decode] at h; cases h
    | cons b bs =>
      rw [decode] at h
      split at h
      · cases h
      next d hnext =>
        split at h
        next ds hrest =>
          cases h
          rw [encode_cons, ih hrest, ← eq_append_of_next hnext]
        next => cases h

theorem decode_eq_ok_iff {bytes : List UInt8} {text : List Char} :
    decode bytes = .ok text ↔ encode text = bytes := by
  constructor
  · exact encode_of_decode
  · rintro rfl
    exact decode_encode text

/-- Texts with the same bytes are equal. -/
theorem encode_injective : Function.Injective encode := by
  intro s t h
  have hs := decode_encode s
  rw [h, decode_encode] at hs
  exact (Except.ok.inj hs).symm

/-! ## Single bytes -/

theorem utf8EncodeChar_of_lt {c : Char} (h : c.toNat < 0x80) :
    String.utf8EncodeChar c = [UInt8.ofNat c.toNat] := by
  have h : c.val.toNat ≤ 0x7f := by
    have : c.val.toNat < 0x80 := h
    omega
  rw [String.utf8EncodeChar, if_pos h]
  rfl

/-- The encoding of a character from `0x80` on has no byte below. -/
theorem le_of_mem_utf8EncodeChar {c : Char} (h : 0x80 ≤ c.toNat) {b : UInt8}
    (hb : b ∈ String.utf8EncodeChar c) : 0x80 ≤ b := by
  have h : ¬c.val.toNat ≤ 0x7f := by
    have : 0x80 ≤ c.val.toNat := h
    omega
  have hbyte : ∀ n, 0x80 ≤ n → n < 0x100 → 0x80 ≤ UInt8.ofNat n := by
    intro n hlow hlt
    rw [UInt8.le_iff_toNat_le, UInt8.toNat_ofNat_of_lt' (show n < 256 by omega)]
    exact hlow
  rw [String.utf8EncodeChar, if_neg h] at hb
  split_ifs at hb <;> simp only [List.mem_cons, List.not_mem_nil, or_false] at hb <;>
    rcases hb with rfl | rfl | rfl | rfl <;> exact hbyte _ (by omega) (by omega)

end RehashReport.Utf8
