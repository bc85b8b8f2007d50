import Kavora.Lib.Bytes

/-!
# Texts and their bytes

A text is a list of characters, and a file holds its UTF-8 bytes.

* `encode`: the bytes of a text.
* `decode`: the text of some bytes, if all of them decode (`bytes.decode` of Python).
* `runes`: the text with the replacement character for each byte that does not decode, as Go reads
  a string.
-/

namespace Kavora.Lib.Utf8

/-- The bytes of a text. -/
def encode (text : List Char) : Bytes := text.flatMap String.utf8EncodeChar

/-- The character that some bytes start with. -/
def decodeChar (bytes : Bytes) : Option Char :=
  ByteArray.utf8DecodeChar? (bytes.take 4).toByteArray 0

/-- The characters of some bytes and `none` for each byte that does not decode. The first `skip`
bytes belong to a character that was read. -/
def units (skip : Nat) : Bytes → List (Option Char)
  | [] => []
  | b :: bytes =>
    match skip with
    | k + 1 => units k bytes
    | 0 =>
      match decodeChar (b :: bytes) with
      | some c => some c :: units (c.utf8Size - 1) bytes
      | none => none :: units 0 bytes

/-- The characters of a byte string that is UTF-8. -/
def decode (bytes : Bytes) : Option (List Char) := (units 0 bytes).mapM id

/-- The characters of a byte string, with U+FFFD for what is not UTF-8. -/
def runes (bytes : Bytes) : List Char := (units 0 bytes).map (·.getD '\uFFFD')

theorem encode_cons (c : Char) (text : List Char) :
    encode (c :: text) = String.utf8EncodeChar c ++ encode text := List.flatMap_cons

theorem encode_append (text text' : List Char) :
    encode (text ++ text') = encode text ++ encode text' := List.flatMap_append

theorem decodeChar_encode (c : Char) (bytes : Bytes) :
    decodeChar (String.utf8EncodeChar c ++ bytes) = some c := by
  have hlength : (String.utf8EncodeChar c).length ≤ 4 := by
    rw [String.length_utf8EncodeChar]
    exact c.utf8Size_le_four
  unfold decodeChar
  rw [List.take_append, List.take_of_length_le hlength, List.toByteArray_append]
  exact ByteArray.utf8DecodeChar?_utf8EncodeChar_append

theorem units_skip (skipped bytes : Bytes) :
    units skipped.length (skipped ++ bytes) = units 0 bytes := by
  induction skipped with
  | nil => rfl
  | cons b skipped ih => exact ih

theorem units_encode_char (c : Char) (bytes : Bytes) :
    units 0 (String.utf8EncodeChar c ++ bytes) = some c :: units 0 bytes := by
  have hlength := String.length_utf8EncodeChar c
  have hdecode := decodeChar_encode c bytes
  cases hbytes : String.utf8EncodeChar c with
  | nil => exact absurd hbytes String.utf8EncodeChar_ne_nil
  | cons b tail =>
    rw [hbytes, List.length_cons] at hlength
    rw [hbytes, List.cons_append] at hdecode
    rw [List.cons_append, units, hdecode]
    show some c :: units (c.utf8Size - 1) (tail ++ bytes) = some c :: units 0 bytes
    rw [← hlength, Nat.add_sub_cancel, units_skip]

theorem units_encode (text : List Char) : units 0 (encode text) = text.map some := by
  induction text with
  | nil => rfl
  | cons c text ih => rw [encode_cons, units_encode_char, ih, List.map_cons]

theorem decode_encode (text : List Char) : decode (encode text) = some text := by
  unfold decode
  rw [units_encode]
  induction text with
  | nil => rfl
  | cons c text ih => simp [List.mapM_cons, ih]

theorem runes_encode (text : List Char) : runes (encode text) = text := by
  unfold runes
  rw [units_encode, List.map_map]
  exact List.map_id text

/-- A byte below 128 is a character of its own. -/
theorem toNat_of_mem_utf8EncodeChar {b : UInt8} {c : Char} (h : b ∈ String.utf8EncodeChar c)
    (hb : b.toNat < 128) : c.toNat = b.toNat := by
  have hvalue : c.toNat = c.val.toNat := rfl
  unfold String.utf8EncodeChar at h
  simp only at h
  split at h
  · rw [List.mem_singleton] at h
    rw [h, UInt8.toNat_ofNat'] at hb ⊢
    omega
  · -- the bytes of a longer sequence are at least 128
    exfalso
    have hlarge : ∀ n low : Nat, 128 ≤ low → n + low < 256 → b ≠ UInt8.ofNat (n + low) := by
      intro n low hlow hlt heq
      rw [heq, UInt8.toNat_ofNat'] at hb
      omega
    split at h
    · simp only [List.mem_cons, List.not_mem_nil, or_false] at h
      rcases h with h | h
      · exact hlarge _ _ (by omega) (by omega) h
      · exact hlarge _ _ (by omega) (by omega) h
    · split at h
      · simp only [List.mem_cons, List.not_mem_nil, or_false] at h
        rcases h with h | h | h
        · exact hlarge _ _ (by omega) (by omega) h
        · exact hlarge _ _ (by omega) (by omega) h
        · exact hlarge _ _ (by omega) (by omega) h
      · simp only [List.mem_cons, List.not_mem_nil, or_false] at h
        rcases h with h | h | h | h
        · exact hlarge _ _ (by omega) (by omega) h
        · exact hlarge _ _ (by omega) (by omega) h
        · exact hlarge _ _ (by omega) (by omega) h
        · exact hlarge _ _ (by omega) (by omega) h

theorem mem_of_mem_encode {b : UInt8} {text : List Char} (h : b ∈ encode text)
    (hb : b.toNat < 128) : Char.ofNat b.toNat ∈ text := by
  obtain ⟨c, hc, hmem⟩ := List.mem_flatMap.mp h
  rw [← toNat_of_mem_utf8EncodeChar hmem hb, Char.ofNat_toNat]
  exact hc

end Kavora.Lib.Utf8
