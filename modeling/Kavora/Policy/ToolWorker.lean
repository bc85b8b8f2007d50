import Kavora.Lib.Base64

/-!
# The tool worker's Base64 decoder (`bin/kavora-tool-worker.rs`)

The worker decodes the WASM module of an invocation before it checks its digest. The decoder shifts
six bits of each character into a buffer and takes a byte out when there are eight.

* `decodeBase64`: the decoder; an operation that leaves its machine type is `none`.
* `Decoder.Read`: what the decoder knows of the digits it has read; `push_spec` keeps it.
* `decode_inverts_encode`: the decoder inverts the standard encoding and never leaves its types.
-/

namespace Kavora.Policy.ToolWorker

open Lib

/-! ## Machine arithmetic -/

/-- `value << shift` on `u32`; `none` if the shift is out of range or a bit is lost. -/
def shl32 (value shift : Nat) : Option Nat :=
  if shift < 32 ∧ value <<< shift < 2 ^ 32 then some (value <<< shift) else none

/-- `value >> shift` on `u32`; `none` if the shift is out of range. -/
def shr32 (value shift : Nat) : Option Nat := if shift < 32 then some (value >>> shift) else none

/-- `left + right` on `u8`; `none` if it overflows. -/
def add8 (left right : Nat) : Option Nat :=
  if left + right < 2 ^ 8 then some (left + right) else none

/-! ## The decoder -/

/-- What a character says. -/
inductive Symbol where
  | digit (n : Nat)
  | padding
  | invalid
  deriving DecidableEq

/-- What a byte is in base64. -/
def symbol (byte : UInt8) : Symbol :=
  if 65 ≤ byte ∧ byte ≤ 90 then .digit (byte.toNat - 65)
  else if 97 ≤ byte ∧ byte ≤ 122 then .digit (byte.toNat - 97 + 26)
  else if 48 ≤ byte ∧ byte ≤ 57 then .digit (byte.toNat - 48 + 52)
  else if byte = 43 then .digit 62
  else if byte = 47 then .digit 63
  else if byte = 61 then .padding
  else .invalid

/-- The bytes so far, and the bits that make no byte yet. -/
structure Decoder where
  output : Bytes
  buffer : Nat
  bits : Nat

namespace Decoder

/-- A decoder before the first byte. -/
def new : Decoder where
  output := []
  buffer := 0
  bits := 0

/-- One digit. -/
def push (d : Decoder) (digit : Nat) : Option Decoder := do
  let shifted ← shl32 d.buffer 6
  let buffer := shifted ||| digit
  let bits ← add8 d.bits 6
  if bits ≥ 8 then
    let bits := bits - 8
    let byte ← shr32 buffer bits
    let mask ← shl32 1 bits
    -- The cast to `u8` keeps the last eight bits.
    return { output := d.output ++ [.ofNat byte], buffer := buffer &&& (mask - 1), bits }
  else return { d with buffer, bits }

/-- The loop over the bytes of the text. -/
def read (d : Decoder) : Bytes → Option (Except String Decoder)
  | [] => some (.ok d)
  | byte :: rest =>
    match symbol byte with
    | .digit n => (d.push n).bind fun d => d.read rest
    | .padding => some (.ok d)
    | .invalid => some (.error "invalid base64")

end Decoder

/-- `decode_base64`; `none` if an operation leaves its machine type. -/
def decodeBase64 (value : Bytes) : Option (Except String Bytes) :=
  (Decoder.new.read value).map fun result => result.map (·.output)

/-! ## The buffer -/

open Base64

/-- The output and the buffer are the bits of the digits that were read. -/
structure Decoder.Read (digits : List Nat) (d : Decoder) : Prop where
  value : valueOf 64 digits = valueOf 256 (d.output.map (·.toNat)) * 2 ^ d.bits + d.buffer
  buffer : d.buffer < 2 ^ d.bits
  length : 6 * digits.length = 8 * d.output.length + d.bits
  bits : d.bits < 8

theorem shl32_eq {value shift : Nat} (hshift : shift < 32) (h : value * 2 ^ shift < 2 ^ 32) :
    shl32 value shift = some (value * 2 ^ shift) := by
  rw [← Nat.shiftLeft_eq] at h ⊢
  exact if_pos ⟨hshift, h⟩

theorem symbol_lt {byte : UInt8} {n : Nat} (h : symbol byte = .digit n) : n < 64 := by
  simp only [symbol, UInt8.le_iff_toNat_le] at h
  grind

namespace Decoder

theorem new_read : Read [] new where
  value := rfl
  buffer := Nat.one_pos
  length := rfl
  bits := by decide

/-- **A digit keeps the invariant**, and no operation leaves its type. -/
theorem push_spec {digits : List Nat} {d : Decoder} (h : Read digits d) {n : Nat} (hn : n < 64) :
    ∃ d', d.push n = some d' ∧ Read (digits ++ [n]) d' := by
  obtain ⟨output, buffer, bits⟩ := d
  obtain ⟨hvalue, hbuffer, hlength, hbits⟩ := h
  dsimp only at hvalue hbuffer hlength hbits
  have hsmall : buffer < 2 ^ 8 :=
    hbuffer.trans_le (Nat.pow_le_pow_right Nat.two_pos hbits.le)
  have hshift : shl32 buffer 6 = some (buffer * 2 ^ 6) := shl32_eq (by decide) (by omega)
  have hor : buffer * 2 ^ 6 ||| n = buffer * 64 + n := by
    rw [← Nat.shiftLeft_eq, ← Nat.shiftLeft_add_eq_or_of_lt hn, Nat.shiftLeft_eq]
  have hadd : add8 bits 6 = some (bits + 6) := if_pos (by omega)
  have hnext : valueOf 64 (digits ++ [n]) =
      valueOf 256 (output.map (·.toNat)) * 2 ^ (bits + 6) + (buffer * 64 + n) := by
    rw [valueOf_concat, hvalue, pow_add]
    ring
  have hpush : buffer * 64 + n < 2 ^ (bits + 6) := by
    rw [pow_add]
    omega
  have hdigits : 6 * (digits ++ [n]).length = 8 * output.length + (bits + 6) := by
    rw [List.length_append, List.length_singleton]
    omega
  by_cases hfull : bits + 6 ≥ 8
  · -- A byte comes out, and `rest` bits stay.
    obtain ⟨rest, hrest⟩ : ∃ rest, bits + 6 = rest + 8 := ⟨bits - 2, by omega⟩
    rw [hrest, pow_add] at hnext hpush
    have hbyte : (buffer * 64 + n) / 2 ^ rest < 256 := Nat.div_lt_of_lt_mul hpush
    have hshr : shr32 (buffer * 64 + n) rest = some ((buffer * 64 + n) / 2 ^ rest) := by
      rw [← Nat.shiftRight_eq_div_pow]
      exact if_pos (by omega)
    have hmask : shl32 1 rest = some (2 ^ rest) := by
      have hpower : 2 ^ rest < 2 ^ 32 := Nat.pow_lt_pow_right (by decide) (by omega)
      rw [shl32_eq (by omega) (by rwa [Nat.one_mul]), Nat.one_mul]
    refine ⟨{ output := output ++ [.ofNat ((buffer * 64 + n) / 2 ^ rest)]
              buffer := (buffer * 64 + n) % 2 ^ rest, bits := rest }, ?_, ?_, ?_, ?_, ?_⟩
    · unfold push
      simp only [hshift, hadd, hor, Option.bind_eq_bind, Option.bind_some, if_pos hfull]
      rw [show bits + 6 - 8 = rest by omega, hshr, Option.bind_some, hmask, Option.bind_some,
        Nat.and_two_pow_sub_one_eq_mod]
      rfl
    · rw [hnext, List.map_append, List.map_singleton, valueOf_concat,
        UInt8.toNat_ofNat_of_lt' hbyte]
      have hsplit := Nat.div_add_mod (buffer * 64 + n) (2 ^ rest)
      calc _ = valueOf 256 (output.map (·.toNat)) * (2 ^ rest * 2 ^ 8) +
            (2 ^ rest * ((buffer * 64 + n) / 2 ^ rest) + (buffer * 64 + n) % 2 ^ rest) := by
            rw [hsplit]
        _ = _ := by ring
    · exact Nat.mod_lt _ (Nat.two_pow_pos rest)
    · rw [hdigits, List.length_append, List.length_singleton, hrest]
      ring
    · show rest < 8
      omega
  · refine ⟨{ output, buffer := buffer * 64 + n, bits := bits + 6 }, ?_, hnext, hpush, hdigits, ?_⟩
    · unfold push
      simp only [hshift, hadd, hor, Option.bind_eq_bind, Option.bind_some, if_neg hfull]
      rfl
    · show bits + 6 < 8
      omega

/-- Any text is read without leaving the types. -/
theorem read_isSome {digits : List Nat} {d : Decoder} (h : Read digits d) (value : Bytes) :
    (d.read value).isSome := by
  induction value generalizing digits d with
  | nil => rfl
  | cons byte rest ih =>
    rw [read]
    split
    · rename_i n hn
      obtain ⟨d', hpush, hread⟩ := push_spec h (symbol_lt hn)
      rw [hpush, Option.bind_some]
      exact ih hread
    · rfl
    · rfl

/-- The characters of some digits are read up to what follows them. -/
theorem read_characters {digits : List Nat} {d : Decoder} (h : Read digits d) {more : List Nat}
    (hmore : ∀ n ∈ more, n < 64) (rest : Bytes) :
    ∃ d', Read (digits ++ more) d' ∧ d.read (more.map character ++ rest) = d'.read rest := by
  induction more generalizing digits d with
  | nil => exact ⟨d, by rwa [List.append_nil], rfl⟩
  | cons n more ih =>
    rw [List.forall_mem_cons] at hmore
    obtain ⟨next, hpush, hnext⟩ := push_spec h hmore.1
    obtain ⟨d', hread, heq⟩ := ih hnext hmore.2
    refine ⟨d', by rwa [List.append_assoc] at hread, ?_⟩
    have hsymbol : symbol (character n) = .digit n := by
      have hn := hmore.1
      clear * - hn
      interval_cases n <;> rfl
    rw [List.map_cons, List.cons_append, read, hsymbol]
    dsimp only
    rw [hpush, Option.bind_some, heq]

/-- After the digits of some bytes the output is these bytes. -/
theorem output_of_read {data : Bytes} {d : Decoder} (h : Read (digits data) d) :
    d.output = data := by
  obtain ⟨hvalue, hbuffer, hlength, hbits⟩ := h
  have hfill : fill data < 6 := by
    unfold fill
    omega
  rw [length_digits] at hlength
  have hbits : d.bits = fill data := by omega
  refine eq_of_valueOf (by omega) ?_
  rw [valueOf_digits, hbits] at hvalue
  rw [hbits] at hbuffer
  have hpos := Nat.two_pow_pos (fill data)
  have hdiv := congrArg (· / 2 ^ fill data) hvalue
  rw [Nat.mul_div_cancel _ hpos, Nat.mul_comm, Nat.mul_add_div hpos, Nat.div_eq_of_lt hbuffer,
    Nat.add_zero] at hdiv
  exact hdiv.symm

end Decoder

/-- The encoding of some bytes, and what ends the loop behind it. -/
theorem decodeBase64_encode (data : Bytes) {rest : Bytes}
    (hrest : ∀ d : Decoder, d.read rest = some (.ok d)) :
    decodeBase64 (encodeUnpadded data ++ rest) = some (.ok data) := by
  obtain ⟨d, hread, heq⟩ := Decoder.read_characters Decoder.new_read digits_lt rest
  unfold decodeBase64 encodeUnpadded
  rw [heq, hrest, Option.map_some, Except.map, Decoder.output_of_read hread]

/-- **The decoder inverts the encoding**, with or without padding, and on any text no operation
leaves its machine type. -/
theorem decode_inverts_encode :
    (∀ data, decodeBase64 (encode data) = some (.ok data) ∧
      decodeBase64 (encodeUnpadded data) = some (.ok data)) ∧
    ∀ value, decodeBase64 value ≠ none := by
  refine ⟨fun data => ⟨decodeBase64_encode data fun d => ?_, ?_⟩, fun value hnone => ?_⟩
  · cases fill data / 2 with
    | zero => rfl
    | succ n => rfl
  · have hplain := @decodeBase64_encode data [] fun _ => rfl
    rwa [List.append_nil] at hplain
  · have hsome := Decoder.read_isSome Decoder.new_read value
    rw [Option.map_eq_none_iff.mp hnone] at hsome
    cases hsome

end Kavora.Policy.ToolWorker
