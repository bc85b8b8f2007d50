import Mathlib.Data.Nat.Digits.Lemmas
import Kavora.Lib.Bytes

/-!
# Base64

The standard encoding writes three bytes as four digits of six bits. The last group of one or two
bytes is filled with zero bits, and with `=` to four characters in the padded form.

* `valueOf`: the number that a list of digits writes, the most significant digit first.
* `digits`: the digits of some bytes; `valueOf_digits` says what number they write.
* `encode`, `encodeUnpadded`: the two forms.
-/

namespace Kavora.Lib.Base64

/-! ## Numbers -/

/-- The number that the digits write in base `b`, the most significant one first. -/
def valueOf (b : Nat) (digits : List Nat) : Nat := Nat.ofDigits b digits.reverse

@[simp] theorem valueOf_nil (b : Nat) : valueOf b [] = 0 := rfl

theorem valueOf_concat (b : Nat) (digits : List Nat) (d : Nat) :
    valueOf b (digits ++ [d]) = valueOf b digits * b + d := by
  unfold valueOf
  rw [List.reverse_concat, Nat.ofDigits_cons, Nat.add_comm, Nat.mul_comm]

theorem valueOf_cons (b d : Nat) (digits : List Nat) :
    valueOf b (d :: digits) = d * b ^ digits.length + valueOf b digits := by
  unfold valueOf
  rw [List.reverse_cons, Nat.ofDigits_append, List.length_reverse, Nat.ofDigits_singleton,
    Nat.add_comm, Nat.mul_comm]

/-- Bytes of one length that write the same number are the same. -/
theorem eq_of_valueOf {xs ys : Bytes} (hlength : xs.length = ys.length)
    (h : valueOf 256 (xs.map (·.toNat)) = valueOf 256 (ys.map (·.toNat))) : xs = ys := by
  have hlt : ∀ (zs : Bytes), ∀ n ∈ (zs.map (·.toNat)).reverse, n < 256 := by
    intro zs n hn
    obtain ⟨z, -, rfl⟩ := List.mem_map.mp (List.mem_reverse.mp hn)
    exact z.toNat_lt
  have heq := Nat.ofDigits_inj_of_len_eq (by decide) (by simp [hlength]) (hlt xs) (hlt ys) h
  exact List.map_injective_iff.mpr (fun _ _ => UInt8.toNat_inj.mp) (List.reverse_injective heq)

/-! ## Digits -/

/-- The digits of some bytes. -/
def digits : Bytes → List Nat
  | [] => []
  | [x] => [x.toNat / 4, x.toNat % 4 * 16]
  | [x, y] => [x.toNat / 4, x.toNat % 4 * 16 + y.toNat / 16, y.toNat % 16 * 4]
  | x :: y :: z :: data =>
    x.toNat / 4 :: (x.toNat % 4 * 16 + y.toNat / 16) :: (y.toNat % 16 * 4 + z.toNat / 64) ::
      z.toNat % 64 :: digits data

/-- How many zero bits fill the last digit. -/
def fill (data : Bytes) : Nat := 2 * ((3 - data.length % 3) % 3)

theorem digits_lt {data : Bytes} : ∀ d ∈ digits data, d < 64 := by
  fun_induction digits data with
  | case1 => exact fun d hd => absurd hd List.not_mem_nil
  | case2 x =>
    have := x.toNat_lt
    simp only [List.forall_mem_cons]
    exact ⟨by omega, by omega, nofun⟩
  | case3 x y =>
    have := x.toNat_lt
    have := y.toNat_lt
    simp only [List.forall_mem_cons]
    exact ⟨by omega, by omega, by omega, nofun⟩
  | case4 x y z data ih =>
    have := x.toNat_lt
    have := y.toNat_lt
    have := z.toNat_lt
    simp only [List.forall_mem_cons]
    exact ⟨by omega, by omega, by omega, by omega, ih⟩

/-- The digits have the bits of the bytes and those that fill the last one. -/
theorem length_digits (data : Bytes) :
    6 * (digits data).length = 8 * data.length + fill data := by
  fun_induction digits data with
  | case1 => rfl
  | case2 x => rfl
  | case3 x y => rfl
  | case4 x y z data ih =>
    unfold fill at ih ⊢
    simp only [List.length_cons]
    omega

/-- **The digits write the number of the bytes**, with zeros behind it. -/
theorem valueOf_digits (data : Bytes) :
    valueOf 64 (digits data) = valueOf 256 (data.map (·.toNat)) * 2 ^ fill data := by
  fun_induction digits data with
  | case1 => rfl
  | case2 x =>
    rw [show fill [x] = 4 from rfl]
    simp only [valueOf_cons, valueOf_nil, List.map_cons, List.map_nil, List.length_cons,
      List.length_nil]
    omega
  | case3 x y =>
    rw [show fill [x, y] = 2 from rfl]
    simp only [valueOf_cons, valueOf_nil, List.map_cons, List.map_nil, List.length_cons,
      List.length_nil]
    omega
  | case4 x y z data ih =>
    have hfill : fill (x :: y :: z :: data) = fill data := by
      simp only [fill, List.length_cons]
      omega
    -- The group before `data` has its 24 bits in both numbers.
    have hgroup : x.toNat / 4 * 64 ^ 3 + (x.toNat % 4 * 16 + y.toNat / 16) * 64 ^ 2 +
        (y.toNat % 16 * 4 + z.toNat / 64) * 64 + z.toNat % 64 =
        x.toNat * 256 ^ 2 + y.toNat * 256 + z.toNat := by
      omega
    have hpower : 64 ^ (digits data).length = 256 ^ data.length * 2 ^ fill data := by
      rw [show 64 = 2 ^ 6 from rfl, show 256 = 2 ^ 8 from rfl, ← pow_mul, ← pow_mul, ← pow_add,
        length_digits]
    simp only [valueOf_cons, List.map_cons, List.length_cons, List.length_map, hfill, ih]
    calc _ = (x.toNat / 4 * 64 ^ 3 + (x.toNat % 4 * 16 + y.toNat / 16) * 64 ^ 2 +
          (y.toNat % 16 * 4 + z.toNat / 64) * 64 + z.toNat % 64) * 64 ^ (digits data).length +
          valueOf 256 (data.map (·.toNat)) * 2 ^ fill data := by ring
      _ = _ := by rw [hgroup, hpower]; ring

/-! ## Characters -/

/-- The character of a digit. -/
def character (d : Nat) : UInt8 :=
  if d < 26 then .ofNat (65 + d)
  else if d < 52 then .ofNat (97 + (d - 26))
  else if d < 62 then .ofNat (48 + (d - 52))
  else if d = 62 then 43
  else 47

/-- The encoding without padding. -/
def encodeUnpadded (data : Bytes) : Bytes := (digits data).map character

/-- The standard encoding. -/
def encode (data : Bytes) : Bytes :=
  encodeUnpadded data ++ List.replicate (fill data / 2) 61

example : encode [77, 97] = utf8 "TWE=" := by decide

end Kavora.Lib.Base64
