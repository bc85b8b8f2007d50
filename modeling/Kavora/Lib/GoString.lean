import Kavora.Lib.Go
import Kavora.Lib.Utf8

/-!
# The bytes of a Go string

A Go string is any bytes. A function of `strings` reads them as runes, and a byte that does not
decode as a rune of its own that is no white space and no letter.

* `marked`: each byte, and whether its rune is white space.
* `fields`, `trimSpace`: the pieces of a string between white space, and what is left inside it.
* `fields_word`, `fields_plain`: the fields of a word and what follows it, and of a word alone.
-/

namespace Kavora.Lib.GoString

open Go (isSpace)

/-- Each byte, and whether its rune is white space. The first `skip` bytes belong to a rune that was
read, and `space` says whether it is white space. -/
def marked (skip : Nat) (space : Bool) : Bytes → List (UInt8 × Bool)
  | [] => []
  | b :: bytes =>
    match skip with
    | k + 1 => (b, space) :: marked k space bytes
    | 0 =>
      match Utf8.decodeChar (b :: bytes) with
      | some c => (b, isSpace c) :: marked (c.utf8Size - 1) (isSpace c) bytes
      | none => (b, false) :: marked 0 false bytes

/-- The fields of marked bytes, of which `carry` begins the first one. -/
def fieldsFrom (carry : Bytes) : List (UInt8 × Bool) → List Bytes
  | [] => if carry = [] then [] else [carry]
  | (b, space) :: rest =>
    if space then if carry = [] then fieldsFrom [] rest else carry :: fieldsFrom [] rest
    else fieldsFrom (carry ++ [b]) rest

/-- `strings.Fields(s)`. -/
def fields (s : Bytes) : List Bytes := fieldsFrom [] (marked 0 false s)

/-- `strings.TrimSpace(s)`. -/
def trimSpace (s : Bytes) : Bytes :=
  ((((marked 0 false s).dropWhile (·.2)).reverse.dropWhile (·.2)).reverse).map (·.1)

/-- The lower case of an ASCII letter. -/
def lowerAscii (b : UInt8) : UInt8 := if 0x41 ≤ b && b ≤ 0x5A then b + 0x20 else b

/-- `strings.ToLower(s)`, as far as it can be a word without "i" and "k": no other letters than
those of ASCII become its letters. -/
def toLower (s : Bytes) : Bytes := s.map lowerAscii

/-- `strings.EqualFold(s, t)` for a word `t` without "k" and "s". -/
def equalFold (s t : Bytes) : Bool := toLower s = toLower t

/-! ## Fields -/

theorem marked_skip (space : Bool) (skipped bytes : Bytes) :
    marked skipped.length space (skipped ++ bytes) =
      skipped.map (fun b => (b, space)) ++ marked 0 space bytes := by
  induction skipped with
  | nil => rfl
  | cons b skipped ih => rw [List.length_cons, List.cons_append, marked, ih]; rfl

/-- The mark of the last rune does not matter where a rune begins. -/
theorem marked_zero (space space' : Bool) (bytes : Bytes) :
    marked 0 space bytes = marked 0 space' bytes := by
  cases bytes with
  | nil => rfl
  | cons b bytes => rfl

theorem marked_encode_char (space : Bool) (c : Char) (bytes : Bytes) :
    marked 0 space (String.utf8EncodeChar c ++ bytes) =
      (String.utf8EncodeChar c).map (fun b => (b, isSpace c)) ++ marked 0 false bytes := by
  have hlength := String.length_utf8EncodeChar c
  have hdecode := Utf8.decodeChar_encode c bytes
  cases hbytes : String.utf8EncodeChar c with
  | nil => exact absurd hbytes String.utf8EncodeChar_ne_nil
  | cons b tail =>
    rw [hbytes, List.length_cons] at hlength
    rw [hbytes, List.cons_append] at hdecode
    rw [List.cons_append, marked, hdecode]
    show (b, isSpace c) :: marked (c.utf8Size - 1) (isSpace c) (tail ++ bytes) = _
    rw [← hlength, Nat.add_sub_cancel, marked_skip, marked_zero (isSpace c) false]
    rfl

theorem fieldsFrom_plain {word : List (UInt8 × Bool)} (h : ∀ m ∈ word, m.2 = false)
    (carry : Bytes) (rest : List (UInt8 × Bool)) :
    fieldsFrom carry (word ++ rest) = fieldsFrom (carry ++ word.map (·.1)) rest := by
  induction word generalizing carry with
  | nil => rw [List.nil_append, List.map_nil, List.append_nil]
  | cons m word ih =>
    obtain ⟨b, space⟩ := m
    rw [List.forall_mem_cons] at h
    obtain rfl : space = false := h.1
    rw [List.cons_append, fieldsFrom, if_neg Bool.false_ne_true, ih h.2, List.append_assoc]
    rfl

/-- White space after a field. -/
theorem fieldsFrom_space {space : List (UInt8 × Bool)} (hne : space ≠ [])
    (h : ∀ m ∈ space, m.2 = true) {carry : Bytes} (hcarry : carry ≠ [])
    (rest : List (UInt8 × Bool)) :
    fieldsFrom carry (space ++ rest) = carry :: fieldsFrom [] rest := by
  have hskip : ∀ {space : List (UInt8 × Bool)}, (∀ m ∈ space, m.2 = true) →
      fieldsFrom [] (space ++ rest) = fieldsFrom [] rest := by
    intro space h
    induction space with
    | nil => rfl
    | cons m space ih =>
      obtain ⟨b, white⟩ := m
      rw [List.forall_mem_cons] at h
      obtain rfl : white = true := h.1
      rw [List.cons_append, fieldsFrom, if_pos rfl, if_pos rfl, ih h.2]
  cases space with
  | nil => exact absurd rfl hne
  | cons m space =>
    obtain ⟨b, white⟩ := m
    rw [List.forall_mem_cons] at h
    obtain rfl : white = true := h.1
    rw [List.cons_append, fieldsFrom, if_pos rfl, if_neg hcarry, hskip h.2]

theorem marked_encode {word : List Char} (hword : ∀ c ∈ word, isSpace c = false) (rest : Bytes) :
    marked 0 false (Utf8.encode word ++ rest) =
      (Utf8.encode word).map (fun b => (b, false)) ++ marked 0 false rest := by
  induction word with
  | nil => rfl
  | cons c word ih =>
    rw [List.forall_mem_cons] at hword
    rw [Utf8.encode_cons, List.append_assoc, marked_encode_char, ih hword.2, hword.1,
      List.map_append, List.append_assoc]

/-- **A word and white space before other fields.** -/
theorem fields_word {word : List Char} (hne : word ≠ []) (hword : ∀ c ∈ word, isSpace c = false)
    {c : Char} (hc : isSpace c = true) (rest : Bytes) :
    fields (Utf8.encode word ++ (String.utf8EncodeChar c ++ rest)) =
      Utf8.encode word :: fields rest := by
  have hnonempty : Utf8.encode word ≠ [] := by
    cases word with
    | nil => exact absurd rfl hne
    | cons c word =>
      rw [Utf8.encode_cons]
      exact List.append_ne_nil_of_left_ne_nil String.utf8EncodeChar_ne_nil _
  unfold fields
  rw [marked_encode hword, fieldsFrom_plain (by simp), List.nil_append, List.map_map,
    marked_encode_char, hc]
  have hbytes : (Utf8.encode word).map ((·.1) ∘ fun b => (b, false)) = Utf8.encode word :=
    List.map_id _
  rw [hbytes]
  refine fieldsFrom_space ?_ (by simp) hnonempty _
  exact fun hnil => String.utf8EncodeChar_ne_nil (List.map_eq_nil_iff.mp hnil)

theorem map_marked (skip : Nat) (space : Bool) (s : Bytes) : (marked skip space s).map (·.1) = s := by
  induction s generalizing skip space with
  | nil => rfl
  | cons b s ih =>
    cases skip with
    | succ k => rw [marked, List.map_cons, ih]
    | zero =>
      rw [marked]
      split <;> rw [List.map_cons, ih]

/-- A string without white space is its only field. -/
theorem fields_plain {s : Bytes} (hne : s ≠ []) (h : ∀ m ∈ marked 0 false s, m.2 = false) :
    fields s = [s] := by
  have hplain := fieldsFrom_plain h [] []
  rw [List.append_nil, List.nil_append, map_marked] at hplain
  unfold fields
  rw [hplain, fieldsFrom, if_neg hne]

end Kavora.Lib.GoString
