import Mathlib.Data.List.Basic
import Mathlib.Data.List.Infix
import Mathlib.Data.List.Induction
import Mathlib.Algebra.Order.BigOperators.Group.List
import Mathlib.Algebra.Order.Group.Nat
import Mathlib.Algebra.Ring.Nat

/-!
# Byte strings

Byte strings are lists of `UInt8`, and lengths are natural numbers. Here are the operations of the
Rust and Go standard libraries on them that the source uses, each under the name it has there:

* `position pat`: the index of the first window equal to `pat` (`windows(n).position(..)`).
* `splitInclusive`, `stripPrefix`, `stripSuffix`: the pieces of `str::lines` and of the field
  parsing.
* `fromUtf8`: whether `std::str::from_utf8` accepts the bytes.
* `saturatingAdd`: addition of `u64` values.
-/

namespace Kavora.Lib

/-- A byte string. -/
abbrev Bytes := List UInt8

/-- The bytes of a string literal. -/
def utf8 (s : String) : Bytes := s.toUTF8.data.toList

/-- The greatest `u64`. -/
def u64Max : Nat := 2 ^ 64 - 1

/-- `u64::saturating_add`. -/
def saturatingAdd (a b : Nat) : Nat := min (a + b) u64Max

theorem saturatingAdd_eq {a b : Nat} (h : a + b ≤ u64Max) : saturatingAdd a b = a + b :=
  Nat.min_eq_left h

/-! ## Searching -/

section Position

variable {α : Type*} [DecidableEq α]

/-- The index of the first window equal to `pat` (`pat` is not empty). -/
def position (pat : List α) : List α → Option Nat
  | [] => none
  | x :: l => if pat <+: x :: l then some 0 else (position pat l).map (· + 1)

attribute [local simp] position

/-- A found window is inside the list. -/
theorem position_add_le {pat l : List α} {i : Nat} (h : position pat l = some i) :
    i + pat.length ≤ l.length := by
  induction l generalizing i with
  | nil => simp at h
  | cons x l ih =>
    rw [position] at h
    split at h
    · rename_i hp
      cases h
      have := hp.length_le
      omega
    · obtain ⟨j, hj, rfl⟩ := Option.map_eq_some_iff.mp h
      have := ih hj
      simp only [List.length_cons]
      omega

/-- The list up to the end of the first window still has its first window there. -/
theorem position_take {pat l : List α} {i : Nat} (hpat : pat ≠ []) (h : position pat l = some i) :
    position pat (l.take (i + pat.length)) = some i := by
  induction l generalizing i with
  | nil => simp at h
  | cons x l ih =>
    rw [position] at h
    split at h
    · rename_i hp
      cases h
      rw [Nat.zero_add, ← List.prefix_iff_eq_take.mp hp]
      cases pat with
      | nil => exact absurd rfl hpat
      | cons a pat => simp
    · rename_i hp
      obtain ⟨j, hj, rfl⟩ := Option.map_eq_some_iff.mp h
      have hq : ¬ pat <+: x :: l.take (j + pat.length) := fun hq =>
        hp (hq.trans (List.take_prefix (j + pat.length + 1) (x :: l)))
      rw [show j + 1 + pat.length = (j + pat.length) + 1 by omega, List.take_succ_cons, position,
        if_neg hq, ih hj]
      rfl

/-- No window in a list, none in its prefixes. -/
theorem position_take_none {pat l : List α} (h : position pat l = none) (n : Nat) :
    position pat (l.take n) = none := by
  induction l generalizing n with
  | nil => simp
  | cons x l ih =>
    rw [position] at h
    split at h
    · exact absurd h (by simp)
    · rename_i hp
      cases n with
      | zero => rfl
      | succ n =>
        have hq : ¬ pat <+: x :: l.take n := fun hq =>
          hp (hq.trans (List.take_prefix (n + 1) (x :: l)))
        rw [List.take_succ_cons, position, if_neg hq, ih (by simpa using h)]
        rfl

/-- A first window stays the first when the list goes on. -/
theorem position_append {pat l : List α} {i : Nat} (h : position pat l = some i) (rest : List α) :
    position pat (l ++ rest) = some i := by
  induction l generalizing i with
  | nil => simp at h
  | cons x l ih =>
    rw [position] at h
    rw [List.cons_append, position]
    split at h
    · rename_i hp
      cases h
      exact if_pos (hp.trans (List.prefix_append (x :: l) rest))
    · rename_i hp
      obtain ⟨j, hj, rfl⟩ := Option.map_eq_some_iff.mp h
      have hlen := position_add_le hj
      have hq : ¬ pat <+: x :: (l ++ rest) := by
        intro hq
        rw [← List.cons_append] at hq
        refine hp (List.prefix_of_prefix_length_le hq (List.prefix_append _ _) ?_)
        simp only [List.length_cons]
        omega
      rw [if_neg hq, ih hj]
      rfl

/-- A window at the end of the list. -/
theorem position_end {pat l : List α} {i : Nat} (h : position pat l = some i)
    (hlen : i + pat.length = l.length) : ∃ l', l = l' ++ pat := by
  induction l generalizing i with
  | nil => simp at h
  | cons x l ih =>
    rw [position] at h
    split at h
    · rename_i hp
      cases h
      exact ⟨[], by rw [List.nil_append, hp.eq_of_length (by omega)]⟩
    · obtain ⟨j, hj, rfl⟩ := Option.map_eq_some_iff.mp h
      obtain ⟨l', hl'⟩ := ih hj (by simp only [List.length_cons] at hlen; omega)
      exact ⟨x :: l', by rw [hl', List.cons_append]⟩

/-- The window that is found. -/
theorem position_split {pat l : List α} {i : Nat} (h : position pat l = some i) :
    ∃ before after, l = before ++ (pat ++ after) ∧ before.length = i := by
  induction l generalizing i with
  | nil => simp at h
  | cons x l ih =>
    rw [position] at h
    split at h
    · rename_i hp
      cases h
      obtain ⟨after, hafter⟩ := hp
      exact ⟨[], after, hafter.symm, rfl⟩
    · obtain ⟨j, hj, rfl⟩ := Option.map_eq_some_iff.mp h
      obtain ⟨before, after, rfl, rfl⟩ := ih hj
      exact ⟨x :: before, after, rfl, rfl⟩

/-- A window after the first elements is the first one without them. -/
theorem position_drop {pat l : List α} {i n : Nat} (h : position pat l = some i) (hn : n ≤ i) :
    position pat (l.drop n) = some (i - n) := by
  induction n generalizing l i with
  | zero => exact h
  | succ n ih =>
    cases l with
    | nil => simp at h
    | cons x l =>
      rw [position] at h
      split at h
      · cases h
        omega
      · obtain ⟨j, hj, rfl⟩ := Option.map_eq_some_iff.mp h
        rw [List.drop_succ_cons, ih hj (by omega)]
        congr 1
        omega

theorem position_cons {pat l : List α} {x : α} (h : ¬ pat <+: x :: l) :
    position pat (x :: l) = (position pat l).map (· + 1) := by
  rw [position, if_neg h]

end Position

/-! ## Lines and fields -/

/-- The line feed. -/
def lf : UInt8 := 0x0A

/-- The carriage return. -/
def cr : UInt8 := 0x0D

/-- `str::split_inclusive('\n')`: the lines, each with its line feed. -/
def splitInclusive : Bytes → List Bytes
  | [] => []
  | b :: l =>
    if b = lf then [b] :: splitInclusive l
    else match splitInclusive l with
      | [] => [[b]]
      | line :: lines => (b :: line) :: lines

/-- `str::strip_prefix`. -/
def stripPrefix (pre l : Bytes) : Option Bytes :=
  if pre <+: l then some (l.drop pre.length) else none

/-- `str::strip_suffix` of one byte. -/
def stripSuffix (b : UInt8) (l : Bytes) : Option Bytes :=
  if l.getLast? = some b then some l.dropLast else none

/-- A line without the line feed that ends it and the carriage return before it. -/
def stripLineEnd (line : Bytes) : Bytes :=
  match stripSuffix lf line with
  | none => line
  | some line => (stripSuffix cr line).getD line

/-- `str::lines`. -/
def strLines (l : Bytes) : List Bytes := (splitInclusive l).map stripLineEnd

theorem flatten_splitInclusive (l : Bytes) : (splitInclusive l).flatten = l := by
  induction l with
  | nil => rfl
  | cons b l ih =>
    rw [splitInclusive]
    split
    · simp [ih]
    · split
      · rename_i h
        rw [h] at ih
        simpa using ih.symm
      · rename_i h
        rw [h] at ih
        simpa using ih

/-- After a line feed a new line starts. -/
theorem splitInclusive_append {l : Bytes} (hl : l.getLast? = some lf) (rest : Bytes) :
    splitInclusive (l ++ rest) = splitInclusive l ++ splitInclusive rest := by
  induction l with
  | nil => simp at hl
  | cons b l ih =>
    by_cases hb : b = lf
    · rw [List.cons_append, splitInclusive, splitInclusive, if_pos hb, if_pos hb]
      cases l with
      | nil => rfl
      | cons b' l => rw [ih (by simpa using hl)]; rfl
    · cases l with
      | nil => simp [hb] at hl
      | cons b' l =>
        rw [List.cons_append, splitInclusive, splitInclusive, if_neg hb, if_neg hb,
          ih (by simpa using hl)]
        cases hs : splitInclusive (b' :: l) with
        | nil =>
          have := flatten_splitInclusive (b' :: l)
          simp [hs] at this
        | cons c cs => rfl

theorem stripPrefix_length {pre l rest : Bytes} (h : stripPrefix pre l = some rest) :
    rest.length + pre.length = l.length := by
  unfold stripPrefix at h
  split at h
  · rename_i hpre
    cases h
    have := hpre.length_le
    rw [List.length_drop]
    omega
  · cases h

theorem stripSuffix_length_le {b : UInt8} {l rest : Bytes} (h : stripSuffix b l = some rest) :
    rest.length ≤ l.length := by
  unfold stripSuffix at h
  split at h
  · cases h
    rw [List.length_dropLast]
    omega
  · cases h

theorem getD_stripSuffix_length_le (b : UInt8) (l : Bytes) :
    ((stripSuffix b l).getD l).length ≤ l.length := by
  cases h : stripSuffix b l with
  | none => exact Nat.le_refl _
  | some rest => exact stripSuffix_length_le h

/-- The lines are no longer than the text. -/
theorem sum_length_strLines_le (l : Bytes) : ((strLines l).map List.length).sum ≤ l.length := by
  have hle : ∀ line : Bytes, (stripLineEnd line).length ≤ line.length := by
    intro line
    unfold stripLineEnd
    split
    · exact Nat.le_refl _
    · rename_i rest h
      exact (getD_stripSuffix_length_le cr rest).trans (stripSuffix_length_le h)
  conv_rhs => rw [← flatten_splitInclusive l, List.length_flatten]
  rw [strLines, List.map_map]
  exact List.sum_le_sum fun line _ => hle line

/-- Joining with one byte adds at most one byte for each part. -/
theorem length_intercalate_le (b : UInt8) (parts : List Bytes) :
    ([b].intercalate parts).length ≤ (parts.map fun part => part.length + 1).sum := by
  induction parts with
  | nil => simp
  | cons part parts ih =>
    cases parts with
    | nil => simp
    | cons part' parts =>
      rw [List.intercalate_cons_cons]
      simp only [List.length_append, List.map_cons, List.sum_cons] at ih ⊢
      simp only [List.length_cons, List.length_nil]
      omega

/-! ## UTF-8 -/

/-- A continuation byte. -/
def utf8Tail (b : UInt8) : Bool := 0x80 ≤ b && b ≤ 0xBF

/-- Whether `std::str::from_utf8` accepts the bytes. -/
def fromUtf8 : Bytes → Bool
  | [] => true
  | a :: l =>
    if a ≤ 0x7F then fromUtf8 l
    else match l with
      | [] => false
      | b :: l =>
        if 0xC2 ≤ a && a ≤ 0xDF then utf8Tail b && fromUtf8 l
        else match l with
          | [] => false
          | c :: l =>
            if a = 0xE0 then 0xA0 ≤ b && b ≤ 0xBF && utf8Tail c && fromUtf8 l
            else if a = 0xED then 0x80 ≤ b && b ≤ 0x9F && utf8Tail c && fromUtf8 l
            else if 0xE1 ≤ a && a ≤ 0xEF then utf8Tail b && utf8Tail c && fromUtf8 l
            else match l with
              | [] => false
              | d :: l =>
                if a = 0xF0 then
                  0x90 ≤ b && b ≤ 0xBF && utf8Tail c && utf8Tail d && fromUtf8 l
                else if a = 0xF4 then
                  0x80 ≤ b && b ≤ 0x8F && utf8Tail c && utf8Tail d && fromUtf8 l
                else
                  0xF1 ≤ a && a ≤ 0xF3 && utf8Tail b && utf8Tail c && utf8Tail d && fromUtf8 l

/-- A line feed ends a character. -/
theorem fromUtf8_append_lf (l rest : Bytes) :
    fromUtf8 (l ++ lf :: rest) = (fromUtf8 l && fromUtf8 rest) := by
  have htail : utf8Tail lf = false := by decide
  have h80 : decide ((0x80 : UInt8) ≤ lf) = false := by decide
  have h90 : decide ((0x90 : UInt8) ≤ lf) = false := by decide
  have hA0 : decide ((0xA0 : UInt8) ≤ lf) = false := by decide
  have hlf : lf ≤ 0x7F := by decide
  fun_induction fromUtf8 l with
  | case1 =>
    rw [List.nil_append, fromUtf8.eq_def]
    exact if_pos hlf
  | case2 a l ha ih =>
    rw [List.cons_append, fromUtf8.eq_def]
    exact (if_pos ha).trans ih
  | case3 a ha =>
    rw [List.cons_append, fromUtf8.eq_def]
    simp only [if_neg ha, List.nil_append]
    split
    · simp [htail]
    · split
      · rfl
      · split
        · simp [hA0]
        split
        · simp [h80]
        split
        · simp [htail]
        · split
          · rfl
          · simp [h80, h90, htail]
  | case4 a ha b l hb ih =>
    rw [List.cons_append, List.cons_append, fromUtf8.eq_def]
    simp only [if_neg ha, if_pos hb, ih, Bool.and_assoc]
  | case5 a ha b hb =>
    rw [List.cons_append, List.cons_append, fromUtf8.eq_def]
    simp only [if_neg ha, if_neg hb, List.nil_append]
    split
    · simp [htail]
    split
    · simp [htail]
    split
    · simp [htail]
    · split
      · rfl
      · simp [htail]
  | case6 b c l _ _ ih =>
    rw [List.cons_append, List.cons_append, List.cons_append, fromUtf8.eq_def]
    simp [ih, Bool.and_assoc]
  | case7 b c l _ _ _ ih =>
    rw [List.cons_append, List.cons_append, List.cons_append, fromUtf8.eq_def]
    simp [ih, Bool.and_assoc]
  | case8 a ha b h1 c l h2 h3 h4 ih =>
    rw [List.cons_append, List.cons_append, List.cons_append, fromUtf8.eq_def]
    simp only [if_neg ha, if_neg h1, if_neg h2, if_neg h3, if_pos h4, ih, Bool.and_assoc]
  | case9 a ha b h1 c h2 h3 h4 =>
    rw [List.cons_append, List.cons_append, List.cons_append, fromUtf8.eq_def]
    simp only [if_neg ha, if_neg h1, if_neg h2, if_neg h3, if_neg h4, List.nil_append]
    simp [htail]
  | case10 b c d l _ _ _ _ _ ih =>
    rw [List.cons_append, List.cons_append, List.cons_append, List.cons_append, fromUtf8.eq_def]
    simp [ih, Bool.and_assoc]
  | case11 b c d l _ _ _ _ _ _ ih =>
    rw [List.cons_append, List.cons_append, List.cons_append, List.cons_append, fromUtf8.eq_def]
    simp [ih, Bool.and_assoc]
  | case12 a ha b h1 c h2 h3 h4 d l h5 h6 ih =>
    rw [List.cons_append, List.cons_append, List.cons_append, List.cons_append, fromUtf8.eq_def]
    simp only [if_neg ha, if_neg h1, if_neg h2, if_neg h3, if_neg h4, if_neg h5, if_neg h6, ih,
      Bool.and_assoc]

/-- `u8::is_ascii_whitespace`. -/
def isAsciiWhitespace (b : UInt8) : Bool :=
  b = 0x20 || b = 0x09 || b = lf || b = 0x0C || b = cr

/-- `str::contains` of a string pattern. -/
def strContains (s pat : String) : Bool := decide (pat.toList <:+: s.toList)

end Kavora.Lib
