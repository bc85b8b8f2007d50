import Kavora.Lib.Utf8

/-!
# The lines of a file

Go and Python have different notions of a line.

* `scanLines`: `bufio.Scanner` with its default split function, which ends a line at `\n` only and
  fails on a line that does not fit in its buffer.
* `splitlines`, `strip`: `str.splitlines` of Python, which also ends a line at other characters, and
  `str.strip`.
* `universalNewlines`: what reading a file as text does to `\r`.
-/

namespace Kavora.Lib

/-! ## Go -/

/-- A piece up to a `\n` without its end. -/
def dropLineEnd (piece : Bytes) : Bytes := (stripSuffix lf piece).getD piece

/-- The lines of a file, or `none` if one has no room in a buffer of `limit` bytes. -/
def scanLines (limit : Nat) (content : Bytes) : Option (List Bytes) :=
  let pieces := (splitInclusive content).map dropLineEnd
  if ∀ piece ∈ pieces, piece.length < limit then
    some (pieces.map fun piece => (stripSuffix cr piece).getD piece)
  else none

theorem splitInclusive_line {line : Bytes} (h : lf ∉ line) :
    splitInclusive (line ++ [lf]) = [line ++ [lf]] := by
  induction line with
  | nil => rfl
  | cons b line ih =>
    have hb : b ≠ lf := fun hb => h (hb ▸ List.mem_cons_self)
    have hline : lf ∉ line := fun hmem => h (List.mem_cons_of_mem b hmem)
    rw [List.cons_append, splitInclusive, if_neg hb, ih hline]

theorem splitInclusive_open {line : Bytes} (h : lf ∉ line) (hne : line ≠ []) :
    splitInclusive line = [line] := by
  induction line with
  | nil => exact absurd rfl hne
  | cons b line ih =>
    have hb : b ≠ lf := fun hb => h (hb ▸ List.mem_cons_self)
    have hline : lf ∉ line := fun hmem => h (List.mem_cons_of_mem b hmem)
    rw [splitInclusive, if_neg hb]
    cases line with
    | nil => rfl
    | cons b' line => rw [ih hline (List.cons_ne_nil _ _)]

theorem dropLineEnd_line (line : Bytes) : dropLineEnd (line ++ [lf]) = line := by
  simp [dropLineEnd, stripSuffix]

/-- The pieces of a file of lines. -/
theorem pieces_lines {lines : List Bytes} (h : ∀ line ∈ lines, lf ∉ line) :
    (splitInclusive (lines.flatMap (· ++ [lf]))).map dropLineEnd = lines := by
  induction lines with
  | nil => rfl
  | cons line lines ih =>
    have htail := ih fun line' hline' => h line' (List.mem_cons_of_mem _ hline')
    rw [List.flatMap_cons, splitInclusive_append (by simp),
      splitInclusive_line (h line List.mem_cons_self), List.map_append, List.map_singleton,
      dropLineEnd_line, htail, List.singleton_append]

/-- A file goes on with a new line after a line feed. -/
theorem scanLines_append {limit : Nat} {content : Bytes} (hlf : content.getLast? = some lf)
    (rest : Bytes) :
    scanLines limit (content ++ rest) =
      (scanLines limit content).bind fun lines =>
        (scanLines limit rest).map fun lines' => lines ++ lines' := by
  unfold scanLines
  rw [splitInclusive_append hlf, List.map_append]
  simp only [List.forall_mem_append]
  by_cases hcontent : ∀ piece ∈ (splitInclusive content).map dropLineEnd, piece.length < limit
  · by_cases hrest : ∀ piece ∈ (splitInclusive rest).map dropLineEnd, piece.length < limit
    · rw [if_pos ⟨hcontent, hrest⟩, if_pos hcontent, if_pos hrest, List.map_append]
      rfl
    · rw [if_neg fun h => hrest h.2, if_pos hcontent, if_neg hrest]
      rfl
  · rw [if_neg fun h => hcontent h.1, if_neg hcontent]
    rfl

/-- A line of a journal: it fits in the buffer, and no reader splits or trims it. -/
structure IsLine (limit : Nat) (line : Bytes) : Prop where
  ne_nil : line ≠ []
  not_lf : lf ∉ line
  not_cr : line.getLast? ≠ some cr
  length_lt : line.length < limit

/-- The only line of a file. -/
theorem IsLine.scanLines_eq {limit : Nat} {line content : Bytes} (h : IsLine limit line)
    (hsplit : (splitInclusive content).map dropLineEnd = [line]) :
    scanLines limit content = some [line] := by
  have hfits : ∀ piece ∈ [line], piece.length < limit := List.forall_mem_singleton.mpr h.length_lt
  unfold scanLines
  rw [hsplit, if_pos hfits, List.map_singleton, stripSuffix, if_neg h.not_cr]
  rfl

theorem IsLine.scanLines_line {limit : Nat} {line : Bytes} (h : IsLine limit line) :
    scanLines limit (line ++ [lf]) = some [line] := by
  refine h.scanLines_eq ?_
  rw [splitInclusive_line h.not_lf, List.map_singleton, dropLineEnd_line]

/-- The last line of a file counts without its line feed. -/
theorem IsLine.scanLines_open {limit : Nat} {line : Bytes} (h : IsLine limit line) :
    scanLines limit line = some [line] := by
  have hlast : line.getLast? ≠ some lf := fun hlast => h.not_lf (List.mem_of_getLast? hlast)
  have hdrop : dropLineEnd line = line := by
    unfold dropLineEnd stripSuffix
    rw [if_neg hlast]
    rfl
  refine h.scanLines_eq ?_
  rw [splitInclusive_open h.not_lf h.ne_nil, List.map_singleton, hdrop]

/-- The lines of a file are read back, and so is what follows them. -/
theorem scanLines_lines {limit : Nat} {lines : List Bytes} (h : ∀ line ∈ lines, IsLine limit line)
    (rest : Bytes) :
    scanLines limit (lines.flatMap (· ++ [lf]) ++ rest) =
      (scanLines limit rest).map fun lines' => lines ++ lines' := by
  induction lines with
  | nil =>
    show scanLines limit rest = (scanLines limit rest).map fun lines' => lines'
    simp
  | cons line lines ih =>
    have hline := (h line List.mem_cons_self).scanLines_line
    rw [List.flatMap_cons, List.append_assoc, scanLines_append (by simp), hline,
      ih fun line hmem => h line (List.mem_cons_of_mem _ hmem)]
    cases scanLines limit rest with
    | none => rfl
    | some lines' => rfl

/-! ## Python -/

/-- A character that ends a line. -/
def isLineBreak (c : Char) : Bool :=
  [0xA, 0xD, 0xB, 0xC, 0x1C, 0x1D, 0x1E, 0x85, 0x2028, 0x2029].contains c.toNat

/-- `str.splitlines`. -/
def splitlines : List Char → List (List Char)
  | [] => []
  | '\r' :: '\n' :: text => [] :: splitlines text
  | c :: text =>
    if isLineBreak c then [] :: splitlines text
    else
      match splitlines text with
      | [] => [[c]]
      | line :: lines => (c :: line) :: lines

/-- The text with each line end as a newline. -/
def universalNewlines : List Char → List Char
  | [] => []
  | '\r' :: '\n' :: text => '\n' :: universalNewlines text
  | c :: text => (if c = '\r' then '\n' else c) :: universalNewlines text

theorem splitlines_cons {c : Char} (hc : c ≠ '\r') (text : List Char) :
    splitlines (c :: text) =
      if isLineBreak c then [] :: splitlines text
      else
        match splitlines text with
        | [] => [[c]]
        | line :: lines => (c :: line) :: lines := by
  rw [splitlines]
  rintro text' h -
  exact hc h

theorem isLineBreak_cr : isLineBreak '\r' = true := rfl

/-- A line goes to the first character that ends it. -/
theorem splitlines_line {line : List Char} (h : ∀ c ∈ line, isLineBreak c = false) {c : Char}
    (hc : isLineBreak c = true) (hcr : c ≠ '\r') (text : List Char) :
    splitlines (line ++ c :: text) = line :: splitlines text := by
  induction line with
  | nil => rw [List.nil_append, splitlines_cons hcr, if_pos hc]
  | cons c' line ih =>
    have hc' := h c' List.mem_cons_self
    have hcr' : c' ≠ '\r' := by
      rintro rfl
      rw [isLineBreak_cr] at hc'
      cases hc'
    rw [List.cons_append, splitlines_cons hcr', ih fun c hmem => h c (List.mem_cons_of_mem _ hmem),
      if_neg (by rw [hc']; exact Bool.false_ne_true)]

/-- Lines that are each ended by a line feed are read back. -/
theorem splitlines_lines {lines : List (List Char)}
    (h : ∀ line ∈ lines, ∀ c ∈ line, isLineBreak c = false) :
    splitlines (lines.flatMap (· ++ ['\n'])) = lines := by
  induction lines with
  | nil => rfl
  | cons line lines ih =>
    obtain ⟨hline, hlines⟩ := List.forall_mem_cons.mp h
    rw [List.flatMap_cons, List.append_assoc, List.singleton_append,
      splitlines_line hline rfl (by decide), ih hlines]

/-- No line holds a character that ends one. -/
theorem splitlines_noBreak {text : List Char} :
    ∀ line ∈ splitlines text, ∀ c ∈ line, isLineBreak c = false := by
  induction text using splitlines.induct with
  | case1 => exact nofun
  | case2 text ih =>
    rw [splitlines]
    exact List.forall_mem_cons.mpr ⟨nofun, ih⟩
  | case3 c text hcr hbreak ih =>
    rw [splitlines, if_pos hbreak]
    · exact List.forall_mem_cons.mpr ⟨nofun, ih⟩
    · exact hcr
  | case4 c text hcr hbreak hlines ih =>
    rw [splitlines, if_neg hbreak, hlines]
    · simp only [List.forall_mem_singleton]
      exact eq_false_of_ne_true hbreak
    · exact hcr
  | case5 c text hcr hbreak line lines hlines ih =>
    rw [hlines] at ih
    obtain ⟨hline, hlines'⟩ := List.forall_mem_cons.mp ih
    rw [splitlines, if_neg hbreak, hlines]
    · have hc : isLineBreak c = false := eq_false_of_ne_true hbreak
      exact List.forall_mem_cons.mpr ⟨List.forall_mem_cons.mpr ⟨hc, hline⟩, hlines'⟩
    · exact hcr

/-- `str.isspace` of a character. -/
def isspace (c : Char) : Bool :=
  [0x9, 0xA, 0xB, 0xC, 0xD, 0x1C, 0x1D, 0x1E, 0x1F, 0x20, 0x85, 0xA0, 0x1680, 0x2028, 0x2029,
    0x202F, 0x205F, 0x3000].contains c.toNat || (0x2000 ≤ c.toNat && c.toNat ≤ 0x200A)

/-- `str.strip`. -/
def strip (text : List Char) : List Char :=
  ((text.dropWhile isspace).reverse.dropWhile isspace).reverse

theorem strip_subset (text : List Char) : strip text ⊆ text := by
  intro c hc
  have hreverse := (List.dropWhile_sublist isspace).subset (List.mem_reverse.mp hc)
  exact (List.dropWhile_sublist isspace).subset (List.mem_reverse.mp hreverse)

/-- A text that neither starts nor ends with a space stays. -/
theorem strip_eq_self {text : List Char} (hhead : ∀ c ∈ text.head?, isspace c = false)
    (hlast : ∀ c ∈ text.getLast?, isspace c = false) : strip text = text := by
  have hdrop : ∀ l : List Char, (∀ c ∈ l.head?, isspace c = false) → l.dropWhile isspace = l := by
    intro l hl
    cases l with
    | nil => rfl
    | cons c l => exact List.dropWhile_cons_of_neg (by rw [hl c rfl]; exact Bool.false_ne_true)
  unfold strip
  rw [hdrop text hhead, hdrop text.reverse (by rwa [List.head?_reverse]), List.reverse_reverse]

theorem universalNewlines_eq {text : List Char} (h : '\r' ∉ text) : universalNewlines text = text := by
  induction text with
  | nil => rfl
  | cons c text ih =>
    have hc : c ≠ '\r' := fun hc => h (hc ▸ List.mem_cons_self)
    rw [universalNewlines, if_neg hc, ih fun hmem => h (List.mem_cons_of_mem _ hmem)]
    rintro text' hcr -
    exact hc hcr

end Kavora.Lib
