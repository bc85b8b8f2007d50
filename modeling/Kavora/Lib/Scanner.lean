import Mathlib.Data.List.DropRight
import Kavora.Lib.GoString
import Kavora.Lib.Lines

/-!
# Reading a stream line by line

`bufio.Scanner` gives the lines of a stream one after another and stops at the first line that does
not fit in its buffer. A stream may end inside a line.

* `scan`: the lines, and whether all were given.
* `prefix_lines`: the beginning of a text of lines is some of the lines and the beginning of one.
* `scan_cut`: what the scanner gives of a cut text.
* `trimSpace_cut`, `trimSpace_encode`: a field value after a blank.
-/

namespace Kavora.Lib

/-- The pieces up to the first that does not fit in a buffer of `limit` bytes, without a `\r` at
the end. -/
def scanPieces (limit : Nat) : List Bytes → List Bytes × Bool
  | [] => ([], true)
  | piece :: pieces =>
    if piece.length < limit then
      let (lines, complete) := scanPieces limit pieces
      ((stripSuffix cr piece).getD piece :: lines, complete)
    else ([], false)

/-- The lines of a stream, and whether the scanner ends without an error. -/
def scan (limit : Nat) (content : Bytes) : List Bytes × Bool :=
  scanPieces limit ((splitInclusive content).map dropLineEnd)

/-- The lines of a text and a line without its end. -/
theorem pieces_open {lines : List Bytes} (h : ∀ line ∈ lines, lf ∉ line) {tail : Bytes}
    (htail : lf ∉ tail) :
    (splitInclusive (lines.flatMap (· ++ [lf]) ++ tail)).map dropLineEnd =
      lines ++ if tail = [] then [] else [tail] := by
  have htailPieces : (splitInclusive tail).map dropLineEnd = if tail = [] then [] else [tail] := by
    by_cases hnil : tail = []
    · rw [hnil]
      rfl
    · have hlast : tail.getLast? ≠ some lf := fun hlast => htail (List.mem_of_getLast? hlast)
      rw [splitInclusive_open htail hnil, if_neg hnil, List.map_singleton, dropLineEnd, stripSuffix,
        if_neg hlast]
      rfl
  cases lines using List.reverseRecOn with
  | nil => exact htailPieces
  | append_singleton lines line =>
    have hlast : ((lines ++ [line]).flatMap (· ++ [lf])).getLast? = some lf := by simp
    rw [splitInclusive_append hlast, List.map_append, pieces_lines h, htailPieces]

/-- The beginning of a text of lines: some of its lines and the beginning of the next one. -/
theorem prefix_lines {lines : List Bytes} {p : Bytes} (h : p <+: lines.flatMap (· ++ [lf])) :
    ∃ before after tail, lines = before ++ after ∧ p = before.flatMap (· ++ [lf]) ++ tail ∧
      (tail = [] ∨ ∃ line ∈ after.head?, tail <+: line) := by
  induction lines generalizing p with
  | nil =>
    obtain rfl : p = [] := List.prefix_nil.mp h
    exact ⟨[], [], [], rfl, rfl, .inl rfl⟩
  | cons line lines ih =>
    rw [List.flatMap_cons] at h
    rcases List.prefix_or_prefix_of_prefix h (List.prefix_append (line ++ [lf]) _) with hline | hline
    · rcases List.prefix_concat_iff.mp hline with rfl | hline
      · exact ⟨[line], lines, [], rfl, by simp, .inl rfl⟩
      · exact ⟨[], line :: lines, p, rfl, rfl, .inr ⟨line, rfl, hline⟩⟩
    · obtain ⟨rest, rfl⟩ := hline
      obtain ⟨before, after, tail, rfl, rfl, htail⟩ :=
        ih ((List.prefix_append_right_inj (line ++ [lf])).mp h)
      exact ⟨line :: before, after, tail, rfl, by simp, htail⟩

/-- The line that a text is cut in starts with what is left of it. -/
theorem isPrefix_of_cut {line tail : Bytes} {rest : List Bytes}
    (h : tail = [] ∨ ∃ first ∈ (line :: rest).head?, tail <+: first) : tail <+: line := by
  rcases h with rfl | ⟨first, hfirst, hcut⟩
  · exact List.nil_prefix
  · cases hfirst
    exact hcut

/-! ## Cut texts -/

/-- The lines that were read of a cut text. -/
def cutLines (before : List Bytes) (tail : Bytes) : List Bytes :=
  before ++ if tail = [] then [] else [tail]

theorem cutLines_cons (line : Bytes) (before : List Bytes) (tail : Bytes) :
    cutLines (line :: before) tail = line :: cutLines before tail := rfl

/-- The bytes of some lines with their newlines. -/
def lengthOf (lines : List Bytes) : Nat := (lines.flatMap (· ++ [lf])).length

theorem lengthOf_cons (line : Bytes) (lines : List Bytes) :
    lengthOf (line :: lines) = line.length + 1 + lengthOf lines := by
  unfold lengthOf
  rw [List.flatMap_cons, List.length_append, List.length_append, List.length_singleton]

theorem lengthOf_append (lines lines' : List Bytes) :
    lengthOf (lines ++ lines') = lengthOf lines + lengthOf lines' := by
  unfold lengthOf
  rw [List.flatMap_append, List.length_append]

/-- Pieces without a `\r` up to the first that is too long. -/
theorem scanPieces_split (limit : Nat) {pieces : List Bytes} (h : ∀ piece ∈ pieces, cr ∉ piece) :
    ∃ long, pieces = (scanPieces limit pieces).1 ++ long ∧
      ((scanPieces limit pieces).2 = true → long = [] ∧ ∀ piece ∈ pieces, piece.length < limit) ∧
      ((scanPieces limit pieces).2 = false → ∃ piece ∈ long.head?, limit ≤ piece.length) := by
  induction pieces with
  | nil => exact ⟨[], rfl, fun _ => ⟨rfl, nofun⟩, nofun⟩
  | cons piece pieces ih =>
    obtain ⟨hpiece, hpieces⟩ := List.forall_mem_cons.mp h
    rw [scanPieces]
    by_cases hlength : piece.length < limit
    · have hcr : stripSuffix cr piece = none :=
        if_neg fun hlast => hpiece (List.mem_of_getLast? hlast)
      obtain ⟨long, hsplit, hcomplete, hlong⟩ := ih hpieces
      rw [if_pos hlength, hcr]
      refine ⟨long, congrArg (piece :: ·) hsplit, fun h => ?_, hlong⟩
      exact ⟨(hcomplete h).1, List.forall_mem_cons.mpr ⟨hlength, (hcomplete h).2⟩⟩
    · rw [if_neg hlength]
      exact ⟨piece :: pieces, rfl, nofun, fun _ => ⟨piece, rfl, Nat.le_of_not_lt hlength⟩⟩

/-- What the scanner gives of a cut text, up to a line that is too long. -/
theorem scan_cut {lines : List Bytes} (h : ∀ line ∈ lines, ∀ b : UInt8, b.toNat < 0x20 → b ∉ line)
    {p : Bytes} (hp : p <+: lines.flatMap (· ++ [lf])) (limit : Nat) :
    ∃ before after tail, lines = before ++ after ∧
      (tail = [] ∨ ∃ line ∈ after.head?, tail <+: line) ∧
      (scan limit p).1 = cutLines before tail ∧
      ((scan limit p).2 = true → lengthOf after + p.length = lengthOf lines + tail.length ∧
        ∀ line ∈ before, line.length < limit) ∧
      ((scan limit p).2 = false → tail = [] ∧ ∃ line ∈ after.head?, limit ≤ line.length) := by
  obtain ⟨before, after, tail, rfl, rfl, htail⟩ := prefix_lines hp
  have hplain : ∀ line ∈ before ++ after, lf ∉ line ∧ cr ∉ line := fun line hline =>
    ⟨h line hline lf (by decide), h line hline cr (by decide)⟩
  have hplainTail : lf ∉ tail ∧ cr ∉ tail := by
    rcases htail with rfl | ⟨line, hline, hcut⟩
    · exact ⟨List.not_mem_nil, List.not_mem_nil⟩
    · have hmem := hplain line (List.mem_append_right _ (List.mem_of_mem_head? hline))
      exact ⟨fun hlf => hmem.1 (hcut.subset hlf), fun hcr => hmem.2 (hcut.subset hcr)⟩
  have hpieces : (splitInclusive (before.flatMap (· ++ [lf]) ++ tail)).map dropLineEnd =
      cutLines before tail :=
    pieces_open (fun line hline => (hplain line (List.mem_append_left _ hline)).1) hplainTail.1
  have hcr : ∀ piece ∈ cutLines before tail, cr ∉ piece := by
    intro piece hpiece
    rcases List.mem_append.mp hpiece with hpiece | hpiece
    · exact (hplain piece (List.mem_append_left _ hpiece)).2
    · split at hpiece
      · cases hpiece
      · rw [List.mem_singleton.mp hpiece]
        exact hplainTail.2
  obtain ⟨long, hsplit, hcomplete, hlong⟩ := scanPieces_split limit hcr
  unfold scan
  rw [hpieces]
  cases hscan : (scanPieces limit (cutLines before tail)).2 with
  | true =>
    obtain ⟨rfl, hfits⟩ := hcomplete hscan
    rw [List.append_nil] at hsplit
    refine ⟨before, after, tail, rfl, htail, hsplit.symm, fun _ => ⟨?_, ?_⟩, nofun⟩
    · rw [lengthOf_append, List.length_append]
      unfold lengthOf
      omega
    · exact fun line hline => hfits line (List.mem_append_left _ hline)
  | false =>
    obtain ⟨piece, hpiece, hlength⟩ := hlong hscan
    obtain ⟨rest, rfl⟩ : ∃ rest, long = piece :: rest := by
      cases long with
      | nil => cases hpiece
      | cons piece' rest =>
        cases hpiece
        exact ⟨rest, rfl⟩
    -- the line that is too long is the cut one or a line before it
    have hcut : ∀ more, (if tail = [] then [] else [tail]) = more ++ piece :: rest →
        more = [] ∧ tail = piece := by
      intro more hmore
      split at hmore
      · cases more <;> cases hmore
      · cases more with
        | nil => exact ⟨rfl, (List.cons.inj hmore).1⟩
        | cons line more => cases more <;> cases (List.cons.inj hmore).2
    have hlast : (if tail = [] then [] else [tail]) = piece :: rest →
        ∃ line ∈ after.head?, limit ≤ line.length := by
      intro heq
      obtain ⟨-, rfl⟩ := hcut [] heq
      rcases htail with rfl | ⟨line, hline, hprefix⟩
      · cases heq
      · exact ⟨line, hline, hlength.trans hprefix.length_le⟩
    rcases List.append_eq_append_iff.mp hsplit with ⟨more, hmore, hrest⟩ | ⟨more, hmore, hrest⟩
    · obtain ⟨rfl, -⟩ := hcut more hrest
      rw [List.append_nil] at hmore
      exact ⟨before, after, [], rfl, .inl rfl, by rw [hmore]; exact (List.append_nil _).symm, nofun,
        fun _ => ⟨rfl, hlast hrest⟩⟩
    · cases more with
      | nil =>
        rw [List.append_nil] at hmore
        exact ⟨before, after, [], rfl, .inl rfl, by rw [← hmore]; exact (List.append_nil _).symm,
          nofun, fun _ => ⟨rfl, hlast hrest.symm⟩⟩
      | cons line more =>
        obtain ⟨rfl, -⟩ := List.cons.inj hrest
        refine ⟨(scanPieces limit (cutLines before tail)).1, piece :: more ++ after, [], ?_, .inl rfl,
          (List.append_nil _).symm, nofun, fun _ => ⟨rfl, piece, rfl, hlength⟩⟩
        rw [← List.append_assoc, ← hmore]

theorem stripPrefix_append (pre rest : Bytes) : stripPrefix pre (pre ++ rest) = some rest := by
  rw [stripPrefix, if_pos (List.prefix_append pre rest), List.drop_left]

/-! ## The value of a field -/

namespace GoString

open Go (isSpace)

/-- What is left of marked bytes without white space at both ends. -/
def trimMarked (marks : List (UInt8 × Bool)) : List (UInt8 × Bool) :=
  ((marks.dropWhile (·.2)).reverse.dropWhile (·.2)).reverse

theorem trimSpace_eq (s : Bytes) : trimSpace s = (trimMarked (marked 0 false s)).map (·.1) := rfl

theorem marked_blank (w : Bytes) : marked 0 false (0x20 :: w) = (0x20, true) :: marked 0 false w :=
  marked_encode_char false ' ' w

/-- The blank is cut from a value that starts with a word. -/
theorem trimMarked_word {c : Char} (hc : isSpace c = false) (w : Bytes) :
    trimMarked (marked 0 false (0x20 :: (String.utf8EncodeChar c ++ w))) =
      ((marked 0 false (String.utf8EncodeChar c ++ w)).reverse.dropWhile (·.2)).reverse := by
  unfold trimMarked
  rw [marked_blank, List.dropWhile_cons_of_pos rfl, marked_encode_char, hc]
  cases hbytes : String.utf8EncodeChar c with
  | nil => exact absurd hbytes String.utf8EncodeChar_ne_nil
  | cons b tail =>
    rw [List.map_cons, List.cons_append, List.dropWhile_cons_of_neg Bool.false_ne_true]

/-- A value that starts with a word loses its end at most. -/
theorem trimSpace_cut {c : Char} (hc : isSpace c = false) (w : Bytes) :
    trimSpace (0x20 :: (String.utf8EncodeChar c ++ w)) <+: String.utf8EncodeChar c ++ w := by
  have hmarks := map_marked 0 false (String.utf8EncodeChar c ++ w)
  have hcut := List.rdropWhile_prefix (·.2) <| marked 0 false (String.utf8EncodeChar c ++ w)
  have hbytes := hcut.map fun m => m.1
  rw [hmarks] at hbytes
  rw [trimSpace_eq, trimMarked_word hc]
  exact hbytes

/-- A value that starts and ends with a word stays. -/
theorem trimSpace_encode {c c' : Char} (hc : isSpace c = false) (hc' : isSpace c' = false)
    (text : List Char) :
    trimSpace (0x20 :: Utf8.encode (c :: (text ++ [c']))) = Utf8.encode (c :: (text ++ [c'])) := by
  have hlast : ∀ text : List Char, ∃ marks b,
      marked 0 false (Utf8.encode (text ++ [c'])) = marks ++ [(b, false)] := by
    intro text
    induction text with
    | nil =>
      rw [List.nil_append, Utf8.encode_cons, marked_encode_char, hc']
      obtain ⟨bytes, b, hbytes⟩ := (List.eq_nil_or_concat' _).resolve_left
        (String.utf8EncodeChar_ne_nil (c := c'))
      exact ⟨bytes.map fun b => (b, false), b, by rw [hbytes]; simp [Utf8.encode, marked]⟩
    | cons c text ih =>
      obtain ⟨marks, b, hmarks⟩ := ih
      rw [List.cons_append, Utf8.encode_cons, marked_encode_char, hmarks]
      exact ⟨_, b, (List.append_assoc _ _ _).symm⟩
  obtain ⟨marks, b, hmarks⟩ := hlast (c :: text)
  rw [List.cons_append] at hmarks
  have hall := map_marked 0 false (Utf8.encode (c :: (text ++ [c'])))
  rw [trimSpace_eq]
  rw [Utf8.encode_cons] at hmarks hall ⊢
  rw [trimMarked_word hc, hmarks, List.reverse_append, List.reverse_singleton,
    List.singleton_append, List.dropWhile_cons_of_neg Bool.false_ne_true, ← hall, hmarks]
  simp

end GoString

end Kavora.Lib
