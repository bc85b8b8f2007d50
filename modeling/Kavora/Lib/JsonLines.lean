import Kavora.Lib.JsonSyntax
import Kavora.Lib.Lines

/-!
# Documents on lines of their own

A printed document has no `\n` and no other character below U+0020, so Go reads it as one line.
Python ends a line at U+0085 too, which a printed string holds as it is.

* `Json.chars`: the characters of the names and the strings of a document.
* `Json.isLine_print`: a printed document is a line of Go.
* `Json.readLines_eq`: Python reads a file of printed objects just if no string of them has a
  U+0085.
-/

namespace Kavora.Lib.Json

mutual

/-- The characters of all names and strings. -/
def chars : Json → List Char
  | .string s => s.text.toList
  | .array values => charsValues values
  | .object members => charsMembers members
  | _ => []

/-- Those of some values. -/
def charsValues : List Json → List Char
  | [] => []
  | v :: vs => v.chars ++ charsValues vs

/-- Those of some members. -/
def charsMembers : List (JsonText × Json) → List Char
  | [] => []
  | (name, v) :: ms => name.text.toList ++ v.chars ++ charsMembers ms

end

/-- A character of a printed document: one of JSON's own, or one of a string as it is. -/
def Shown (chars : List Char) (c : Char) : Prop := Printed c ∨ Plain c ∧ c ∈ chars

theorem Shown.mono {chars chars' : List Char} {c : Char} (h : Shown chars c) (hsub : chars ⊆ chars') :
    Shown chars' c := h.imp_right fun ⟨hplain, hmem⟩ => ⟨hplain, hsub hmem⟩

theorem shown_quote {s : String} : ∀ c ∈ quote s, Shown s.toList c := by
  unfold quote
  simp only [List.forall_mem_cons, List.forall_mem_append, List.mem_flatMap]
  refine ⟨.inl ⟨by decide, by decide⟩, ?_, .inl ⟨by decide, by decide⟩, nofun⟩
  rintro c ⟨c', hc', hmem⟩
  rcases escapeChar_cases c' with ⟨heq, hplain⟩ | ⟨-, hprinted⟩
  · rw [heq, List.mem_singleton] at hmem
    rw [hmem]
    exact .inr ⟨hplain, hc'⟩
  · exact .inl (hprinted c hmem)

theorem printed_of_isNumberChar {c : Char} (h : isNumberChar c = true) : Printed c := by
  simp only [isNumberChar, Bool.or_eq_true, decide_eq_true_eq] at h
  rcases h with ((((h | rfl) | rfl) | rfl) | rfl) | rfl
  · simp only [Char.isDigit, Bool.and_eq_true, decide_eq_true_eq] at h
    have hlow : 48 ≤ c.toNat := h.1
    have hhigh : c.toNat ≤ 57 := h.2
    exact ⟨by omega, by omega⟩
  · exact ⟨by decide, by decide⟩
  · exact ⟨by decide, by decide⟩
  · exact ⟨by decide, by decide⟩
  · exact ⟨by decide, by decide⟩
  · exact ⟨by decide, by decide⟩

mutual

theorem shown_print : ∀ {v : Json}, v.Readable → ∀ c ∈ print v, Shown v.chars c
  | .null, _ => by
    simp only [print, List.forall_mem_cons]
    exact ⟨.inl ⟨by decide, by decide⟩, .inl ⟨by decide, by decide⟩, .inl ⟨by decide, by decide⟩,
      .inl ⟨by decide, by decide⟩, nofun⟩
  | .bool true, _ => by
    simp only [print, List.forall_mem_cons]
    exact ⟨.inl ⟨by decide, by decide⟩, .inl ⟨by decide, by decide⟩, .inl ⟨by decide, by decide⟩,
      .inl ⟨by decide, by decide⟩, nofun⟩
  | .bool false, _ => by
    simp only [print, List.forall_mem_cons]
    exact ⟨.inl ⟨by decide, by decide⟩, .inl ⟨by decide, by decide⟩, .inl ⟨by decide, by decide⟩,
      .inl ⟨by decide, by decide⟩, .inl ⟨by decide, by decide⟩, nofun⟩
  | .number text, h => fun c hc => .inl (printed_of_isNumberChar (isNumber_chars h c hc))
  | .string s, _ => shown_quote
  | .array [], _ => by
    simp only [print, List.forall_mem_cons]
    exact ⟨.inl ⟨by decide, by decide⟩, .inl ⟨by decide, by decide⟩, nofun⟩
  | .array (v :: vs), h => by
    obtain ⟨hv, hvs⟩ : v.Readable ∧ ReadableValues vs := h
    simp only [print, List.forall_mem_cons, List.forall_mem_append]
    exact ⟨.inl ⟨by decide, by decide⟩,
      fun c hc => (shown_print hv c hc).mono (List.subset_append_left _ _),
      fun c hc => (shown_printValues hvs c hc).mono (List.subset_append_right _ _)⟩
  | .object [], _ => by
    simp only [print, List.forall_mem_cons]
    exact ⟨.inl ⟨by decide, by decide⟩, .inl ⟨by decide, by decide⟩, nofun⟩
  | .object ((name, v) :: ms), h => by
    obtain ⟨-, hv, hms⟩ : name.wellFormed = true ∧ v.Readable ∧ ReadableMembers ms := h
    simp only [print, List.forall_mem_cons, List.forall_mem_append]
    exact ⟨.inl ⟨by decide, by decide⟩,
      fun c hc => (shown_quote c hc).mono fun c hc =>
        List.mem_append_left _ (List.mem_append_left _ hc),
      .inl ⟨by decide, by decide⟩,
      fun c hc => (shown_print hv c hc).mono fun c hc =>
        List.mem_append_left _ (List.mem_append_right _ hc),
      fun c hc => (shown_printMembers hms c hc).mono (List.subset_append_right _ _)⟩

theorem shown_printValues : ∀ {vs : List Json}, ReadableValues vs →
    ∀ c ∈ printValues vs, Shown (charsValues vs) c
  | [], _ => by
    simp only [printValues, List.forall_mem_cons]
    exact ⟨.inl ⟨by decide, by decide⟩, nofun⟩
  | v :: vs, h => by
    simp only [printValues, List.forall_mem_cons, List.forall_mem_append]
    exact ⟨.inl ⟨by decide, by decide⟩,
      fun c hc => (shown_print h.1 c hc).mono (List.subset_append_left _ _),
      fun c hc => (shown_printValues h.2 c hc).mono (List.subset_append_right _ _)⟩

theorem shown_printMembers : ∀ {ms : List (JsonText × Json)}, ReadableMembers ms →
    ∀ c ∈ printMembers ms, Shown (charsMembers ms) c
  | [], _ => by
    simp only [printMembers, List.forall_mem_cons]
    exact ⟨.inl ⟨by decide, by decide⟩, nofun⟩
  | (name, v) :: ms, h => by
    simp only [printMembers, List.forall_mem_cons, List.forall_mem_append]
    exact ⟨.inl ⟨by decide, by decide⟩,
      fun c hc => (shown_quote c hc).mono fun c hc =>
        List.mem_append_left _ (List.mem_append_left _ hc),
      .inl ⟨by decide, by decide⟩,
      fun c hc => (shown_print h.2.1 c hc).mono fun c hc =>
        List.mem_append_left _ (List.mem_append_right _ hc),
      fun c hc => (shown_printMembers h.2.2 c hc).mono (List.subset_append_right _ _)⟩

end

/-! ## Lines of Go -/

theorem not_mem_print {v : Json} (h : v.Readable) {c : Char} (hc : c.toNat < 0x20) :
    c ∉ print v := by
  intro hmem
  rcases shown_print h c hmem with hprinted | ⟨hplain, -⟩
  · have hlow := hprinted.1
    omega
  · have hlow := hplain.2.2.1
    omega

theorem encode_print_ne_nil {v : Json} (h : v.Readable) : Utf8.encode (print v) ≠ [] := by
  obtain ⟨c, text, htext, -⟩ := print_head h
  rw [htext, Utf8.encode_cons]
  exact fun hnil => String.utf8EncodeChar_ne_nil (List.append_eq_nil_iff.mp hnil).1

/-- A printed document that fits in the buffer is a line. -/
theorem isLine_print {v : Json} (h : v.Readable) {limit : Nat}
    (hlength : (Utf8.encode (print v)).length < limit) : IsLine limit (Utf8.encode (print v)) where
  ne_nil := encode_print_ne_nil h
  not_lf hmem := not_mem_print h (by decide) (Utf8.mem_of_mem_encode hmem (by decide))
  not_cr hlast :=
    not_mem_print h (by decide) (Utf8.mem_of_mem_encode (List.mem_of_getLast? hlast) (by decide))
  length_lt := hlength

/-! ## Lines of Python -/

/-- The next line, which ends a line for Python and is no character that JSON escapes. -/
def nextLine : Char := '\u0085'

theorem eq_nextLine {v : Json} (h : v.Readable) {c : Char} (hc : c ∈ print v)
    (hbreak : isLineBreak c = true) : c = nextLine ∧ nextLine ∈ v.chars := by
  have hvalue : c.toNat = 0x85 → c = nextLine := by
    intro hc
    rw [← Char.ofNat_toNat c, hc]
    rfl
  simp only [isLineBreak, List.contains_eq_mem, List.mem_cons, List.not_mem_nil, or_false,
    decide_eq_true_eq] at hbreak
  rcases shown_print h c hc with ⟨hlow, hhigh⟩ | ⟨⟨-, -, hlow, hls, hps⟩, hmem⟩
  · omega
  · have heq := hvalue (by omega)
    exact ⟨heq, heq ▸ hmem⟩

theorem nextLine_mem_quote {s : String} (h : nextLine ∈ s.toList) : nextLine ∈ quote s := by
  have hescape : escapeChar nextLine = [nextLine] := by decide
  refine List.mem_cons_of_mem _ (List.mem_append_left _ (List.mem_flatMap.mpr ⟨nextLine, h, ?_⟩))
  rw [hescape]
  exact List.mem_singleton_self nextLine

mutual

theorem nextLine_mem_print : ∀ {v : Json}, nextLine ∈ v.chars → nextLine ∈ print v
  | .string s, h => nextLine_mem_quote h
  | .array (v :: vs), h => by
    rw [print, List.mem_cons, List.mem_append]
    rcases List.mem_append.mp h with h | h
    · exact .inr (.inl (nextLine_mem_print h))
    · exact .inr (.inr (nextLine_mem_printValues h))
  | .object ((name, v) :: ms), h => by
    rw [print, List.mem_cons, List.mem_append, List.mem_cons, List.mem_append]
    rcases List.mem_append.mp h with h | h
    · rcases List.mem_append.mp h with h | h
      · exact .inr (.inl (nextLine_mem_quote h))
      · exact .inr (.inr (.inr (.inl (nextLine_mem_print h))))
    · exact .inr (.inr (.inr (.inr (nextLine_mem_printMembers h))))

theorem nextLine_mem_printValues : ∀ {vs : List Json}, nextLine ∈ charsValues vs →
    nextLine ∈ printValues vs
  | v :: vs, h => by
    rw [printValues, List.mem_cons, List.mem_append]
    rcases List.mem_append.mp h with h | h
    · exact .inr (.inl (nextLine_mem_print h))
    · exact .inr (.inr (nextLine_mem_printValues h))

theorem nextLine_mem_printMembers : ∀ {ms : List (JsonText × Json)}, nextLine ∈ charsMembers ms →
    nextLine ∈ printMembers ms
  | (name, v) :: ms, h => by
    rw [printMembers, List.mem_cons, List.mem_append, List.mem_cons, List.mem_append]
    rcases List.mem_append.mp h with h | h
    · rcases List.mem_append.mp h with h | h
      · exact .inr (.inl (nextLine_mem_quote h))
      · exact .inr (.inr (.inr (.inl (nextLine_mem_print h))))
    · exact .inr (.inr (.inr (.inr (nextLine_mem_printMembers h))))

end

/-- `str.isspace` of one character. -/
def isStrSpace (c : Char) : Bool :=
  let n := c.toNat
  [0x20, 0x85, 0xA0, 0x1680, 0x2028, 0x2029, 0x202F, 0x205F, 0x3000].contains n ||
    (0x9 ≤ n && n ≤ 0xD) || (0x1C ≤ n && n ≤ 0x1F) || (0x2000 ≤ n && n ≤ 0x200A)

/-- `not line.strip()`. -/
def isBlank (line : List Char) : Bool := line.all isStrSpace

/-- The documents of the lines of a text that are not blank. -/
def readLines (text : List Char) : Option (List Json) :=
  ((splitlines (universalNewlines text)).filter fun line => !isBlank line).mapM parse

/-- A file of printed objects. -/
def IsJsonl (docs : List Json) : Prop :=
  ∀ doc ∈ docs, doc.Readable ∧ ∃ members, doc = .object members

/-- The text of a file of documents. -/
def jsonl (docs : List Json) : List Char := docs.flatMap fun doc => print doc ++ ['\n']

theorem print_object (members : List (JsonText × Json)) :
    ∃ text, print (.object members) = '{' :: text := by
  cases members with
  | nil => exact ⟨_, rfl⟩
  | cons m ms => exact ⟨_, rfl⟩

theorem universalNewlines_jsonl {docs : List Json} (h : IsJsonl docs) :
    universalNewlines (jsonl docs) = jsonl docs := by
  refine universalNewlines_eq fun hmem => ?_
  obtain ⟨doc, hdoc, hmem⟩ := List.mem_flatMap.mp hmem
  rcases List.mem_append.mp hmem with hmem | hmem
  · exact not_mem_print (h doc hdoc).1 (by decide) hmem
  · cases List.mem_singleton.mp hmem

/-- The first line of a file whose first document has a U+0085 is a cut object. -/
theorem splitlines_cut {members : List (JsonText × Json)} (h : (object members).Readable)
    (hnext : nextLine ∈ (object members).chars) (more : List Char) :
    ∃ line lines, splitlines (print (object members) ++ more) = line :: lines ∧
      isBlank line = false ∧ parse line = none := by
  obtain ⟨line, rest, heq, hline⟩ := List.eq_append_cons_of_mem (nextLine_mem_print hnext)
  have hbreak : ∀ c ∈ line, isLineBreak c = false := by
    intro c hc
    rw [← Bool.not_eq_true]
    intro hbreak
    have hmem : c ∈ print (object members) := by
      rw [heq]
      exact List.mem_append_left _ hc
    exact hline ((eq_nextLine h hmem hbreak).1 ▸ hc)
  have hblank : isBlank line = false := by
    obtain ⟨text, htext⟩ := print_object members
    rw [htext] at heq
    cases line with
    | nil => cases (List.cons.inj heq).1
    | cons c line =>
      rw [← (List.cons.inj heq).1]
      rfl
  refine ⟨line, splitlines (rest ++ more), ?_, hblank, parse_cut h heq (List.cons_ne_nil _ _)⟩
  rw [heq, List.append_assoc, List.cons_append]
  exact splitlines_line hbreak rfl (by decide) _

theorem readLines_cons {docs : List Json} {doc : Json} (h : IsJsonl (doc :: docs))
    (hnext : nextLine ∉ doc.chars) :
    ((splitlines (jsonl (doc :: docs))).filter fun line => !isBlank line).mapM parse =
      (((splitlines (jsonl docs)).filter fun line => !isBlank line).mapM parse).map
        fun docs => doc :: docs := by
  obtain ⟨hreadable, members, hmembers⟩ := h doc List.mem_cons_self
  have hline : ∀ c ∈ print doc, isLineBreak c = false := by
    intro c hc
    rw [← Bool.not_eq_true]
    intro hbreak
    exact hnext (eq_nextLine hreadable hc hbreak).2
  have hsplit : splitlines (jsonl (doc :: docs)) = print doc :: splitlines (jsonl docs) := by
    rw [jsonl, List.flatMap_cons, List.append_assoc]
    exact splitlines_line hline rfl (by decide) _
  have hblank : isBlank (print doc) = false := by
    obtain ⟨text, htext⟩ := print_object members
    rw [hmembers, htext]
    rfl
  rw [hsplit, List.filter_cons_of_pos (by rw [hblank]; rfl), List.mapM_cons, parse_print hreadable]
  cases ((splitlines (jsonl docs)).filter fun line => !isBlank line).mapM parse <;> rfl

/-- **Reading a file of printed objects.** It gives the objects, unless a name or a string of one of
them has a U+0085. Then it fails. -/
theorem readLines_eq {docs : List Json} (h : IsJsonl docs) :
    readLines (jsonl docs) = if ∀ doc ∈ docs, nextLine ∉ doc.chars then some docs else none := by
  unfold readLines
  rw [universalNewlines_jsonl h]
  induction docs with
  | nil => rfl
  | cons doc docs ih =>
    have htail := ih fun doc hdoc => h doc (List.mem_cons_of_mem _ hdoc)
    simp only [List.forall_mem_cons]
    by_cases hnext : nextLine ∈ doc.chars
    · rw [if_neg fun hall => hall.1 hnext]
      obtain ⟨hreadable, members, rfl⟩ := h doc List.mem_cons_self
      obtain ⟨line, lines, hlines, hblank, hparse⟩ :=
        splitlines_cut hreadable hnext (['\n'] ++ jsonl docs)
      have heq : jsonl (object members :: docs) =
          print (object members) ++ (['\n'] ++ jsonl docs) := by
        rw [jsonl, List.flatMap_cons, List.append_assoc]
        rfl
      rw [heq, hlines, List.filter_cons_of_pos (by rw [hblank]; rfl), List.mapM_cons, hparse]
      rfl
    · rw [readLines_cons h hnext, htail]
      by_cases hdocs : ∀ doc ∈ docs, nextLine ∉ doc.chars
      · rw [if_pos hdocs, if_pos ⟨hnext, hdocs⟩]
        rfl
      · rw [if_neg hdocs, if_neg fun hall => hdocs hall.2]
        rfl

end Kavora.Lib.Json
