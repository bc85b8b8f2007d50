import Kavora.Lib.JsonLines
import Kavora.Lib.Marshal

/-!
# Documents in a stream of bytes

A stream may end anywhere, also inside the bytes of one character. The reader puts U+FFFD for bytes
that do not decode.

* `parse_object_end`: a text that is read as an object ends with `}`, up to white space.
* `parse_cut_bytes`: the bytes of a printed object are not read when some are missing.
* `unmarshalBytes`, `decodeBytes`: `json.Unmarshal` and `json.NewDecoder(r).Decode`; what follows the
  first document does not matter to the second.
-/

namespace Kavora.Lib.Json

/-! ## Where a reader stops -/

theorem skipSpace_suffix (text : List Char) : skipSpace text <:+ text := List.dropWhile_suffix _

theorem suffix_of_skipSpace {text rest : List Char} {c : Char} (h : skipSpace text = c :: rest) :
    rest <:+ text :=
  (List.suffix_cons c rest).trans (h ▸ skipSpace_suffix text)

theorem parseUnit_suffix {text rest : List Char} {unit : Nat}
    (h : parseUnit text = some (unit, rest)) : rest <:+ text := by
  unfold parseUnit at h
  split at h
  · rename_i a b c d rest'
    cases ha : hexValue a <;> cases hb : hexValue b <;> cases hc : hexValue c <;>
      cases hd : hexValue d <;> simp [ha, hb, hc, hd] at h
    exact h.2 ▸ ⟨['\\', 'u', a, b, c, d], rfl⟩
  · rename_i c rest' _
    obtain ⟨unit', -, heq⟩ := Option.map_eq_some_iff.mp h
    cases heq
    exact ⟨['\\', c], rfl⟩
  · rename_i c rest' _ _
    split at h
    · cases h
    · cases h
      exact List.suffix_cons c rest
  · cases h

theorem parseUnits_suffix {n : Nat} {text rest : List Char} {units : List Nat}
    (h : parseUnits n text = some (units, rest)) : rest <:+ text := by
  induction n generalizing text units with
  | zero => cases h
  | succ n ih =>
    by_cases hquote : ∃ rest', text = '"' :: rest'
    · obtain ⟨rest', rfl⟩ := hquote
      cases h
      exact List.suffix_cons _ _
    · rw [parseUnits_cons fun rest' heq => hquote ⟨rest', heq⟩] at h
      obtain ⟨⟨unit, rest'⟩, hunit, h⟩ := Option.bind_eq_some_iff.mp h
      obtain ⟨⟨units', rest''⟩, hunits, heq⟩ := Option.map_eq_some_iff.mp h
      cases heq
      exact (ih hunits).trans (parseUnit_suffix hunit)

theorem parseString_suffix {text rest : List Char} {s : JsonText}
    (h : parseString text = some (s, rest)) : rest <:+ text := by
  obtain ⟨⟨units, rest'⟩, hunits, heq⟩ := Option.map_eq_some_iff.mp h
  cases heq
  exact parseUnits_suffix hunits

theorem parseAtom_suffix {text rest : List Char} {v : Json}
    (h : parseAtom text = some (v, rest)) : rest <:+ text := by
  unfold parseAtom parseNumber at h
  split at h
  · cases h
    exact List.drop_suffix _ _
  split at h
  · cases h
    exact List.drop_suffix _ _
  split at h
  · cases h
    exact List.drop_suffix _ _
  split at h
  · cases h
    exact List.dropWhile_suffix _
  · cases h

/-- What is left after a value is an end of the text. -/
def ValueSuffix (n : Nat) : Prop :=
  ∀ {text rest : List Char} {v : Json}, parseValue n text = some (v, rest) → rest <:+ text

/-- An array that was read ends with its bracket. -/
def ValuesEnd (n : Nat) : Prop :=
  ∀ {text rest : List Char} {vs : List Json}, parseValues n text = some (vs, rest) →
    ']' :: rest <:+ text

/-- An object that was read ends with its brace. -/
def MembersEnd (n : Nat) : Prop :=
  ∀ {text rest : List Char} {ms : List (JsonText × Json)}, parseMembers n text = some (ms, rest) →
    '}' :: rest <:+ text

theorem ValueSuffix.values {n : Nat} (hvalue : ValueSuffix n) (hvalues : ValuesEnd n) :
    ValuesEnd (n + 1) := by
  intro text rest vs h
  rw [parseValues] at h
  obtain ⟨⟨v, rest₁⟩, hv, h⟩ := Option.bind_eq_some_iff.mp h
  have hrest₁ := hvalue hv
  dsimp only at h
  split at h
  · rename_i rest₂ hcomma
    obtain ⟨⟨vs', rest₃⟩, hvs, heq⟩ := Option.bind_eq_some_iff.mp h
    cases heq
    exact (hvalues hvs).trans ((suffix_of_skipSpace hcomma).trans hrest₁)
  · rename_i rest₂ hbracket
    cases h
    exact (hbracket ▸ skipSpace_suffix rest₁).trans hrest₁
  · cases h

theorem ValueSuffix.members {n : Nat} (hvalue : ValueSuffix n) (hmembers : MembersEnd n) :
    MembersEnd (n + 1) := by
  intro text rest ms h
  rw [parseMembers] at h
  split at h
  · rename_i rest₁ hquote
    have hrest₁ := suffix_of_skipSpace hquote
    obtain ⟨⟨name, rest₂⟩, hname, h⟩ := Option.bind_eq_some_iff.mp h
    have hrest₂ := (parseString_suffix hname).trans hrest₁
    dsimp only at h
    split at h
    · rename_i rest₃ hcolon
      obtain ⟨⟨v, rest₄⟩, hv, h⟩ := Option.bind_eq_some_iff.mp h
      have hrest₄ := (hvalue hv).trans ((suffix_of_skipSpace hcolon).trans hrest₂)
      dsimp only at h
      split at h
      · rename_i rest₅ hcomma
        obtain ⟨⟨ms', rest₆⟩, hms, heq⟩ := Option.bind_eq_some_iff.mp h
        cases heq
        exact (hmembers hms).trans ((suffix_of_skipSpace hcomma).trans hrest₄)
      · rename_i rest₅ hbrace
        cases h
        exact (hbrace ▸ skipSpace_suffix rest₄).trans hrest₄
      · cases h
    · cases h
  · cases h

theorem ValueSuffix.succ {n : Nat} (hvalues : ValuesEnd n) (hmembers : MembersEnd n) :
    ValueSuffix (n + 1) := by
  intro text rest v h
  rw [parseValue] at h
  split at h
  · cases h
  · rename_i rest₁ hquote
    obtain ⟨⟨s, rest₂⟩, hs, heq⟩ := Option.map_eq_some_iff.mp h
    cases heq
    exact (parseString_suffix hs).trans (suffix_of_skipSpace hquote)
  · rename_i rest₁ hbracket
    have hrest₁ := suffix_of_skipSpace hbracket
    split at h
    · rename_i rest₂ hempty
      cases h
      exact (suffix_of_skipSpace hempty).trans hrest₁
    · obtain ⟨⟨vs, rest₂⟩, hvs, heq⟩ := Option.map_eq_some_iff.mp h
      cases heq
      exact ((List.suffix_cons _ _).trans (hvalues hvs)).trans
        ((skipSpace_suffix rest₁).trans hrest₁)
  · rename_i rest₁ hbrace
    have hrest₁ := suffix_of_skipSpace hbrace
    split at h
    · rename_i rest₂ hempty
      cases h
      exact (suffix_of_skipSpace hempty).trans hrest₁
    · obtain ⟨⟨ms, rest₂⟩, hms, heq⟩ := Option.map_eq_some_iff.mp h
      cases heq
      exact ((List.suffix_cons _ _).trans (hmembers hms)).trans
        ((skipSpace_suffix rest₁).trans hrest₁)
  · rename_i c rest₁ _ _ _ hchar
    exact (parseAtom_suffix h).trans (hchar ▸ skipSpace_suffix text)

theorem parse_suffixes (n : Nat) : ValueSuffix n ∧ ValuesEnd n ∧ MembersEnd n := by
  induction n with
  | zero =>
    refine ⟨?_, ?_, ?_⟩
    · intro text rest v h
      cases h
    · intro text rest vs h
      cases h
    · intro text rest ms h
      cases h
  | succ n ih =>
    obtain ⟨hvalue, hvalues, hmembers⟩ := ih
    exact ⟨ValueSuffix.succ hvalues hmembers, hvalue.values hvalues, hvalue.members hmembers⟩

theorem parseValue_object_end {n : Nat} {text rest : List Char} {v : Json}
    (h : parseValue n ('{' :: text) = some (v, rest)) : '}' :: rest <:+ '{' :: text := by
  cases n with
  | zero => cases h
  | succ n =>
    rw [parseValue, skipSpace_cons rfl] at h
    simp only at h
    split at h
    · rename_i rest₁ hempty
      cases h
      exact (hempty ▸ skipSpace_suffix text).trans (List.suffix_cons _ _)
    · obtain ⟨⟨ms, rest₁⟩, hms, heq⟩ := Option.map_eq_some_iff.mp h
      cases heq
      exact ((parse_suffixes n).2.2 hms).trans
        ((skipSpace_suffix text).trans (List.suffix_cons _ _))

/-- **A text that is read as an object ends with its brace**, up to white space. -/
theorem parse_object_end {text : List Char} {v : Json} (h : parse ('{' :: text) = some v) :
    ∃ pre space, '{' :: text = pre ++ '}' :: space ∧ skipSpace space = [] := by
  unfold parse at h
  split at h
  · rename_i doc rest hvalue
    split at h
    · rename_i hspace
      obtain ⟨pre, hpre⟩ := parseValue_object_end hvalue
      exact ⟨pre, rest, hpre.symm, hspace⟩
    · cases h
  · cases h

/-! ## Bytes -/

theorem decodeChar_split {bytes : Bytes} {c : Char} (h : Utf8.decodeChar bytes = some c) :
    ∃ rest, bytes = String.utf8EncodeChar c ++ rest := by
  obtain ⟨rest, hrest⟩ := ByteArray.exists_of_utf8DecodeChar?_eq_some h
  have htake : bytes.take 4 = String.utf8EncodeChar c ++ rest.data.toList := by
    have hdata := congrArg (fun b : ByteArray => b.data.toList) hrest
    simpa using hdata
  refine ⟨rest.data.toList ++ bytes.drop 4, ?_⟩
  rw [← List.append_assoc, ← htake, List.take_append_drop]

/-- The bytes of a character beyond ASCII are all beyond ASCII. -/
theorem toNat_of_mem_utf8EncodeChar {b : UInt8} {c : Char} (hb : b ∈ String.utf8EncodeChar c)
    (hlength : 1 < (String.utf8EncodeChar c).length) : 128 ≤ b.toNat := by
  by_contra hlt
  have hc := Utf8.toNat_of_mem_utf8EncodeChar hb (by omega)
  rw [String.length_utf8EncodeChar] at hlength
  have hone : c.utf8Size = 1 := Char.utf8Size_eq_one_iff.mpr (by
    show c.val.toNat ≤ 127
    have hvalue : c.toNat = c.val.toNat := rfl
    omega)
  omega

theorem toNat_of_small {b : UInt8} {c : Char} (hb : b ∈ String.utf8EncodeChar c)
    (hc : c.toNat < 128) : b.toNat = c.toNat := by
  have hvalue : c.toNat = c.val.toNat := rfl
  have hencode : String.utf8EncodeChar c = [UInt8.ofNat c.val.toNat] := by
    unfold String.utf8EncodeChar
    exact if_pos (by omega)
  rw [hencode, List.mem_singleton] at hb
  rw [hb, UInt8.toNat_ofNat']
  omega

/-- The first rune of some bytes: a character, or U+FFFD for one byte. -/
theorem runes_cons (b : UInt8) (bytes : Bytes) :
    ∃ c head rest, b :: bytes = head ++ rest ∧ head ≠ [] ∧
      Utf8.runes (b :: bytes) = c :: Utf8.runes rest ∧
      (head = String.utf8EncodeChar c ∨ c = '\uFFFD') := by
  cases hdecode : Utf8.decodeChar (b :: bytes) with
  | none =>
    refine ⟨'\uFFFD', [b], bytes, rfl, List.cons_ne_nil _ _, ?_, .inr rfl⟩
    unfold Utf8.runes
    rw [Utf8.units, hdecode]
    rfl
  | some c =>
    obtain ⟨rest, hrest⟩ := decodeChar_split hdecode
    refine ⟨c, String.utf8EncodeChar c, rest, hrest, String.utf8EncodeChar_ne_nil, ?_, .inl rfl⟩
    unfold Utf8.runes
    rw [hrest, Utf8.units_encode_char]
    rfl

/-- Bytes that end beyond ASCII are read as a text that ends beyond ASCII. -/
theorem runes_getLast {q : Bytes} {b : UInt8} (hb : q.getLast? = some b) (hlarge : 128 ≤ b.toNat) :
    ∃ c, (Utf8.runes q).getLast? = some c ∧ 128 ≤ c.toNat := by
  induction hn : q.length using Nat.strong_induction_on generalizing q with
  | _ n ih =>
    cases q with
    | nil => cases hb
    | cons b' q =>
      obtain ⟨c, head, rest, hsplit, hhead, hrunes, hc⟩ := runes_cons b' q
      rw [hrunes]
      rw [hsplit] at hb hn
      cases rest with
      | nil =>
        refine ⟨c, rfl, ?_⟩
        rw [List.append_nil] at hb
        rcases hc with rfl | rfl
        · by_contra hlt
          have hsmall := toNat_of_small (List.mem_of_getLast? hb) (by omega)
          omega
        · decide
      | cons b'' rest =>
        have hlength := List.length_pos_iff.mpr hhead
        rw [List.length_append] at hn
        rw [List.getLast?_append_of_ne_nil _ (List.cons_ne_nil b'' rest)] at hb
        obtain ⟨c', hlast, hc'⟩ := ih _ (by omega) hb rfl
        refine ⟨c', ?_, hc'⟩
        rw [List.getLast?_cons, hlast]
        rfl

/-- The beginning of the bytes of a text: some of its characters and some bytes of the next. -/
theorem encode_cut {text : List Char} {q rest : Bytes} (h : q ++ rest = Utf8.encode text) :
    ∃ pre post part, text = pre ++ post ∧ q = Utf8.encode pre ++ part ∧
      (part = [] ∨ ∃ c ∈ post.head?, ∃ more, more ≠ [] ∧ part ++ more = String.utf8EncodeChar c) := by
  induction text generalizing q with
  | nil =>
    obtain ⟨rfl, rfl⟩ := List.append_eq_nil_iff.mp h
    exact ⟨[], [], [], rfl, rfl, .inl rfl⟩
  | cons c text ih =>
    rw [Utf8.encode_cons] at h
    rcases List.append_eq_append_iff.mp h with ⟨more, hc, -⟩ | ⟨q', rfl, hq'⟩
    · by_cases hmore : more = []
      · rw [hmore, List.append_nil] at hc
        refine ⟨[c], text, [], rfl, ?_, .inl rfl⟩
        rw [← hc, List.append_nil, Utf8.encode_cons]
        exact (List.append_nil _).symm
      · exact ⟨[], c :: text, q, rfl, rfl, .inr ⟨c, rfl, more, hmore, hc.symm⟩⟩
    · obtain ⟨pre, post, part, rfl, rfl, hpart⟩ := ih hq'.symm
      refine ⟨c :: pre, post, part, rfl, ?_, hpart⟩
      rw [Utf8.encode_cons, List.append_assoc]

theorem runes_encode_append (text : List Char) (bytes : Bytes) :
    Utf8.runes (Utf8.encode text ++ bytes) = text ++ Utf8.runes bytes := by
  induction text with
  | nil => rfl
  | cons c text ih =>
    unfold Utf8.runes at ih ⊢
    rw [Utf8.encode_cons, List.append_assoc, Utf8.units_encode_char, List.map_cons, ih]
    rfl

/-- A text that ends beyond ASCII is no object. -/
theorem parse_open_end {text : List Char} {c : Char} (hlast : ('{' :: text).getLast? = some c)
    (hc : 128 ≤ c.toNat) : parse ('{' :: text) = none := by
  cases hparse : parse ('{' :: text) with
  | none => rfl
  | some v =>
    obtain ⟨pre, space, hsplit, hspace⟩ := parse_object_end hparse
    rw [hsplit, List.getLast?_append_of_ne_nil _ (List.cons_ne_nil _ _)] at hlast
    have hmem := List.mem_of_getLast? hlast
    rcases List.mem_cons.mp hmem with rfl | hmem
    · exact absurd hc (by decide)
    · have hwhite : isWhitespace c = true := List.dropWhile_eq_nil_iff.mp hspace c hmem
      simp only [isWhitespace, Bool.or_eq_true, decide_eq_true_eq] at hwhite
      rcases hwhite with ((rfl | rfl) | rfl) | rfl <;> exact absurd hc (by decide)

/-- **The bytes of a printed object are not read when some are missing.** -/
theorem parse_cut_bytes {members : List (JsonText × Json)} (h : (object members).Readable)
    {q rest : Bytes} (hq : q ++ rest = Utf8.encode (print (object members))) (hrest : rest ≠ []) :
    parse (Utf8.runes q) = none := by
  obtain ⟨pre, post, part, hsplit, rfl, hpart⟩ := encode_cut hq
  by_cases hnil : part = []
  · rw [hnil, List.append_nil] at hq ⊢
    rw [Utf8.runes_encode]
    refine parse_cut h hsplit ?_
    rintro rfl
    rw [List.append_nil] at hsplit
    rw [hsplit] at hq
    exact hrest (List.append_right_eq_self.mp hq)
  · obtain ⟨c, hc, more, hmore, hchar⟩ := hpart.resolve_left hnil
    have hlong : 1 < (String.utf8EncodeChar c).length := by
      have hpos := List.length_pos_iff.mpr hnil
      have hpos' := List.length_pos_iff.mpr hmore
      rw [← hchar, List.length_append]
      omega
    -- the cut is inside a character beyond ASCII, so behind the brace
    obtain ⟨text, htext⟩ : ∃ text, print (object members) = '{' :: text := by
      cases members with
      | nil => exact ⟨_, rfl⟩
      | cons m ms => exact ⟨_, rfl⟩
    cases pre with
    | nil =>
      rw [htext, List.nil_append] at hsplit
      rw [← hsplit] at hc
      cases hc
      exact absurd hlong (by decide)
    | cons c' pre =>
      rw [htext, List.cons_append] at hsplit
      obtain ⟨rfl, -⟩ := List.cons.inj hsplit
      obtain ⟨b, hb⟩ := Option.ne_none_iff_exists'.mp (mt List.getLast?_eq_none_iff.mp hnil)
      have hmem : b ∈ String.utf8EncodeChar c :=
        hchar ▸ List.mem_append_left _ (List.mem_of_getLast? hb)
      obtain ⟨c', hlast, hlarge⟩ := runes_getLast hb (toNat_of_mem_utf8EncodeChar hmem hlong)
      rw [runes_encode_append]
      have hne : Utf8.runes part ≠ [] := by
        intro heq
        rw [heq] at hlast
        cases hlast
      refine parse_open_end (c := c') ?_ hlarge
      show ('{' :: pre ++ Utf8.runes part).getLast? = some c'
      rw [List.getLast?_append_of_ne_nil _ hne, hlast]

/-! ## Writers -/

/-- A writer of documents, with the white space and the escapes that it chooses. A part of a written
object is no document. -/
structure Writer where
  write : Json → Bytes
  reads : ∀ {doc : Json}, doc.Readable → parse (Utf8.runes (write doc)) = some doc
  cut : ∀ {members : List (JsonText × Json)}, (object members).Readable → ∀ {q rest : Bytes},
    q ++ rest = write (object members) → rest ≠ [] → parse (Utf8.runes q) = none

theorem parse_print_bytes {doc : Json} (h : doc.Readable) :
    parse (Utf8.runes (Utf8.encode doc.print)) = some doc := by
  rw [Utf8.runes_encode, parse_print h]

/-- The writer of `encoding/json`. -/
def Writer.go : Writer where
  write doc := Utf8.encode doc.print
  reads := parse_print_bytes
  cut := parse_cut_bytes

end Kavora.Lib.Json

/-! ## Values -/

namespace Kavora.Lib.Go

open Json

/-- The value of a document; `encoding/json` nests at most 10000 deep. -/
def readValue (α : Type) [Marshal α] (doc : Json) : Option α :=
  if doc.nesting > 10000 then none else Marshal.unmarshal doc Marshal.zero

/-- `json.Unmarshal` into a new value. -/
def unmarshalBytes (α : Type) [Marshal α] (data : Bytes) : Option α :=
  (parse (Utf8.runes data)).bind (readValue α)

/-- The first document of a text. -/
def parseFirst (text : List Char) : Option Json :=
  (parseValue (text.length + 1) text).map (·.1)

/-- `json.NewDecoder(r).Decode` into a new value. -/
def decodeBytes (α : Type) [Marshal α] (data : Bytes) : Option α :=
  (parseFirst (Utf8.runes data)).bind (readValue α)

/-- A member of a printed object. -/
def member (name : String) (value : Json) : JsonText × Json :=
  ({ text := name, wellFormed := true }, value)

section

variable {S : Type} {fields : List (Go.Field S)} {name : String} {value : Json}
  {members : List (JsonText × Json)} {s : S}

/-- A member for a field of the struct. -/
theorem foldlM_known {f : Go.Field S} (h : findField fields name = some f) :
    (member name value :: members).foldlM (assignMember fields) s =
      (f.assign value s).bind fun s => members.foldlM (assignMember fields) s := by
  rw [List.foldlM_cons, assignMember, member, h]
  rfl

/-- A member for no field of the struct, whatever the case of its letters. -/
theorem foldlM_unknown (h : ∀ n ∈ fields.map (·.name), foldName n ≠ foldName name) :
    (member name value :: members).foldlM (assignMember fields) s =
      members.foldlM (assignMember fields) s := by
  have hnone : findField fields name = none := by
    have hfold : ∀ f ∈ fields, foldName f.name ≠ foldName name := fun f hf =>
      h f.name (List.mem_map_of_mem hf)
    unfold findField
    rw [List.find?_eq_none.mpr fun f hf => by
      simpa using fun hname : f.name = name => hfold f hf (congrArg foldName hname)]
    exact List.find?_eq_none.mpr fun f hf => by simpa using hfold f hf
  rw [List.foldlM_cons, assignMember, member, hnone]
  rfl

end

section

variable {α : Type} [Marshal α] {doc : Json}

theorem unmarshalBytes_print (h : doc.Readable) :
    unmarshalBytes α (Utf8.encode doc.print) = readValue α doc := by
  unfold unmarshalBytes
  rw [Utf8.runes_encode, parse_print h]
  rfl

theorem unmarshalBytes_write (writer : Writer) (h : doc.Readable) :
    unmarshalBytes α (writer.write doc) = readValue α doc := by
  unfold unmarshalBytes
  rw [writer.reads h]
  rfl

/-- A written document is decoded. -/
theorem decodeBytes_write (writer : Writer) (h : doc.Readable) :
    decodeBytes α (writer.write doc) = readValue α doc := by
  have hparse := writer.reads h
  unfold parse at hparse
  unfold decodeBytes parseFirst
  split at hparse
  · rename_i doc' rest hvalue
    split at hparse
    · cases hparse
      rw [hvalue]
      rfl
    · cases hparse
  · cases hparse

/-- A written object is not read when its end is cut off. -/
theorem unmarshalBytes_write_cut (writer : Writer) {members : List (JsonText × Json)}
    (h : (object members).Readable) {limit : Nat}
    (hlimit : limit < (writer.write (object members)).length) :
    unmarshalBytes α ((writer.write (object members)).take limit) = none := by
  have hrest : (writer.write (object members)).drop limit ≠ [] := by
    intro hnil
    have hlength := List.drop_eq_nil_iff.mp hnil
    omega
  unfold unmarshalBytes
  rw [writer.cut h (List.take_append_drop limit _) hrest]
  rfl

/-- A printed document is decoded, whatever follows it. -/
theorem decodeBytes_print (h : doc.Readable) {rest : Bytes} (hrest : Ends (Utf8.runes rest)) :
    decodeBytes α (Utf8.encode doc.print ++ rest) = readValue α doc := by
  unfold decodeBytes parseFirst
  rw [runes_encode_append, reads doc h _ _ (by rw [List.length_append]; omega) hrest]
  rfl

theorem decodeBytes_printed (h : doc.Readable) :
    decodeBytes α (Utf8.encode doc.print) = readValue α doc := by
  have hends : Ends (Utf8.runes []) := by
    intro c hc
    cases hc
  have hdecode : decodeBytes α (Utf8.encode doc.print ++ []) = readValue α doc :=
    decodeBytes_print h hends
  rwa [List.append_nil] at hdecode

/-- A cut object of ASCII characters is not decoded. -/
theorem decodeBytes_cut {members : List (JsonText × Json)} (h : (object members).Readable)
    (hascii : ∀ c ∈ print (object members), c.toNat < 128) {limit : Nat}
    (hlimit : limit < (Utf8.encode (print (object members))).length) :
    decodeBytes α ((Utf8.encode (print (object members))).take limit) = none := by
  obtain ⟨pre, post, part, hsplit, htake, hpart⟩ :=
    encode_cut (List.take_append_drop limit (Utf8.encode (print (object members))))
  have hnil : part = [] := by
    rcases hpart with hnil | ⟨c, hc, more, hmore, hchar⟩
    · exact hnil
    · have hmem : c ∈ print (object members) := by
        rw [hsplit]
        exact List.mem_append_right _ (List.mem_of_mem_head? hc)
      have hsize : c.utf8Size = 1 := by
        have hsmall := hascii c hmem
        refine Char.utf8Size_eq_one_iff.mpr (?_ : c.val.toNat ≤ 127)
        have hvalue : c.toNat = c.val.toNat := rfl
        omega
      have hlength := congrArg List.length hchar
      have hpos := List.length_pos_iff.mpr hmore
      rw [List.length_append, String.length_utf8EncodeChar, hsize] at hlength
      exact List.eq_nil_of_length_eq_zero (by omega)
  rw [hnil, List.append_nil] at htake
  have hpost : post ≠ [] := by
    rintro rfl
    rw [List.append_nil] at hsplit
    have hlength := congrArg List.length htake
    rw [← hsplit, List.length_take] at hlength
    omega
  unfold decodeBytes parseFirst
  rw [htake, Utf8.runes_encode, parseValue_cut h hsplit hpost]
  rfl

end

end Kavora.Lib.Go
