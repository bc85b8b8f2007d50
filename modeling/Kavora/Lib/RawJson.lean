import Kavora.Lib.JsonSyntax
import Kavora.Lib.Utf8

/-!
# The texts of the members of an object

`json.RawMessage` keeps the text of a value as it stands in the object.

* `Json.compact`: `json.Compact` with the escapes of `json.Marshal`.
* `Json.rawObject`: the members of an object with the texts of their values.
* `Json.Denotes`: a text without white space around it is the text of a document.
* `Json.quoteBytes`: a string of Go, which may have bytes that are no text.
* `Json.rawText`: an object that is put together from texts, which is read back with these texts.
-/

namespace Kavora.Lib.Json

/-! ## Texts of values -/

/-- `json.Compact` of a document, with `<`, `>`, `&`, U+2028 and U+2029 escaped. -/
def compact (inString escaped : Bool) : List Char → List Char
  | [] => []
  | c :: rest =>
    if c = '<' ∨ c = '>' ∨ c = '&' ∨ c.toNat = 0x2028 ∨ c.toNat = 0x2029 then
      escapeUnit c.toNat ++ compact inString false rest
    else if inString then c :: compact (escaped || c ≠ '"') (!escaped && c = '\\') rest
    else if isWhitespace c then compact false false rest
    else c :: compact (c = '"') false rest

/-- A member with the text of its value. -/
structure RawMember where
  name : JsonText
  value : Json
  raw : List Char

/-- The members of an object up to its end, as `parseMembers` reads them. -/
def rawMembers : Nat → List Char → Option (List RawMember × List Char)
  | 0, _ => none
  | n + 1, text =>
    match skipSpace text with
    | '"' :: rest => do
      let (name, rest) ← parseString rest
      match skipSpace rest with
      | ':' :: start => do
        let (value, rest) ← parseValue n start
        let raw := (skipSpace start).take ((skipSpace start).length - rest.length)
        match skipSpace rest with
        | ',' :: rest => do
          let (members, rest) ← rawMembers n rest
          some ({ name, value, raw } :: members, rest)
        | '}' :: rest => some ([{ name, value, raw }], rest)
        | _ => none
      | _ => none
    | _ => none

/-- The members of the object that a text is. -/
def rawObject (text : List Char) : List RawMember :=
  match skipSpace text with
  | '{' :: rest =>
    match skipSpace rest with
    | '}' :: _ => []
    | rest => ((rawMembers text.length rest).map (·.1)).getD []
  | _ => []

/-- The member without its text. -/
def RawMember.member (m : RawMember) : JsonText × Json := (m.name, m.value)

/-- The members are those that `parseMembers` reads. The cases are those of the reader: an opening
quote, a colon, and a comma or a brace. -/
theorem parseMembers_eq (n : Nat) (text : List Char) :
    parseMembers n text = (rawMembers n text).map fun r => (r.1.map RawMember.member, r.2) := by
  induction n generalizing text with
  | zero => rfl
  | succ n ih =>
    rw [parseMembers, rawMembers]
    by_cases hquote : ∃ rest, skipSpace text = '"' :: rest
    · obtain ⟨rest, hquote⟩ := hquote
      simp only [hquote]
      cases parseString rest with
      | none => rfl
      | some parsed =>
        obtain ⟨name, rest⟩ := parsed
        simp only [Option.bind_eq_bind, Option.bind_some]
        by_cases hcolon : ∃ start, skipSpace rest = ':' :: start
        · obtain ⟨start, hcolon⟩ := hcolon
          simp only [hcolon]
          cases parseValue n start with
          | none => rfl
          | some parsed =>
            obtain ⟨value, rest⟩ := parsed
            simp only [Option.bind_some]
            by_cases hcomma : ∃ rest', skipSpace rest = ',' :: rest'
            · obtain ⟨rest', hcomma⟩ := hcomma
              simp only [hcomma, ih]
              cases rawMembers n rest' with
              | none => rfl
              | some parsed => rfl
            · by_cases hclose : ∃ rest', skipSpace rest = '}' :: rest'
              · obtain ⟨rest', hclose⟩ := hclose
                simp only [hclose]
                rfl
              · grind
        · grind
    · grind

/-! ## Objects from texts -/

/-- A text without white space around it is the text of a document. -/
structure Denotes (text : List Char) (doc : Json) : Prop where
  reads : parseValue (text.length + 1) text = some (doc, [])
  starts : skipSpace text = text

theorem Denotes.ne_nil {text : List Char} {doc : Json} (h : Denotes text doc) : text ≠ [] := by
  rintro rfl
  cases h.reads

theorem Denotes.parse_eq {text : List Char} {doc : Json} (h : Denotes text doc) :
    parse text = some doc := by
  unfold parse
  rw [h.reads]
  rfl

/-- The text of a number is all of the number. -/
theorem parseValue_number {n : Nat} {text : List Char} {digits : String}
    (h : parseValue n text = some (.number digits, [])) (hstart : skipSpace text = text) :
    isNumber text = true ∧ digits = .ofList text := by
  cases n with
  | zero => cases h
  | succ n =>
    rw [parseValue, hstart] at h
    split at h
    · cases h
    · obtain ⟨parsed, -, heq⟩ := Option.map_eq_some_iff.mp h
      cases heq
    · split at h
      · cases h
      · obtain ⟨parsed, -, heq⟩ := Option.map_eq_some_iff.mp h
        cases heq
    · split at h
      · cases h
      · obtain ⟨parsed, -, heq⟩ := Option.map_eq_some_iff.mp h
        cases heq
    · rename_i c rest _ _ _
      unfold parseAtom at h
      split at h
      · cases h
      split at h
      · cases h
      split at h
      · cases h
      · unfold parseNumber at h
        split at h
        · rename_i hnumber
          have hdrop : (c :: rest).dropWhile isNumberChar = [] :=
            congrArg Prod.snd (Option.some.inj h)
          have htake : (c :: rest).takeWhile isNumberChar = c :: rest :=
            List.takeWhile_eq_self_iff.mpr (List.dropWhile_eq_nil_iff.mp hdrop)
          rw [htake] at h hnumber
          refine ⟨hnumber, ?_⟩
          injection h with h
          injection h with hdoc _
          injection hdoc with hdigits
          exact hdigits.symm
        · cases h

/-- The text is read before any text that does not go on with its number. -/
theorem Denotes.append {text : List Char} {doc : Json} (h : Denotes text doc) {n : Nat}
    (hn : text.length < n) {rest : List Char} (hrest : Ends rest) :
    parseValue n (text ++ rest) = some (doc, rest) := by
  by_cases hbounded : doc.Bounded
  · have hread := (parse_appends (text.length + 1)).1 hn h.reads (.inr hbounded) rest
    rwa [List.nil_append] at hread
  · cases doc with
    | number digits =>
      obtain ⟨hnumber, rfl⟩ := parseValue_number h.reads h.starts
      have hreadable : (Json.number (.ofList text)).Readable := by
        show isNumber (String.ofList text).toList = true
        rwa [String.toList_ofList]
      have hprint : print (Json.number (.ofList text)) = text := String.toList_ofList
      have hread := Json.reads (Json.number (.ofList text)) hreadable n rest
      rw [hprint] at hread
      exact hread (Nat.le_of_lt hn) hrest
    | null => exact absurd trivial hbounded
    | bool b => exact absurd trivial hbounded
    | string s => exact absurd trivial hbounded
    | array values => exact absurd trivial hbounded
    | object members => exact absurd trivial hbounded

theorem skipSpace_start {text : List Char} {doc : Json} (h : Denotes text doc) (rest : List Char) :
    skipSpace (text ++ rest) = text ++ rest := by
  cases text with
  | nil => exact absurd rfl h.ne_nil
  | cons c text => exact skipSpace_append h.starts rest

theorem denotes_print {v : Json} (h : v.Readable) : Denotes (print v) v := by
  have hread := reads v h ((print v).length + 1) [] (Nat.le_succ _) nofun
  rw [List.append_nil] at hread
  obtain ⟨c, text, htext, hspace, -⟩ := print_head h
  refine ⟨hread, ?_⟩
  rw [htext, skipSpace_cons hspace]

/-- The members after the first one and the end of the object. -/
def rawMembersText : List RawMember → List Char
  | [] => ['}']
  | m :: ms => ',' :: (quote m.name.text ++ ':' :: (m.raw ++ rawMembersText ms))

/-- The text of an object of members. -/
def rawText : List RawMember → List Char
  | [] => ['{', '}']
  | m :: ms => '{' :: (quote m.name.text ++ ':' :: (m.raw ++ rawMembersText ms))

/-- A member whose text is the text of its value. -/
structure RawMember.Valid (m : RawMember) : Prop where
  name : m.name.wellFormed = true
  raw : Denotes m.raw m.value

theorem le_of_mem_escapeChar {c c' : Char} (h : c' ∈ escapeChar c) : 0x20 ≤ c'.toNat := by
  rcases escapeChar_cases c with ⟨heq, hplain⟩ | ⟨-, hprinted⟩
  · rw [heq, List.mem_singleton] at h
    rw [h]
    exact hplain.2.2.1
  · exact (hprinted c' h).1

theorem le_of_mem_quote {s : String} {c : Char} (h : c ∈ quote s) : 0x20 ≤ c.toNat := by
  simp only [quote, List.mem_cons, List.mem_append, List.mem_flatMap, List.not_mem_nil,
    or_false] at h
  rcases h with rfl | ⟨c', -, h⟩ | rfl
  · decide
  · exact le_of_mem_escapeChar h
  · decide

theorem ends_rawMembersText (ms : List RawMember) (rest : List Char) :
    Ends (rawMembersText ms ++ rest) := by
  cases ms <;> rintro c ⟨⟩ <;> rfl

theorem rawMembers_rawText {m : RawMember} {ms : List RawMember} (h : ∀ m' ∈ m :: ms, m'.Valid)
    {n : Nat} (rest : List Char) (hn : (m.raw ++ rawMembersText ms).length ≤ n) :
    rawMembers (n + 1) (quote m.name.text ++ ':' :: (m.raw ++ (rawMembersText ms ++ rest))) =
      some (m :: ms, rest) := by
  induction ms generalizing m n with
  | nil =>
    have hm := h m List.mem_cons_self
    have hname : ({ text := m.name.text, wellFormed := true } : JsonText) = m.name := by
      rw [← hm.name]
    rw [List.length_append, rawMembersText, List.length_singleton] at hn
    have hvalue := hm.raw.append (n := n) (by omega) (ends_rawMembersText [] rest)
    have hstart := skipSpace_start hm.raw (rawMembersText [] ++ rest)
    rw [quote_append, rawMembers, skipSpace_cons rfl]
    simp only [parseString_quoted, Option.bind_eq_bind, Option.bind_some]
    rw [skipSpace_cons rfl]
    simp only [hvalue, Option.bind_some, hname, hstart, List.length_append, Nat.add_sub_cancel,
      List.take_left']
    rfl
  | cons m' ms ih =>
    have hm := h m List.mem_cons_self
    have hname : ({ text := m.name.text, wellFormed := true } : JsonText) = m.name := by
      rw [← hm.name]
    rw [List.length_append, rawMembersText, List.length_cons, List.length_append,
      List.length_cons] at hn
    have hquote : 0 < (quote m'.name.text).length := by
      rw [quote, List.length_cons]
      omega
    obtain ⟨n, rfl⟩ : ∃ k, n = k + 1 := Nat.exists_eq_succ_of_ne_zero (by omega)
    have hvalue := hm.raw.append (n := n + 1) (by omega) (ends_rawMembersText (m' :: ms) rest)
    have hstart := skipSpace_start hm.raw (rawMembersText (m' :: ms) ++ rest)
    have htail := ih (fun u hu => h u (List.mem_cons_of_mem _ hu)) (n := n) (by omega)
    rw [quote_append, rawMembers, skipSpace_cons rfl]
    simp only [parseString_quoted, Option.bind_eq_bind, Option.bind_some]
    rw [skipSpace_cons rfl]
    simp only [hvalue, Option.bind_some, hname, hstart, List.length_append, Nat.add_sub_cancel,
      List.take_left']
    rw [rawMembersText, List.cons_append, skipSpace_cons rfl]
    simp only [List.append_assoc, List.cons_append, htail, Option.bind_some]

/-- **An object of texts is read back** with these texts. -/
theorem parse_rawText {m : RawMember} {ms : List RawMember} (h : ∀ m' ∈ m :: ms, m'.Valid) :
    parse (rawText (m :: ms)) = some (.object ((m :: ms).map RawMember.member)) ∧
      rawObject (rawText (m :: ms)) = m :: ms := by
  have hlength : (rawText (m :: ms)).length =
      (quote m.name.text).length + (m.raw ++ rawMembersText ms).length + 2 := by
    rw [rawText, List.length_cons, List.length_append, List.length_cons]
    omega
  have hmembers : ∀ n, (m.raw ++ rawMembersText ms).length ≤ n →
      rawMembers (n + 1) ('"' :: (m.name.text.toList.flatMap escapeChar ++
        '"' :: ':' :: (m.raw ++ rawMembersText ms))) = some (m :: ms, []) := by
    intro n hn
    have hread := rawMembers_rawText h [] hn
    rwa [List.append_nil, quote_append] at hread
  obtain ⟨k, hk⟩ : ∃ k, (rawText (m :: ms)).length = k + 1 ∧
      (m.raw ++ rawMembersText ms).length ≤ k := ⟨_, hlength.trans rfl, by omega⟩
  constructor
  · have hvalue : parseValue ((rawText (m :: ms)).length + 1) (rawText (m :: ms)) =
        some (.object ((m :: ms).map RawMember.member), []) := by
      rw [hk.1, rawText, quote_append, parseValue, skipSpace_cons rfl]
      simp only []
      rw [skipSpace_cons rfl]
      show (parseMembers (k + 1) _).map _ = _
      rw [parseMembers_eq, hmembers k hk.2]
      rfl
    unfold parse
    rw [hvalue]
    rfl
  · have hobject : ∀ rest, rawObject ('{' :: '"' :: rest) =
        ((rawMembers ('{' :: '"' :: rest).length ('"' :: rest)).map (·.1)).getD [] := fun _ => rfl
    have hread := hmembers k hk.2
    rw [rawText, quote_append] at hk ⊢
    rw [hobject, hk.1, hread]
    rfl

/-- The bytes of a member with its two signs. -/
def RawMember.size (m : RawMember) : Nat :=
  (Utf8.encode (quote m.name.text)).length + (Utf8.encode m.raw).length + 2

theorem length_rawMembersText (ms : List RawMember) :
    (Utf8.encode (rawMembersText ms)).length = (ms.map RawMember.size).sum + 1 := by
  induction ms with
  | nil => rfl
  | cons m ms ih =>
    have hcomma : (String.utf8EncodeChar ',').length = 1 := rfl
    have hcolon : (String.utf8EncodeChar ':').length = 1 := rfl
    simp only [rawMembersText, Utf8.encode_cons, Utf8.encode_append, List.length_append, ih, hcomma,
      hcolon, List.map_cons, List.sum_cons, RawMember.size]
    omega

theorem length_rawText (m : RawMember) (ms : List RawMember) :
    (Utf8.encode (rawText (m :: ms))).length = ((m :: ms).map RawMember.size).sum + 1 := by
  have hbrace : (Utf8.encode (rawText (m :: ms))).length =
      (Utf8.encode (rawMembersText (m :: ms))).length := by
    simp only [rawText, rawMembersText, Utf8.encode_cons, List.length_append]
    rfl
  rw [hbrace, length_rawMembersText]

/-- The characters of an object of texts. -/
theorem mem_rawMembersText {ms : List RawMember} {c : Char} (h : c ∈ rawMembersText ms) :
    0x20 ≤ c.toNat ∨ ∃ m ∈ ms, c ∈ m.raw := by
  induction ms with
  | nil =>
    rw [List.mem_singleton.mp h]
    exact .inl (by decide)
  | cons m ms ih =>
    simp only [rawMembersText, List.mem_cons, List.mem_append] at h
    rcases h with rfl | h | rfl | h | h
    · exact .inl (by decide)
    · exact .inl (le_of_mem_quote h)
    · exact .inl (by decide)
    · exact .inr ⟨m, List.mem_cons_self, h⟩
    · exact (ih h).imp_right fun ⟨m', hm', hc⟩ => ⟨m', List.mem_cons_of_mem _ hm', hc⟩

theorem mem_rawText {ms : List RawMember} {c : Char} (h : c ∈ rawText ms) :
    0x20 ≤ c.toNat ∨ ∃ m ∈ ms, c ∈ m.raw := by
  cases ms with
  | nil =>
    simp only [rawText, List.mem_cons, List.not_mem_nil, or_false] at h
    rcases h with rfl | rfl
    · exact .inl (by decide)
    · exact .inl (by decide)
  | cons m ms =>
    have hbrace : c = '{' ∨ c ∈ rawMembersText (m :: ms) := by
      rcases List.mem_cons.mp h with h | h
      · exact .inl h
      · exact .inr (List.mem_cons_of_mem _ h)
    rcases hbrace with rfl | h
    · exact .inl (by decide)
    · exact mem_rawMembersText h

/-! ## Strings of any bytes -/

/-- A rune of a string of Go; a byte that does not decode is written as an escape. -/
def escapeRune : Option Char → List Char
  | some c => escapeChar c
  | none => escapeUnit 0xFFFD

/-- A string of Go with its quotes. -/
def quoteBytes (s : Bytes) : List Char := '"' :: ((Utf8.units 0 s).flatMap escapeRune ++ ['"'])

theorem parseUnit_escapeRune (rune : Option Char) (rest : List Char) :
    parseUnit (escapeRune rune ++ rest) = some ((rune.getD '\uFFFD').toNat, rest) := by
  cases rune with
  | none => exact parseUnit_escapeUnit (by decide) rest
  | some c => exact parseUnit_escapeChar c rest

theorem escapeRune_ne_quote (rune : Option Char) (rest rest' : List Char) :
    escapeRune rune ++ rest ≠ '"' :: rest' := by
  cases rune with
  | none => exact fun h => absurd (List.cons.inj h).1 (by decide)
  | some c => exact escapeChar_ne_quote c rest rest'

theorem parseUnits_runes (runes : List (Option Char)) (rest : List Char) {n : Nat}
    (h : runes.length < n) :
    parseUnits n (runes.flatMap escapeRune ++ '"' :: rest) =
      some ((runes.map (·.getD '\uFFFD')).map Char.toNat, rest) := by
  induction runes generalizing n with
  | nil =>
    obtain ⟨n, rfl⟩ := Nat.exists_eq_succ_of_ne_zero (Nat.ne_of_gt h)
    rfl
  | cons rune runes ih =>
    obtain ⟨n, rfl⟩ := Nat.exists_eq_succ_of_ne_zero (Nat.ne_of_gt (Nat.zero_lt_of_lt h))
    rw [List.flatMap_cons, List.append_assoc,
      parseUnits_cons fun rest' => escapeRune_ne_quote rune _ rest', parseUnit_escapeRune]
    simp only [Option.bind_some]
    rw [ih (by simpa using h)]
    rfl

theorem length_le_escapedRunes (runes : List (Option Char)) :
    runes.length ≤ (runes.flatMap escapeRune).length := by
  induction runes with
  | nil => exact Nat.le_refl 0
  | cons rune runes ih =>
    have hone : 1 ≤ (escapeRune rune).length := by
      cases rune with
      | none => decide
      | some c =>
        have hle := length_le_escaped [c]
        rwa [List.flatMap_singleton] at hle
    rw [List.flatMap_cons, List.length_append, List.length_cons]
    omega

/-- A string is read as its runes. -/
theorem denotes_quoteBytes (s : Bytes) :
    Denotes (quoteBytes s) (.string { text := .ofList (Utf8.runes s), wellFormed := true }) := by
  refine ⟨?_, skipSpace_cons rfl _⟩
  have hlength : (Utf8.units 0 s).length <
      ((Utf8.units 0 s).flatMap escapeRune ++ ['"']).length + 1 := by
    have hle := length_le_escapedRunes (Utf8.units 0 s)
    rw [List.length_append]
    omega
  have hstring : parseString ((Utf8.units 0 s).flatMap escapeRune ++ ['"']) =
      some ({ text := .ofList (Utf8.runes s), wellFormed := true }, []) := by
    unfold parseString
    rw [parseUnits_runes _ _ hlength]
    simp only [Option.map_some, decodeUnits_map_toNat]
    rfl
  rw [quoteBytes, parseValue, skipSpace_cons rfl]
  simp only [hstring, Option.map_some]

theorem le_of_mem_quoteBytes {s : Bytes} {c : Char} (h : c ∈ quoteBytes s) : 0x20 ≤ c.toNat := by
  simp only [quoteBytes, List.mem_cons, List.mem_append, List.mem_flatMap, List.not_mem_nil,
    or_false] at h
  rcases h with rfl | ⟨rune, -, h⟩ | rfl
  · decide
  · cases rune with
    | none => exact (printed_escapeUnit (by decide) c h).1
    | some c' => exact le_of_mem_escapeChar (c := c') h
  · decide

end Kavora.Lib.Json
