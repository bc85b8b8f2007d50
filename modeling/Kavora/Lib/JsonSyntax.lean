import Mathlib.Data.List.TakeWhile
import Kavora.Lib.Json

/-!
# The text of JSON documents

* `Json.print`: the compact text that `json.Marshal` of Go writes, which escapes `<`, `>`, `&`,
  U+2028 and U+2029 besides the characters that JSON escapes.
* `Json.parse`: the document of a text. The readers of Go and Python agree on it, apart from lone
  surrogates and from the `NaN` of Python, which no writer here writes.
* `Json.parse_print`: a printed document is read back.
* `Json.parse_cut`: no cut object is read.
-/

namespace Kavora.Lib.Json

/-! ## Strings -/

/-- A digit of a hexadecimal number below 16. -/
def hexDigit (n : Nat) : Char := Char.ofNat (if n < 10 then 48 + n else 87 + n)

/-- The value of a hexadecimal digit of either case. -/
def hexValue (c : Char) : Option Nat :=
  let n := c.toNat
  if 48 ≤ n ∧ n ≤ 57 then some (n - 48)
  else if 97 ≤ n ∧ n ≤ 102 then some (n - 87)
  else if 65 ≤ n ∧ n ≤ 70 then some (n - 55)
  else none

/-- The escape of a code unit. -/
def escapeUnit (n : Nat) : List Char :=
  ['\\', 'u', hexDigit (n / 4096), hexDigit (n / 256 % 16), hexDigit (n / 16 % 16),
    hexDigit (n % 16)]

/-- A character in a string. -/
def escapeChar (c : Char) : List Char :=
  if c = '"' then ['\\', '"']
  else if c = '\\' then ['\\', '\\']
  else if c.toNat = 8 then ['\\', 'b']
  else if c.toNat = 9 then ['\\', 't']
  else if c.toNat = 10 then ['\\', 'n']
  else if c.toNat = 12 then ['\\', 'f']
  else if c.toNat = 13 then ['\\', 'r']
  else if c.toNat < 0x20 ∨ c = '<' ∨ c = '>' ∨ c = '&' ∨ c.toNat = 0x2028 ∨ c.toNat = 0x2029 then
    escapeUnit c.toNat
  else [c]

/-- A string with its quotes. -/
def quote (s : String) : List Char := '"' :: (s.toList.flatMap escapeChar ++ ['"'])

/-- The code unit of a short escape. -/
def unescape (c : Char) : Option Nat :=
  if c = '"' ∨ c = '\\' ∨ c = '/' then some c.toNat
  else if c = 'b' then some 8
  else if c = 't' then some 9
  else if c = 'n' then some 10
  else if c = 'f' then some 12
  else if c = 'r' then some 13
  else none

/-- One character or escape of a string and the text after it. -/
def parseUnit : List Char → Option (Nat × List Char)
  | '\\' :: 'u' :: a :: b :: c :: d :: rest => do
    let a ← hexValue a
    let b ← hexValue b
    let c ← hexValue c
    let d ← hexValue d
    some (((a * 16 + b) * 16 + c) * 16 + d, rest)
  | '\\' :: c :: rest => (unescape c).map fun unit => (unit, rest)
  | c :: rest => if c.toNat < 0x20 ∨ c = '\\' ∨ c = '"' then none else some (c.toNat, rest)
  | [] => none

/-- The code units up to the closing quote. -/
def parseUnits : Nat → List Char → Option (List Nat × List Char)
  | 0, _ => none
  | _ + 1, '"' :: rest => some ([], rest)
  | n + 1, text => do
    let (unit, rest) ← parseUnit text
    let (units, rest) ← parseUnits n rest
    some (unit :: units, rest)

/-- The characters of code units, with pairs of surrogates joined, and whether none is left. -/
def decodeUnits : List Nat → List Char × Bool
  | hi :: lo :: units =>
    if 0xD800 ≤ hi ∧ hi < 0xDC00 ∧ 0xDC00 ≤ lo ∧ lo < 0xE000 then
      let (text, wellFormed) := decodeUnits units
      (Char.ofNat (0x10000 + (hi - 0xD800) * 0x400 + (lo - 0xDC00)) :: text, wellFormed)
    else
      let (text, wellFormed) := decodeUnits (lo :: units)
      if 0xD800 ≤ hi ∧ hi < 0xE000 then ('\uFFFD' :: text, false)
      else (Char.ofNat hi :: text, wellFormed)
  | [unit] =>
    if 0xD800 ≤ unit ∧ unit < 0xE000 then (['\uFFFD'], false) else ([Char.ofNat unit], true)
  | [] => ([], true)

/-- The text of a string after its opening quote. -/
def parseString (text : List Char) : Option (JsonText × List Char) :=
  (parseUnits (text.length + 1) text).map fun (units, rest) =>
    ({ text := .ofList (decodeUnits units).1, wellFormed := (decodeUnits units).2 }, rest)

/-! ## Numbers and names -/

/-- The character may be part of a number. -/
def isNumberChar (c : Char) : Bool :=
  c.isDigit || c = '-' || c = '+' || c = '.' || c = 'e' || c = 'E'

/-- An exponent, or nothing. -/
def isExponent : List Char → Bool
  | [] => true
  | c :: rest =>
    let digits :=
      match rest with
      | '+' :: digits => digits
      | '-' :: digits => digits
      | digits => digits
    (c = 'e' || c = 'E') && digits ≠ [] && digits.all Char.isDigit

/-- A fraction and an exponent, each of which may be missing. -/
def isFraction : List Char → Bool
  | '.' :: rest => rest.takeWhile Char.isDigit ≠ [] && isExponent (rest.dropWhile Char.isDigit)
  | rest => isExponent rest

/-- The number that a text is. -/
def isNumber (text : List Char) : Bool :=
  let digits :=
    match text with
    | '-' :: digits => digits
    | digits => digits
  let whole := digits.takeWhile Char.isDigit
  (whole = ['0'] || whole ≠ [] && whole.head? ≠ some '0') &&
    isFraction (digits.dropWhile Char.isDigit)

/-- A number at the beginning of a text. -/
def parseNumber (text : List Char) : Option (Json × List Char) :=
  if isNumber (text.takeWhile isNumberChar) then
    some (.number (.ofList (text.takeWhile isNumberChar)), text.dropWhile isNumberChar)
  else none

/-- A number, `null`, `true` or `false`. -/
def parseAtom (text : List Char) : Option (Json × List Char) :=
  if ['n', 'u', 'l', 'l'] <+: text then some (.null, text.drop 4)
  else if ['t', 'r', 'u', 'e'] <+: text then some (.bool true, text.drop 4)
  else if ['f', 'a', 'l', 's', 'e'] <+: text then some (.bool false, text.drop 5)
  else parseNumber text

/-! ## Documents -/

/-- The white space of JSON. -/
def isWhitespace (c : Char) : Bool := c = ' ' || c = '\t' || c = '\n' || c = '\r'

/-- The text without the white space before it. -/
def skipSpace (text : List Char) : List Char := text.dropWhile isWhitespace

mutual

/-- A document and the text after it. -/
def parseValue : Nat → List Char → Option (Json × List Char)
  | 0, _ => none
  | n + 1, text =>
    match skipSpace text with
    | [] => none
    | '"' :: rest => (parseString rest).map fun (s, rest) => (.string s, rest)
    | '[' :: rest =>
      match skipSpace rest with
      | ']' :: rest => some (.array [], rest)
      | rest => (parseValues n rest).map fun (values, rest) => (.array values, rest)
    | '{' :: rest =>
      match skipSpace rest with
      | '}' :: rest => some (.object [], rest)
      | rest => (parseMembers n rest).map fun (members, rest) => (.object members, rest)
    | c :: rest => parseAtom (c :: rest)

/-- The values of an array up to its end. -/
def parseValues : Nat → List Char → Option (List Json × List Char)
  | 0, _ => none
  | n + 1, text => do
    let (value, rest) ← parseValue n text
    match skipSpace rest with
    | ',' :: rest => do
      let (values, rest) ← parseValues n rest
      some (value :: values, rest)
    | ']' :: rest => some ([value], rest)
    | _ => none

/-- The members of an object up to its end. -/
def parseMembers : Nat → List Char → Option (List (JsonText × Json) × List Char)
  | 0, _ => none
  | n + 1, text =>
    match skipSpace text with
    | '"' :: rest => do
      let (name, rest) ← parseString rest
      match skipSpace rest with
      | ':' :: rest => do
        let (value, rest) ← parseValue n rest
        match skipSpace rest with
        | ',' :: rest => do
          let (members, rest) ← parseMembers n rest
          some ((name, value) :: members, rest)
        | '}' :: rest => some ([(name, value)], rest)
        | _ => none
      | _ => none
    | _ => none

end

/-- The document that a text is. -/
def parse (text : List Char) : Option Json :=
  match parseValue (text.length + 1) text with
  | some (doc, rest) => if skipSpace rest = [] then some doc else none
  | none => none

mutual

/-- The text of a document, without white space. -/
def print : Json → List Char
  | .null => ['n', 'u', 'l', 'l']
  | .bool true => ['t', 'r', 'u', 'e']
  | .bool false => ['f', 'a', 'l', 's', 'e']
  | .number text => text.toList
  | .string s => quote s.text
  | .array [] => ['[', ']']
  | .array (v :: vs) => '[' :: (print v ++ printValues vs)
  | .object [] => ['{', '}']
  | .object ((name, v) :: ms) => '{' :: (quote name.text ++ ':' :: (print v ++ printMembers ms))

/-- The values after the first one and the end of the array. -/
def printValues : List Json → List Char
  | [] => [']']
  | v :: vs => ',' :: (print v ++ printValues vs)

/-- The members after the first one and the end of the object. -/
def printMembers : List (JsonText × Json) → List Char
  | [] => ['}']
  | (name, v) :: ms => ',' :: (quote name.text ++ ':' :: (print v ++ printMembers ms))

end

/-! ## Strings are read back -/

theorem hexValue_hexDigit {n : Nat} (h : n < 16) : hexValue (hexDigit n) = some n := by
  have hall : ∀ n < 16, hexValue (hexDigit n) = some n := by decide
  exact hall n h

theorem parseUnit_escapeUnit {n : Nat} (h : n < 65536) (rest : List Char) :
    parseUnit (escapeUnit n ++ rest) = some (n, rest) := by
  have h1 := hexValue_hexDigit (show n / 4096 < 16 by omega)
  have h2 := hexValue_hexDigit (show n / 256 % 16 < 16 by omega)
  have h3 := hexValue_hexDigit (show n / 16 % 16 < 16 by omega)
  have h4 := hexValue_hexDigit (show n % 16 < 16 by omega)
  have hn : ((n / 4096 * 16 + n / 256 % 16) * 16 + n / 16 % 16) * 16 + n % 16 = n := by omega
  simp only [escapeUnit, List.cons_append, List.nil_append, parseUnit, h1, h2, h3, h4]
  show some (_, rest) = some (n, rest)
  rw [hn]

/-- A character that is written as it is. -/
def Plain (c : Char) : Prop :=
  c ≠ '"' ∧ c ≠ '\\' ∧ 0x20 ≤ c.toNat ∧ c.toNat ≠ 0x2028 ∧ c.toNat ≠ 0x2029

/-- A printed character of ASCII. -/
def Printed (c : Char) : Prop := 0x20 ≤ c.toNat ∧ c.toNat < 0x7F

theorem printed_hexDigit {n : Nat} (h : n < 16) : Printed (hexDigit n) := by
  have hall : ∀ n < 16, 0x20 ≤ (hexDigit n).toNat ∧ (hexDigit n).toNat < 0x7F := by decide
  exact hall n h

theorem printed_escapeUnit {n : Nat} (h : n < 65536) : ∀ c ∈ escapeUnit n, Printed c := by
  simp only [escapeUnit, List.forall_mem_cons]
  refine ⟨?_, ?_, ?_, ?_, ?_, ?_, nofun⟩
  · exact ⟨by decide, by decide⟩
  · exact ⟨by decide, by decide⟩
  · exact printed_hexDigit (by omega)
  · exact printed_hexDigit (by omega)
  · exact printed_hexDigit (by omega)
  · exact printed_hexDigit (by omega)

/-- A character is written as it is or as an escape. -/
theorem escapeChar_cases (c : Char) :
    (escapeChar c = [c] ∧ Plain c) ∨
      (∃ escape, escapeChar c = '\\' :: escape) ∧ ∀ c' ∈ escapeChar c, Printed c' := by
  have hshort : ∀ c', Printed c' → ∀ c'' ∈ ['\\', c'], Printed c'' := by
    intro c' hc' c'' hmem
    rcases List.mem_cons.mp hmem with rfl | hmem
    · exact ⟨by decide, by decide⟩
    · rwa [List.mem_singleton.mp hmem]
  unfold escapeChar
  split
  · exact .inr ⟨⟨_, rfl⟩, hshort _ ⟨by decide, by decide⟩⟩
  split
  · exact .inr ⟨⟨_, rfl⟩, hshort _ ⟨by decide, by decide⟩⟩
  split
  · exact .inr ⟨⟨_, rfl⟩, hshort _ ⟨by decide, by decide⟩⟩
  split
  · exact .inr ⟨⟨_, rfl⟩, hshort _ ⟨by decide, by decide⟩⟩
  split
  · exact .inr ⟨⟨_, rfl⟩, hshort _ ⟨by decide, by decide⟩⟩
  split
  · exact .inr ⟨⟨_, rfl⟩, hshort _ ⟨by decide, by decide⟩⟩
  split
  · exact .inr ⟨⟨_, rfl⟩, hshort _ ⟨by decide, by decide⟩⟩
  split
  · rename_i h
    refine .inr ⟨⟨_, rfl⟩, printed_escapeUnit ?_⟩
    rcases h with h | rfl | rfl | rfl | h | h
    · omega
    · decide
    · decide
    · decide
    · omega
    · omega
  · rename_i hquote hbackslash _ _ _ _ _ hplain
    simp only [not_or] at hplain
    exact .inl ⟨rfl, hquote, hbackslash, by omega, hplain.2.2.2.2.1, hplain.2.2.2.2.2⟩

theorem escapeChar_ne_quote (c : Char) (rest rest' : List Char) :
    escapeChar c ++ rest ≠ '"' :: rest' := by
  intro h
  rcases escapeChar_cases c with ⟨heq, hplain⟩ | ⟨⟨escape, heq⟩, -⟩
  · rw [heq] at h
    exact hplain.1 (List.cons.inj h).1
  · rw [heq] at h
    cases (List.cons.inj h).1

theorem parseUnit_escapeChar (c : Char) (rest : List Char) :
    parseUnit (escapeChar c ++ rest) = some (c.toNat, rest) := by
  unfold escapeChar
  split
  · subst_vars; rfl
  split
  · subst_vars; rfl
  split
  · rename_i h
    rw [h]
    rfl
  split
  · rename_i h
    rw [h]
    rfl
  split
  · rename_i h
    rw [h]
    rfl
  split
  · rename_i h
    rw [h]
    rfl
  split
  · rename_i h
    rw [h]
    rfl
  split
  · rename_i h
    apply parseUnit_escapeUnit
    rcases h with h | rfl | rfl | rfl | h | h
    · omega
    · decide
    · decide
    · decide
    · omega
    · omega
  · rename_i hquote hbackslash _ _ _ _ _ hplain
    have hlarge : ¬ c.toNat < 0x20 := fun h => hplain (.inl h)
    rw [List.singleton_append, parseUnit]
    · rw [if_neg]
      rintro (h | h | h)
      · exact hlarge h
      · exact hbackslash h
      · exact hquote h
    · rintro a b c d rest' h -
      exact hbackslash h
    · rintro c' rest' h -
      exact hbackslash h

theorem parseUnits_cons {n : Nat} {text : List Char} (h : ∀ rest, text ≠ '"' :: rest) :
    parseUnits (n + 1) text =
      (parseUnit text).bind fun (unit, rest) =>
        (parseUnits n rest).map fun (units, rest) => (unit :: units, rest) := by
  rw [parseUnits]
  · cases parseUnit text with
    | none => rfl
    | some parsed =>
      obtain ⟨unit, rest⟩ := parsed
      cases hunits : parseUnits n rest <;> simp [hunits]
  · exact h

theorem parseUnits_quoted (s rest : List Char) {n : Nat} (h : s.length < n) :
    parseUnits n (s.flatMap escapeChar ++ '"' :: rest) = some (s.map Char.toNat, rest) := by
  induction s generalizing n with
  | nil =>
    obtain ⟨n, rfl⟩ := Nat.exists_eq_succ_of_ne_zero (Nat.ne_of_gt h)
    rfl
  | cons c s ih =>
    obtain ⟨n, rfl⟩ := Nat.exists_eq_succ_of_ne_zero (Nat.ne_of_gt (Nat.zero_lt_of_lt h))
    rw [List.flatMap_cons, List.append_assoc,
      parseUnits_cons fun rest' => escapeChar_ne_quote c _ rest', parseUnit_escapeChar]
    simp only [Option.bind_some]
    rw [ih (by simpa using h)]
    rfl

theorem decodeUnits_cons {unit : Nat} (h : unit < 0xD800 ∨ 0xE000 ≤ unit) (units : List Nat) :
    decodeUnits (unit :: units) = (Char.ofNat unit :: (decodeUnits units).1, (decodeUnits units).2) := by
  have hsurrogate : ¬ (0xD800 ≤ unit ∧ unit < 0xE000) := by omega
  cases units with
  | nil =>
    rw [decodeUnits, if_neg hsurrogate]
    rfl
  | cons lo units =>
    have hpair : ¬ (0xD800 ≤ unit ∧ unit < 0xDC00 ∧ 0xDC00 ≤ lo ∧ lo < 0xE000) := by omega
    rw [decodeUnits, if_neg hpair]
    simp only [if_neg hsurrogate]

theorem decodeUnits_map_toNat (s : List Char) : decodeUnits (s.map Char.toNat) = (s, true) := by
  induction s with
  | nil => rfl
  | cons c s ih =>
    have hvalid : c.toNat < 0xD800 ∨ 0xE000 ≤ c.toNat := by
      rcases c.valid with h | ⟨h, -⟩
      · exact .inl h
      · exact .inr h
    rw [List.map_cons, decodeUnits_cons hvalid, ih, Char.ofNat_toNat]

theorem length_le_escaped (s : List Char) : s.length ≤ (s.flatMap escapeChar).length := by
  induction s with
  | nil => exact Nat.le_refl 0
  | cons c s ih =>
    have hone : 1 ≤ (escapeChar c).length := by
      rcases escapeChar_cases c with ⟨heq, -⟩ | ⟨⟨escape, heq⟩, -⟩
      · rw [heq]
        exact Nat.le_refl 1
      · rw [heq, List.length_cons]
        omega
    rw [List.flatMap_cons, List.length_append, List.length_cons]
    omega

theorem parseString_quoted (s : String) (rest : List Char) :
    parseString (s.toList.flatMap escapeChar ++ '"' :: rest) =
      some ({ text := s, wellFormed := true }, rest) := by
  have hlength : s.toList.length < (s.toList.flatMap escapeChar ++ '"' :: rest).length + 1 := by
    have hle := length_le_escaped s.toList
    rw [List.length_append]
    omega
  unfold parseString
  rw [parseUnits_quoted _ _ hlength]
  simp only [Option.map_some, decodeUnits_map_toNat, String.ofList_toList]

/-! ## Numbers are read back -/

theorem isNumberChar_of_isDigit {c : Char} (h : c.isDigit = true) : isNumberChar c = true := by
  unfold isNumberChar
  rw [h]
  rfl

theorem isExponent_chars {text : List Char} (h : isExponent text = true) :
    ∀ c ∈ text, isNumberChar c = true := by
  cases text with
  | nil => nofun
  | cons e rest =>
    have hall : ∀ digits : List Char, digits.all Char.isDigit = true →
        ∀ c ∈ digits, isNumberChar c = true := fun digits hdigits c hc =>
      isNumberChar_of_isDigit (List.all_eq_true.mp hdigits c hc)
    simp only [isExponent, Bool.and_eq_true, Bool.or_eq_true, decide_eq_true_eq] at h
    obtain ⟨⟨he, -⟩, hdigits⟩ := h
    refine List.forall_mem_cons.mpr ⟨?_, ?_⟩
    · rcases he with rfl | rfl
      · rfl
      · rfl
    · split at hdigits
      · exact List.forall_mem_cons.mpr ⟨rfl, hall _ hdigits⟩
      · exact List.forall_mem_cons.mpr ⟨rfl, hall _ hdigits⟩
      · exact hall _ hdigits

/-- Digits and what follows them. -/
theorem digits_chars {text : List Char}
    (h : ∀ c ∈ text.dropWhile Char.isDigit, isNumberChar c = true) :
    ∀ c ∈ text, isNumberChar c = true := by
  intro c hc
  rw [← List.takeWhile_append_dropWhile (p := Char.isDigit) (l := text)] at hc
  rcases List.mem_append.mp hc with hc | hc
  · exact isNumberChar_of_isDigit (List.mem_takeWhile_imp hc)
  · exact h c hc

theorem isFraction_chars {text : List Char} (h : isFraction text = true) :
    ∀ c ∈ text, isNumberChar c = true := by
  unfold isFraction at h
  split at h
  · rw [Bool.and_eq_true] at h
    exact List.forall_mem_cons.mpr ⟨rfl, digits_chars (isExponent_chars h.2)⟩
  · exact isExponent_chars h

theorem isNumber_chars {text : List Char} (h : isNumber text = true) :
    ∀ c ∈ text, isNumberChar c = true := by
  simp only [isNumber, Bool.and_eq_true] at h
  obtain ⟨-, hfraction⟩ := h
  split at hfraction
  · exact List.forall_mem_cons.mpr ⟨rfl, digits_chars (isFraction_chars hfraction)⟩
  · exact digits_chars (isFraction_chars hfraction)

theorem isNumber_ne_nil {text : List Char} (h : isNumber text = true) : text ≠ [] := by
  rintro rfl
  cases h

/-- What may follow a number. -/
def Ends (rest : List Char) : Prop := ∀ c ∈ rest.head?, isNumberChar c = false

theorem takeWhile_number {text rest : List Char} (h : ∀ c ∈ text, isNumberChar c = true)
    (hrest : Ends rest) :
    (text ++ rest).takeWhile isNumberChar = text ∧ (text ++ rest).dropWhile isNumberChar = rest := by
  rw [List.takeWhile_append_of_pos h, List.dropWhile_append_of_pos h]
  cases rest with
  | nil => exact ⟨List.append_nil text, rfl⟩
  | cons c rest =>
    have hc := hrest c rfl
    rw [List.takeWhile_cons_of_neg (by rw [hc]; exact Bool.false_ne_true),
      List.dropWhile_cons_of_neg (by rw [hc]; exact Bool.false_ne_true)]
    exact ⟨List.append_nil text, rfl⟩

theorem parseNumber_append {text rest : List Char} (h : isNumber text = true) (hrest : Ends rest) :
    parseNumber (text ++ rest) = some (.number (.ofList text), rest) := by
  obtain ⟨htake, hdrop⟩ := takeWhile_number (isNumber_chars h) hrest
  unfold parseNumber
  rw [htake, hdrop, if_pos h]

theorem parseAtom_number {text rest : List Char} (h : isNumber text = true) (hrest : Ends rest) :
    parseAtom (text ++ rest) = some (.number (.ofList text), rest) := by
  have hnot : ∀ (c : Char) (word : List Char), isNumberChar c = false →
      ¬ c :: word <+: text ++ rest := by
    intro c word hc hword
    cases htext : text with
    | nil => exact isNumber_ne_nil h htext
    | cons c' text' =>
      rw [htext, List.cons_append] at hword
      have hhead : c = c' := (List.cons_prefix_cons.mp hword).1
      have hchar := isNumber_chars h c' (by rw [htext]; exact List.mem_cons_self)
      rw [hhead, hchar] at hc
      cases hc
  unfold parseAtom
  rw [if_neg (hnot _ _ rfl), if_neg (hnot _ _ rfl), if_neg (hnot _ _ rfl)]
  exact parseNumber_append h hrest

/-! ## Documents are read back -/

mutual

/-- The numbers of a document are numbers, and its strings are texts. -/
def Readable : Json → Prop
  | .number text => isNumber text.toList = true
  | .string s => s.wellFormed = true
  | .array values => ReadableValues values
  | .object members => ReadableMembers members
  | _ => True

/-- So are some values. -/
def ReadableValues : List Json → Prop
  | [] => True
  | v :: vs => v.Readable ∧ ReadableValues vs

/-- So are some members, and their names. -/
def ReadableMembers : List (JsonText × Json) → Prop
  | [] => True
  | (name, v) :: ms => name.wellFormed = true ∧ v.Readable ∧ ReadableMembers ms

end

theorem skipSpace_cons {c : Char} (h : isWhitespace c = false) (rest : List Char) :
    skipSpace (c :: rest) = c :: rest :=
  List.dropWhile_cons_of_neg (by rw [h]; exact Bool.false_ne_true)

/-- What a document starts with. -/
theorem print_head {v : Json} (h : v.Readable) :
    ∃ c text, print v = c :: text ∧ isWhitespace c = false ∧ c ≠ ']' ∧ c ≠ '}' := by
  have hchar : ∀ c, isNumberChar c = true → isWhitespace c = false ∧ c ≠ ']' ∧ c ≠ '}' := by
    intro c hc
    refine ⟨?_, ?_, ?_⟩
    · rw [← Bool.not_eq_true]
      intro hspace
      simp only [isWhitespace, Bool.or_eq_true, decide_eq_true_eq] at hspace
      rcases hspace with ((rfl | rfl) | rfl) | rfl <;> cases hc
    · rintro rfl
      cases hc
    · rintro rfl
      cases hc
  match v, h with
  | .null, _ => exact ⟨'n', _, rfl, rfl, by decide, by decide⟩
  | .bool true, _ => exact ⟨'t', _, rfl, rfl, by decide, by decide⟩
  | .bool false, _ => exact ⟨'f', _, rfl, rfl, by decide, by decide⟩
  | .number text, h =>
    cases htext : text.toList with
    | nil => exact absurd htext (isNumber_ne_nil h)
    | cons c rest =>
      have hc := isNumber_chars h c (by rw [htext]; exact List.mem_cons_self)
      exact ⟨c, rest, htext, hchar c hc⟩
  | .string s, _ => exact ⟨'"', _, rfl, rfl, by decide, by decide⟩
  | .array [], _ => exact ⟨'[', _, rfl, rfl, by decide, by decide⟩
  | .array (v :: vs), _ => exact ⟨'[', _, rfl, rfl, by decide, by decide⟩
  | .object [], _ => exact ⟨'{', _, rfl, rfl, by decide, by decide⟩
  | .object (m :: ms), _ => exact ⟨'{', _, rfl, rfl, by decide, by decide⟩

/-- A printed document is read back before any text that does not go on with its number. -/
def Reads (v : Json) : Prop :=
  v.Readable → ∀ n rest, (print v).length ≤ n → Ends rest →
    parseValue n (print v ++ rest) = some (v, rest)

theorem ends_printValues (vs : List Json) (rest : List Char) : Ends (printValues vs ++ rest) := by
  cases vs <;> rintro c ⟨⟩ <;> rfl

theorem ends_printMembers (ms : List (JsonText × Json)) (rest : List Char) :
    Ends (printMembers ms ++ rest) := by
  cases ms <;> rintro c ⟨⟩ <;> rfl

theorem parseValues_print {v : Json} {vs : List Json} (hreads : ∀ w ∈ v :: vs, Reads w)
    (hv : v.Readable) (hvs : ReadableValues vs) {n : Nat} (rest : List Char)
    (hn : (print v ++ printValues vs).length ≤ n) :
    parseValues n (print v ++ (printValues vs ++ rest)) = some (v :: vs, rest) := by
  induction vs generalizing v n with
  | nil =>
    rw [List.length_append] at hn
    obtain ⟨n, rfl⟩ : ∃ m, n = m + 1 := Nat.exists_eq_succ_of_ne_zero (by
      simp only [printValues, List.length_singleton] at hn
      omega)
    have hvalue := hreads v List.mem_cons_self hv n (printValues [] ++ rest) (by
      simp only [printValues, List.length_singleton] at hn
      omega) (ends_printValues [] rest)
    rw [parseValues, hvalue]
    rfl
  | cons w vs ih =>
    rw [List.length_append, printValues, List.length_cons] at hn
    obtain ⟨n, rfl⟩ : ∃ m, n = m + 1 := Nat.exists_eq_succ_of_ne_zero (by omega)
    have hvalue := hreads v List.mem_cons_self hv n (printValues (w :: vs) ++ rest) (by omega)
      (ends_printValues (w :: vs) rest)
    have htail := @ih w (fun u hu => hreads u (List.mem_cons_of_mem v hu)) hvs.1 hvs.2 n (by omega)
    rw [parseValues, hvalue]
    simp only [Option.bind_eq_bind, Option.bind_some, printValues, List.cons_append]
    rw [skipSpace_cons rfl]
    simp only [List.append_assoc, htail, Option.bind_some]

theorem quote_append (s : String) (rest : List Char) :
    quote s ++ rest = '"' :: (s.toList.flatMap escapeChar ++ '"' :: rest) := by
  simp [quote]

theorem parseMembers_print {name : JsonText} {v : Json} {ms : List (JsonText × Json)}
    (hreads : ∀ m ∈ (name, v) :: ms, Reads m.2) (hname : name.wellFormed = true)
    (hv : v.Readable) (hms : ReadableMembers ms) {n : Nat} (rest : List Char)
    (hn : (print v ++ printMembers ms).length ≤ n) :
    parseMembers (n + 1) (quote name.text ++ ':' :: (print v ++ (printMembers ms ++ rest))) =
      some ((name, v) :: ms, rest) := by
  have hname' : ({ text := name.text, wellFormed := true } : JsonText) = name := by rw [← hname]
  induction ms generalizing name v n with
  | nil =>
    rw [List.length_append] at hn
    have hvread : Reads v := hreads (name, v) List.mem_cons_self
    have hvalue := hvread hv n (printMembers [] ++ rest) (by omega) (ends_printMembers [] rest)
    rw [quote_append, parseMembers, skipSpace_cons rfl]
    simp only [parseString_quoted, Option.bind_eq_bind, Option.bind_some]
    rw [skipSpace_cons rfl]
    simp only [hvalue, Option.bind_some, hname']
    rfl
  | cons m ms ih =>
    obtain ⟨name', w⟩ := m
    rw [List.length_append, printMembers, List.length_cons, List.length_append] at hn
    have hquote : 0 < (quote name'.text).length := by
      rw [quote, List.length_cons]
      omega
    rw [List.length_cons] at hn
    obtain ⟨n, rfl⟩ : ∃ m, n = m + 1 := Nat.exists_eq_succ_of_ne_zero (by omega)
    have hvread : Reads v := hreads (name, v) List.mem_cons_self
    have hvalue := hvread hv (n + 1) (printMembers ((name', w) :: ms) ++ rest) (by omega)
      (ends_printMembers _ rest)
    have htail := @ih name' w (fun u hu => hreads u (List.mem_cons_of_mem _ hu)) hms.1 hms.2.1
      hms.2.2 n (by omega) (by rw [← hms.1])
    rw [quote_append, parseMembers, skipSpace_cons rfl]
    simp only [parseString_quoted, Option.bind_eq_bind, Option.bind_some]
    rw [skipSpace_cons rfl]
    simp only [hvalue, Option.bind_some, hname']
    rw [printMembers, List.cons_append, skipSpace_cons rfl]
    simp only [List.append_assoc, List.cons_append, htail, Option.bind_some]

mutual

theorem reads : ∀ v : Json, Reads v
  | .null, _, n + 1, rest, _, _ => by
    rw [parseValue, print, List.cons_append, skipSpace_cons rfl]
    simp [parseAtom]
  | .bool true, _, n + 1, rest, _, _ => by
    rw [parseValue, print, List.cons_append, skipSpace_cons rfl]
    simp [parseAtom]
  | .bool false, _, n + 1, rest, _, _ => by
    rw [parseValue, print, List.cons_append, skipSpace_cons rfl]
    simp [parseAtom]
  | .number text, h, n + 1, rest, _, hrest => by
    have hatom : parseAtom (text.toList ++ rest) = some (.number text, rest) := by
      rw [parseAtom_number h hrest, String.ofList_toList]
    obtain ⟨c, text', htext, hspace, -, -⟩ := print_head (v := .number text) h
    rw [print] at htext
    have hc := isNumber_chars h c (by rw [htext]; exact List.mem_cons_self)
    rw [htext, List.cons_append] at hatom
    rw [parseValue, print, htext, List.cons_append, skipSpace_cons hspace]
    split
    · rename_i heq
      cases heq
    · rename_i heq
      cases heq
      cases hc
    · rename_i heq
      cases heq
      cases hc
    · rename_i heq
      cases heq
      cases hc
    · rename_i heq
      cases heq
      exact hatom
  | .string s, h, n + 1, rest, _, _ => by
    have hs : ({ text := s.text, wellFormed := true } : JsonText) = s := by
      rw [← (show s.wellFormed = true from h)]
    rw [print, quote_append, parseValue, skipSpace_cons rfl]
    simp only [parseString_quoted, Option.map_some, hs]
  | .array [], _, n + 1, rest, _, _ => by
    rw [parseValue, print, List.cons_append, skipSpace_cons rfl]
    rfl
  | .array (v :: vs), h, n + 1, rest, hn, _ => by
    obtain ⟨hv, hvs⟩ : v.Readable ∧ ReadableValues vs := h
    rw [print, List.length_cons] at hn
    have hvalues := parseValues_print (List.forall_mem_cons.mpr ⟨reads v, readsValues vs⟩) hv hvs
      rest (Nat.le_of_succ_le_succ hn)
    obtain ⟨c, text, htext, hspace, hclose, -⟩ := print_head hv
    rw [parseValue, print, List.cons_append, skipSpace_cons rfl]
    simp only [List.append_assoc]
    rw [htext, List.cons_append] at hvalues ⊢
    rw [skipSpace_cons hspace]
    split
    · rename_i heq
      exact absurd (List.cons.inj heq).1 hclose
    · rw [hvalues]
      rfl
  | .object [], _, n + 1, rest, _, _ => by
    rw [parseValue, print, List.cons_append, skipSpace_cons rfl]
    rfl
  | .object ((name, v) :: ms), h, n + 1, rest, hn, _ => by
    obtain ⟨hname, hv, hms⟩ : name.wellFormed = true ∧ v.Readable ∧ ReadableMembers ms := h
    rw [print, List.length_cons, List.length_append, List.length_cons] at hn
    obtain ⟨n, rfl⟩ : ∃ m, n = m + 1 := Nat.exists_eq_succ_of_ne_zero (by omega)
    have hmembers := parseMembers_print (List.forall_mem_cons.mpr ⟨reads v, readsMembers ms⟩)
      hname hv hms rest (show (print v ++ printMembers ms).length ≤ n by omega)
    rw [quote_append] at hmembers
    rw [parseValue, print, List.cons_append, skipSpace_cons rfl, List.append_assoc, quote_append]
    simp only [List.cons_append, List.append_assoc]
    rw [skipSpace_cons rfl]
    show (parseMembers (n + 1) _).map _ = _
    rw [hmembers]
    rfl
  | .null, _, 0, _, hn, _ => by simp [print] at hn
  | .bool true, _, 0, _, hn, _ => by simp [print] at hn
  | .bool false, _, 0, _, hn, _ => by simp [print] at hn
  | .number text, h, 0, _, hn, _ => by
    have hnil := List.length_eq_zero_iff.mp (Nat.le_zero.mp hn)
    exact absurd hnil (isNumber_ne_nil h)
  | .string s, _, 0, _, hn, _ => by simp [print, quote] at hn
  | .array [], _, 0, _, hn, _ => by simp [print] at hn
  | .array (v :: vs), _, 0, _, hn, _ => by simp [print] at hn
  | .object [], _, 0, _, hn, _ => by simp [print] at hn
  | .object (m :: ms), _, 0, _, hn, _ => by simp [print] at hn

theorem readsValues : ∀ vs : List Json, ∀ v ∈ vs, Reads v
  | [] => nofun
  | v :: vs => List.forall_mem_cons.mpr ⟨reads v, readsValues vs⟩

theorem readsMembers : ∀ ms : List (JsonText × Json), ∀ m ∈ ms, Reads m.2
  | [] => nofun
  | (_, v) :: ms => List.forall_mem_cons.mpr ⟨reads v, readsMembers ms⟩

end

/-- **A printed document is read back.** -/
theorem parse_print {v : Json} (h : v.Readable) : parse (print v) = some v := by
  have hvalue := reads v h ((print v).length + 1) [] (Nat.le_succ _) nofun
  rw [List.append_nil] at hvalue
  unfold parse
  rw [hvalue]
  rfl

/-! ## A cut document is not read

A document that was read is read again before any text, with any larger fuel. -/

theorem parseUnit_append {text rest : List Char} {unit : Nat}
    (h : parseUnit text = some (unit, rest)) (more : List Char) :
    parseUnit (text ++ more) = some (unit, rest ++ more) := by
  unfold parseUnit at h
  split at h
  · rename_i a b c d rest'
    simp only [List.cons_append, parseUnit]
    cases ha : hexValue a with
    | none => simp [ha] at h
    | some a =>
      cases hb : hexValue b with
      | none => simp [ha, hb] at h
      | some b =>
        cases hc : hexValue c with
        | none => simp [ha, hb, hc] at h
        | some c =>
          cases hd : hexValue d with
          | none => simp [ha, hb, hc, hd] at h
          | some d =>
            simp only [ha, hb, hc, hd, Option.bind_eq_bind, Option.bind_some, Option.some.injEq,
              Prod.mk.injEq] at h ⊢
            exact ⟨h.1, by rw [h.2]⟩
  · rename_i c rest' hlong
    have hc : c ≠ 'u' := by
      rintro rfl
      cases h
    obtain ⟨unit', hunit, heq⟩ := Option.map_eq_some_iff.mp h
    cases heq
    rw [List.cons_append, List.cons_append, parseUnit]
    · rw [hunit]
      rfl
    · rintro a b c' d rest'' heq -
      exact hc heq
  · rename_i c rest' hlong hshort
    split at h
    · cases h
    · rename_i hplain
      cases h
      have hc : c ≠ '\\' := fun hc => hplain (.inr (.inl hc))
      rw [List.cons_append, parseUnit]
      · rw [if_neg hplain]
      · rintro a b c' d rest'' heq -
        exact hc heq
      · rintro c' rest'' heq -
        exact hc heq
  · cases h

theorem parseUnits_append {n m : Nat} {text rest : List Char} {units : List Nat}
    (h : parseUnits n text = some (units, rest)) (hnm : n ≤ m) (more : List Char) :
    parseUnits m (text ++ more) = some (units, rest ++ more) := by
  induction n generalizing m text units with
  | zero => cases h
  | succ n ih =>
    obtain ⟨m, rfl⟩ : ∃ k, m = k + 1 := Nat.exists_eq_succ_of_ne_zero (by omega)
    by_cases hquote : ∃ rest', text = '"' :: rest'
    · obtain ⟨rest', rfl⟩ := hquote
      cases h
      rfl
    · rw [parseUnits_cons fun rest' heq => hquote ⟨rest', heq⟩] at h
      obtain ⟨⟨unit, rest'⟩, hunit, h⟩ := Option.bind_eq_some_iff.mp h
      obtain ⟨⟨units', rest''⟩, hunits, heq⟩ := Option.map_eq_some_iff.mp h
      cases heq
      have hne : ∀ rest', text ++ more ≠ '"' :: rest' := by
        intro rest₁ heq
        cases text with
        | nil => cases hunit
        | cons c text => exact hquote ⟨text, by rw [(List.cons.inj heq).1]⟩
      rw [parseUnits_cons hne, parseUnit_append hunit more]
      simp only [Option.bind_some, ih hunits (Nat.le_of_succ_le_succ hnm), Option.map_some]

theorem parseString_append {text rest : List Char} {s : JsonText}
    (h : parseString text = some (s, rest)) (more : List Char) :
    parseString (text ++ more) = some (s, rest ++ more) := by
  obtain ⟨⟨units, rest'⟩, hunits, heq⟩ := Option.map_eq_some_iff.mp h
  cases heq
  unfold parseString
  rw [parseUnits_append hunits (by rw [List.length_append]; omega) more]
  rfl

theorem skipSpace_append {text rest : List Char} {c : Char} (h : skipSpace text = c :: rest)
    (more : List Char) : skipSpace (text ++ more) = c :: (rest ++ more) := by
  unfold skipSpace at h ⊢
  rw [List.dropWhile_append, h]
  rfl

/-- A document that is not a number. -/
def Bounded : Json → Prop
  | .number _ => False
  | _ => True

theorem parseNumber_more {text rest : List Char} {v : Json} (h : parseNumber text = some (v, rest))
    (hrest : rest ≠ []) (more : List Char) :
    parseNumber (text ++ more) = some (v, rest ++ more) := by
  unfold parseNumber at h
  split at h
  · rename_i hnumber
    cases h
    have hlength : (text.takeWhile isNumberChar).length ≠ text.length := by
      intro hlength
      have hall := congrArg List.length
        (List.takeWhile_append_dropWhile (p := isNumberChar) (l := text))
      rw [List.length_append, hlength] at hall
      exact hrest (List.length_eq_zero_iff.mp (by omega))
    have htake : (text ++ more).takeWhile isNumberChar = text.takeWhile isNumberChar := by
      rw [List.takeWhile_append, if_neg hlength]
    have hdrop : (text ++ more).dropWhile isNumberChar = text.dropWhile isNumberChar ++ more := by
      rw [List.dropWhile_append, if_neg]
      simpa using hrest
    unfold parseNumber
    rw [htake, hdrop, if_pos hnumber]
  · cases h

theorem parseAtom_append {text rest : List Char} {v : Json} (h : parseAtom text = some (v, rest))
    (hv : rest ≠ [] ∨ v.Bounded) (more : List Char) :
    parseAtom (text ++ more) = some (v, rest ++ more) := by
  unfold parseAtom at h
  split at h
  · rename_i hnull
    cases h
    obtain ⟨rest, rfl⟩ := hnull
    rfl
  split at h
  · rename_i htrue
    cases h
    obtain ⟨rest, rfl⟩ := htrue
    rfl
  split at h
  · rename_i hfalse
    cases h
    obtain ⟨rest, rfl⟩ := hfalse
    rfl
  · have hchar : ∀ c word, isNumberChar c = false → ¬ c :: word <+: text ++ more := by
      intro c word hc hprefix
      cases text with
      | nil => cases h
      | cons c' text =>
        have heq : c = c' := (List.cons_prefix_cons.mp hprefix).1
        rw [heq] at hc
        unfold parseNumber at h
        rw [List.takeWhile_cons_of_neg (by rw [hc]; exact Bool.false_ne_true)] at h
        cases h
    have hnumber : ¬ v.Bounded := by
      unfold parseNumber at h
      split at h
      · cases h
        exact id
      · cases h
    unfold parseAtom
    rw [if_neg (hchar _ _ rfl), if_neg (hchar _ _ rfl), if_neg (hchar _ _ rfl)]
    exact parseNumber_more h (hv.resolve_right hnumber) more

theorem parseValue_zero_nil (n : Nat) : parseValue n [] = none := by
  cases n <;> rfl

theorem parseValues_nil (n : Nat) : parseValues n [] = none := by
  cases n with
  | zero => rfl
  | succ n =>
    rw [parseValues, parseValue_zero_nil]
    rfl

theorem parseMembers_nil (n : Nat) : parseMembers n [] = none := by
  cases n <;> rfl

/-- The values of an array are read again before any text. -/
def ValuesAppend (n : Nat) : Prop :=
  ∀ {m text rest values}, n ≤ m → parseValues n text = some (values, rest) → ∀ more,
    parseValues m (text ++ more) = some (values, rest ++ more)

/-- More text changes nothing of the members that were read. -/
def MembersAppend (n : Nat) : Prop :=
  ∀ {m text rest members}, n ≤ m → parseMembers n text = some (members, rest) → ∀ more,
    parseMembers m (text ++ more) = some (members, rest ++ more)

/-- More text changes nothing of a value that was read, unless the value could go on there. -/
def ValueAppend (n : Nat) : Prop :=
  ∀ {m text rest v}, n ≤ m → parseValue n text = some (v, rest) → rest ≠ [] ∨ v.Bounded → ∀ more,
    parseValue m (text ++ more) = some (v, rest ++ more)

theorem ValueAppend.values {n : Nat} (hvalue : ValueAppend n) (hvalues : ValuesAppend n) :
    ValuesAppend (n + 1) := by
  intro m text rest values hnm h more
  obtain ⟨m, rfl⟩ : ∃ k, m = k + 1 := Nat.exists_eq_succ_of_ne_zero (by omega)
  have hnm := Nat.le_of_succ_le_succ hnm
  rw [parseValues] at h
  obtain ⟨⟨v, rest'⟩, hv, h⟩ := Option.bind_eq_some_iff.mp h
  have hne : rest' ≠ [] := by
    rintro rfl
    cases h
  rw [parseValues, hvalue hnm hv (.inl hne) more]
  simp only [Option.bind_eq_bind, Option.bind_some]
  simp only at h
  split at h
  · rename_i hcomma
    obtain ⟨⟨vs, rest''⟩, hvs, heq⟩ := Option.bind_eq_some_iff.mp h
    cases heq
    rw [skipSpace_append hcomma]
    simp only [hvalues hnm hvs more, Option.bind_some]
  · rename_i hclose
    cases h
    rw [skipSpace_append hclose]
    rfl
  · cases h

theorem ValueAppend.members {n : Nat} (hvalue : ValueAppend n) (hmembers : MembersAppend n) :
    MembersAppend (n + 1) := by
  intro m text rest members hnm h more
  obtain ⟨m, rfl⟩ : ∃ k, m = k + 1 := Nat.exists_eq_succ_of_ne_zero (by omega)
  have hnm := Nat.le_of_succ_le_succ hnm
  rw [parseMembers] at h
  split at h
  · rename_i hquote
    obtain ⟨⟨name, rest₁⟩, hname, h⟩ := Option.bind_eq_some_iff.mp h
    simp only at h
    split at h
    · rename_i hcolon
      obtain ⟨⟨v, rest₂⟩, hv, h⟩ := Option.bind_eq_some_iff.mp h
      have hne : rest₂ ≠ [] := by
        rintro rfl
        cases h
      rw [parseMembers, skipSpace_append hquote]
      simp only [parseString_append hname more, Option.bind_eq_bind, Option.bind_some]
      rw [skipSpace_append hcolon]
      simp only [hvalue hnm hv (.inl hne) more, Option.bind_some]
      simp only at h
      split at h
      · rename_i hcomma
        obtain ⟨⟨ms, rest₃⟩, hms, heq⟩ := Option.bind_eq_some_iff.mp h
        cases heq
        rw [skipSpace_append hcomma]
        simp only [hmembers hnm hms more, Option.bind_some]
      · rename_i hclose
        cases h
        rw [skipSpace_append hclose]
        rfl
      · cases h
    · cases h
  · cases h

theorem ValueAppend.succ {n : Nat} (hvalues : ValuesAppend n) (hmembers : MembersAppend n) :
    ValueAppend (n + 1) := by
  intro m text rest v hnm h hv more
  obtain ⟨m, rfl⟩ : ∃ k, m = k + 1 := Nat.exists_eq_succ_of_ne_zero (by omega)
  have hnm := Nat.le_of_succ_le_succ hnm
  rw [parseValue] at h ⊢
  cases hskip : skipSpace text with
  | nil =>
    rw [hskip] at h
    cases h
  | cons c text' =>
    rw [hskip] at h
    rw [skipSpace_append hskip]
    split at h
    · rename_i heq
      cases heq
    · rename_i heq
      cases heq
      obtain ⟨⟨s, rest'⟩, hs, heq⟩ := Option.map_eq_some_iff.mp h
      cases heq
      simp only [parseString_append hs more, Option.map_some]
    · rename_i rest₁ heq
      cases heq
      cases hinner : skipSpace text' with
      | nil =>
        rw [hinner] at h
        simp only [parseValues_nil, Option.map_none] at h
        cases h
      | cons c rest₂ =>
        rw [hinner] at h
        show (match skipSpace (text' ++ more) with
          | ']' :: rest => some (array [], rest)
          | rest => (parseValues m rest).map fun (values, rest) => (array values, rest)) = _
        rw [skipSpace_append hinner]
        split at h
        · rename_i heq
          cases heq
          cases h
          rfl
        · rename_i hclose
          obtain ⟨⟨vs, rest₃⟩, hvs, heq⟩ := Option.map_eq_some_iff.mp h
          cases heq
          split
          · rename_i heq
            exact absurd (by rw [(List.cons.inj heq).1]) (hclose rest₂)
          · rw [← List.cons_append, hvalues hnm hvs more]
            rfl
    · rename_i rest₁ heq
      cases heq
      cases hinner : skipSpace text' with
      | nil =>
        rw [hinner] at h
        simp only [parseMembers_nil, Option.map_none] at h
        cases h
      | cons c rest₂ =>
        rw [hinner] at h
        show (match skipSpace (text' ++ more) with
          | '}' :: rest => some (object [], rest)
          | rest => (parseMembers m rest).map fun (members, rest) => (object members, rest)) = _
        rw [skipSpace_append hinner]
        split at h
        · rename_i heq
          cases heq
          cases h
          rfl
        · rename_i hclose
          obtain ⟨⟨ms, rest₃⟩, hms, heq⟩ := Option.map_eq_some_iff.mp h
          cases heq
          split
          · rename_i heq
            exact absurd (by rw [(List.cons.inj heq).1]) (hclose rest₂)
          · rw [← List.cons_append, hmembers hnm hms more]
            rfl
    · rename_i hquote hopen hbrace heq
      cases heq
      have hatom := parseAtom_append h hv more
      split
      · rename_i heq
        cases heq
      · rename_i heq
        exact absurd (List.cons.inj heq).1 hquote
      · rename_i heq
        exact absurd (List.cons.inj heq).1 hopen
      · rename_i heq
        exact absurd (List.cons.inj heq).1 hbrace
      · rename_i heq
        rw [← heq]
        exact hatom

theorem parse_appends (n : Nat) : ValueAppend n ∧ ValuesAppend n ∧ MembersAppend n := by
  induction n with
  | zero => exact ⟨nofun, nofun, nofun⟩
  | succ n ih =>
    obtain ⟨hvalue, hvalues, hmembers⟩ := ih
    exact ⟨ValueAppend.succ hvalues hmembers, hvalue.values hvalues, hvalue.members hmembers⟩

theorem parseValue_brace {n : Nat} {text rest : List Char} {v : Json}
    (h : parseValue n ('{' :: text) = some (v, rest)) : v.Bounded := by
  cases n with
  | zero => cases h
  | succ n =>
    rw [parseValue, skipSpace_cons rfl] at h
    cases v with
    | number digits =>
      simp only at h
      split at h
      · cases h
      · obtain ⟨parsed, -, heq⟩ := Option.map_eq_some_iff.mp h
        cases heq
    | null => trivial
    | bool b => trivial
    | string s => trivial
    | array values => trivial
    | object members => trivial

/-- No document is read at the beginning of a cut object. -/
theorem parseValue_cut {members : List (JsonText × Json)} (h : (object members).Readable)
    {text rest : List Char} (hprint : print (object members) = text ++ rest) (hrest : rest ≠ []) :
    parseValue (text.length + 1) text = none := by
  cases hparse : parseValue (text.length + 1) text with
  | none => rfl
  | some parsed =>
    obtain ⟨w, rest'⟩ := parsed
    have hw : w.Bounded := by
      cases text with
      | nil =>
        rw [parseValue_zero_nil] at hparse
        cases hparse
      | cons c text =>
        have hc : c = '{' := by
          cases members with
          | nil => exact ((List.cons.inj hprint).1).symm
          | cons m ms => exact ((List.cons.inj hprint).1).symm
        rw [hc] at hparse
        exact parseValue_brace hparse
    -- the whole text would leave something unread
    have hlength : text.length + 1 ≤ (print (object members)).length + 1 := by
      rw [hprint, List.length_append]
      omega
    have hmore := (parse_appends (text.length + 1)).1 hlength hparse (.inr hw) rest
    have hwhole := reads (object members) h ((print (object members)).length + 1) []
      (Nat.le_succ _) nofun
    rw [List.append_nil, hprint] at hwhole
    rw [hprint] at hmore
    rw [hmore] at hwhole
    have hnil := (Prod.mk.inj (Option.some.inj hwhole)).2
    exact absurd (List.append_eq_nil_iff.mp hnil).2 hrest

/-- **A cut object is not read.** -/
theorem parse_cut {members : List (JsonText × Json)} (h : (object members).Readable)
    {text rest : List Char} (hprint : print (object members) = text ++ rest) (hrest : rest ≠ []) :
    parse text = none := by
  unfold parse
  rw [parseValue_cut h hprint hrest]

end Kavora.Lib.Json
