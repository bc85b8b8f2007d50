import Kavora.Lib.Except
import Kavora.Lib.JsonMeaning
import Kavora.Lib.JsonSyntax
import Kavora.Lib.Utf8
import Kavora.Policy.Ascii
import Kavora.Policy.SerdeJson

/-!
# The cache key (`policy-engine/src/cache_key.rs`)

The key of an allowed request is the digest of what `serde_json` prints for the canonical request:
its model, its messages, its tools and its generation parameters, in the order of the declaration,
with the members of every JSON object sorted by name.

* `Value.print_injective`: two values with one text are equal. The printed text, once the characters
  that only `json.Marshal` escapes are escaped, is a text that is read back (`print_toJson`).
* `Value.eq_of_meaning`: sorted values that mean the same are equal.
* `evaluate_cache_key`: what is hashed for two allowed requests is equal if and only if the
  requests mean the same.
-/

namespace Kavora.Policy

open Lib

namespace Value

/-! ## `serde_json::to_vec` -/

/-- `format_escaped_str_contents`, one character. -/
def escapeChar (c : Char) : List Char :=
  if c = '"' then ['\\', '"']
  else if c = '\\' then ['\\', '\\']
  else if c.toNat = 8 then ['\\', 'b']
  else if c.toNat = 9 then ['\\', 't']
  else if c.toNat = 10 then ['\\', 'n']
  else if c.toNat = 12 then ['\\', 'f']
  else if c.toNat = 13 then ['\\', 'r']
  else if c.toNat < 0x20 then Json.escapeUnit c.toNat
  else [c]

/-- `format_escaped_str`. -/
def quote (s : String) : List Char := '"' :: (s.toList.flatMap escapeChar ++ ['"'])

mutual

/-- The compact text of a value. -/
def print : Value → List Char
  | .null => ['n', 'u', 'l', 'l']
  | .bool true => ['t', 'r', 'u', 'e']
  | .bool false => ['f', 'a', 'l', 's', 'e']
  | .number text => text.toList
  | .string s => quote s
  | .array [] => ['[', ']']
  | .array (v :: vs) => '[' :: (print v ++ printValues vs)
  | .object [] => ['{', '}']
  | .object ((name, v) :: ms) => '{' :: (quote name ++ ':' :: (print v ++ printMembers ms))

/-- The rest of an array after its first value. -/
def printValues : List Value → List Char
  | [] => [']']
  | v :: vs => ',' :: (print v ++ printValues vs)

/-- The rest of an object after its first member. -/
def printMembers : List (String × Value) → List Char
  | [] => ['}']
  | (name, v) :: ms => ',' :: (quote name ++ ':' :: (print v ++ printMembers ms))

end

end Value

/-- The serialization of a `CanonicalMessage`; no name is `null`. -/
def CanonicalMessage.toValue (message : CanonicalMessage) : Value :=
  .object [("role", .string message.role), ("content", message.content),
    ("name", match message.name with
      | some name => .string name
      | none => .null)]

/-- The value whose text is hashed. -/
def CanonicalRequest.toValue (request : CanonicalRequest) : Value :=
  .object [("model", .string request.model),
    ("messages", .array (request.messages.map CanonicalMessage.toValue)),
    ("tools", request.tools), ("generation_parameters", request.generationParameters)]

/-- `serde_json::to_vec` of a canonical request. -/
def CanonicalRequest.toVec (request : CanonicalRequest) : Bytes :=
  Utf8.encode request.toValue.print

/-- `serde_json::from_slice::<Value>`. -/
def Value.fromBytes (number : String → Option String) (encoded : Bytes) : Option Value := do
  let text ← Utf8.decode encoded
  let doc ← Json.parse text
  Value.fromSlice number doc

/-- The libraries with `serde_json` as it is, up to how it prints the number of a text. -/
def Externals.serde (number : String → Option String) (emailIsMatch : String → Bool)
    (toLowercase : String → String) (sha256 : Bytes → Bytes) : Externals where
  fromSlice := Value.fromBytes number
  emailIsMatch := emailIsMatch
  toLowercase := toLowercase
  toVec := CanonicalRequest.toVec
  sha256 := sha256

namespace Value

/-! ## The text of a value determines it -/

mutual

/-- The document of a value. -/
def toJson : Value → Json
  | .null => .null
  | .bool b => .bool b
  | .number text => .number text
  | .string s => .string { text := s, wellFormed := true }
  | .array values => .array (toJsonList values)
  | .object members => .object (toJsonMembers members)

/-- Those of some values. -/
def toJsonList : List Value → List Json
  | [] => []
  | v :: vs => v.toJson :: toJsonList vs

/-- Those of some members. -/
def toJsonMembers : List (String × Value) → List (JsonText × Json)
  | [] => []
  | (name, v) :: ms => ({ text := name, wellFormed := true }, v.toJson) :: toJsonMembers ms

end

mutual

/-- The value that `toJson` comes from. -/
def ofSyntax : Json → Value
  | .null => .null
  | .bool b => .bool b
  | .number text => .number text
  | .string s => .string s.text
  | .array values => .array (ofSyntaxList values)
  | .object members => .object (ofSyntaxMembers members)

/-- Those of some documents. -/
def ofSyntaxList : List Json → List Value
  | [] => []
  | v :: vs => ofSyntax v :: ofSyntaxList vs

/-- Those of some members. -/
def ofSyntaxMembers : List (JsonText × Json) → List (String × Value)
  | [] => []
  | (name, v) :: ms => (name.text, ofSyntax v) :: ofSyntaxMembers ms

end

mutual

theorem ofSyntax_toJson : ∀ v : Value, ofSyntax v.toJson = v
  | .null => rfl
  | .bool _ => rfl
  | .number _ => rfl
  | .string _ => rfl
  | .array values => by rw [toJson, ofSyntax, ofSyntaxList_toJson]
  | .object members => by rw [toJson, ofSyntax, ofSyntaxMembers_toJson]

theorem ofSyntaxList_toJson : ∀ vs : List Value, ofSyntaxList (toJsonList vs) = vs
  | [] => rfl
  | v :: vs => by rw [toJsonList, ofSyntaxList, ofSyntax_toJson, ofSyntaxList_toJson]

theorem ofSyntaxMembers_toJson : ∀ ms : List (String × Value),
    ofSyntaxMembers (toJsonMembers ms) = ms
  | [] => rfl
  | (name, v) :: ms => by
    rw [toJsonMembers, ofSyntaxMembers, ofSyntax_toJson, ofSyntaxMembers_toJson]

end

theorem toJson_injective {v w : Value} (h : v.toJson = w.toJson) : v = w := by
  rw [← ofSyntax_toJson v, h, ofSyntax_toJson]

/-- The escapes of `json.Marshal` that `serde_json` does not write. -/
def escapeMore (c : Char) : List Char :=
  if c = '<' ∨ c = '>' ∨ c = '&' ∨ c.toNat = 0x2028 ∨ c.toNat = 0x2029 then
    Json.escapeUnit c.toNat
  else [c]

theorem flatMap_escapeMore {text : List Char} (h : ∀ c ∈ text, escapeMore c = [c]) :
    text.flatMap escapeMore = text := by
  induction text with
  | nil => rfl
  | cons c text ih =>
    obtain ⟨hc, htext⟩ := List.forall_mem_cons.mp h
    rw [List.flatMap_cons, hc, ih htext, List.singleton_append]

theorem escapeMore_escapeUnit {n : Nat} (h : n < 0x20) :
    (Json.escapeUnit n).flatMap escapeMore = Json.escapeUnit n := by
  have hall : ∀ n < 0x20, (Json.escapeUnit n).flatMap escapeMore = Json.escapeUnit n := by decide
  exact hall n h

theorem escapeMore_escapeChar (c : Char) :
    (escapeChar c).flatMap escapeMore = Json.escapeChar c := by
  unfold escapeChar Json.escapeChar
  split
  · rfl
  split
  · rfl
  split
  · rfl
  split
  · rfl
  split
  · rfl
  split
  · rfl
  split
  · rfl
  split
  · rename_i hcontrol
    rw [if_pos (.inl hcontrol)]
    exact escapeMore_escapeUnit hcontrol
  · rename_i hcontrol
    rw [List.flatMap_cons, List.flatMap_nil, List.append_nil, escapeMore]
    simp only [hcontrol, false_or]

theorem escapeMore_quote (s : String) : (quote s).flatMap escapeMore = Json.quote s := by
  unfold quote Json.quote
  rw [List.flatMap_cons, List.flatMap_append, List.flatMap_assoc]
  simp only [escapeMore_escapeChar]
  rfl

theorem escapeMore_number {text : String} (h : Json.isNumber text.toList = true) :
    text.toList.flatMap escapeMore = text.toList := by
  refine flatMap_escapeMore fun c hc => ?_
  have hchar := Json.isNumber_chars h c hc
  refine if_neg ?_
  rintro (rfl | rfl | rfl | h' | h')
  · cases hchar
  · cases hchar
  · cases hchar
  · rw [← Char.ofNat_toNat c, h'] at hchar
    cases hchar
  · rw [← Char.ofNat_toNat c, h'] at hchar
    cases hchar

mutual

/-- With the other escapes the text is the one of `json.Marshal`. -/
theorem print_toJson : ∀ {v : Value}, v.toJson.Readable →
    v.print.flatMap escapeMore = v.toJson.print
  | .null, _ => rfl
  | .bool true, _ => rfl
  | .bool false, _ => rfl
  | .number _, h => escapeMore_number h
  | .string s, _ => escapeMore_quote s
  | .array [], _ => rfl
  | .array (v :: vs), h => by
    rw [print, toJson, toJsonList, Json.print, List.flatMap_cons, List.flatMap_append,
      print_toJson h.1, printValues_toJson h.2]
    rfl
  | .object [], _ => rfl
  | .object ((name, v) :: ms), h => by
    rw [print, toJson, toJsonMembers, Json.print, List.flatMap_cons, List.flatMap_append,
      List.flatMap_cons, List.flatMap_append, escapeMore_quote, print_toJson h.2.1,
      printMembers_toJson h.2.2]
    rfl

theorem printValues_toJson : ∀ {vs : List Value}, Json.ReadableValues (toJsonList vs) →
    (printValues vs).flatMap escapeMore = Json.printValues (toJsonList vs)
  | [], _ => rfl
  | v :: vs, h => by
    rw [printValues, toJsonList, Json.printValues, List.flatMap_cons, List.flatMap_append,
      print_toJson h.1, printValues_toJson h.2]
    rfl

theorem printMembers_toJson : ∀ {ms : List (String × Value)},
    Json.ReadableMembers (toJsonMembers ms) →
    (printMembers ms).flatMap escapeMore = Json.printMembers (toJsonMembers ms)
  | [], _ => rfl
  | (name, v) :: ms, h => by
    rw [printMembers, toJsonMembers, Json.printMembers, List.flatMap_cons, List.flatMap_append,
      List.flatMap_cons, List.flatMap_append, escapeMore_quote, print_toJson h.2.1,
      printMembers_toJson h.2.2]
    rfl

end

theorem print_injective {v w : Value} (hv : v.toJson.Readable) (hw : w.toJson.Readable)
    (h : v.print = w.print) : v = w := by
  have hprint : v.toJson.print = w.toJson.print := by
    rw [← print_toJson hv, ← print_toJson hw, h]
  have hread := Json.parse_print hv
  rw [hprint, Json.parse_print hw] at hread
  exact toJson_injective (Option.some.inj hread).symm

/-! ## What a value means -/

mutual

/-- The numbers are numbers, and the members of objects are sorted by name. -/
def Canonical : Value → Prop
  | .number text => Json.isNumber text.toList = true
  | .array values => CanonicalList values
  | .object members => members.Pairwise (fun m m' => m.1 < m'.1) ∧ CanonicalMembers members
  | _ => True

/-- So are some values. -/
def CanonicalList : List Value → Prop
  | [] => True
  | v :: vs => v.Canonical ∧ CanonicalList vs

/-- So are some members. -/
def CanonicalMembers : List (String × Value) → Prop
  | [] => True
  | (_, v) :: ms => v.Canonical ∧ CanonicalMembers ms

end

mutual

theorem Canonical.readable : ∀ {v : Value}, v.Canonical → v.toJson.Readable
  | .null, _ => trivial
  | .bool _, _ => trivial
  | .number _, h => h
  | .string _, _ => rfl
  | .array _, h => CanonicalList.readable h
  | .object _, h => CanonicalMembers.readable h.2

theorem CanonicalList.readable : ∀ {vs : List Value}, CanonicalList vs →
    Json.ReadableValues (toJsonList vs)
  | [], _ => trivial
  | _ :: _, h => ⟨Canonical.readable h.1, CanonicalList.readable h.2⟩

theorem CanonicalMembers.readable : ∀ {ms : List (String × Value)}, CanonicalMembers ms →
    Json.ReadableMembers (toJsonMembers ms)
  | [], _ => trivial
  | _ :: _, h => ⟨rfl, Canonical.readable h.1, CanonicalMembers.readable h.2⟩

end

/-- What a value means: the numbers are printed already. -/
def meaning (v : Value) : Meaning := v.toJson.meaning some

/-- What the members of an object mean. -/
def meaningMembers (ms : List (String × Value)) : String → Option Meaning :=
  Json.meaningMembers some (toJsonMembers ms)

theorem meaningMembers_cons (name : String) (v : Value) (ms : List (String × Value))
    (key : String) :
    meaningMembers ((name, v) :: ms) key =
      (meaningMembers ms key).or (if name = key then some v.meaning else none) := by
  show Json.meaningMembers some (({ text := name, wellFormed := true }, v.toJson) ::
    toJsonMembers ms) key = _
  rw [Json.meaningMembers]
  unfold meaningMembers
  cases Json.meaningMembers some (toJsonMembers ms) key <;> rfl

theorem meaningMembers_none {ms : List (String × Value)} {key : String}
    (h : ∀ m ∈ ms, m.1 ≠ key) : meaningMembers ms key = none := by
  induction ms with
  | nil => rfl
  | cons m ms ih =>
    obtain ⟨name, v⟩ := m
    obtain ⟨hname, hms⟩ := List.forall_mem_cons.mp h
    rw [meaningMembers_cons, ih hms, if_neg hname]
    rfl

/-! ## Sorted members -/

/-- The names are sorted after a name. -/
theorem names_ne {name : String} {ms : List (String × Value)} (h : ∀ m ∈ ms, name < m.1) :
    ∀ m ∈ ms, m.1 ≠ name :=
  fun m hm heq => String.lt_irrefl _ (heq ▸ h m hm)

theorem of_mem_insertMember {name : String} {v : Value} {ms : List (String × Value)}
    {m : String × Value} (h : m ∈ insertMember name v ms) : m = (name, v) ∨ m ∈ ms := by
  induction ms with
  | nil => exact .inl (List.mem_singleton.mp h)
  | cons m' ms ih =>
    obtain ⟨name', v'⟩ := m'
    rw [insertMember] at h
    split at h
    · rcases List.mem_cons.mp h with h | h
      · exact .inl h
      · exact .inr (List.mem_cons_of_mem _ h)
    split at h
    · exact List.mem_cons.mp h
    · rcases List.mem_cons.mp h with h | h
      · exact .inr (h ▸ List.mem_cons_self)
      · exact (ih h).imp_right (List.mem_cons_of_mem _)

theorem insertMember_sorted (name : String) (v : Value) {ms : List (String × Value)}
    (h : ms.Pairwise fun m m' => m.1 < m'.1) :
    (insertMember name v ms).Pairwise fun m m' => m.1 < m'.1 := by
  induction ms with
  | nil => exact List.pairwise_singleton _ _
  | cons m ms ih =>
    obtain ⟨name', v'⟩ := m
    obtain ⟨hlt, htail⟩ := List.pairwise_cons.mp h
    rw [insertMember]
    split
    · rename_i heq
      subst heq
      exact List.pairwise_cons.mpr ⟨hlt, htail⟩
    split
    · rename_i hfirst
      refine List.pairwise_cons.mpr ⟨?_, h⟩
      rintro m hm
      rcases List.mem_cons.mp hm with rfl | hm
      · exact hfirst
      · exact String.lt_trans hfirst (hlt m hm)
    · rename_i hne hnlt
      have hgt : name' < name := Std.lt_of_le_of_ne (String.not_lt.mp hnlt) (Ne.symm hne)
      refine List.pairwise_cons.mpr ⟨?_, ih htail⟩
      intro m hm
      rcases of_mem_insertMember hm with rfl | hm
      · exact hgt
      · exact hlt m hm

theorem meaningMembers_insertMember (name : String) (v : Value) {ms : List (String × Value)}
    (h : ms.Pairwise fun m m' => m.1 < m'.1) (key : String) :
    meaningMembers (insertMember name v ms) key =
      if name = key then some v.meaning else meaningMembers ms key := by
  induction ms with
  | nil => exact meaningMembers_cons name v [] key
  | cons m ms ih =>
    obtain ⟨name', v'⟩ := m
    obtain ⟨hlt, htail⟩ := List.pairwise_cons.mp h
    rw [insertMember]
    split
    · rename_i heq
      subst heq
      rw [meaningMembers_cons, meaningMembers_cons]
      by_cases hkey : name = key
      · subst hkey
        rw [if_pos rfl, if_pos rfl, meaningMembers_none (names_ne hlt)]
        rfl
      · rw [if_neg hkey, if_neg hkey, if_neg hkey]
    split
    · rename_i hfirst
      rw [meaningMembers_cons]
      by_cases hkey : name = key
      · subst hkey
        have hnames : ∀ m ∈ (name', v') :: ms, name < m.1 := by
          refine List.forall_mem_cons.mpr ⟨hfirst, fun m hm => ?_⟩
          exact String.lt_trans hfirst (hlt m hm)
        rw [if_pos rfl, if_pos rfl, meaningMembers_none (names_ne hnames)]
        rfl
      · rw [if_neg hkey, if_neg hkey, Option.or_none]
    · rename_i hne hnlt
      rw [meaningMembers_cons, meaningMembers_cons, ih htail]
      by_cases hkey : name = key
      · rw [if_pos hkey, if_pos hkey]
        rfl
      · rw [if_neg hkey, if_neg hkey]

theorem meaningMembers_first {name : String} {v : Value} {ms : List (String × Value)}
    (h : ((name, v) :: ms).Pairwise fun m m' => m.1 < m'.1) :
    meaningMembers ((name, v) :: ms) name = some v.meaning := by
  rw [meaningMembers_cons, meaningMembers_none (names_ne (List.pairwise_cons.mp h).1), if_pos rfl]
  rfl

/-- The least name has a member on both sides. -/
theorem first_eq {name name' : String} {v v' : Value} {ms ms' : List (String × Value)}
    (hsorted : ((name, v) :: ms).Pairwise fun m m' => m.1 < m'.1)
    (hsorted' : ((name', v') :: ms').Pairwise fun m m' => m.1 < m'.1)
    (h : ∀ key, meaningMembers ((name, v) :: ms) key = meaningMembers ((name', v') :: ms') key) :
    name = name' := by
  have hbefore : ∀ {n n' : String} {w : Value} {ns : List (String × Value)}, n < n' →
      ((n', w) :: ns).Pairwise (fun m m' => m.1 < m'.1) →
      meaningMembers ((n', w) :: ns) n = none := by
    intro n n' w ns hlt hns
    apply meaningMembers_none
    apply names_ne
    refine List.forall_mem_cons.mpr ⟨hlt, fun m hm => ?_⟩
    exact String.lt_trans hlt ((List.pairwise_cons.mp hns).1 m hm)
  rcases Std.lt_trichotomy name name' with hlt | heq | hlt
  · have hname := h name
    rw [meaningMembers_first hsorted, hbefore hlt hsorted'] at hname
    cases hname
  · exact heq
  · have hname := h name'
    rw [meaningMembers_first hsorted', hbefore hlt hsorted] at hname
    cases hname

mutual

/-- Sorted values that mean the same are equal. -/
theorem eq_of_meaning : ∀ {v w : Value}, v.Canonical → w.Canonical → v.meaning = w.meaning → v = w
  | .null, w, _, _, h => by cases w <;> cases h; rfl
  | .bool b, w, _, _, h => by cases w <;> cases h; rfl
  | .number text, w, _, _, h => by cases w <;> cases h; rfl
  | .string s, w, _, _, h => by cases w <;> cases h; rfl
  | .array values, w, hv, hw, h => by
    cases w with
    | array values' =>
      exact congrArg array (eq_of_meaningList hv hw (Meaning.array.inj h))
    | _ => cases h
  | .object members, w, hv, hw, h => by
    cases w with
    | object members' =>
      exact congrArg object (eq_of_meaningMembers hv.1 hw.1 hv.2 hw.2
        (congrFun (Meaning.object.inj h)))
    | _ => cases h

theorem eq_of_meaningList : ∀ {vs ws : List Value}, CanonicalList vs → CanonicalList ws →
    Json.meaningList some (toJsonList vs) = Json.meaningList some (toJsonList ws) → vs = ws
  | [], [], _, _, _ => rfl
  | [], _ :: _, _, _, h => by cases h
  | _ :: _, [], _, _, h => by cases h
  | v :: vs, w :: ws, hv, hw, h => by
    obtain ⟨hhead, htail⟩ := List.cons.inj h
    rw [eq_of_meaning hv.1 hw.1 hhead, eq_of_meaningList hv.2 hw.2 htail]

theorem eq_of_meaningMembers : ∀ {ms ms' : List (String × Value)},
    ms.Pairwise (fun m m' => m.1 < m'.1) → ms'.Pairwise (fun m m' => m.1 < m'.1) →
    CanonicalMembers ms → CanonicalMembers ms' →
    (∀ key, meaningMembers ms key = meaningMembers ms' key) → ms = ms'
  | [], [], _, _, _, _, _ => rfl
  | [], (name, v) :: ms, _, hsorted, _, _, h => by
    have hname := h name
    rw [meaningMembers_first hsorted] at hname
    cases hname
  | (name, v) :: ms, [], hsorted, _, _, _, h => by
    have hname := h name
    rw [meaningMembers_first hsorted] at hname
    cases hname
  | (name, v) :: ms, (name', v') :: ms', hsorted, hsorted', hv, hv', h => by
    have hname : name = name' := first_eq hsorted hsorted' h
    subst hname
    have hhead := h name
    rw [meaningMembers_first hsorted, meaningMembers_first hsorted'] at hhead
    have htail : ∀ key, meaningMembers ms key = meaningMembers ms' key := by
      intro key
      by_cases hkey : name = key
      · subst hkey
        rw [meaningMembers_none (names_ne (List.pairwise_cons.mp hsorted).1),
          meaningMembers_none (names_ne (List.pairwise_cons.mp hsorted').1)]
      · have hrest := h key
        rw [meaningMembers_cons, meaningMembers_cons, if_neg hkey, if_neg hkey, Option.or_none,
          Option.or_none] at hrest
        exact hrest
    rw [eq_of_meaning hv.1 hv'.1 (Option.some.inj hhead),
      eq_of_meaningMembers (List.pairwise_cons.mp hsorted).2 (List.pairwise_cons.mp hsorted').2
        hv.2 hv'.2 htail]

end

/-! ## What is read means what the document means -/

theorem CanonicalMembers.insertMember {name : String} {v : Value} {ms : List (String × Value)}
    (hv : v.Canonical) (h : CanonicalMembers ms) : CanonicalMembers (insertMember name v ms) := by
  induction ms with
  | nil => exact ⟨hv, trivial⟩
  | cons m ms ih =>
    rw [Policy.insertMember]
    split
    · exact ⟨hv, h.2⟩
    split
    · exact ⟨hv, h⟩
    · exact ⟨h.1, ih h.2⟩

section OfJson

variable {number : String → Option String}

mutual

theorem ofJson_canonical
    (hnumber : ∀ text out, number text = some out → Json.isNumber out.toList = true) : ∀ {doc : Json} {value : Value}, ofJson number doc = some value →
    value.Canonical
  | .null, _, h => by cases h; trivial
  | .bool _, _, h => by cases h; trivial
  | .number text, _, h => by
    obtain ⟨out, hout, rfl⟩ := Option.map_eq_some_iff.mp h
    exact hnumber text out hout
  | .string s, _, h => by
    rw [ofJson] at h
    split at h
    · cases h
      trivial
    · cases h
  | .array values, _, h => by
    obtain ⟨values', hvalues, rfl⟩ := Option.map_eq_some_iff.mp h
    exact ofJsonList_canonical hnumber hvalues
  | .object members, _, h => by
    obtain ⟨map, hmap, rfl⟩ := Option.map_eq_some_iff.mp h
    exact ofJsonMembers_canonical hnumber List.Pairwise.nil trivial hmap

theorem ofJsonList_canonical
    (hnumber : ∀ text out, number text = some out → Json.isNumber out.toList = true) : ∀ {docs : List Json} {values : List Value},
    ofJsonList number docs = some values → CanonicalList values
  | [], _, h => by cases h; trivial
  | doc :: docs, _, h => by
    obtain ⟨value, hv, h⟩ := Option.bind_eq_some_iff.mp h
    obtain ⟨values', hvs, h⟩ := Option.bind_eq_some_iff.mp h
    cases h
    exact ⟨ofJson_canonical hnumber hv, ofJsonList_canonical hnumber hvs⟩

theorem ofJsonMembers_canonical
    (hnumber : ∀ text out, number text = some out → Json.isNumber out.toList = true) : ∀ {members : List (JsonText × Json)}
    {map map' : List (String × Value)}, map.Pairwise (fun m m' => m.1 < m'.1) →
    CanonicalMembers map → ofJsonMembers number map members = some map' →
    map'.Pairwise (fun m m' => m.1 < m'.1) ∧ CanonicalMembers map'
  | [], _, _, hsorted, hmap, h => by
    cases h
    exact ⟨hsorted, hmap⟩
  | (name, doc) :: members, _, _, hsorted, hmap, h => by
    rw [ofJsonMembers] at h
    split at h
    · obtain ⟨value, hv, h⟩ := Option.bind_eq_some_iff.mp h
      exact ofJsonMembers_canonical hnumber (insertMember_sorted _ _ hsorted)
        (hmap.insertMember (ofJson_canonical hnumber hv)) h
    · cases h

end

mutual

theorem ofJson_meaning : ∀ {doc : Json} {value : Value}, ofJson number doc = some value →
    value.meaning = doc.meaning number
  | .null, _, h => by cases h; rfl
  | .bool _, _, h => by cases h; rfl
  | .number text, _, h => by
    obtain ⟨out, hout, rfl⟩ := Option.map_eq_some_iff.mp h
    rw [Json.meaning, hout]
    rfl
  | .string s, _, h => by
    rw [ofJson] at h
    split at h
    · cases h
      rfl
    · cases h
  | .array values, _, h => by
    obtain ⟨values', hvalues, rfl⟩ := Option.map_eq_some_iff.mp h
    exact congrArg Meaning.array (ofJsonList_meaning hvalues)
  | .object members, _, h => by
    obtain ⟨map, hmap, rfl⟩ := Option.map_eq_some_iff.mp h
    refine congrArg Meaning.object (funext fun key => ?_)
    have hempty : meaningMembers [] key = none := rfl
    have hkey := ofJsonMembers_meaning List.Pairwise.nil hmap key
    rwa [hempty, Option.or_none] at hkey

theorem ofJsonList_meaning : ∀ {docs : List Json} {values : List Value},
    ofJsonList number docs = some values →
    Json.meaningList some (toJsonList values) = Json.meaningList number docs
  | [], _, h => by cases h; rfl
  | doc :: docs, _, h => by
    obtain ⟨value, hv, h⟩ := Option.bind_eq_some_iff.mp h
    obtain ⟨values', hvs, h⟩ := Option.bind_eq_some_iff.mp h
    cases h
    have hhead : value.toJson.meaning some = doc.meaning number := ofJson_meaning hv
    rw [toJsonList, Json.meaningList, Json.meaningList, hhead, ofJsonList_meaning hvs]

theorem ofJsonMembers_meaning : ∀ {members : List (JsonText × Json)}
    {map map' : List (String × Value)}, map.Pairwise (fun m m' => m.1 < m'.1) →
    ofJsonMembers number map members = some map' → ∀ key,
    meaningMembers map' key =
      (Json.meaningMembers number members key).or (meaningMembers map key)
  | [], _, _, _, h, _ => by cases h; rfl
  | (name, doc) :: members, map, _, hsorted, h, key => by
    rw [ofJsonMembers] at h
    split at h
    · obtain ⟨value, hv, h⟩ := Option.bind_eq_some_iff.mp h
      rw [ofJsonMembers_meaning (insertMember_sorted _ _ hsorted) h key, Json.meaningMembers,
        meaningMembers_insertMember _ _ hsorted, ofJson_meaning hv]
      cases Json.meaningMembers number members key with
      | some m => rfl
      | none =>
        by_cases hkey : name.text = key
        · rw [if_pos hkey, if_pos hkey]
          rfl
        · rw [if_neg hkey, if_neg hkey, Option.none_or]
    · cases h

end

end OfJson

end Value

/-! ## Requests -/

/-- A request with its JSON fields read by `f`. -/
def ModelRequest.map {J K : Type} (f : J → K) (request : ModelRequest J) : ModelRequest K where
  model := request.model
  messages := request.messages.map fun message =>
    { role := message.role, contentJson := f message.contentJson, name := message.name }
  toolsJson := f request.toolsJson
  generationParametersJson := f request.generationParametersJson

/-- What a JSON field means, if it is a document. -/
def fieldMeaning (number : String → Option String) (encoded : Bytes) : Option Meaning := do
  let text ← Utf8.decode encoded
  let doc ← Json.parse text
  return doc.meaning number

theorem CanonicalMessage.toValue_injective {message message' : CanonicalMessage}
    (h : message.toValue = message'.toValue) : message = message' := by
  obtain ⟨role, content, name⟩ := message
  obtain ⟨role', content', name'⟩ := message'
  simp only [toValue, Value.object.injEq, List.cons.injEq, Prod.mk.injEq, true_and, and_true,
    Value.string.injEq] at h
  obtain ⟨rfl, rfl, hname⟩ := h
  cases name <;> cases name' <;> simp_all

theorem CanonicalRequest.toValue_injective {request request' : CanonicalRequest}
    (h : request.toValue = request'.toValue) : request = request' := by
  obtain ⟨model, messages, tools, generation⟩ := request
  obtain ⟨model', messages', tools', generation'⟩ := request'
  simp only [toValue, Value.object.injEq, List.cons.injEq, Prod.mk.injEq, true_and, and_true,
    Value.string.injEq, Value.array.injEq] at h
  obtain ⟨rfl, hmessages, rfl, rfl⟩ := h
  rw [List.map_inj_right fun _ _ => CanonicalMessage.toValue_injective] at hmessages
  rw [hmessages]

/-- All JSON values of the request are canonical. -/
structure CanonicalRequest.Canonical (request : CanonicalRequest) : Prop where
  messages : ∀ message ∈ request.messages, message.content.Canonical
  tools : request.tools.Canonical
  generationParameters : request.generationParameters.Canonical

theorem CanonicalMessage.toValue_readable {message : CanonicalMessage}
    (h : message.content.Canonical) : message.toValue.toJson.Readable := by
  refine ⟨rfl, rfl, rfl, h.readable, rfl, ?_, trivial⟩
  cases message.name with
  | none => trivial
  | some name => rfl

theorem CanonicalRequest.Canonical.readable {request : CanonicalRequest} (h : request.Canonical) :
    request.toValue.toJson.Readable := by
  refine ⟨rfl, rfl, rfl, ?_, rfl, h.tools.readable, rfl, h.generationParameters.readable, trivial⟩
  have hall : ∀ messages : List CanonicalMessage, (∀ m ∈ messages, m.content.Canonical) →
      Json.ReadableValues (Value.toJsonList (messages.map CanonicalMessage.toValue)) := by
    intro messages hmessages
    induction messages with
    | nil => trivial
    | cons m messages ih =>
      obtain ⟨hm, hmessages⟩ := List.forall_mem_cons.mp hmessages
      exact ⟨CanonicalMessage.toValue_readable hm, ih hmessages⟩
  exact hall request.messages h.messages

/-- **The bytes that are hashed determine the request.** -/
theorem CanonicalRequest.toVec_injective {request request' : CanonicalRequest}
    (h : request.Canonical) (h' : request'.Canonical) (hvec : request.toVec = request'.toVec) :
    request = request' := by
  have hprint : request.toValue.print = request'.toValue.print := by
    have hdecode := Utf8.decode_encode request.toValue.print
    have hbytes : Utf8.encode request.toValue.print = Utf8.encode request'.toValue.print := hvec
    rw [hbytes, Utf8.decode_encode] at hdecode
    exact (Option.some.inj hdecode).symm
  exact toValue_injective (Value.print_injective h.readable h'.readable hprint)

/-- Lists whose elements are read to equal values exactly when they mean the same. -/
theorem mapM_eq_iff {α β γ ε : Type} {read : α → Except ε β} {f : α → γ}
    (h : ∀ {a a' b b'}, read a = .ok b → read a' = .ok b' → (b = b' ↔ f a = f a'))
    {l l' : List α} {r r' : List β} (hl : l.mapM read = .ok r) (hl' : l'.mapM read = .ok r') :
    r = r' ↔ l.map f = l'.map f := by
  induction l generalizing l' r r' with
  | nil =>
    cases hl
    cases l' with
    | nil =>
      cases hl'
      exact ⟨fun _ => rfl, fun _ => rfl⟩
    | cons a' l' =>
      obtain ⟨b', bs', -, -, rfl⟩ := mapM_cons_ok hl'
      exact ⟨nofun, nofun⟩
  | cons a l ih =>
    obtain ⟨b, bs, hb, hbs, rfl⟩ := mapM_cons_ok hl
    cases l' with
    | nil =>
      cases hl'
      exact ⟨nofun, nofun⟩
    | cons a' l' =>
      obtain ⟨b', bs', hb', hbs', rfl⟩ := mapM_cons_ok hl'
      rw [List.map_cons, List.map_cons, List.cons.injEq, List.cons.injEq]
      exact and_congr (h hb hb') (ih hbs hbs')

namespace PolicyEngine

/-- The JSON fields of a request are parsed to this canonical request. -/
structure Parses {J : Type} (field : JsonField J) (engine : PolicyEngine) (request : ModelRequest J)
    (canonical : CanonicalRequest) : Prop where
  model : canonical.model = request.model
  messages : request.messages.mapM (engine.parseMessage field) = .ok canonical.messages
  tools : parseBoundedJson field request.toolsJson engine.config.maxJsonDepth = .ok canonical.tools
  generationParameters : parseBoundedJson field request.generationParametersJson
    engine.config.maxJsonDepth = .ok canonical.generationParameters

/-- The bytes that are hashed: the cache key with a digest that changes nothing. -/
def hashed {J : Type} (field : JsonField J) (lib : Externals) (self : PolicyEngine)
    (input : EvaluateRequestRequest J) : Bytes :=
  (self.evaluate field { lib with sha256 := id } input).cacheKey

section Parses

variable {J : Type} {field : JsonField J} {lib : Externals} {self : PolicyEngine}

theorem input_of_allow {input : EvaluateRequestRequest J}
    (h : (self.evaluate field lib input).decision = .allow) :
    ∃ context request, input = { context := some context, request := some request } := by
  obtain ⟨context, request⟩ := input
  cases context with
  | none => cases h
  | some context =>
    cases request with
    | none => cases h
    | some request => exact ⟨context, request, rfl⟩

theorem judge_allow_key {context : RequestContext} {size : Nat} {request : CanonicalRequest}
    (h : (self.judge lib context size request).decision = .allow) (sha256 : Bytes → Bytes) :
    (self.judge { lib with sha256 } context size request).cacheKey =
      sha256 (lib.toVec request) := by
  have hterm : ∀ term, containsTerm { lib with sha256 } term = containsTerm lib term :=
    fun _ => rfl
  unfold judge at h ⊢
  simp only [hterm]
  dsimp only at h ⊢
  split at h
  · cases h
  rename_i hmail
  rw [if_neg hmail]
  split at h
  · cases h
  split at h
  · cases h
  rename_i hbudget
  rw [if_neg hbudget]
  rfl

/-- The cache key of an allowed request. -/
theorem evaluate_allowed_key {context : RequestContext} {request : ModelRequest J}
    (h : (self.evaluate field lib
      { context := some context, request := some request }).decision = .allow) :
    ∃ canonical, self.Parses field request canonical ∧ ∀ sha256 : Bytes → Bytes,
      (self.evaluate field { lib with sha256 }
        { context := some context, request := some request }).cacheKey =
          sha256 (lib.toVec canonical) := by
  rw [evaluate_eq] at h
  split at h
  · cases h
  rename_i hsize
  cases hok : self.evaluateValidated field lib context request with
  | error reason =>
    rw [hok] at h
    cases h
  | ok result =>
    rw [hok] at h
    obtain ⟨messages, tools, generation, hmessages, htools, hgeneration, rfl⟩ :=
      evaluateValidated_ok hok
    refine ⟨{ model := request.model, messages, tools, generationParameters := generation },
      ⟨rfl, hmessages, htools, hgeneration⟩, fun sha256 => ?_⟩
    have hvalid : ¬ (request.model = "" ∨ request.messages = []) := by
      intro hempty
      unfold evaluateValidated at hok
      rw [if_pos hempty] at hok
      cases hok
    have hok' : self.evaluateValidated field { lib with sha256 } context request =
        .ok (self.judge { lib with sha256 } context (requestSize field request)
          { model := request.model, messages, tools, generationParameters := generation }) := by
      unfold evaluateValidated
      rw [if_neg hvalid, hmessages, htools, hgeneration]
      rfl
    rw [evaluate_eq, if_neg hsize, hok']
    exact judge_allow_key h sha256

end Parses

end PolicyEngine

section Serde

variable {number : String → Option String}

/-- What is read is canonical and means what the bytes mean. -/
theorem fromBytes_read
    (hnumber : ∀ text out, number text = some out → Json.isNumber out.toList = true)
    {encoded : Bytes} {value : Value} (h : Value.fromBytes number encoded = some value) :
    value.Canonical ∧ fieldMeaning number encoded = some value.meaning := by
  obtain ⟨text, htext, h⟩ := Option.bind_eq_some_iff.mp h
  obtain ⟨doc, hdoc, h⟩ := Option.bind_eq_some_iff.mp h
  unfold Value.fromSlice at h
  split at h
  · cases h
  · refine ⟨Value.ofJson_canonical hnumber h, ?_⟩
    unfold fieldMeaning
    rw [htext, Option.bind_eq_bind, Option.bind_some, hdoc, Value.ofJson_meaning h]
    rfl

/-- A field of an allowed request. -/
theorem parseBoundedJson_read
    (hnumber : ∀ text out, number text = some out → Json.isNumber out.toList = true)
    {lib : Externals} (hlib : lib.fromSlice = Value.fromBytes number) {encoded : Bytes}
    {maxDepth : Nat} {value : Value}
    (h : parseBoundedJson (.wire lib) encoded maxDepth = .ok value) :
    value.Canonical ∧ fieldMeaning number encoded = some value.meaning := by
  unfold parseBoundedJson at h
  split at h
  · cases h
  split at h
  · cases h
  rename_i value' hvalue
  split at h
  · cases h
  cases h
  have hread : Value.fromBytes number encoded = some value := by
    rw [← hlib]
    exact hvalue
  exact fromBytes_read hnumber hread

/-- Two fields are equal values exactly when they mean the same. -/
theorem read_iff {encoded encoded' : Bytes} {value value' : Value}
    (h : value.Canonical ∧ fieldMeaning number encoded = some value.meaning)
    (h' : value'.Canonical ∧ fieldMeaning number encoded' = some value'.meaning) :
    value = value' ↔ fieldMeaning number encoded = fieldMeaning number encoded' := by
  rw [h.2, h'.2, Option.some.injEq]
  exact ⟨congrArg Value.meaning, Value.eq_of_meaning h.1 h'.1⟩

namespace PolicyEngine

variable {lib : Externals} {self : PolicyEngine}

theorem parseMessage_ok {J : Type} {field : JsonField J} {message : ChatMessage J}
    {canonical : CanonicalMessage} (h : self.parseMessage field message = .ok canonical) :
    parseBoundedJson field message.contentJson self.config.maxJsonDepth = .ok canonical.content ∧
      canonical.role = message.role ∧ canonical.name = message.name := by
  unfold parseMessage at h
  split at h
  · cases h
  cases hcontent : parseBoundedJson field message.contentJson self.config.maxJsonDepth with
  | error reason =>
    rw [hcontent] at h
    cases h
  | ok content =>
    rw [hcontent] at h
    cases h
    exact ⟨rfl, rfl, rfl⟩

section

variable (hnumber : ∀ text out, number text = some out → Json.isNumber out.toList = true)
  (hlib : lib.fromSlice = Value.fromBytes number)
include hnumber hlib

theorem parseMessage_iff {message message' : ChatMessage Bytes}
    {canonical canonical' : CanonicalMessage}
    (h : self.parseMessage (.wire lib) message = .ok canonical)
    (h' : self.parseMessage (.wire lib) message' = .ok canonical') :
    canonical = canonical' ↔
      ({ role := message.role, contentJson := fieldMeaning number message.contentJson,
          name := message.name } : ChatMessage (Option Meaning)) =
        { role := message'.role, contentJson := fieldMeaning number message'.contentJson,
          name := message'.name } := by
  obtain ⟨hcontent, hrole, hname⟩ := parseMessage_ok h
  obtain ⟨hcontent', hrole', hname'⟩ := parseMessage_ok h'
  have hiff := read_iff (parseBoundedJson_read hnumber hlib hcontent)
    (parseBoundedJson_read hnumber hlib hcontent')
  obtain ⟨role, content, name⟩ := canonical
  obtain ⟨role', content', name'⟩ := canonical'
  simp only at hrole hrole' hname hname' hiff
  rw [CanonicalMessage.mk.injEq, ChatMessage.mk.injEq, hiff, hrole, hrole', hname, hname']

theorem Parses.canonical {request : ModelRequest Bytes} {canonical : CanonicalRequest}
    (h : self.Parses (.wire lib) request canonical) : canonical.Canonical where
  messages := by
    have hall : ∀ {messages : List (ChatMessage Bytes)} {read : List CanonicalMessage},
        messages.mapM (self.parseMessage (.wire lib)) = .ok read →
        ∀ m ∈ read, m.content.Canonical := by
      intro messages read hread m hm
      obtain ⟨message, -, hmessage⟩ := mem_of_mapM hread hm
      exact (parseBoundedJson_read hnumber hlib (parseMessage_ok hmessage).1).1
    exact hall h.messages
  tools := (parseBoundedJson_read hnumber hlib h.tools).1
  generationParameters := (parseBoundedJson_read hnumber hlib h.generationParameters).1

/-- Two requests are parsed to one canonical request exactly when they mean the same. -/
theorem Parses.iff {request request' : ModelRequest Bytes} {canonical canonical' : CanonicalRequest}
    (h : self.Parses (.wire lib) request canonical)
    (h' : self.Parses (.wire lib) request' canonical') :
    canonical = canonical' ↔
      request.map (fieldMeaning number) = request'.map (fieldMeaning number) := by
  have hmessages := mapM_eq_iff (parseMessage_iff hnumber hlib) h.messages h'.messages
  have htools := read_iff (parseBoundedJson_read hnumber hlib h.tools)
    (parseBoundedJson_read hnumber hlib h'.tools)
  have hgeneration := read_iff (parseBoundedJson_read hnumber hlib h.generationParameters)
    (parseBoundedJson_read hnumber hlib h'.generationParameters)
  have hmodel := h.model
  have hmodel' := h'.model
  obtain ⟨model, messages, tools, generation⟩ := canonical
  obtain ⟨model', messages', tools', generation'⟩ := canonical'
  simp only at hmodel hmodel' hmessages htools hgeneration
  rw [CanonicalRequest.mk.injEq, hmessages, htools, hgeneration, hmodel, hmodel']
  exact (ModelRequest.mk.injEq ..).to_iff.symm

end

end PolicyEngine

end Serde

namespace PolicyEngine

/-- **The cache key is canonical.** The keys of two allowed requests are the digests of the same
bytes if and only if the requests have one model, the same roles and names, and JSON fields that
mean the same. -/
theorem evaluate_cache_key {number : String → Option String}
    (hnumber : ∀ text out, number text = some out → Json.isNumber out.toList = true)
    {lib : Externals}
    (hlib : lib = .serde number lib.emailIsMatch lib.toLowercase lib.sha256)
    (self : PolicyEngine) {input input' : EvaluateRequestRequest Bytes}
    (h : (self.evaluate (.wire lib) lib input).decision = .allow)
    (h' : (self.evaluate (.wire lib) lib input').decision = .allow) :
    (self.evaluate (.wire lib) lib input).cacheKey =
        lib.sha256 (self.hashed (.wire lib) lib input) ∧
      (self.evaluate (.wire lib) lib input').cacheKey =
        lib.sha256 (self.hashed (.wire lib) lib input') ∧
      (self.hashed (.wire lib) lib input = self.hashed (.wire lib) lib input' ↔
        input.request.map (ModelRequest.map (fieldMeaning number)) =
          input'.request.map (ModelRequest.map (fieldMeaning number))) := by
  have hread : lib.fromSlice = Value.fromBytes number := by rw [hlib]; rfl
  have hwrite : lib.toVec = CanonicalRequest.toVec := by rw [hlib]; rfl
  obtain ⟨context, request, rfl⟩ := input_of_allow h
  obtain ⟨context', request', rfl⟩ := input_of_allow h'
  obtain ⟨canonical, hparses, hkey⟩ := evaluate_allowed_key h
  obtain ⟨canonical', hparses', hkey'⟩ := evaluate_allowed_key h'
  have hhashed : self.hashed (.wire lib) lib
      { context := some context, request := some request } = lib.toVec canonical := hkey id
  have hhashed' : self.hashed (.wire lib) lib
      { context := some context', request := some request' } = lib.toVec canonical' := hkey' id
  have hmeans := Parses.iff hnumber hread hparses hparses'
  rw [hhashed, hhashed', Option.map_some, Option.map_some, Option.some.injEq, ← hmeans]
  refine ⟨hkey lib.sha256, hkey' lib.sha256, ?_, congrArg lib.toVec⟩
  intro hvec
  rw [hwrite] at hvec
  exact CanonicalRequest.toVec_injective (hparses.canonical hnumber hread)
    (hparses'.canonical hnumber hread) hvec

namespace KeySample

/-- Small integers are printed as they are. -/
def number (text : String) : Option String :=
  if text = "0" ∨ text = "1" ∨ text = "2" then some text else none

def digest : Bytes :=
  [165, 36, 192, 33, 210, 53, 153, 183, 59, 72, 129, 199, 78, 205, 38, 231, 245, 92, 92, 16, 116,
    249, 121, 45, 13, 253, 40, 193, 228, 70, 106, 169]

def lib : Externals :=
  .serde number (Externals.ascii [] "" digest).emailIsMatch
    (Externals.ascii [] "" digest).toLowercase fun _ => digest

def engine : PolicyEngine := .new lib .default

/-- A request whose only message has this content. -/
def input (content : String) : EvaluateRequestRequest Bytes where
  context := some
    { Sample.context with
      requestId := "req-1"
      tenantId := "tenant-a"
      maxRequestBytes := 4096
      tokenBudget := 1024 }
  request := some
    { model := "demo-model"
      messages := [{ role := "user", contentJson := utf8 content, name := none }]
      toolsJson := utf8 "[]"
      generationParametersJson := utf8 "\x7b\"temperature\":0,\"top_p\":1\x7d" }

def first : EvaluateRequestRequest Bytes :=
  input "\x7b\"text\":\"hello\",\"metadata\":\x7b\"a\":1,\"b\":2\x7d\x7d"

/-- The members in another order, with a space and an escape. -/
def second : EvaluateRequestRequest Bytes :=
  input "\x7b\"metadata\": \x7b\"b\":2,\"a\":1\x7d,\"text\":\"\\u0068ello\"\x7d"

theorem isNumber_number (text out : String) (h : number text = some out) :
    Json.isNumber out.toList = true := by
  unfold number at h
  split at h
  · rename_i htext
    cases h
    rcases htext with rfl | rfl | rfl
    · decide
    · decide
    · decide
  · cases h

theorem cache_key_first_second :
    (engine.evaluate (.wire lib) lib first).cacheKey =
        lib.sha256 (engine.hashed (.wire lib) lib first) ∧
      (engine.evaluate (.wire lib) lib second).cacheKey =
        lib.sha256 (engine.hashed (.wire lib) lib second) ∧
      (engine.hashed (.wire lib) lib first = engine.hashed (.wire lib) lib second ↔
        first.request.map (ModelRequest.map (fieldMeaning number)) =
          second.request.map (ModelRequest.map (fieldMeaning number))) :=
  evaluate_cache_key isNumber_number rfl engine (by decide +kernel) (by decide +kernel)

example : engine.hashed (.wire lib) lib first = engine.hashed (.wire lib) lib second := by
  decide +kernel

end KeySample

end PolicyEngine

end Kavora.Policy
