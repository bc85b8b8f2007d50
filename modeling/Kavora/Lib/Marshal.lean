import Mathlib.Data.String.Basic
import Kavora.Lib.Calendar
import Kavora.Lib.JsonSyntax

/-!
# Structs in `encoding/json`

* `Marshal`: the types that `json.Marshal` writes and `json.Unmarshal` reads into a value.
* `Field`: a field of a struct with its name in the text, which may be left out if it is empty.
* `unmarshalStruct_marshalStruct`: a struct is read back from the fields that it was written with.
-/

namespace Kavora.Lib.Go

open Json

/-- A type whose values `encoding/json` writes and reads. -/
class Marshal (α : Type) where
  zero : α
  /-- `none` if the value cannot be written. -/
  marshal : α → Option Json
  unmarshal : Json → α → Option α

open Marshal

/-- What is written can be read, and into the zero value it is the same value. -/
class LawfulMarshal (α : Type) [Marshal α] : Prop where
  readable : ∀ {a : α} {doc}, marshal a = some doc → doc.Readable
  unmarshal_marshal : ∀ {a : α} {doc}, marshal a = some doc → unmarshal doc zero = some a

/-! ## Strings, booleans and numbers -/

/-- A string value of a document. -/
def ofString (s : String) : Json := .string { text := s, wellFormed := true }

instance : Marshal String where
  zero := ""
  marshal s := some (ofString s)
  unmarshal doc s :=
    match doc with
    | .string t => some t.text
    | .null => some s
    | _ => none

instance : LawfulMarshal String where
  readable h := by
    cases h
    rfl
  unmarshal_marshal h := by
    cases h
    rfl

instance : Marshal Bool where
  zero := false
  marshal b := some (.bool b)
  unmarshal doc b :=
    match doc with
    | .bool b' => some b'
    | .null => some b
    | _ => none

instance : LawfulMarshal Bool where
  readable h := by
    cases h
    trivial
  unmarshal_marshal h := by
    cases h
    rfl

/-- The digits of an integer, with its sign. -/
def intText (n : Int) : List Char :=
  if n < 0 then '-' :: Nat.toDigits 10 n.natAbs else Nat.toDigits 10 n.natAbs

/-- The number of some digits. -/
def parseDigits (text : List Char) : Option Nat :=
  if text ≠ [] ∧ text.all Char.isDigit then some (Nat.ofDigitChars 10 text 0) else none

/-- The integer of some digits, with a sign or without. -/
def parseInt : List Char → Option Int
  | '-' :: digits => (parseDigits digits).map fun n => -Int.ofNat n
  | digits => (parseDigits digits).map Int.ofNat

/-- `strconv.ParseInt` to 64 bits. -/
def parseInt64 (text : List Char) : Option Int64 :=
  match parseInt text with
  | none => none
  | some n => if -2 ^ 63 ≤ n ∧ n < 2 ^ 63 then some (Int64.ofInt n) else none

instance : Marshal Int64 where
  zero := 0
  marshal n := some (.number (.ofList (intText n.toInt)))
  unmarshal doc n :=
    match doc with
    | .number text => parseInt64 text.toList
    | .null => some n
    | _ => none

theorem parseDigits_toDigits (n : Nat) : parseDigits (Nat.toDigits 10 n) = some n := by
  have hall : (Nat.toDigits 10 n).all Char.isDigit = true :=
    List.all_eq_true.mpr fun c hc => Nat.isDigit_of_mem_toDigits (by decide) (by decide) hc
  unfold parseDigits
  rw [if_pos ⟨Nat.toDigits_ne_nil, hall⟩, Nat.ofDigitChars_ten_toDigits]

theorem toDigits_head {n : Nat} (h : 0 < n) : (Nat.toDigits 10 n).head? ≠ some '0' := by
  induction n using Nat.strong_induction_on with
  | _ n ih =>
    by_cases hlt : n < 10
    · have hall : ∀ n < 10, 0 < n → (Nat.toDigits 10 n).head? ≠ some '0' := by decide
      exact hall n hlt h
    · rw [Nat.toDigits_of_base_le (by decide) (by omega)]
      have hhead := ih (n / 10) (by omega) (by omega)
      cases hdigits : Nat.toDigits 10 (n / 10) with
      | nil => exact absurd hdigits Nat.toDigits_ne_nil
      | cons c digits =>
        rw [hdigits] at hhead
        exact hhead

theorem isNumber_toDigits (n : Nat) : isNumber (Nat.toDigits 10 n) = true := by
  have hdigit : ∀ c ∈ Nat.toDigits 10 n, c.isDigit = true := fun c hc =>
    Nat.isDigit_of_mem_toDigits (by decide) (by decide) hc
  have htake : (Nat.toDigits 10 n).takeWhile Char.isDigit = Nat.toDigits 10 n :=
    List.takeWhile_eq_self_iff.mpr hdigit
  have hdrop : (Nat.toDigits 10 n).dropWhile Char.isDigit = [] :=
    List.dropWhile_eq_nil_iff.mpr hdigit
  have hwhole : Nat.toDigits 10 n = ['0'] ∨
      Nat.toDigits 10 n ≠ [] ∧ (Nat.toDigits 10 n).head? ≠ some '0' := by
    rcases Nat.eq_zero_or_pos n with rfl | hpos
    · exact .inl rfl
    · exact .inr ⟨Nat.toDigits_ne_nil, toDigits_head hpos⟩
  have hminus : ∀ digits, Nat.toDigits 10 n ≠ '-' :: digits := by
    intro digits heq
    have hc := hdigit '-' (by rw [heq]; exact List.mem_cons_self)
    cases hc
  unfold isNumber
  split
  · rename_i heq
    exact absurd heq (hminus _)
  · simp only [htake, hdrop, Bool.and_eq_true, Bool.or_eq_true, decide_eq_true_eq]
    exact ⟨hwhole, rfl⟩

theorem isNumber_intText (n : Int) : isNumber (intText n) = true := by
  unfold intText
  split
  · have hdigits := isNumber_toDigits n.natAbs
    unfold isNumber at hdigits ⊢
    split at hdigits
    · rename_i heq
      have hc := Nat.isDigit_of_mem_toDigits (b := 10) (n := n.natAbs) (c := '-') (by decide)
        (by decide) (by rw [heq]; exact List.mem_cons_self)
      cases hc
    · exact hdigits
  · exact isNumber_toDigits n.natAbs

theorem parseInt_intText (n : Int) : parseInt (intText n) = some n := by
  unfold intText
  by_cases hneg : n < 0
  · have habs : -Int.ofNat n.natAbs = n := by
      rw [Int.ofNat_eq_natCast]
      omega
    rw [if_pos hneg, parseInt, parseDigits_toDigits, Option.map_some, habs]
  · have habs : Int.ofNat n.natAbs = n := by
      rw [Int.ofNat_eq_natCast]
      omega
    have hminus : ∀ digits, Nat.toDigits 10 n.natAbs ≠ '-' :: digits := by
      intro digits heq
      have hc := Nat.isDigit_of_mem_toDigits (b := 10) (n := n.natAbs) (c := '-') (by decide)
        (by decide) (by rw [heq]; exact List.mem_cons_self)
      cases hc
    rw [if_neg hneg, parseInt, parseDigits_toDigits, Option.map_some, habs]
    exact hminus

theorem parseInt64_intText (n : Int64) : parseInt64 (intText n.toInt) = some n := by
  unfold parseInt64
  rw [parseInt_intText]
  show (if _ then _ else _) = _
  rw [if_pos ⟨n.le_toInt, n.toInt_lt⟩, Int64.ofInt_toInt]

instance : LawfulMarshal Int64 where
  readable {n doc} h := by
    cases h
    show isNumber (String.ofList (intText n.toInt)).toList = true
    rw [String.toList_ofList]
    exact isNumber_intText n.toInt
  unmarshal_marshal {n doc} h := by
    cases h
    show parseInt64 (String.ofList (intText n.toInt)).toList = some n
    rw [String.toList_ofList]
    exact parseInt64_intText n

/-- The texts of `float64` numbers. -/
class FloatText (F : Type) where
  isFinite : F → Bool
  /-- The shortest text that is read as the number. -/
  format : F → List Char
  /-- `strconv.ParseFloat`; `none` if the number is out of range. -/
  parseFloat : List Char → Option F

/-- A finite number is written as a number of JSON, which is read as this number. -/
class LawfulFloatText (F : Type) [FloatText F] : Prop where
  isNumber_format : ∀ {x : F}, FloatText.isFinite x = true → isNumber (FloatText.format x) = true
  parseFloat_format : ∀ {x : F}, FloatText.isFinite x = true →
    FloatText.parseFloat (FloatText.format x) = some x

/-- A finite number equals itself. -/
class FiniteFloatText (F : Type) [Float64 F] [FloatText F] : Prop where
  eq_self : ∀ {x : F}, FloatText.isFinite x = true → Float64.eq x x = true

instance {F : Type} [Float64 F] [FloatText F] : Marshal F where
  zero := Float64.ofInt 0
  marshal x :=
    if FloatText.isFinite x then some (.number (.ofList (FloatText.format x))) else none
  unmarshal doc x :=
    match doc with
    | .number text => FloatText.parseFloat text.toList
    | .null => some x
    | _ => none

instance {F : Type} [Float64 F] [FloatText F] [LawfulFloatText F] : LawfulMarshal F where
  readable {x doc} h := by
    have h : (if FloatText.isFinite x then some (Json.number (.ofList (FloatText.format x)))
      else none) = some doc := h
    split at h
    · rename_i hfinite
      cases h
      show isNumber (String.ofList (FloatText.format x)).toList = true
      rw [String.toList_ofList]
      exact LawfulFloatText.isNumber_format hfinite
    · cases h
  unmarshal_marshal {x doc} h := by
    have h : (if FloatText.isFinite x then some (Json.number (.ofList (FloatText.format x)))
      else none) = some doc := h
    split at h
    · rename_i hfinite
      cases h
      show FloatText.parseFloat (String.ofList (FloatText.format x)).toList = some x
      rw [String.toList_ofList]
      exact LawfulFloatText.parseFloat_format hfinite
    · cases h

/-- Rationals with the texts of the integers among them. -/
@[reducible]
def integerText : FloatText Rat where
  isFinite x := x.den = 1
  format x := intText x.num
  parseFloat text := (parseInt text).map Rat.ofInt

theorem integerText_lawful : @LawfulFloatText Rat integerText := by
  refine @LawfulFloatText.mk Rat integerText ?_ ?_
  · intro x _
    exact isNumber_intText x.num
  · intro x hx
    have hden : x.den = 1 := of_decide_eq_true hx
    have hx : Rat.ofInt x.num = x := Rat.coe_int_num_of_den_eq_one hden
    show (parseInt (intText x.num)).map Rat.ofInt = some x
    rw [parseInt_intText, Option.map_some, hx]

/-- `time.Time`. -/
instance : Marshal Time where
  zero := Time.zero
  marshal t := (Time.marshalText t).map fun text => ofString (.ofList text)
  unmarshal doc t :=
    match doc with
    | .string s => Time.unmarshalText s.text.toList
    | .null => some t
    | _ => none

instance : LawfulMarshal Time where
  readable {t doc} h := by
    obtain ⟨text, -, rfl⟩ := Option.map_eq_some_iff.mp h
    rfl
  unmarshal_marshal {t doc} h := by
    obtain ⟨text, htext, rfl⟩ := Option.map_eq_some_iff.mp h
    show Time.unmarshalText (String.ofList text).toList = some t
    rw [String.toList_ofList]
    exact Time.unmarshalText_marshalText htext

/-! ## Pointers, slices and maps -/

section

variable {α : Type} [Marshal α]

/-- A pointer, which is nil for `none`. -/
instance : Marshal (Option α) where
  zero := none
  marshal a :=
    match a with
    | none => some .null
    | some a => marshal a
  unmarshal doc a :=
    match doc with
    | .null => some none
    | doc => (unmarshal doc (a.getD zero)).map some

/-- A type that is never written as `null`. -/
class NeverNull (α : Type) [Marshal α] : Prop where
  ne_null : ∀ {a : α} {doc}, marshal a = some doc → doc ≠ .null

instance [LawfulMarshal α] [NeverNull α] : LawfulMarshal (Option α) where
  readable {a doc} h := by
    cases a with
    | none =>
      cases h
      trivial
    | some a => exact LawfulMarshal.readable (α := α) h
  unmarshal_marshal {a doc} h := by
    cases a with
    | none =>
      cases h
      rfl
    | some a =>
      have hread := LawfulMarshal.unmarshal_marshal (α := α) h
      have hne := NeverNull.ne_null (α := α) h
      cases doc with
      | null => exact absurd rfl hne
      | bool b => exact congrArg (Option.map some) hread
      | number text => exact congrArg (Option.map some) hread
      | string s => exact congrArg (Option.map some) hread
      | array values => exact congrArg (Option.map some) hread
      | object members => exact congrArg (Option.map some) hread

/-- The elements of a slice. -/
def marshalList (l : List α) : Option Json := (l.mapM marshal).map .array

/-- `json.Unmarshal` into a new slice. -/
def unmarshalList : Json → Option (List α)
  | .null => some []
  | .array values => values.mapM fun doc => unmarshal doc zero
  | _ => none

theorem marshalList_some [LawfulMarshal α] {l : List α} {doc : Json}
    (h : marshalList l = some doc) : doc.Readable ∧ doc ≠ .null ∧ unmarshalList doc = some l := by
  obtain ⟨values, hvalues, rfl⟩ := Option.map_eq_some_iff.mp h
  clear h
  have hread : ReadableValues values ∧ values.mapM (fun doc => unmarshal doc zero) = some l := by
    induction l generalizing values with
    | nil =>
      cases hvalues
      exact ⟨trivial, rfl⟩
    | cons a l ih =>
      rw [List.mapM_cons] at hvalues
      obtain ⟨doc, hdoc, hvalues⟩ := Option.bind_eq_some_iff.mp hvalues
      obtain ⟨docs, hdocs, hvalues⟩ := Option.bind_eq_some_iff.mp hvalues
      cases hvalues
      obtain ⟨hreadable, hread⟩ := ih _ hdocs
      refine ⟨⟨LawfulMarshal.readable hdoc, hreadable⟩, ?_⟩
      rw [List.mapM_cons, LawfulMarshal.unmarshal_marshal hdoc, hread]
      rfl
  exact ⟨hread.1, nofun, hread.2⟩

/-- A slice whose nil is not told from an empty one. -/
instance : Marshal (List α) where
  zero := []
  marshal := marshalList
  unmarshal doc _ := unmarshalList doc

instance [LawfulMarshal α] : LawfulMarshal (List α) where
  readable h := (marshalList_some h).1
  unmarshal_marshal h := (marshalList_some h).2.2

/-- A slice with its nil. -/
inductive Slice (α : Type) where
  | nil
  | of (l : List α)

namespace Slice

/-- The items; a nil slice has none. -/
def toList {α : Type} : Slice α → List α
  | nil => []
  | of l => l

instance : Marshal (Slice α) where
  zero := nil
  marshal slice :=
    match slice with
    | nil => some .null
    | of l => marshalList l
  unmarshal doc _ :=
    match doc with
    | .null => some nil
    | doc => (unmarshalList doc).map of

instance [LawfulMarshal α] : LawfulMarshal (Slice α) where
  readable {slice doc} h := by
    cases slice with
    | nil =>
      cases h
      trivial
    | of l => exact (marshalList_some h).1
  unmarshal_marshal {slice doc} h := by
    cases slice with
    | nil =>
      cases h
      rfl
    | of l =>
      obtain ⟨-, hne, hread⟩ := marshalList_some (l := l) h
      cases doc with
      | null => exact absurd rfl hne
      | bool b => exact congrArg (Option.map of) hread
      | number text => exact congrArg (Option.map of) hread
      | string s => exact congrArg (Option.map of) hread
      | array values => exact congrArg (Option.map of) hread
      | object members => exact congrArg (Option.map of) hread

end Slice

end

/-- A `map[string]string`, with its keys in order. -/
structure StringMap where
  entries : List (String × String)
  sorted : entries.Pairwise fun e e' => e.1 < e'.1

namespace StringMap

theorem ext {m m' : StringMap} (h : m.entries = m'.entries) : m = m' := by
  cases m
  cases m'
  cases h
  rfl

/-- A map without entries. -/
def empty : StringMap where
  entries := []
  sorted := List.Pairwise.nil

/-- An entry in its place among sorted ones, or in place of that of its key. -/
def insertEntry (key value : String) : List (String × String) → List (String × String)
  | [] => [(key, value)]
  | (key', value') :: entries =>
    if key < key' then (key, value) :: (key', value') :: entries
    else if key = key' then (key, value) :: entries
    else (key', value') :: insertEntry key value entries

theorem mem_insertEntry {key value : String} {entries : List (String × String)}
    {e : String × String} (h : e ∈ insertEntry key value entries) : e.1 = key ∨ e ∈ entries := by
  induction entries with
  | nil =>
    rw [List.mem_singleton.mp h]
    exact .inl rfl
  | cons e' entries ih =>
    obtain ⟨key', value'⟩ := e'
    rw [insertEntry] at h
    split at h
    · rcases List.mem_cons.mp h with rfl | h
      · exact .inl rfl
      · exact .inr h
    split at h
    · rcases List.mem_cons.mp h with rfl | h
      · exact .inl rfl
      · exact .inr (List.mem_cons_of_mem _ h)
    · rcases List.mem_cons.mp h with rfl | h
      · exact .inr List.mem_cons_self
      · exact (ih h).imp_right (List.mem_cons_of_mem _)

theorem insertEntry_sorted {key value : String} {entries : List (String × String)}
    (h : entries.Pairwise fun e e' => e.1 < e'.1) :
    (insertEntry key value entries).Pairwise fun e e' => e.1 < e'.1 := by
  induction entries with
  | nil => exact List.pairwise_singleton _ _
  | cons e' entries ih =>
    obtain ⟨key', value'⟩ := e'
    obtain ⟨hfirst, hrest⟩ := List.pairwise_cons.mp h
    rw [insertEntry]
    split
    · rename_i hlt
      refine List.pairwise_cons.mpr ⟨fun e he => ?_, h⟩
      rcases List.mem_cons.mp he with rfl | he
      · exact hlt
      · exact lt_trans hlt (hfirst e he)
    split
    · rename_i heq
      exact List.pairwise_cons.mpr ⟨fun e he => heq ▸ hfirst e he, hrest⟩
    · rename_i hlt hne
      refine List.pairwise_cons.mpr ⟨fun e he => ?_, ih hrest⟩
      rcases mem_insertEntry he with hkey | he
      · rw [hkey]
        exact lt_of_le_of_ne (not_lt.mp hlt) (Ne.symm hne)
      · exact hfirst e he

/-- `m[key] = value`. -/
def insert (m : StringMap) (key value : String) : StringMap where
  entries := insertEntry key value m.entries
  sorted := insertEntry_sorted m.sorted

/-- A key beyond all others comes last. -/
theorem insertEntry_last {key value : String} {entries : List (String × String)}
    (h : ∀ e ∈ entries, e.1 < key) : insertEntry key value entries = entries ++ [(key, value)] := by
  induction entries with
  | nil => rfl
  | cons e' entries ih =>
    obtain ⟨key', value'⟩ := e'
    have hlt : key' < key := h (key', value') List.mem_cons_self
    rw [insertEntry, if_neg (lt_asymm hlt), if_neg (ne_of_gt hlt),
      ih fun e he => h e (List.mem_cons_of_mem _ he)]
    rfl

/-- The value of a member; `null` is the empty string. -/
def readValue : Json → Option String
  | .string s => some s.text
  | .null => some ""
  | _ => none

/-- The members are inserted in their order. -/
def readMembers (members : List (JsonText × Json)) (m : StringMap) : Option StringMap :=
  members.foldlM (fun m (name, doc) => (readValue doc).map fun value => m.insert name.text value) m

instance : Marshal StringMap where
  zero := empty
  marshal m :=
    some (.object (m.entries.map fun e => ({ text := e.1, wellFormed := true }, ofString e.2)))
  unmarshal doc m :=
    match doc with
    | .object members => readMembers members m
    | .null => some empty
    | _ => none

theorem readMembers_entries (entries : List (String × String)) (m : StringMap)
    (h : (m.entries ++ entries).Pairwise fun e e' => e.1 < e'.1) :
    readMembers (entries.map fun e => ({ text := e.1, wellFormed := true }, ofString e.2)) m =
      some { entries := m.entries ++ entries, sorted := h } := by
  induction entries generalizing m with
  | nil =>
    refine congrArg some (ext ?_)
    exact (List.append_nil m.entries).symm
  | cons e entries ih =>
    obtain ⟨key, value⟩ := e
    have hlast : insertEntry key value m.entries = m.entries ++ [(key, value)] := by
      refine insertEntry_last fun e he => ?_
      exact (List.pairwise_append.mp h).2.2 e he (key, value) List.mem_cons_self
    have hentries : (m.insert key value).entries ++ entries = m.entries ++ (key, value) :: entries := by
      show insertEntry key value m.entries ++ entries = _
      rw [hlast, List.append_assoc]
      rfl
    have htail := ih (m.insert key value) (by rw [hentries]; exact h)
    rw [List.map_cons, readMembers, List.foldlM_cons]
    refine htail.trans (congrArg some (ext ?_))
    exact hentries

theorem readableMembers_entries (entries : List (String × String)) :
    ReadableMembers (entries.map fun e => ({ text := e.1, wellFormed := true }, ofString e.2)) := by
  induction entries with
  | nil => trivial
  | cons e entries ih => exact ⟨rfl, rfl, ih⟩

instance : LawfulMarshal StringMap where
  readable h := by
    cases h
    exact readableMembers_entries _
  unmarshal_marshal {m doc} h := by
    cases h
    exact readMembers_entries m.entries empty m.sorted

end StringMap

/-! ## Structs -/

/-- A field of a struct with its tag. -/
structure Field (S : Type) where
  name : String
  /-- What is written: `none` if that fails and `some none` if the field is left out. -/
  member : S → Option (Option Json)
  assign : Json → S → Option S

section

variable {α S : Type} [Marshal α]

/-- A field that is always written. -/
def field (name : String) (get : S → α) (set : α → S → S) : Field S where
  name
  member s := (marshal (get s)).map some
  assign doc s := (unmarshal doc (get s)).map fun a => set a s

/-- A field with `omitempty`. -/
def omitempty (name : String) (isEmpty : α → Bool) (get : S → α) (set : α → S → S) : Field S where
  name
  member s := if isEmpty (get s) then some none else (marshal (get s)).map some
  assign doc s := (unmarshal doc (get s)).map fun a => set a s

end

section

variable {S : Type}

/-- The members of an object for the fields of a struct. -/
def members : List (Field S) → S → Option (List (JsonText × Json))
  | [], _ => some []
  | f :: fields, s =>
    match f.member s, members fields s with
    | some none, some ms => some ms
    | some (some doc), some ms => some (({ text := f.name, wellFormed := true }, doc) :: ms)
    | _, _ => none

/-- The object of a struct. -/
def marshalStruct (fields : List (Field S)) (s : S) : Option Json :=
  (members fields s).map .object

/-- The field for a name: the field of this name, or one whose name differs in case. -/
def findField (fields : List (Field S)) (name : String) : Option (Field S) :=
  match fields.find? fun f => f.name = name with
  | some f => some f
  | none => fields.find? fun f => foldName f.name = foldName name

/-- One member of an object; an unknown name is skipped. -/
def assignMember (fields : List (Field S)) (s : S) (m : JsonText × Json) : Option S :=
  match findField fields m.1.text with
  | some f => f.assign m.2 s
  | none => some s

/-- `json.Unmarshal` into a struct. -/
def unmarshalStruct (fields : List (Field S)) (doc : Json) (s : S) : Option S :=
  match doc with
  | .object ms => ms.foldlM (assignMember fields) s
  | .null => some s
  | _ => none

/-- The field of `s` in place of the one of `t` makes `t'`. -/
def Field.Keeps (f : Field S) (s t t' : S) : Prop :=
  (f.member s = some none → t' = t) ∧
    ∀ doc, f.member s = some (some doc) → doc.Readable ∧ f.assign doc t = some t'

/-- Reading the fields of `s` one after another into `t` makes `t'`. -/
inductive Copies (s : S) : List (Field S) → S → S → Prop
  | nil {t : S} : Copies s [] t t
  | cons {f : Field S} {fields : List (Field S)} {t t' t'' : S} : f.Keeps s t t' →
    Copies s fields t' t'' → Copies s (f :: fields) t t''

section

variable {α : Type} [Marshal α] [LawfulMarshal α] {name : String} {isEmpty : α → Bool}
  {get : S → α} {set : α → S → S} {s t : S}

theorem keeps_field (ht : get t = zero) : (field name get set).Keeps s t (set (get s) t) := by
  constructor
  · intro h
    obtain ⟨doc, -, hdoc⟩ := Option.map_eq_some_iff.mp h
    cases hdoc
  · intro doc h
    obtain ⟨doc', hdoc, heq⟩ := Option.map_eq_some_iff.mp h
    cases heq
    refine ⟨LawfulMarshal.readable hdoc, ?_⟩
    show (unmarshal doc (get t)).map (fun a => set a t) = some (set (get s) t)
    rw [ht, LawfulMarshal.unmarshal_marshal hdoc]
    rfl

/-- An empty field is read as the zero value. -/
theorem keeps_omitempty (ht : get t = zero) (hset : set zero t = t) :
    (omitempty name isEmpty get set).Keeps s t
      (set (if isEmpty (get s) then zero else get s) t) := by
  by_cases hempty : isEmpty (get s) = true
  · rw [if_pos hempty]
    constructor
    · intro _
      exact hset
    · intro doc h
      simp only [omitempty, if_pos hempty] at h
      cases h
  · have hwritten : (omitempty name isEmpty get set).member s = (field name get set).member s :=
      if_neg hempty
    have hkeeps : (field name get set).Keeps s t (set (get s) t) := keeps_field ht
    rw [if_neg hempty]
    unfold Field.Keeps
    rw [hwritten]
    exact hkeeps

/-- A field whose only empty value is the zero value is read as it was. -/
theorem keeps_omitzero (hempty : ∀ a, isEmpty a = true → a = zero) (ht : get t = zero)
    (hset : set zero t = t) : (omitempty name isEmpty get set).Keeps s t (set (get s) t) := by
  have hkeeps : (omitempty name isEmpty get set).Keeps s t
      (set (if isEmpty (get s) then zero else get s) t) := keeps_omitempty ht hset
  by_cases h : isEmpty (get s) = true
  · rwa [if_pos h, ← hempty _ h] at hkeeps
  · rwa [if_neg h] at hkeeps

end

theorem findField_of_mem {fields : List (Field S)} (h : (fields.map (·.name)).Nodup) {f : Field S}
    (hf : f ∈ fields) : findField fields f.name = some f := by
  have hfind : fields.find? (fun f' => f'.name = f.name) = some f := by
    induction fields with
    | nil => cases hf
    | cons f' fields ih =>
      rw [List.map_cons, List.nodup_cons] at h
      rcases List.mem_cons.mp hf with rfl | hf
      · exact List.find?_cons_of_pos (by simp)
      · have hne : f'.name ≠ f.name := fun heq =>
          h.1 (heq ▸ List.mem_map_of_mem hf)
        rw [List.find?_cons_of_neg (by simpa using hne)]
        exact ih h.2 hf
  unfold findField
  rw [hfind]

theorem copies_members {all fields : List (Field S)} (hall : (all.map (·.name)).Nodup)
    (hsub : fields ⊆ all) {s t t' : S} (h : Copies s fields t t') {ms : List (JsonText × Json)}
    (hms : members fields s = some ms) :
    ReadableMembers ms ∧ ms.foldlM (assignMember all) t = some t' := by
  induction h generalizing ms with
  | nil =>
    cases hms
    exact ⟨trivial, rfl⟩
  | @cons f fields t t' t'' hkeeps _ ih =>
    have hmem : f ∈ all := hsub List.mem_cons_self
    rw [members] at hms
    split at hms
    · rename_i ms' hmember hrest
      cases hms
      rw [hkeeps.1 hmember] at ih
      exact ih (fun f hf => hsub (List.mem_cons_of_mem _ hf)) hrest
    · rename_i doc ms' hmember hrest
      cases hms
      obtain ⟨hreadable, hassign⟩ := hkeeps.2 doc hmember
      obtain ⟨hrestReadable, hfold⟩ := ih (fun f hf => hsub (List.mem_cons_of_mem _ hf)) hrest
      refine ⟨⟨rfl, hreadable, hrestReadable⟩, ?_⟩
      have hstep : assignMember all t ({ text := f.name, wellFormed := true }, doc) = some t' := by
        unfold assignMember
        rw [findField_of_mem hall hmem]
        exact hassign
      rw [List.foldlM_cons, hstep]
      exact hfold
    · cases hms

/-- **A struct is read back** if its fields have names of their own. -/
theorem unmarshalStruct_marshalStruct {fields : List (Field S)} (hall : (fields.map (·.name)).Nodup)
    {s t t' : S} (h : Copies s fields t t') {doc : Json} (hdoc : marshalStruct fields s = some doc) :
    doc.Readable ∧ (∃ ms, doc = .object ms) ∧ unmarshalStruct fields doc t = some t' := by
  obtain ⟨ms, hms, rfl⟩ := Option.map_eq_some_iff.mp hdoc
  obtain ⟨hreadable, hfold⟩ := copies_members hall (List.Subset.refl fields) h hms
  exact ⟨hreadable, ⟨ms, rfl⟩, hfold⟩

end

end Kavora.Lib.Go
