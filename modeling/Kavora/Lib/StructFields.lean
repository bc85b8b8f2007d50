import Kavora.Lib.Marshal

/-!
# What a field holds after an object is read

`json.Unmarshal` reads the members of an object one after another, so a field holds what its members
make of it. Names that differ in case only are members of one field, and an object that comes twice
is read into the same struct.

* `valuesFor`: the values of the members of a field.
* `get_unmarshal`: a field after a struct was read.
* `lastNumber`: a number after its members were read.
-/

namespace Kavora.Lib.Go

open Json Marshal

/-- The members of an object. -/
def membersOf : Json → List (JsonText × Json)
  | .object ms => ms
  | _ => []

/-- The values of the members that are read into a field. -/
def valuesFor (fields : List String) (name : String) (ms : List (JsonText × Json)) : List Json :=
  (ms.filter fun m => fieldName fields m.1.text = some name).map (·.2)

section

variable {S : Type} {fields : List (Field S)}

theorem map_findField (name : String) :
    (findField fields name).map (·.name) = fieldName (fields.map (·.name)) name := by
  have hfind : ∀ p : String → Bool, (fields.find? fun f => p f.name).map (·.name) =
      (fields.map (·.name)).find? p := by
    intro p
    rw [List.find?_map]
    rfl
  unfold findField fieldName
  rw [← hfind, ← hfind fun field => decide (foldName field = foldName name)]
  cases fields.find? fun f => decide (f.name = name) with
  | none => rfl
  | some f => rfl

theorem mem_of_findField {name : String} {f : Field S} (h : findField fields name = some f) :
    f ∈ fields := by
  unfold findField at h
  split at h
  · rename_i heq
    cases h
    exact List.mem_of_find?_eq_some heq
  · exact List.mem_of_find?_eq_some h

/-- A field changes what `get` reads only if it has the name, and then as `unmarshal` does. -/
structure Field.Reads {α : Type} [Marshal α] (f : Field S) (name : String) (get : S → α) : Prop where
  own : f.name = name → ∀ {doc s s'}, f.assign doc s = some s' →
    unmarshal doc (get s) = some (get s')
  other : f.name ≠ name → ∀ {doc s s'}, f.assign doc s = some s' → get s' = get s

section

variable {α β : Type} [Marshal α] [Marshal β] {name : String} {get : S → α} {set : α → S → S}

theorem reads_field (h : ∀ a s, get (set a s) = a) : (field name get set).Reads name get where
  own _ doc s s' hassign := by
    obtain ⟨a, ha, rfl⟩ := Option.map_eq_some_iff.mp hassign
    rw [h]
    exact ha
  other hname := absurd rfl hname

theorem reads_other {name' : String} {get' : S → β} (hname : name ≠ name')
    (h : ∀ a s, get' (set a s) = get' s) : (field name get set).Reads name' get' where
  own heq := absurd heq hname
  other _ doc s s' hassign := by
    obtain ⟨a, -, rfl⟩ := Option.map_eq_some_iff.mp hassign
    exact h a s

/-- Whether an empty field is written does not matter. -/
theorem reads_omitempty {isEmpty : α → Bool} {name' : String} {get' : S → β}
    (h : (field name get set).Reads name' get') :
    (omitempty name isEmpty get set).Reads name' get' := ⟨h.own, h.other⟩

end

/-- A field is read from its members. The induction is on the members, from any struct. -/
theorem get_unmarshal {α : Type} [Marshal α] {name : String} {get : S → α}
    (h : ∀ f ∈ fields, f.Reads name get) {ms : List (JsonText × Json)} {s s' : S}
    (hms : ms.foldlM (assignMember fields) s = some s') :
    (valuesFor (fields.map (·.name)) name ms).foldlM (fun a doc => unmarshal doc a) (get s) =
      some (get s') := by
  induction ms generalizing s with
  | nil =>
    cases hms
    rfl
  | cons m ms ih =>
    rw [List.foldlM_cons] at hms
    obtain ⟨s₁, hassign, hms⟩ := Option.bind_eq_some_iff.mp hms
    have hrest := ih hms
    have hfield : (findField fields m.1.text).map (·.name) =
        fieldName (fields.map (·.name)) m.1.text := map_findField m.1.text
    unfold assignMember at hassign
    unfold valuesFor at hrest ⊢
    cases hfind : findField fields m.1.text with
    | none =>
      rw [hfind] at hassign hfield
      cases hassign
      rw [List.filter_cons_of_neg (by rw [← hfield]; simp)]
      exact hrest
    | some f =>
      rw [hfind] at hassign hfield
      have hreads := h f (mem_of_findField hfind)
      by_cases hname : f.name = name
      · rw [List.filter_cons_of_pos (by rw [← hfield]; simpa using hname), List.map_cons,
          List.foldlM_cons, hreads.own hname hassign]
        exact hrest
      · rw [List.filter_cons_of_neg (by rw [← hfield]; simpa using hname)]
        rw [hreads.other hname hassign] at hrest
        exact hrest

/-- Objects that are read into one struct are read like one object of all their members. -/
theorem foldlM_unmarshalStruct {docs : List Json} {s s' : S}
    (h : docs.foldlM (fun s doc => unmarshalStruct fields doc s) s = some s') :
    (docs.flatMap membersOf).foldlM (assignMember fields) s = some s' := by
  induction docs generalizing s with
  | nil => exact h
  | cons doc docs ih =>
    rw [List.foldlM_cons] at h
    obtain ⟨s₁, hdoc, h⟩ := Option.bind_eq_some_iff.mp h
    have hmembers : (membersOf doc).foldlM (assignMember fields) s = some s₁ := by
      cases doc with
      | object ms => exact hdoc
      | null => exact hdoc
      | bool b => cases hdoc
      | number text => cases hdoc
      | string s => cases hdoc
      | array values => cases hdoc
    rw [List.flatMap_cons, List.foldlM_append, hmembers]
    exact ih h

end

/-! ## Numbers -/

section

variable {F : Type} [Float64 F] [FloatText F]

/-- A number after one more of its members. -/
def nextNumber (x : F) : Json → F
  | .number text => (FloatText.parseFloat text.toList).getD x
  | _ => x

/-- The last number among some values, and zero without one. -/
def lastNumber (values : List Json) : F := values.foldl nextNumber (Float64.ofInt 0)

theorem eq_nextNumber {x y : F} {doc : Json} (h : unmarshal doc x = some y) :
    y = nextNumber x doc := by
  cases doc with
  | number text =>
    have hparse : FloatText.parseFloat text.toList = some y := h
    show y = (FloatText.parseFloat text.toList).getD x
    rw [hparse]
    rfl
  | null =>
    cases h
    rfl
  | bool b => cases h
  | string s => cases h
  | array values => cases h
  | object ms => cases h

theorem foldlM_unmarshal_number {values : List Json} {x y : F}
    (h : values.foldlM (fun x doc => unmarshal doc x) x = some y) :
    y = values.foldl nextNumber x := by
  induction values generalizing x with
  | nil =>
    cases h
    rfl
  | cons doc values ih =>
    rw [List.foldlM_cons] at h
    obtain ⟨z, hdoc, h⟩ := Option.bind_eq_some_iff.mp h
    rw [List.foldl_cons, ← eq_nextNumber hdoc]
    exact ih h

end

end Kavora.Lib.Go
