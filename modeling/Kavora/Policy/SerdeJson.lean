import Kavora.Lib.Json
import Kavora.Policy.EngineLemmas

/-!
# Documents as `serde_json` reads them

`Value.fromSlice` reads a document as the policy engine does: strings must decode, numbers must be
in range, arrays and objects are nested at most 127 deep, and objects are maps sorted by name in
which the last member of a name counts. So the strings that the engine collects are the visible
strings of the document (`visible_subset`).
-/

namespace Kavora.Policy

open Lib

/-- `BTreeMap::insert`. -/
def insertMember (name : String) (value : Value) : List (String × Value) → List (String × Value)
  | [] => [(name, value)]
  | (name', value') :: map =>
    if name = name' then (name, value) :: map
    else if name < name' then (name, value) :: (name', value') :: map
    else (name', value') :: insertMember name value map

theorem mem_insertMember_self {name : String} {value : Value} {map : List (String × Value)} :
    (name, value) ∈ insertMember name value map := by
  induction map with
  | nil => exact List.mem_cons_self
  | cons m map ih =>
    rw [insertMember]
    split
    · exact List.mem_cons_self
    · split
      · exact List.mem_cons_self
      · exact List.mem_cons_of_mem _ ih

theorem mem_insertMember_of_ne {name name' : String} {value value' : Value}
    {map : List (String × Value)} (hne : name ≠ name') (h : (name', value') ∈ map) :
    (name', value') ∈ insertMember name value map := by
  induction map with
  | nil => cases h
  | cons m map ih =>
    rw [insertMember]
    split
    · rename_i heq
      rcases List.mem_cons.mp h with h | h
      · rw [← h] at heq
        exact absurd heq hne
      · exact List.mem_cons_of_mem _ h
    · split
      · exact List.mem_cons_of_mem _ h
      · rcases List.mem_cons.mp h with h | h
        · rw [h]
          exact List.mem_cons_self
        · exact List.mem_cons_of_mem _ (ih h)

namespace Value

section OfJson

-- How a number is printed, if it is in range.
variable (number : String → Option String)

mutual

/-- The value of a document, in which the last member of a name counts. -/
def ofJson : Json → Option Value
  | .null => some .null
  | .bool b => some (.bool b)
  | .number text => (number text).map .number
  | .string s => if s.wellFormed then some (.string s.text) else none
  | .array values => (ofJsonList values).map .array
  | .object members => (ofJsonMembers [] members).map .object

/-- Those of some documents. -/
def ofJsonList : List Json → Option (List Value)
  | [] => some []
  | v :: vs => do
    let value ← ofJson v
    let values ← ofJsonList vs
    return value :: values

/-- The members are inserted in their order. -/
def ofJsonMembers (map : List (String × Value)) :
    List (JsonText × Json) → Option (List (String × Value))
  | [] => some map
  | (name, v) :: ms =>
    if name.wellFormed then do
      let value ← ofJson v
      ofJsonMembers (insertMember name.text value map) ms
    else none

end

/-- `serde_json::from_slice` of a document. -/
def fromSlice (doc : Json) : Option Value :=
  if doc.nesting > 127 then none else ofJson number doc

variable {number}

/-- A member that nothing shadows stays in the map. -/
theorem ofJsonMembers_keep {members : List (JsonText × Json)} {map map' : List (String × Value)}
    {name : JsonText} {value : Value} (h : ofJsonMembers number map members = some map')
    (hname : Json.shadowed name members = false) (hmem : (name.text, value) ∈ map) :
    (name.text, value) ∈ map' := by
  induction members generalizing map with
  | nil =>
    cases h
    exact hmem
  | cons m members ih =>
    obtain ⟨name', v⟩ := m
    rw [ofJsonMembers] at h
    split at h
    · obtain ⟨value', hv, h⟩ := Option.bind_eq_some_iff.mp h
      simp only [Json.shadowed, List.any_cons, Bool.or_eq_false_iff] at hname
      exact ih h hname.2 (mem_insertMember_of_ne (by simpa using hname.1) hmem)
    · cases h

mutual

/-- The engine collects every visible string. -/
theorem visible_subset : ∀ {doc : Json} {value : Value}, ofJson number doc = some value →
    doc.visible ⊆ value.collectStrings
  | .null, _, _ => List.nil_subset _
  | .bool _, _, _ => List.nil_subset _
  | .number _, _, _ => List.nil_subset _
  | .string s, value, h => by
    rw [ofJson] at h
    split at h
    · cases h
      rw [Json.visible, collectStrings]
      exact List.Subset.refl _
    · cases h
  | .array values, value, h => by
    obtain ⟨values', hvalues, rfl⟩ := Option.map_eq_some_iff.mp h
    rw [Json.visible, collectStrings]
    exact visibleList_subset hvalues
  | .object members, value, h => by
    obtain ⟨map, hmap, rfl⟩ := Option.map_eq_some_iff.mp h
    rw [Json.visible, collectStrings]
    exact visibleMembers_subset hmap

theorem visibleList_subset : ∀ {docs : List Json} {values : List Value},
    ofJsonList number docs = some values → Json.visibleList docs ⊆ collectStringsList values
  | [], _, _ => List.nil_subset _
  | doc :: docs, values, h => by
    obtain ⟨value, hv, h⟩ := Option.bind_eq_some_iff.mp h
    obtain ⟨values', hvs, h⟩ := Option.bind_eq_some_iff.mp h
    cases h
    rw [Json.visibleList, collectStringsList]
    exact List.append_subset.mpr
      ⟨List.Subset.trans (visible_subset hv) (List.subset_append_left _ _),
        List.Subset.trans (visibleList_subset hvs) (List.subset_append_right _ _)⟩

theorem visibleMembers_subset : ∀ {members : List (JsonText × Json)}
    {map map' : List (String × Value)}, ofJsonMembers number map members = some map' →
    Json.visibleMembers members ⊆ collectStringsMembers map'
  | [], _, _, _ => List.nil_subset _
  | (name, doc) :: members, map, map', h => by
    rw [ofJsonMembers] at h
    split at h
    · obtain ⟨value, hv, h⟩ := Option.bind_eq_some_iff.mp h
      rw [Json.visibleMembers]
      split
      · exact visibleMembers_subset h
      · rename_i hlast
        have hkeep := ofJsonMembers_keep h (by simpa using hlast) mem_insertMember_self
        exact List.append_subset.mpr
          ⟨List.Subset.trans (visible_subset hv) (mem_collectStringsMembers hkeep),
            visibleMembers_subset h⟩
    · cases h

end

theorem fromSlice_visible {doc : Json} {value : Value} (h : fromSlice number doc = some value) :
    doc.visible ⊆ value.collectStrings := by
  unfold fromSlice at h
  split at h
  · cases h
  · exact visible_subset h

end OfJson

end Value

end Kavora.Policy
