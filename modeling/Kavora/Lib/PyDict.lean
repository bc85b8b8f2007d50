import Mathlib.Data.List.Forall2
import Mathlib.Data.List.Dedup
import Kavora.Lib.Marshal

/-!
# Dicts of Python

* `Json.member`, `Json.truthy`, `Json.toFloat`: what a program makes of a parsed document.
* `member_marshalStruct`: the members of a struct that Go wrote.
* `dict`: a dict that is filled item by item, in the order of its first keys.
* `groups`: `d.setdefault(key, []).append(row)` over some rows.
-/

namespace Kavora.Lib

/-! ## Parsed documents -/

namespace Json

/-- The last member of a name. -/
def memberOf (name : String) : List (JsonText × Json) → Option Json
  | [] => none
  | (n, v) :: ms =>
    match memberOf name ms with
    | some w => some w
    | none => if n.text = name then some v else none

/-- `doc.get(name)` of a dict; `none` if there is no such member. -/
def member (doc : Json) (name : String) : Option Json :=
  match doc with
  | .object ms => memberOf name ms
  | _ => none

/-- Whether a value is a given text. -/
def isText (value : Option Json) (text : String) : Bool :=
  match value with
  | some (.string s) => s.text = text
  | _ => false

section

variable (F : Type) [Go.Float64 F] [Go.FloatText F]

/-- `bool(value)`, where a missing value is `None`. -/
def truthy : Option Json → Bool
  | none => false
  | some .null => false
  | some (.bool b) => b
  | some (.number text) =>
    match (Go.FloatText.parseFloat text.toList : Option F) with
    | some x => !Go.Float64.eq x (Go.Float64.ofInt 0)
    | none => true
  | some (.string s) => s.text ≠ ""
  | some (.array values) => !values.isEmpty
  | some (.object ms) => !ms.isEmpty

/-- `float(value)` of a number or a boolean. -/
def toFloat : Json → Option F
  | .number text => Go.FloatText.parseFloat text.toList
  | .bool b => some (Go.Float64.ofInt (if b then 1 else 0))
  | _ => none

end

/-- `int(value)` of a whole number. -/
def toInt : Json → Option Int
  | .number text => Go.parseInt text.toList
  | .bool b => some (if b then 1 else 0)
  | _ => none

end Json

namespace Go

section

variable {S : Type} {fields : List (Field S)} {s : S}

theorem memberOf_members_none {ms : List (JsonText × Json)} (h : members fields s = some ms)
    {name : String} (hname : ∀ f ∈ fields, f.name ≠ name) : Json.memberOf name ms = none := by
  induction fields generalizing ms with
  | nil =>
    cases h
    rfl
  | cons f fields ih =>
    obtain ⟨hf, hfields⟩ := List.forall_mem_cons.mp hname
    rw [members] at h
    split at h
    · cases h
      exact ih ‹_› hfields
    · rename_i doc rest _ hrest
      cases h
      rw [Json.memberOf, ih hrest hfields]
      exact if_neg hf
    · cases h

theorem memberOf_members (hnodup : (fields.map (·.name)).Nodup) {ms : List (JsonText × Json)}
    (h : members fields s = some ms) {f : Field S} (hf : f ∈ fields) :
    f.member s = some (Json.memberOf f.name ms) := by
  induction fields generalizing ms with
  | nil => cases hf
  | cons f' fields ih =>
    rw [List.map_cons, List.nodup_cons] at hnodup
    have hothers : ∀ g ∈ fields, g.name ≠ f'.name := fun g hg heq =>
      hnodup.1 (heq ▸ List.mem_map_of_mem hg)
    rw [members] at h
    split at h
    · rename_i ms' hmember hrest
      cases h
      rcases List.mem_cons.mp hf with rfl | hf
      · rw [hmember, memberOf_members_none hrest hothers]
      · exact ih hnodup.2 hrest hf
    · rename_i doc ms' hmember hrest
      cases h
      rw [Json.memberOf]
      rcases List.mem_cons.mp hf with rfl | hf
      · rw [hmember, memberOf_members_none hrest hothers]
        exact congrArg some (if_pos rfl).symm
      · rw [ih hnodup.2 hrest hf]
        have hne : f'.name ≠ f.name := Ne.symm (hothers f hf)
        cases Json.memberOf f.name ms' with
        | some w => rfl
        | none => exact congrArg some (if_neg hne).symm
    · cases h

/-- A member of a written struct is what its field wrote. -/
theorem member_marshalStruct (hnodup : (fields.map (·.name)).Nodup) {doc : Json}
    (h : marshalStruct fields s = some doc) {f : Field S} (hf : f ∈ fields) :
    f.member s = some (doc.member f.name) := by
  obtain ⟨ms, hms, rfl⟩ := Option.map_eq_some_iff.mp h
  exact memberOf_members hnodup hms hf

end

end Go

/-! ## Dicts -/

section

variable {κ β γ : Type} [DecidableEq κ]

/-- `d[key] = value`. -/
def setItem (key : κ) (value : β) : List (κ × β) → List (κ × β)
  | [] => [(key, value)]
  | item :: items =>
    if item.1 = key then (key, value) :: items else item :: setItem key value items

/-- A dict of some items: the last value of each key, at the place of its first one. -/
def dict (items : List (κ × β)) : List (κ × β) :=
  items.foldl (fun d item => setItem item.1 item.2 d) []

theorem mem_setItem {key : κ} {value : β} {d : List (κ × β)} {item : κ × β}
    (h : item ∈ setItem key value d) : item = (key, value) ∨ item ∈ d := by
  induction d with
  | nil => exact .inl (List.mem_singleton.mp h)
  | cons item' d ih =>
    rw [setItem] at h
    split at h
    · rcases List.mem_cons.mp h with h | h
      · exact .inl h
      · exact .inr (List.mem_cons_of_mem _ h)
    · rcases List.mem_cons.mp h with rfl | h
      · exact .inr List.mem_cons_self
      · exact (ih h).imp_right (List.mem_cons_of_mem _)

theorem mem_dict {items : List (κ × β)} {item : κ × β} (h : item ∈ dict items) : item ∈ items := by
  have hfold : ∀ (items d : List (κ × β)),
      item ∈ items.foldl (fun d item => setItem item.1 item.2 d) d → item ∈ d ∨ item ∈ items := by
    intro items
    induction items with
    | nil => exact fun d h => .inl h
    | cons item' items ih =>
      intro d h
      rcases ih _ h with h | h
      · rcases mem_setItem h with rfl | h
        · exact .inr List.mem_cons_self
        · exact .inl h
      · exact .inr (List.mem_cons_of_mem _ h)
  exact (hfold items [] h).resolve_left nofun

/-- Two items with one key and related values. -/
def RelItem (R : β → γ → Prop) (item : κ × β) (item' : κ × γ) : Prop :=
  item.1 = item'.1 ∧ R item.2 item'.2

theorem rel_setItem {R : β → γ → Prop} {d : List (κ × β)} {d' : List (κ × γ)}
    (h : List.Forall₂ (RelItem R) d d') (key : κ) {value : β} {value' : γ} (hvalue : R value value') :
    List.Forall₂ (RelItem R) (setItem key value d) (setItem key value' d') := by
  induction h with
  | nil => exact .cons ⟨rfl, hvalue⟩ .nil
  | @cons item item' d d' hitem hrest ih =>
    rw [setItem, setItem, hitem.1]
    split
    · exact .cons ⟨rfl, hvalue⟩ hrest
    · exact .cons hitem ih

/-- Related items make related dicts. -/
theorem rel_dict {R : β → γ → Prop} {items : List (κ × β)} {items' : List (κ × γ)}
    (h : List.Forall₂ (RelItem R) items items') :
    List.Forall₂ (RelItem R) (dict items) (dict items') := by
  have hfold : ∀ {d : List (κ × β)} {d' : List (κ × γ)}, List.Forall₂ (RelItem R) d d' →
      List.Forall₂ (RelItem R) (items.foldl (fun d item => setItem item.1 item.2 d) d)
        (items'.foldl (fun d item => setItem item.1 item.2 d) d') := by
    induction h with
    | nil => exact fun h => h
    | @cons item item' items items' hitem _ ih =>
      intro d d' hd
      rw [List.foldl_cons, List.foldl_cons, ← hitem.1]
      exact ih (rel_setItem hd item.1 hitem.2)
  exact hfold .nil

theorem rel_option_map {α δ : Type} {R : β → γ → Prop} {Q : α → δ → Prop} {f : β → α} {g : γ → δ}
    (hfg : ∀ {b c}, R b c → Q (f b) (g c)) {b : Option β} {c : Option γ} (h : Option.Rel R b c) :
    Option.Rel Q (b.map f) (c.map g) := by
  cases h with
  | none => exact .none
  | some h => exact .some (hfg h)

theorem rel_lookup {κ : Type} [BEq κ] {R : β → γ → Prop} {d : List (κ × β)} {d' : List (κ × γ)}
    (h : List.Forall₂ (RelItem R) d d') (key : κ) :
    Option.Rel R (d.lookup key) (d'.lookup key) := by
  induction h with
  | nil => exact .none
  | @cons item item' d d' hitem _ ih =>
    obtain ⟨k, v⟩ := item
    obtain ⟨k', v'⟩ := item'
    obtain rfl : k = k' := hitem.1
    rw [List.lookup_cons, List.lookup_cons]
    cases key == k with
    | true => exact .some hitem.2
    | false => exact ih

/-- The rows of each key, in the order of the first row of a key. -/
def groups {α : Type} (key : α → κ) (rows : List α) : List (κ × List α) :=
  rows.foldl (fun d row => setItem (key row) ((d.lookup (key row)).getD [] ++ [row]) d) []

theorem mem_groups {α : Type} {key : α → κ} {rows : List α} {k : κ} {group : List α}
    (h : (k, group) ∈ groups key rows) : ∀ row ∈ group, key row = k ∧ row ∈ rows := by
  have hfold : ∀ (rest : List α) (d : List (κ × List α)), rest ⊆ rows →
      (∀ k group, (k, group) ∈ d → ∀ row ∈ group, key row = k ∧ row ∈ rows) →
      ∀ k group, (k, group) ∈ rest.foldl
        (fun d row => setItem (key row) ((d.lookup (key row)).getD [] ++ [row]) d) d →
      ∀ row ∈ group, key row = k ∧ row ∈ rows := by
    intro rest
    induction rest with
    | nil => exact fun d _ h => h
    | cons row rest ih =>
      intro d hsub hd
      refine ih _ (fun r hr => hsub (List.mem_cons_of_mem _ hr)) fun k group hmem r hr => ?_
      rcases mem_setItem hmem with heq | hmem
      · cases heq
        rcases List.mem_append.mp hr with hr | hr
        · cases hlookup : d.lookup (key row) with
          | none =>
            rw [hlookup] at hr
            cases hr
          | some old =>
            obtain ⟨before, after, heq, -⟩ := List.lookup_eq_some_iff.mp hlookup
            rw [hlookup] at hr
            refine hd _ old ?_ r hr
            rw [heq]
            exact List.mem_append_right _ List.mem_cons_self
        · rw [List.mem_singleton.mp hr]
          exact ⟨rfl, hsub List.mem_cons_self⟩
      · exact hd k group hmem r hr
  exact hfold rows [] (List.Subset.refl rows) nofun k group h

end

end Kavora.Lib
