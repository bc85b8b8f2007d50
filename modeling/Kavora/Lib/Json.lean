import Mathlib.Data.List.Basic

/-!
# JSON documents

A `Json` is the syntax of a document: the members of an object in order, with repeated names, and
each string as its decoded text. Readers differ in what they make of it.

* `strings`: every string value of a document, at any depth.
* `visible`: the string values that no later member of the same name shadows.
* `compactLen`: the length of a document in bytes.
* `lastWins`: the members that a reader keeps when the last member of a name counts.
* `foldName`: names that differ in case only have one fold, if one of them is ASCII.
* `fieldName`: the field of a struct that a member is read into.
-/

namespace Kavora.Lib

/-- A string of a document: its text, with the replacement character for what does not decode, and
whether all of it decodes. -/
structure JsonText where
  text : String
  wellFormed : Bool
  deriving DecidableEq, Repr

/-- A document; a number is its text, and an object keeps every member. -/
inductive Json where
  | null
  | bool (b : Bool)
  | number (text : String)
  | string (s : JsonText)
  | array (values : List Json)
  | object (members : List (JsonText × Json))
  deriving Repr

/-- A later member of the same name. -/
def Json.shadowed (name : JsonText) (later : List (JsonText × Json)) : Bool :=
  later.any fun member => member.1.text == name.text

namespace Json

mutual

/-- Every string value. -/
def strings : Json → List String
  | .string s => [s.text]
  | .array values => stringsList values
  | .object members => stringsMembers members
  | _ => []

/-- Those of some values. -/
def stringsList : List Json → List String
  | [] => []
  | v :: vs => v.strings ++ stringsList vs

/-- Those of some members. -/
def stringsMembers : List (JsonText × Json) → List String
  | [] => []
  | (_, v) :: ms => v.strings ++ stringsMembers ms

end

mutual

/-- The string values outside shadowed members. -/
def visible : Json → List String
  | .string s => [s.text]
  | .array values => visibleList values
  | .object members => visibleMembers members
  | _ => []

/-- Those of some values. -/
def visibleList : List Json → List String
  | [] => []
  | v :: vs => v.visible ++ visibleList vs

/-- Those of some members. -/
def visibleMembers : List (JsonText × Json) → List String
  | [] => []
  | (name, v) :: ms =>
    if shadowed name ms then visibleMembers ms else v.visible ++ visibleMembers ms

end

mutual

/-- No object has two members of one name. -/
def distinctNames : Json → Bool
  | .array values => distinctNamesList values
  | .object members => distinctNamesMembers members
  | _ => true

/-- So have some values. -/
def distinctNamesList : List Json → Bool
  | [] => true
  | v :: vs => v.distinctNames && distinctNamesList vs

/-- So have some members. -/
def distinctNamesMembers : List (JsonText × Json) → Bool
  | [] => true
  | (name, v) :: ms => !shadowed name ms && v.distinctNames && distinctNamesMembers ms

end

mutual

/-- How deep arrays and objects are nested. -/
def nesting : Json → Nat
  | .array values => nestingList values + 1
  | .object members => nestingMembers members + 1
  | _ => 0

/-- That of some values. -/
def nestingList : List Json → Nat
  | [] => 0
  | v :: vs => max v.nesting (nestingList vs)

/-- That of some members. -/
def nestingMembers : List (JsonText × Json) → Nat
  | [] => 0
  | (_, v) :: ms => max v.nesting (nestingMembers ms)

end

mutual

/-- The length of the compact text of a document whose strings need no escapes. -/
def compactLen : Json → Nat
  | .null => 4
  | .bool b => if b then 4 else 5
  | .number text => text.utf8ByteSize
  | .string s => s.text.utf8ByteSize + 2
  | .array values => compactLenList values + 2 + (values.length - 1)
  | .object members => compactLenMembers members + 2 + (members.length - 1)

/-- That of some values. -/
def compactLenList : List Json → Nat
  | [] => 0
  | v :: vs => v.compactLen + compactLenList vs

/-- That of some members. -/
def compactLenMembers : List (JsonText × Json) → Nat
  | [] => 0
  | (name, v) :: ms => name.text.utf8ByteSize + 3 + v.compactLen + compactLenMembers ms

end

mutual

/-- Without repeated names nothing is shadowed. -/
theorem visible_eq : ∀ {doc : Json}, doc.distinctNames = true → doc.visible = doc.strings
  | .null, _ => rfl
  | .bool _, _ => rfl
  | .number _, _ => rfl
  | .string _, _ => rfl
  | .array _, h => visibleList_eq h
  | .object _, h => visibleMembers_eq h

theorem visibleList_eq : ∀ {values : List Json}, distinctNamesList values = true →
    visibleList values = stringsList values
  | [], _ => rfl
  | v :: vs, h => by
    rw [distinctNamesList, Bool.and_eq_true] at h
    rw [visibleList, stringsList, visible_eq h.1, visibleList_eq h.2]

theorem visibleMembers_eq : ∀ {members : List (JsonText × Json)},
    distinctNamesMembers members = true → visibleMembers members = stringsMembers members
  | [], _ => rfl
  | (name, v) :: ms, h => by
    rw [distinctNamesMembers, Bool.and_eq_true, Bool.and_eq_true, Bool.not_eq_true'] at h
    rw [visibleMembers, stringsMembers, if_neg (by rw [h.1.1]; simp), visible_eq h.1.2,
      visibleMembers_eq h.2]

end

/-- A member that no later one shadows is visible. -/
theorem visible_subset_members {name : JsonText} {v : Json}
    {before after : List (JsonText × Json)} (h : shadowed name after = false) :
    v.visible ⊆ visibleMembers (before ++ (name, v) :: after) := by
  induction before with
  | nil =>
    rw [List.nil_append, visibleMembers, if_neg (by rw [h]; exact Bool.false_ne_true)]
    exact List.subset_append_left _ _
  | cons m before ih =>
    obtain ⟨name', v'⟩ := m
    rw [List.cons_append, visibleMembers]
    split
    · exact ih
    · exact List.Subset.trans ih (List.subset_append_right _ _)

/-- Every visible string of an object is one of a member that no later one shadows. -/
theorem mem_visibleMembers {members : List (JsonText × Json)} {s : String}
    (h : s ∈ visibleMembers members) :
    ∃ before name v after, members = before ++ (name, v) :: after ∧
      shadowed name after = false ∧ s ∈ v.visible := by
  induction members with
  | nil => cases h
  | cons m members ih =>
    obtain ⟨name, v⟩ := m
    rw [visibleMembers] at h
    split at h
    · obtain ⟨before, name', v', after, rfl, hlast, hs⟩ := ih h
      exact ⟨(name, v) :: before, name', v', after, rfl, hlast, hs⟩
    · rename_i hlast
      rcases List.mem_append.mp h with hs | h
      · exact ⟨[], name, v, members, rfl, by simpa using hlast, hs⟩
      · obtain ⟨before, name', v', after, rfl, hlast, hs⟩ := ih h
        exact ⟨(name, v) :: before, name', v', after, rfl, hlast, hs⟩

theorem mem_visibleList {values : List Json} {s : String} (h : s ∈ visibleList values) :
    ∃ v ∈ values, s ∈ v.visible := by
  induction values with
  | nil => cases h
  | cons v values ih =>
    rcases List.mem_append.mp h with hs | h
    · exact ⟨v, List.mem_cons_self, hs⟩
    · obtain ⟨v', hv', hs⟩ := ih h
      exact ⟨v', List.mem_cons_of_mem _ hv', hs⟩

mutual

theorem visible_subset_strings : ∀ doc : Json, doc.visible ⊆ doc.strings
  | .null => List.Subset.refl _
  | .bool _ => List.Subset.refl _
  | .number _ => List.Subset.refl _
  | .string _ => List.Subset.refl _
  | .array values => visibleList_subset_strings values
  | .object members => visibleMembers_subset_strings members

theorem visibleList_subset_strings : ∀ values : List Json, visibleList values ⊆ stringsList values
  | [] => List.Subset.refl _
  | v :: vs => List.append_subset.mpr
      ⟨List.Subset.trans (visible_subset_strings v) (List.subset_append_left _ _),
        List.Subset.trans (visibleList_subset_strings vs) (List.subset_append_right _ _)⟩

theorem visibleMembers_subset_strings :
    ∀ members : List (JsonText × Json), visibleMembers members ⊆ stringsMembers members
  | [] => List.Subset.refl _
  | (name, v) :: ms => by
    rw [visibleMembers, stringsMembers]
    split
    · exact List.Subset.trans (visibleMembers_subset_strings ms) (List.subset_append_right _ _)
    · exact List.append_subset.mpr
        ⟨List.Subset.trans (visible_subset_strings v) (List.subset_append_left _ _),
          List.Subset.trans (visibleMembers_subset_strings ms) (List.subset_append_right _ _)⟩

end

end Json

/-! ## The last member of a name -/

section LastWins

variable {κ β : Type} [DecidableEq κ]

/-- The members that no later one of the same name shadows. -/
def lastWins : List (κ × β) → List (κ × β)
  | [] => []
  | (k, v) :: ms => if ms.any (fun m => m.1 = k) then lastWins ms else (k, v) :: lastWins ms

/-- A member that is kept is the last one of its name. -/
theorem mem_lastWins {members : List (κ × β)} {k : κ} {v : β} (h : (k, v) ∈ lastWins members) :
    ∃ before after, members = before ++ (k, v) :: after ∧ ∀ m ∈ after, m.1 ≠ k := by
  induction members with
  | nil => cases h
  | cons m ms ih =>
    obtain ⟨k', v'⟩ := m
    rw [lastWins] at h
    split at h
    · obtain ⟨before, after, rfl, hafter⟩ := ih h
      exact ⟨(k', v') :: before, after, rfl, hafter⟩
    · rename_i hlast
      rcases List.mem_cons.mp h with heq | h
      · cases heq
        exact ⟨[], ms, rfl, fun m hm hk => hlast (List.any_eq_true.mpr ⟨m, hm, by simpa using hk⟩)⟩
      · obtain ⟨before, after, rfl, hafter⟩ := ih h
        exact ⟨(k', v') :: before, after, rfl, hafter⟩

theorem mem_lastWins_of_last {before after : List (κ × β)} {k : κ} {v : β}
    (h : ∀ m ∈ after, m.1 ≠ k) : (k, v) ∈ lastWins (before ++ (k, v) :: after) := by
  induction before with
  | nil =>
    have hlast : ¬ (after.any fun m => m.1 = k) = true := by
      intro hany
      obtain ⟨m, hm, hk⟩ := List.any_eq_true.mp hany
      exact h m hm (by simpa using hk)
    rw [List.nil_append, lastWins, if_neg hlast]
    exact List.mem_cons_self
  | cons m before ih =>
    obtain ⟨k', v'⟩ := m
    rw [List.cons_append, lastWins]
    split
    · exact ih
    · exact List.mem_cons_of_mem _ ih

theorem lastWins_subset (members : List (κ × β)) : lastWins members ⊆ members := by
  rintro ⟨k, v⟩ h
  obtain ⟨before, after, rfl, -⟩ := mem_lastWins h
  exact List.mem_append_right _ List.mem_cons_self

/-- The members that are kept have distinct names. -/
theorem lastWins_pairwise (members : List (κ × β)) :
    (lastWins members).Pairwise fun m m' => m.1 ≠ m'.1 := by
  induction members with
  | nil => exact List.Pairwise.nil
  | cons m ms ih =>
    obtain ⟨k, v⟩ := m
    rw [lastWins]
    split
    · exact ih
    · rename_i hlast
      refine List.Pairwise.cons (fun m' hm' hk => hlast ?_) ih
      exact List.any_eq_true.mpr ⟨m', lastWins_subset ms hm', by simpa using hk.symm⟩

end LastWins

theorem lookup_of_pairwise {κ β : Type} [BEq κ] [LawfulBEq κ] {members : List (κ × β)}
    {k : κ} {v : β} (h : members.Pairwise fun m m' => m.1 ≠ m'.1) (hmem : (k, v) ∈ members) :
    members.lookup k = some v := by
  obtain ⟨before, after, rfl⟩ := List.append_of_mem hmem
  refine List.lookup_eq_some_iff.mpr ⟨before, after, rfl, fun m hm => ?_⟩
  have hne := (List.pairwise_append.mp h).2.2 m hm (k, v) List.mem_cons_self
  exact bne_iff_ne.mpr (Ne.symm hne)

/-- The lower case of an ASCII letter. U+017F and U+212A are other cases of `s` and `k`. -/
def foldRune (c : Char) : Char :=
  if c.toNat = 0x17F then 's' else if c.toNat = 0x212A then 'k' else c.toLower

/-- `foldName` of `encoding/json`, as far as it tells ASCII names apart. -/
def foldName (name : String) : String := .ofList (name.toList.map foldRune)

/-- The field of a struct for the name of a member: the one of this name, or one whose name differs
in case. -/
def fieldName (fields : List String) (name : String) : Option String :=
  (fields.find? fun field => field = name).or
    (fields.find? fun field => foldName field = foldName name)

end Kavora.Lib
