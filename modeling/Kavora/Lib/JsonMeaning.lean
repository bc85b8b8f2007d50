import Kavora.Lib.Json

/-!
# What JSON documents mean

`Json.meaning` is what a document says to a reader for which the order of members does not matter
and the last member of a name counts: an object is the map from its names, and a number is what the
reader makes of its text (`number`).

* `meaning_reorder`: members with distinct names in another order mean the same.
* `meaning_shadowed`: a member that a later one shadows means nothing.
-/

namespace Kavora.Lib

/-- What a document means: members have no order, and the last of a name counts. -/
inductive Meaning where
  | null
  | bool (b : Bool)
  | number (value : Option String)
  | string (s : String)
  | array (values : List Meaning)
  | object (members : String → Option Meaning)

namespace Json

section Meaning

-- What the reader makes of the text of a number.
variable (number : String → Option String)

mutual

/-- The meaning of a document. -/
def meaning : Json → Meaning
  | .null => .null
  | .bool b => .bool b
  | .number text => .number (number text)
  | .string s => .string s.text
  | .array values => .array (meaningList values)
  | .object members => .object (meaningMembers members)

/-- The meanings of some values. -/
def meaningList : List Json → List Meaning
  | [] => []
  | v :: vs => v.meaning :: meaningList vs

/-- The last member of a name. -/
def meaningMembers : List (JsonText × Json) → String → Option Meaning
  | [], _ => none
  | (name, v) :: ms, key =>
    match meaningMembers ms key with
    | some m => some m
    | none => if name.text = key then some v.meaning else none

end

variable {number}

theorem meaningMembers_none {members : List (JsonText × Json)} {key : String} :
    meaningMembers number members key = none ↔ ∀ m ∈ members, m.1.text ≠ key := by
  induction members with
  | nil => exact ⟨fun _ => nofun, fun _ => rfl⟩
  | cons m members ih =>
    obtain ⟨name, v⟩ := m
    rw [List.forall_mem_cons, ← ih, meaningMembers]
    cases meaningMembers number members key <;> simp

theorem meaningMembers_append (members members' : List (JsonText × Json)) (key : String) :
    meaningMembers number (members ++ members') key =
      (meaningMembers number members' key).or (meaningMembers number members key) := by
  induction members with
  | nil => cases h : meaningMembers number members' key <;> simp [meaningMembers, h]
  | cons m members ih =>
    obtain ⟨name, v⟩ := m
    rw [List.cons_append, meaningMembers, meaningMembers, ih]
    cases meaningMembers number members' key <;> rfl

theorem meaning_reorder {members members' : List (JsonText × Json)} (h : members.Perm members')
    (hdistinct : members.Pairwise fun m m' => m.1.text ≠ m'.1.text) :
    (object members).meaning number = (object members').meaning number := by
  have hkeys : ∀ key, meaningMembers number members key = meaningMembers number members' key := by
    intro key
    induction h with
    | nil => rfl
    | cons m _ ih =>
      rw [meaningMembers, meaningMembers, ih (List.pairwise_cons.mp hdistinct).2]
    | swap m m' members =>
      obtain ⟨name, v⟩ := m
      obtain ⟨name', v'⟩ := m'
      have hne : name'.text ≠ name.text := (List.pairwise_cons.mp hdistinct).1 _ List.mem_cons_self
      simp only [meaningMembers]
      cases meaningMembers number members key with
      | some value => rfl
      | none =>
        by_cases hkey : name.text = key
        · rw [if_pos hkey, if_neg (fun hkey' => hne (hkey'.trans hkey.symm))]
        · rw [if_neg hkey]
          by_cases hkey' : name'.text = key
          · rw [if_pos hkey']
          · rw [if_neg hkey']
    | trans h₁ _ ih₁ ih₂ =>
      have hdistinct' := (h₁.pairwise_iff fun hne => hne.symm).mp hdistinct
      rw [ih₁ hdistinct, ih₂ hdistinct']
  rw [meaning, meaning, funext hkeys]

theorem meaning_shadowed {name : JsonText} {v : Json} {front later : List (JsonText × Json)}
    (h : shadowed name later = true) :
    (object (front ++ (name, v) :: later)).meaning number =
      (object (front ++ later)).meaning number := by
  have hkeys : ∀ key, meaningMembers number ((name, v) :: later) key =
      meaningMembers number later key := by
    intro key
    rw [meaningMembers]
    cases hlater : meaningMembers number later key with
    | some value => rfl
    | none =>
      have hnone := meaningMembers_none.mp hlater
      obtain ⟨m, hmem, hname⟩ := List.any_eq_true.mp h
      have hne : name.text ≠ key := fun hkey =>
        hnone m hmem ((beq_iff_eq.mp hname).trans hkey)
      exact if_neg hne
  have hall : ∀ key, meaningMembers number (front ++ (name, v) :: later) key =
      meaningMembers number (front ++ later) key := fun key => by
    rw [meaningMembers_append, meaningMembers_append, hkeys]
  rw [meaning, meaning, funext hall]

end Meaning

end Json

end Kavora.Lib
