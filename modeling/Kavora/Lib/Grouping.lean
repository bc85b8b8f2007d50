import Mathlib.Algebra.BigOperators.Group.List.Basic
import Kavora.Lib.Go

/-!
# Groups of a list

One pass over a list keeps a value for each key of its elements.

* `tally`: the pass; `lookup_tally` is the value of a key, from the elements with the key alone.
* `sum_groups`: the sums of the groups add up to the sum of the list.
* `countP_name`: each key has one entry in a report over the keys.
-/

namespace Kavora.Lib.Grouping

open Go

variable {α κ β : Type} [DecidableEq κ]

/-- The elements with a key. -/
def group (key : α → κ) (l : List α) (k : κ) : List α := l.filter fun a => key a = k

/-- Keeps a value for each key, `zero` of the key before its first element. -/
def tally (key : α → κ) (zero : κ → β) (step : β → α → β) (groups : Map κ β) (l : List α) :
    Map κ β :=
  l.foldl (fun groups a =>
    groups.insert (key a) (step (groups.index (key a) (zero (key a))) a)) groups

section

variable (key : α → κ)

theorem group_cons_self (a : α) (l : List α) : group key (a :: l) (key a) = a :: group key l (key a) :=
  List.filter_cons_of_pos (decide_eq_true rfl)

theorem group_cons_of_ne {a : α} {k : κ} (h : key a ≠ k) (l : List α) :
    group key (a :: l) k = group key l k :=
  List.filter_cons_of_neg (by rw [decide_eq_true_iff]; exact h)

theorem mem_group {a : α} {l : List α} {k : κ} : a ∈ group key l k ↔ a ∈ l ∧ key a = k := by
  unfold group
  rw [List.mem_filter, decide_eq_true_iff]

theorem length_group (l : List α) (k : κ) : (group key l k).length = l.countP fun a => key a = k :=
  List.countP_eq_length_filter.symm

theorem group_eq_nil {l : List α} {k : κ} (h : k ∉ l.map key) : group key l k = [] := by
  rw [List.eq_nil_iff_forall_not_mem]
  intro a ha
  obtain ⟨ha, hkey⟩ := (mem_group key).mp ha
  exact h (List.mem_map.mpr ⟨a, ha, hkey⟩)

theorem group_ne_nil {l : List α} {k : κ} (h : k ∈ l.map key) : group key l k ≠ [] := by
  obtain ⟨a, ha, hkey⟩ := List.mem_map.mp h
  exact List.ne_nil_of_mem ((mem_group key).mpr ⟨ha, hkey⟩)

end

section

variable {key : α → κ} {zero : κ → β} {step : β → α → β}

theorem lookup_tally_from (groups : Map κ β) (l : List α) (k : κ) :
    (tally key zero step groups l).lookup k =
      if k ∈ l.map key then some ((group key l k).foldl step (groups.index k (zero k)))
      else groups.lookup k := by
  induction l generalizing groups with
  | nil => rfl
  | cons a l ih =>
    refine (ih _).trans ?_
    by_cases hk : key a = k
    · subst hk
      rw [group_cons_self, List.foldl_cons, List.map_cons, if_pos List.mem_cons_self,
        Map.index, AList.lookup_insert]
      split
      · rfl
      · rename_i hmem
        rw [group_eq_nil key hmem]
        rfl
    · have hne : k ≠ key a := Ne.symm hk
      rw [group_cons_of_ne key hk, List.map_cons, Map.index, AList.lookup_insert_ne hne]
      simp only [List.mem_cons, hne, false_or]
      rfl

/-- **The value of a key is folded from its elements.** -/
theorem lookup_tally (l : List α) (k : κ) :
    (tally key zero step ∅ l).lookup k =
      if k ∈ l.map key then some ((group key l k).foldl step (zero k)) else none :=
  lookup_tally_from ∅ l k

theorem mem_keys_tally {l : List α} {k : κ} :
    k ∈ (tally key zero step ∅ l).keys ↔ k ∈ l.map key := by
  rw [← AList.mem_keys, ← AList.lookup_isSome, lookup_tally]
  split
  · rename_i h
    exact iff_of_true rfl h
  · rename_i h
    exact iff_of_false Bool.false_ne_true h

theorem index_tally (l : List α) (k : κ) :
    (tally key zero step ∅ l).index k (zero k) = (group key l k).foldl step (zero k) := by
  rw [Map.index, lookup_tally]
  split
  · rfl
  · rename_i hmem
    rw [group_eq_nil key hmem]
    rfl

end

/-- A value that only one key has. -/
theorem sum_map_single {M : Type} [AddCommMonoid M] {keys : List κ} (hnodup : keys.Nodup) {k : κ}
    (hk : k ∈ keys) (x : M) : (keys.map fun j => if k = j then x else 0).sum = x := by
  induction keys with
  | nil => cases hk
  | cons j keys ih =>
    obtain ⟨hj, hnodup⟩ := List.nodup_cons.mp hnodup
    rw [List.map_cons, List.sum_cons]
    by_cases hkj : k = j
    · subst hkj
      have hzero : (keys.map fun j => if k = j then x else 0).sum = 0 := by
        refine List.sum_eq_zero fun y hy => ?_
        obtain ⟨i, hi, rfl⟩ := List.mem_map.mp hy
        exact if_neg fun heq : k = i => hj (heq ▸ hi)
      rw [if_pos rfl, hzero, add_zero]
    · have hmem : k ∈ keys := (List.mem_cons.mp hk).resolve_left hkj
      rw [if_neg hkj, zero_add, ih hnodup hmem]

/-- **The sums of the groups add up.** -/
theorem sum_groups {M : Type} [AddCommMonoid M] (key : α → κ) (f : α → M) {keys : List κ}
    (hnodup : keys.Nodup) {l : List α} (hkeys : ∀ a ∈ l, key a ∈ keys) :
    (keys.map fun k => ((group key l k).map f).sum).sum = (l.map f).sum := by
  induction l with
  | nil =>
    refine List.sum_eq_zero fun y hy => ?_
    obtain ⟨k, -, rfl⟩ := List.mem_map.mp hy
    rfl
  | cons a l ih =>
    rw [List.forall_mem_cons] at hkeys
    have hsplit : ∀ k, ((group key (a :: l) k).map f).sum =
        (if key a = k then f a else 0) + ((group key l k).map f).sum := by
      intro k
      by_cases hk : key a = k
      · subst hk
        rw [group_cons_self, List.map_cons, List.sum_cons, if_pos rfl]
      · rw [group_cons_of_ne key hk, if_neg hk, zero_add]
    simp only [hsplit]
    rw [List.sum_map_add, sum_map_single hnodup hkeys.1, ih hkeys.2, List.map_cons, List.sum_cons]

theorem length_groups (key : α → κ) {keys : List κ} (hnodup : keys.Nodup) {l : List α}
    (hkeys : ∀ a ∈ l, key a ∈ keys) :
    (keys.map fun k => (group key l k).length).sum = l.length := by
  have hone : ∀ m : List α, (m.map fun _ => 1).sum = m.length := fun m => by
    rw [List.map_const', List.sum_replicate_nat, Nat.mul_one]
  have hsum := sum_groups key (fun _ => 1) hnodup hkeys
  simp only [hone] at hsum
  exact hsum

/-- Each key names one entry of a list that is made from the keys. -/
theorem countP_name {γ : Type} {keys : List κ} (hnodup : keys.Nodup) {name : γ → κ} {f : κ → γ}
    (hname : ∀ k, name (f k) = k) {k : κ} (hk : k ∈ keys) :
    (keys.map f).countP (fun entry => name entry = k) = 1 := by
  rw [List.countP_map, ← List.count_eq_one_of_mem hnodup hk]
  refine List.countP_congr fun j _ => ?_
  show decide (name (f j) = k) = true ↔ _
  rw [hname, decide_eq_true_iff, beq_iff_eq]

end Kavora.Lib.Grouping
