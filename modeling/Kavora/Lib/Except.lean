import Mathlib.Data.List.Basic

/-!
# Computations that may fail

* `bind_ok`, `toOption_eq_some`, `mapM_cons_ok`: what a computation returned that did not fail.
* `mem_of_mapM_ok`, `mem_of_mapM`: the results of a list, element by element.
-/

namespace Kavora.Lib

variable {α β ε : Type}

theorem bind_ok {x : Except ε α} {f : α → Except ε β} {b : β} (h : (x >>= f) = .ok b) :
    ∃ a, x = .ok a ∧ f a = .ok b := by
  cases x with
  | error => cases h
  | ok a => exact ⟨a, rfl, h⟩

theorem toOption_eq_some {x : Except ε α} {a : α} : x.toOption = some a ↔ x = .ok a := by
  cases x with
  | error => exact iff_of_false nofun nofun
  | ok => exact Option.some_inj.trans (Except.ok.injEq ..).symm.to_iff

theorem mapM_cons_ok {read : α → Except ε β} {a : α} {l : List α} {r : List β}
    (h : (a :: l).mapM read = .ok r) :
    ∃ b bs, read a = .ok b ∧ l.mapM read = .ok bs ∧ r = b :: bs := by
  rw [List.mapM_cons] at h
  obtain ⟨b, hread, h⟩ := bind_ok h
  obtain ⟨bs, hrest, h⟩ := bind_ok h
  cases h
  exact ⟨b, bs, hread, hrest, rfl⟩

/-- Each element was read. -/
theorem mem_of_mapM_ok {read : α → Except ε β} {l : List α} {r : List β}
    (h : l.mapM read = .ok r) {a : α} (ha : a ∈ l) : ∃ b ∈ r, read a = .ok b := by
  induction l generalizing r with
  | nil => cases ha
  | cons a' l ih =>
    obtain ⟨b, bs, hb, hbs, rfl⟩ := mapM_cons_ok h
    rcases List.mem_cons.mp ha with rfl | ha
    · exact ⟨b, List.mem_cons_self, hb⟩
    · obtain ⟨b', hb', hread⟩ := ih hbs ha
      exact ⟨b', List.mem_cons_of_mem _ hb', hread⟩

/-- Each result was read of an element. -/
theorem mem_of_mapM {read : α → Except ε β} {l : List α} {r : List β}
    (h : l.mapM read = .ok r) {b : β} (hb : b ∈ r) : ∃ a ∈ l, read a = .ok b := by
  induction l generalizing r with
  | nil =>
    cases h
    cases hb
  | cons a l ih =>
    obtain ⟨b', bs, ha, hbs, rfl⟩ := mapM_cons_ok h
    rcases List.mem_cons.mp hb with rfl | hb
    · exact ⟨a, List.mem_cons_self, ha⟩
    · obtain ⟨a', ha', hread⟩ := ih hbs hb
      exact ⟨a', List.mem_cons_of_mem _ ha', hread⟩

end Kavora.Lib
