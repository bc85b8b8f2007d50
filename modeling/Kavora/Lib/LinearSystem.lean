import Mathlib.LinearAlgebra.Matrix.NonsingularInverse

/-!
# Square systems of linear equations

An equation is a row of coefficients with its right side. Gauss-Jordan elimination replaces the
equations of a system by combinations of them until each says what one of the unknowns is.

* `Reduced`: the first columns are those of the identity; `Reduced.swap` and `Reduced.pivot` are the
  two operations of a step.
* `Combinations`: equations that are combinations of those of a system.
* `Combinations.solves`: if they say what each unknown is, these solve the system, and its matrix is
  not singular.
-/

namespace Kavora.Lib.LinearSystem

open Matrix

variable {K : Type} [Field K] {n : Nat}

/-- Coefficients and a right side. -/
abbrev Equation (K : Type) (n : Nat) := (Fin n → K) × K

/-- The equations of `A x = b`. -/
def system (A : Matrix (Fin n) (Fin n) K) (b : Fin n → K) : Fin n → Equation K n :=
  fun i => (A i, b i)

/-! ## Columns of the identity -/

/-- The first `k` columns are those of the identity. -/
def Reduced (k : Nat) (rows : Fin n → Equation K n) : Prop :=
  ∀ j : Fin n, j.val < k → ∀ i, (rows i).1 j = if i = j then 1 else 0

/-- The equation of a column, scaled to the coefficient one. -/
def scaled (rows : Fin n → Equation K n) (c : Fin n) : Equation K n :=
  ((rows c).1 c)⁻¹ • rows c

/-- The column of an unknown is cleared in all equations but its own. -/
def pivot (rows : Fin n → Equation K n) (c : Fin n) : Fin n → Equation K n :=
  fun i => if i = c then scaled rows c else rows i - (rows i).1 c • scaled rows c

theorem reduced_zero (rows : Fin n → Equation K n) : Reduced 0 rows :=
  fun _ hj => absurd hj (Nat.not_lt_zero _)

/-- Equations of the columns to come may be swapped. -/
theorem Reduced.swap {rows : Fin n → Equation K n} {c p : Fin n} (h : Reduced c rows)
    (hp : c ≤ p) : Reduced c (rows ∘ Equiv.swap c p) := by
  intro j hj i
  have hjc : j ≠ c := fun heq => absurd hj (heq ▸ lt_irrefl _)
  have hjp : j ≠ p := fun heq => absurd hj (not_lt_of_ge (heq ▸ hp))
  have hiff : Equiv.swap c p i = j ↔ i = j := by
    rw [Equiv.swap_apply_eq_iff, Equiv.swap_apply_of_ne_of_ne hjc hjp]
  show (rows (Equiv.swap c p i)).1 j = _
  rw [h j hj]
  exact if_congr hiff rfl rfl

/-- A pivot step adds a column. -/
theorem Reduced.pivot {rows : Fin n → Equation K n} {c : Fin n} (h : Reduced c rows)
    (hc : (rows c).1 c ≠ 0) : Reduced (c + 1) (pivot rows c) := by
  intro j hj i
  have hown : (scaled rows c).1 c = 1 := inv_mul_cancel₀ hc
  unfold LinearSystem.pivot
  rcases Nat.lt_succ_iff_lt_or_eq.mp hj with hlt | heq
  · -- The equation of the column is zero in the columns before.
    have hcj : c ≠ j := by
      rintro rfl
      exact lt_irrefl _ hlt
    have hzero : (scaled rows c).1 j = 0 := by
      have hrow := h j hlt c
      rw [if_neg hcj] at hrow
      show ((rows c).1 c)⁻¹ * (rows c).1 j = 0
      rw [hrow, mul_zero]
    split
    · rename_i hic
      rw [hic, hzero, if_neg hcj]
    · show (rows i).1 j - (rows i).1 c * (scaled rows c).1 j = _
      rw [hzero, mul_zero, sub_zero, h j hlt]
  · obtain rfl : j = c := Fin.ext heq
    split
    · exact hown
    · show (rows i).1 j - (rows i).1 j * (scaled rows j).1 j = 0
      rw [hown, mul_one, sub_self]

/-! ## Combinations -/

/-- Each equation is a combination of those of a system. -/
def Combinations (base rows : Fin n → Equation K n) : Prop :=
  ∀ i, rows i ∈ Submodule.span K (Set.range base)

variable {base rows : Fin n → Equation K n}

theorem Combinations.refl (base : Fin n → Equation K n) : Combinations base base :=
  fun i => Submodule.subset_span ⟨i, rfl⟩

theorem Combinations.swap (h : Combinations base rows) (c p : Fin n) :
    Combinations base (rows ∘ Equiv.swap c p) :=
  fun i => h (Equiv.swap c p i)

theorem Combinations.pivot (h : Combinations base rows) (c : Fin n) :
    Combinations base (pivot rows c) := by
  have hscaled : scaled rows c ∈ Submodule.span K (Set.range base) :=
    Submodule.smul_mem _ _ (h c)
  intro i
  unfold LinearSystem.pivot
  split
  · exact hscaled
  · exact Submodule.sub_mem _ (h i) (Submodule.smul_mem _ _ hscaled)

/-- What the reduced equations say of the unknowns solves the system, whose matrix is invertible. -/
theorem Combinations.solves {A : Matrix (Fin n) (Fin n) K} {b : Fin n → K}
    (h : Combinations (system A b) rows) (hreduced : Reduced n rows) :
    A *ᵥ (fun i => (rows i).2) = b ∧ IsUnit A.det := by
  have hcoefficients : ∀ i, ∃ c : Fin n → K, ∑ j, c j • system A b j = rows i := fun i =>
    (Submodule.mem_span_range_iff_exists_fun K).mp (h i)
  choose c hc using hcoefficients
  have hleft : Matrix.of c * A = 1 := by
    ext i j
    have hrow := congrFun (congrArg Prod.fst (hc i)) j
    rw [hreduced j j.isLt i] at hrow
    rw [Matrix.one_apply, ← hrow, Prod.fst_sum, Finset.sum_apply]
    rfl
  have hright : Matrix.of c *ᵥ b = fun i => (rows i).2 := by
    funext i
    rw [← hc i, Prod.snd_sum]
    rfl
  refine ⟨?_, ?_⟩
  · rw [← hright, Matrix.mulVec_mulVec, mul_eq_one_comm.mp hleft, Matrix.one_mulVec]
  · exact Matrix.isUnit_iff_isUnit_det A |>.mp (IsUnit.of_mul_eq_one (Matrix.of c)
      (mul_eq_one_comm.mp hleft))

end Kavora.Lib.LinearSystem
