import Mathlib.Algebra.Order.BigOperators.Group.List
import Mathlib.Algebra.Order.Floor.Ring
import Mathlib.Tactic.Ring
import Kavora.Lib.GoFloat

/-!
# Means and percentiles

* `sortFloat64s`: of exact numbers, a permutation in increasing order.
* `Rounding`: integer parts; `Rounding.Lawful` says that they are those of exact numbers.
* `mean_bounds`, `interpolation_bounds`: the mean of numbers, and a number between two numbers, are
  within their bounds.
* `abs_sum_le`: the sum of numbers is not larger than that of their absolute values.
-/

namespace Kavora.Lib.Go

/-- `math.Floor`, `math.Ceil` (as `int`) and `math.Sqrt`. -/
class Rounding (F : Type) where
  floor : F → Int
  ceil : F → Int
  sqrt : F → F

/-- `sort.Float64s`. -/
def sortFloat64s {F : Type} [Float64 F] (values : List F) : List F :=
  values.insertionSort fun a b => Float64.lt b a = false

/-- The integer parts of exact numbers. -/
class Rounding.Lawful (K : Type) [Ring K] [LinearOrder K] [FloorRing K] [Rounding K] : Prop where
  floor_eq : ∀ a : K, Rounding.floor a = ⌊a⌋
  ceil_eq : ∀ a : K, Rounding.ceil a = ⌈a⌉

end Kavora.Lib.Go

namespace Kavora.Lib

open Go (Float64 sortFloat64s)

section

variable {K : Type} [Field K] [LinearOrder K] [IsStrictOrderedRing K]

theorem mean_bounds {values : List K} (hne : values ≠ []) {low high : K}
    (h : ∀ value ∈ values, low ≤ value ∧ value ≤ high) :
    low ≤ values.sum / values.length ∧ values.sum / values.length ≤ high := by
  have hpos : (0 : K) < values.length := by exact_mod_cast List.length_pos_of_ne_nil hne
  have hlow : values.length • low ≤ values.sum :=
    List.card_nsmul_le_sum values low fun value hvalue => (h value hvalue).1
  have hhigh : values.sum ≤ values.length • high :=
    List.sum_le_card_nsmul values high fun value hvalue => (h value hvalue).2
  rw [nsmul_eq_mul, mul_comm] at hlow hhigh
  exact ⟨(le_div_iff₀ hpos).mpr hlow, (div_le_iff₀ hpos).mpr hhigh⟩

theorem abs_sum_le (values : List K) : |values.sum| ≤ (values.map (|·|)).sum := by
  induction values with
  | nil => rw [List.sum_nil, abs_zero, List.map_nil, List.sum_nil]
  | cons value values ih =>
    rw [List.sum_cons, List.map_cons, List.sum_cons]
    exact (abs_add_le _ _).trans (add_le_add_right ih _)

theorem interpolation_bounds {a b t low high : K} (ha : low ≤ a ∧ a ≤ high)
    (hb : low ≤ b ∧ b ≤ high) (ht : 0 ≤ t ∧ t ≤ 1) :
    low ≤ a + (b - a) * t ∧ a + (b - a) * t ≤ high := by
  have hsplit : ∀ c : K, (a - c) * (1 - t) + (b - c) * t = a + (b - a) * t - c := fun c => by ring
  have hrest : 0 ≤ 1 - t := sub_nonneg.mpr ht.2
  constructor
  · have hlow : 0 ≤ (a - low) * (1 - t) + (b - low) * t :=
      add_nonneg (mul_nonneg (sub_nonneg.mpr ha.1) hrest) (mul_nonneg (sub_nonneg.mpr hb.1) ht.1)
    rw [hsplit] at hlow
    exact sub_nonneg.mp hlow
  · have hhigh : (a - high) * (1 - t) + (b - high) * t ≤ 0 :=
      add_nonpos (mul_nonpos_of_nonpos_of_nonneg (sub_nonpos.mpr ha.2) hrest)
        (mul_nonpos_of_nonpos_of_nonneg (sub_nonpos.mpr hb.2) ht.1)
    rw [hsplit] at hhigh
    exact sub_nonpos.mp hhigh

end

section

variable {K : Type} [Field K] [LinearOrder K] [Float64.Exact K]

attribute [local instance] Float64.Exact.float64

theorem sortFloat64s_perm (values : List K) : (sortFloat64s values).Perm values :=
  values.perm_insertionSort _

theorem mem_sortFloat64s {values : List K} {a : K} : a ∈ sortFloat64s values ↔ a ∈ values :=
  (sortFloat64s_perm values).mem_iff

theorem sortFloat64s_pairwise (values : List K) : (sortFloat64s values).Pairwise (· ≤ ·) := by
  let r (a b : K) : Prop := Float64.lt b a = false
  have hr : ∀ {a b : K}, r a b ↔ a ≤ b := by
    intro a b
    show decide (b < a) = false ↔ a ≤ b
    rw [decide_eq_false_iff_not, not_lt]
  have htotal : Std.Total r := ⟨fun a b => (le_total a b).imp hr.mpr hr.mpr⟩
  have htrans : IsTrans K r := ⟨fun _ _ _ hab hbc => hr.mpr (le_trans (hr.mp hab) (hr.mp hbc))⟩
  exact (List.pairwise_insertionSort r values).imp hr.mp

/-- The first of the sorted numbers is the least one. -/
theorem sortFloat64s_head {values : List K} (hne : values ≠ []) (default : K) :
    (sortFloat64s values).headD default ∈ values ∧
      ∀ value ∈ values, (sortFloat64s values).headD default ≤ value := by
  have hsorted := sortFloat64s_pairwise values
  have hperm := sortFloat64s_perm values
  cases hsort : sortFloat64s values with
  | nil =>
    rw [hsort] at hperm
    exact absurd hperm.nil_eq.symm hne
  | cons first rest =>
    rw [hsort] at hperm hsorted
    refine ⟨hperm.mem_iff.mp List.mem_cons_self, fun value hvalue => ?_⟩
    rcases List.mem_cons.mp (hperm.mem_iff.mpr hvalue) with rfl | hmem
    · exact le_refl _
    · exact List.rel_of_pairwise_cons hsorted hmem

end

end Kavora.Lib
