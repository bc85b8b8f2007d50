import Mathlib.Order.Preorder.Finite
import Mathlib.Data.Set.Finite.Lattice

/-!
# Pareto frontiers with unknown costs

Each point of a finite set has a value, and a cost that may not be known. A point dominates another
one if it is not worse where both can be compared, and better in one of the two. An unknown cost is
comparable to nothing, so that this is not transitive.

* `Dominates`, `Frontier`: the points that no other point dominates.
* `best_mem_frontier_iff`: when a point of the largest value is on the frontier.
* `exists_frontier_above`: a known cost is at least that of a point on the frontier, if no unknown
  one is in between.
* `covered_iff`: when each point off the frontier is dominated by a point on it.
-/

namespace Kavora.Lib.Pareto

variable {α V C : Type} [Preorder V] [Preorder C] (value : α → V) (cost : α → Option C)

/-- A cost is not the greater of two known ones. -/
def NoDearer (a b : Option C) : Prop := ∀ x ∈ a, ∀ y ∈ b, x ≤ y

/-- A cost is the smaller of two known ones. -/
def Cheaper (a b : Option C) : Prop := ∃ x ∈ a, ∃ y ∈ b, x < y

/-- One is at least as good and no dearer, and better in one of the two. -/
def Dominates (other candidate : α) : Prop :=
  value candidate ≤ value other ∧ NoDearer (cost other) (cost candidate) ∧
    (value candidate < value other ∨ Cheaper (cost other) (cost candidate))

/-- The points of a set that none of them dominates. -/
def Frontier (s : Set α) : Set α := {p ∈ s | ∀ other ∈ s, ¬ Dominates value cost other p}

/-- Each point off the frontier is dominated by one on it. -/
def Covered (s : Set α) : Prop :=
  ∀ c ∈ s, c ∉ Frontier value cost s → ∃ p ∈ Frontier value cost s, Dominates value cost p c

variable {value cost} {s : Set α}

theorem Cheaper.noDearer {a b : Option C} (h : Cheaper a b) : NoDearer a b := by
  obtain ⟨x, rfl, y, rfl, hlt⟩ := h
  intro x' hx' y' hy'
  cases hx'
  cases hy'
  exact hlt.le

theorem noDearer_none_left {b : Option C} : NoDearer none b := nofun

theorem noDearer_none_right {a : Option C} : NoDearer a none := nofun

theorem not_cheaper_none_left {b : Option C} : ¬ Cheaper none b := by
  rintro ⟨x, hx, -⟩
  cases hx

theorem noDearer_some {x y : C} : NoDearer (some x) (some y) ↔ x ≤ y := by
  constructor
  · exact fun h => h x rfl y rfl
  · intro h x' hx' y' hy'
    cases hx'
    cases hy'
    exact h

theorem cheaper_some {x y : C} : Cheaper (some x) (some y) ↔ x < y := by
  constructor
  · rintro ⟨x', hx', y', hy', h⟩
    cases hx'
    cases hy'
    exact h
  · exact fun h => ⟨x, rfl, y, rfl, h⟩

/-- A point with an unknown cost dominates the points of smaller values. -/
theorem dominates_of_unknown {u c : α} (hu : cost u = none) :
    Dominates value cost u c ↔ value c < value u := by
  unfold Dominates
  rw [hu]
  constructor
  · rintro ⟨-, -, hlt | hcheaper⟩
    · exact hlt
    · exact absurd hcheaper not_cheaper_none_left
  · exact fun h => ⟨h.le, noDearer_none_left, .inl h⟩

/-- A point of the largest value is on the frontier just if none of this value is cheaper. -/
theorem best_mem_frontier_iff {r : α} (hr : r ∈ s) (hbest : ∀ p ∈ s, value p ≤ value r) :
    r ∈ Frontier value cost s ↔
      ∀ p ∈ s, value r ≤ value p → ¬ Cheaper (cost p) (cost r) := by
  constructor
  · rintro ⟨-, hnone⟩ p hp hle hcheaper
    exact hnone p hp ⟨hle, hcheaper.noDearer, .inr hcheaper⟩
  · refine fun h => ⟨hr, fun p hp => ?_⟩
    rintro ⟨hle, -, hlt | hcheaper⟩
    · exact absurd (hbest p hp) (not_le_of_gt hlt)
    · exact h p hp hle hcheaper

/-- A known cost is at least that of a point on the frontier of at least its value, if no point
with an unknown cost has a larger value. -/
theorem exists_frontier_above (hs : s.Finite) {c : α} (hc : c ∈ s) {y : C} (hy : cost c = some y)
    (hunknown : ∀ u ∈ s, cost u = none → ¬ value c < value u) :
    ∃ p ∈ Frontier value cost s, value c ≤ value p ∧ ∃ x, cost p = some x ∧ x ≤ y := by
  -- The known points by value and cost, the cheaper ones above the dearer.
  let known : Set (V × Cᵒᵈ) :=
    {k | ∃ p ∈ s, value p = k.1 ∧ cost p = some (OrderDual.ofDual k.2)}
  have hfinite : known.Finite := by
    refine (hs.image fun p => (value p, (cost p).map OrderDual.toDual)).preimage
      (f := fun k : V × Cᵒᵈ => (k.1, some k.2)) ?_ |>.subset ?_
    · intro k _ k' _ heq
      exact Prod.ext (Prod.mk.inj heq).1 (Option.some.inj (Prod.mk.inj heq).2)
    · rintro k ⟨p, hp, hvalue, hcost⟩
      refine ⟨p, hp, ?_⟩
      show (value p, (cost p).map OrderDual.toDual) = (k.1, some k.2)
      rw [hvalue, hcost]
      rfl
  obtain ⟨⟨v, x⟩, hle, ⟨p, hp, hv, hx⟩, hmax⟩ :=
    hfinite.exists_le_maximal (a := (value c, OrderDual.toDual y)) ⟨c, hc, rfl, hy⟩
  have hv : value p = v := hv
  obtain ⟨hvalue, hcost⟩ := hle
  have hvalue : value c ≤ value p := hv ▸ hvalue
  refine ⟨p, ⟨hp, fun q hq hdominates => ?_⟩, hvalue, OrderDual.ofDual x, hx, hcost⟩
  cases hq' : cost q with
  | none => exact hunknown q hq hq' (hvalue.trans_lt ((dominates_of_unknown hq').mp hdominates))
  | some z =>
    obtain ⟨hqvalue, hqcost, hstrict⟩ := hdominates
    rw [hq', hx] at hqcost hstrict
    have hzx : z ≤ OrderDual.ofDual x := noDearer_some.mp hqcost
    have hq : (value q, OrderDual.toDual z) ∈ known := ⟨q, hq, rfl, hq'⟩
    obtain ⟨hback, hbackCost⟩ := hmax hq ⟨hv ▸ hqvalue, hzx⟩
    rcases hstrict with hlt | hcheaper
    · exact absurd (hv ▸ hback) (not_le_of_gt hlt)
    · have hlt : z < OrderDual.ofDual x := cheaper_some.mp hcheaper
      exact absurd hbackCost (not_le_of_gt hlt)

/-- An unknown cost at the largest value is on the frontier. -/
theorem unknown_best_mem_frontier {p : α} (hp : p ∈ s) (hcost : cost p = none)
    (hbest : ∀ q ∈ s, value q ≤ value p) : p ∈ Frontier value cost s := by
  refine (best_mem_frontier_iff hp hbest).mpr fun q _ _ hcheaper => ?_
  obtain ⟨_, _, y, hy, _⟩ := hcheaper
  rw [hcost] at hy
  cases hy

section Total

variable [Std.Total (α := V) (· ≤ ·)]

theorem le_of_not_lt_of_total {x y : V} (h : ¬ x < y) : y ≤ x := by
  rcases Std.Total.total (r := fun a b : V => a ≤ b) x y with hle | hle
  · by_contra hnot
    exact h (lt_of_le_not_ge hle hnot)
  · exact hle

/-- For each known cost below a point whose cost is not known: a point with an unknown cost has
the largest value, or a point above all unknown ones is no dearer. -/
def Anchored (value : α → V) (cost : α → Option C) (s : Set α) : Prop :=
  ∀ c ∈ s, ∀ y, cost c = some y → (∃ u ∈ s, cost u = none ∧ value c < value u) →
    ∃ p ∈ s, (∀ u ∈ s, cost u = none → value u ≤ value p) ∧
      ((cost p = none ∧ ∀ q ∈ s, value q ≤ value p) ∨ ∃ x, cost p = some x ∧ x ≤ y)

/-- A point of the largest value is on the frontier. -/
theorem exists_best_frontier (hs : s.Finite) (hne : s.Nonempty) :
    ∃ p ∈ Frontier value cost s, ∀ q ∈ s, value q ≤ value p := by
  obtain ⟨c, hc⟩ := hne
  obtain ⟨v, -, ⟨t, ht, rfl⟩, hmax⟩ :=
    (hs.image value).exists_le_maximal ⟨c, hc, rfl⟩
  have hbest : ∀ q ∈ s, value q ≤ value t := fun q hq =>
    le_of_not_lt_of_total fun hlt => absurd (hmax ⟨q, hq, rfl⟩ hlt.le) (not_le_of_gt hlt)
  cases hcost : cost t with
  | none => exact ⟨t, unknown_best_mem_frontier ht hcost hbest, hbest⟩
  | some y =>
    obtain ⟨p, hp, hle, -⟩ :=
      exists_frontier_above hs ht hcost fun u hu _ hlt => not_le_of_gt hlt (hbest u hu)
    exact ⟨p, hp, fun q hq => (hbest q hq).trans hle⟩

/-- Each point off the frontier is dominated by one on it if and only if the known costs below an
unknown one are anchored above it. -/
theorem covered_iff (hs : s.Finite) : Covered value cost s ↔ Anchored value cost s := by
  constructor
  · rintro h c hc y hy ⟨u, hu, hunknown, hlt⟩
    have hdominated : Dominates value cost u c := (dominates_of_unknown hunknown).mpr hlt
    obtain ⟨p, hp, hle, hcost, -⟩ := h c hc fun hfrontier => hfrontier.2 u hu hdominated
    have habove : ∀ u ∈ s, cost u = none → value u ≤ value p := fun u hu hunknown =>
      le_of_not_lt_of_total fun hlt => hp.2 u hu ((dominates_of_unknown hunknown).mpr hlt)
    refine ⟨p, hp.1, habove, ?_⟩
    cases hpcost : cost p with
    | none =>
      refine .inl ⟨rfl, fun q hq => le_of_not_lt_of_total fun hlt => ?_⟩
      refine hp.2 q hq ⟨hlt.le, ?_, .inl hlt⟩
      rw [hpcost]
      exact noDearer_none_right
    | some x =>
      rw [hpcost, hy] at hcost
      exact .inr ⟨x, rfl, noDearer_some.mp hcost⟩
  · intro h c hc hoff
    obtain ⟨o, ho, hdominates⟩ : ∃ o ∈ s, Dominates value cost o c := by
      by_contra hnone
      exact hoff ⟨hc, fun o ho hdominates => hnone ⟨o, ho, hdominates⟩⟩
    cases hy : cost c with
    | none =>
      obtain ⟨p, hp, hbest⟩ : ∃ p ∈ Frontier value cost s, ∀ q ∈ s, value q ≤ value p :=
        exists_best_frontier hs ⟨c, hc⟩
      have hlt : value c < value o := by
        rcases hdominates.2.2 with hlt | ⟨_, _, y, hy', -⟩
        · exact hlt
        · rw [hy] at hy'
          cases hy'
      have hlt := hlt.trans_le (hbest o ho)
      refine ⟨p, hp, hlt.le, ?_, .inl hlt⟩
      rw [hy]
      exact noDearer_none_right
    | some y =>
      by_cases hbelow : ∃ u ∈ s, cost u = none ∧ value c < value u
      · obtain ⟨p, hp, habove, hbest | ⟨x, hx, hxy⟩⟩ := h c hc y hy hbelow
        · obtain ⟨u, hu, -, hlt⟩ := hbelow
          have hlt := hlt.trans_le (hbest.2 u hu)
          exact ⟨p, unknown_best_mem_frontier hp hbest.1 hbest.2,
            (dominates_of_unknown hbest.1).mpr hlt⟩
        · obtain ⟨u, hu, hunknown, hlt⟩ := hbelow
          obtain ⟨q, hq, hle, z, hz, hzx⟩ := exists_frontier_above hs hp hx
            fun u hu hunknown hlt => not_le_of_gt hlt (habove u hu hunknown)
          have hlt := hlt.trans_le ((habove u hu hunknown).trans hle)
          refine ⟨q, hq, hlt.le, ?_, .inl hlt⟩
          rw [hz, hy]
          exact noDearer_some.mpr (hzx.trans hxy)
      · -- No unknown cost is above, and what dominates the point is on or below the frontier.
        have hknown : ∀ u ∈ s, cost u = none → ¬ value c < value u := fun u hu hunknown hlt =>
          hbelow ⟨u, hu, hunknown, hlt⟩
        obtain ⟨hvalue, hcost, hstrict⟩ := hdominates
        cases hx : cost o with
        | none =>
          rw [hx] at hstrict
          rcases hstrict with hlt | hcheaper
          · exact absurd hlt (hknown o ho hx)
          · exact absurd hcheaper not_cheaper_none_left
        | some x =>
          rw [hx, hy] at hcost hstrict
          obtain ⟨p, hp, hle, z, hz, hzx⟩ := exists_frontier_above hs ho hx
            fun u hu hunknown hlt => hknown u hu hunknown (hvalue.trans_lt hlt)
          refine ⟨p, hp, hvalue.trans hle, ?_, ?_⟩
          · rw [hz, hy]
            exact noDearer_some.mpr (hzx.trans (noDearer_some.mp hcost))
          · rw [hz, hy]
            rcases hstrict with hlt | hcheaper
            · exact .inl (hlt.trans_le hle)
            · exact .inr (cheaper_some.mpr (hzx.trans_lt (cheaper_some.mp hcheaper)))

end Total

end Kavora.Lib.Pareto
