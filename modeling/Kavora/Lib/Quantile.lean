import Kavora.Lib.Statistics

/-!
# Quantiles

A number interpolated between two neighbours of a sorted list is a quantile of the list: enough of the
numbers are up to it, and enough are from it on.

* `IsQuantile`: what a quantile says about the numbers.
* `Interpolated`: the interpolation at a share of the way from the first number to the last, which
  gives one value only (`Interpolated.unique`), and a quantile (`Interpolated.isQuantile`).
-/

namespace Kavora.Lib

variable {K : Type} [Field K] [LinearOrder K] [IsStrictOrderedRing K]

/-- `value` splits the numbers at the share `q`. -/
structure IsQuantile (q : K) (values : List K) (value : K) : Prop where
  low : ∃ a ∈ values, a ≤ value
  high : ∃ b ∈ values, value ≤ b
  below : q * ((values.length : K) - 1) < (values.countP (· ≤ value) : Nat)
  above : (1 - q) * ((values.length : K) - 1) ≤ (values.countP (value ≤ ·) : Nat)

/-- `value` is interpolated at the share `q` of the way from the first of the sorted numbers to the
last: the way ends `q * (n - 1) - i` after the item `i`, or at the last item. -/
def Interpolated (q : K) (values : List K) (value : K) : Prop :=
  ∃ (sorted : List K) (i j : Nat) (hi : i < sorted.length) (hj : j < sorted.length),
    (sorted.Perm values ∧ sorted.Pairwise (· ≤ ·)) ∧
      ((i : K) ≤ q * ((values.length : K) - 1) ∧ q * ((values.length : K) - 1) < (i : K) + 1) ∧
      (j = i + 1 ∨ j = i ∧ i + 1 = sorted.length) ∧
      value = sorted[i] + (sorted[j] - sorted[i]) * (q * ((values.length : K) - 1) - i)

omit [IsStrictOrderedRing K] in
theorem IsQuantile.perm {q value : K} {values values' : List K} (h : IsQuantile q values value)
    (hperm : values.Perm values') : IsQuantile q values' value := by
  obtain ⟨⟨a, ha, hlow⟩, ⟨b, hb, hhigh⟩, hbelow, habove⟩ := h
  rw [hperm.length_eq, hperm.countP_eq] at hbelow habove
  exact ⟨⟨a, hperm.mem_iff.mp ha, hlow⟩, ⟨b, hperm.mem_iff.mp hb, hhigh⟩, hbelow, habove⟩

section

variable {sorted : List K} (hsorted : sorted.Pairwise (· ≤ ·)) {i : Nat} {value : K}

include hsorted

omit [Field K] [IsStrictOrderedRing K] in
/-- The numbers up to an item that is not above the value. -/
theorem lt_countP_le (hi : i < sorted.length) (hvalue : sorted[i] ≤ value) :
    i < sorted.countP (· ≤ value) := by
  have hall : (sorted.take (i + 1)).countP (· ≤ value) = (sorted.take (i + 1)).length := by
    refine List.countP_eq_length.mpr fun a ha => decide_eq_true ?_
    obtain ⟨k, hk, rfl⟩ := List.mem_take_iff_getElem.mp ha
    have hki : k ≤ i := by omega
    rcases Nat.eq_or_lt_of_le hki with rfl | hlt
    · exact hvalue
    · exact (List.pairwise_iff_getElem.mp hsorted k i (by omega) hi hlt).trans hvalue
  have hsub := (List.take_sublist (i + 1) sorted).countP_le (p := (· ≤ value))
  rw [hall, List.length_take] at hsub
  omega

omit [Field K] [IsStrictOrderedRing K] in
/-- The numbers from an item on that is not below the value. -/
theorem sub_le_countP_ge (hi : i < sorted.length) (hvalue : value ≤ sorted[i]) :
    sorted.length - i ≤ sorted.countP (value ≤ ·) := by
  have hall : (sorted.drop i).countP (value ≤ ·) = (sorted.drop i).length := by
    refine List.countP_eq_length.mpr fun b hb => decide_eq_true ?_
    obtain ⟨k, hk, rfl⟩ := List.mem_drop_iff_getElem.mp hb
    rcases Nat.eq_zero_or_pos k with rfl | hpos
    · exact hvalue
    · exact hvalue.trans
        (List.pairwise_iff_getElem.mp hsorted i (i + k) hi (by omega) (by omega))
  have hsub := (List.drop_sublist i sorted).countP_le (p := (value ≤ ·))
  rw [hall, List.length_drop] at hsub
  exact hsub

/-- The interpolation at a position between two neighbours, or at the last number. -/
theorem isQuantile_interpolate {q : K} (hq : 0 ≤ q ∧ q ≤ 1) (hi : i < sorted.length)
    (hposition : (i : K) ≤ q * ((sorted.length : K) - 1) ∧
      q * ((sorted.length : K) - 1) < (i : K) + 1) {j : Nat} (hj : j < sorted.length)
    (hnext : j = i + 1 ∨ j = i ∧ i + 1 = sorted.length)
    (hvalue : value = sorted[i] +
      (sorted[j] - sorted[i]) * (q * ((sorted.length : K) - 1) - i)) :
    IsQuantile q sorted value := by
  have horder : sorted[i] ≤ sorted[j] := by
    rcases hnext with rfl | ⟨rfl, -⟩
    · exact List.pairwise_iff_getElem.mp hsorted i (i + 1) hi hj (Nat.lt_succ_self i)
    · exact le_refl _
  have hbetween : sorted[i] ≤ value ∧ value ≤ sorted[j] := by
    rw [hvalue]
    exact interpolation_bounds ⟨le_refl _, horder⟩ ⟨horder, le_refl _⟩
      ⟨sub_nonneg.mpr hposition.1, (sub_lt_iff_lt_add'.mpr hposition.2).le⟩
  have hbelow := lt_countP_le hsorted hi hbetween.1
  have habove := sub_le_countP_ge hsorted hj hbetween.2
  refine ⟨⟨_, List.getElem_mem hi, hbetween.1⟩, ⟨_, List.getElem_mem hj, hbetween.2⟩, ?_, ?_⟩
  · have hcount : ((i + 1 : Nat) : K) ≤ (sorted.countP (· ≤ value) : Nat) := by
      exact_mod_cast hbelow
    rw [Nat.cast_add, Nat.cast_one] at hcount
    exact hposition.2.trans_le hcount
  · have hcount : ((sorted.length - j : Nat) : K) ≤ (sorted.countP (value ≤ ·) : Nat) := by
      exact_mod_cast habove
    refine le_trans ?_ hcount
    rw [Nat.cast_sub hj.le]
    rcases hnext with rfl | ⟨rfl, hlast⟩
    · rw [Nat.cast_add, Nat.cast_one]
      linarith [hposition.1]
    · have hlength : (sorted.length : K) = (j : K) + 1 := by
        rw [← hlast, Nat.cast_add, Nat.cast_one]
      have hj0 : (0 : K) ≤ j := Nat.cast_nonneg j
      have hshare : 0 ≤ q * j := mul_nonneg hq.1 hj0
      rw [hlength] at hposition ⊢
      linarith [hposition.1]

end

/-- An interpolated number is a quantile. -/
theorem Interpolated.isQuantile {q value : K} {values : List K} (h : Interpolated q values value)
    (hq : 0 ≤ q ∧ q ≤ 1) : IsQuantile q values value := by
  obtain ⟨sorted, i, j, hi, hj, ⟨hperm, hsorted⟩, hposition, hnext, hvalue⟩ := h
  rw [← hperm.length_eq] at hposition hvalue
  exact (isQuantile_interpolate hsorted hq hi hposition hj hnext hvalue).perm hperm

/-- There is one interpolated number at a share. -/
theorem Interpolated.unique {q value value' : K} {values : List K} (h : Interpolated q values value)
    (h' : Interpolated q values value') : value = value' := by
  obtain ⟨sorted, i, j, hi, hj, ⟨hperm, hsorted⟩, hposition, hnext, rfl⟩ := h
  obtain ⟨sorted', i', j', hi', hj', ⟨hperm', hsorted'⟩, hposition', hnext', rfl⟩ := h'
  obtain rfl : sorted = sorted' :=
    (hperm.trans hperm'.symm).eq_of_pairwise (fun _ _ _ _ => le_antisymm) hsorted hsorted'
  obtain rfl : i = i' := by
    have hlow : (i : K) < (i' : K) + 1 := hposition.1.trans_lt hposition'.2
    have hhigh : (i' : K) < (i : K) + 1 := hposition'.1.trans_lt hposition.2
    have hlow : i < i' + 1 := by exact_mod_cast hlow
    have hhigh : i' < i + 1 := by exact_mod_cast hhigh
    omega
  obtain rfl : j = j' := by omega
  rfl

end Kavora.Lib
