import Mathlib.Algebra.BigOperators.Fin
import Kavora.Lib.GoFloat
import Kavora.Lib.LinearSystem

/-!
# The fitted predictor (`planner/ttft_predictor.py`)

The time to the first token is predicted by a linear function of five features, fitted by ridge
regression: `solve` solves the normal equations by Gauss-Jordan elimination with partial pivoting,
and `fit` replaces negative coefficients by zero.

* `eliminate`: one column of the elimination.
* `solve_ok`: what `solve` returns solves the system, and the matrix is not singular.
* `normalEquations_eq`: the system that `fit` solves is that of the ridge regression.
* `linear_solver_correct`: the elimination and the fit are correct in exact arithmetic.
-/

namespace Kavora.Planner

open Lib
open Lib.Go (Float64)
open Lib.Go.Float64 (ofInt Exact)

section Model

variable {F : Type} [Float64 F]

/-- The names of the coefficients. -/
def featureNames : List String :=
  ["intercept_ms", "uncached_token_ms", "cached_token_ms", "queue_penalty_ms",
    "kv_pressure_penalty_ms"]

/-- `len(FEATURE_NAMES)`. -/
abbrev width : Nat := 5

/-- One number for each feature. -/
abbrev Row5 (F : Type) := Vector F width

/-! ## The linear solver -/

/-- The rows of a matrix with the vector as their last column. -/
abbrev Augmented (F : Type) (n : Nat) := Vector (Vector F (n + 1)) n

/-- `max(range(column, size), key=...)`: the first row with the largest entry. -/
def pivotOf {n : Nat} (augmented : Augmented F n) (column : Fin n) : Fin n :=
  let key (row : Fin n) : F := Float64.abs augmented[row][column.castSucc]
  ((List.finRange n).filter fun row => column < row).foldl
    (fun pivot row => if Float64.lt (key pivot) (key row) then row else pivot) column

/-- Two rows change places. -/
def swapRows {n : Nat} (augmented : Augmented F n) (i j : Fin n) : Augmented F n :=
  Vector.ofFn fun row => augmented[Equiv.swap i j row]

/-- The row of a column is divided by its entry there, and a multiple of it is taken from each other
row. -/
def clearColumn {n : Nat} (augmented : Augmented F n) (column : Fin n) : Augmented F n :=
  let divisor := augmented[column][column.castSucc]
  let pivotRow := augmented[column].map fun value => value / divisor
  Vector.ofFn fun row =>
    if row = column then pivotRow
    else
      let factor := augmented[row][column.castSucc]
      Vector.ofFn fun (i : Fin (n + 1)) => augmented[row][i] - factor * pivotRow[i]

/-- One iteration of the loop of `_solve`. -/
def eliminate {n : Nat} (augmented : Augmented F n) (column : Fin n) :
    Except String (Augmented F n) :=
  let pivot := pivotOf augmented column
  if Float64.lt (Float64.abs augmented[pivot][column.castSucc]) (ofInt 1 / ofInt (10 ^ 12)) then
    .error "predictor design matrix is singular"
  else .ok (clearColumn (swapRows augmented column pivot) column)

/-- The matrix with the vector as its last column. -/
def augment {n : Nat} (matrix : Vector (Vector F n) n) (vector : Vector F n) : Augmented F n :=
  Vector.ofFn fun row => matrix[row].push vector[row]

/-- `_solve`. -/
def solve {n : Nat} (matrix : Vector (Vector F n) n) (vector : Vector F n) :
    Except String (Vector F n) :=
  match (List.finRange n).foldlM eliminate (augment matrix vector) with
  | .error err => .error err
  | .ok augmented => .ok (Vector.ofFn fun row => augmented[row][Fin.last n])

/-! ## The fit -/

/-- `sum(values)`. -/
def pySum (values : List F) : F := values.foldl (· + ·) (ofInt 0)

/-- `max(0.0, value)`. -/
def clampZero (value : F) : F := if Float64.lt (ofInt 0) value then value else ofInt 0

/-- `matrix` and `vector` of `_fit`. -/
def normalEquations (features : List (Row5 F)) (targets : List F) (ridge : F) :
    Vector (Row5 F) width × Row5 F :=
  let rows := features.zip targets
  (Vector.ofFn fun left => Vector.ofFn fun right =>
    let entry := pySum (rows.map fun (row, _) => row[left] * row[right])
    if left = right ∧ left ≠ 0 then entry + ridge else entry,
    Vector.ofFn fun left => pySum (rows.map fun (row, target) => row[left] * target))

/-- `coefficients` of `_fit`, before they are clamped. -/
def unclamped (features : List (Row5 F)) (targets : List F) (ridge : F) : Except String (Row5 F) :=
  let (matrix, vector) := normalEquations features targets ridge
  solve matrix vector

/-- `sum(value * slope for value, slope in zip(row[1:], slopes))`. -/
def slopeSum (row coefficients : Row5 F) : F :=
  pySum ((List.finRange width).tail.map fun i => row[i] * coefficients[i])

/-- `_fit`. -/
def fit (features : List (Row5 F)) (targets : List F) (ridge : F) : Except String (Row5 F) :=
  if targets.length < features.length then .error "zip() argument 2 is shorter than argument 1"
  else if features.length < targets.length then
    .error "zip() argument 2 is longer than argument 1"
  else
    match unclamped features targets ridge with
    | .error err => .error err
    | .ok coefficients =>
      let slopes := coefficients.map clampZero
      if targets.length = 0 then .error "division by zero"
      else
        let rest := (features.zip targets).map fun (row, target) => target - slopeSum row slopes
        .ok (slopes.set 0 (clampZero (pySum rest / ofInt targets.length)))

/-- `_predict`. -/
def predict (row coefficients : Row5 F) : F :=
  clampZero (pySum ((List.finRange width).map fun i => row[i] * coefficients[i]))

end Model

/-! ## The elimination -/

open Matrix LinearSystem

section Regression

variable {K : Type} [Field K]

/-- A row for each sample. -/
def design (features : List (Row5 K)) : Matrix (Fin features.length) (Fin width) K :=
  fun i j => features[i][j]

/-- The identity without the entry of the intercept. -/
def penalty : Matrix (Fin width) (Fin width) K :=
  Matrix.diagonal fun i => if i = 0 then 0 else 1

/-- `Xᵀ X + ridge D`. -/
def ridgeMatrix (features : List (Row5 K)) (ridge : K) : Matrix (Fin width) (Fin width) K :=
  (design features)ᵀ * design features + ridge • penalty

theorem ridgeMatrix_apply (features : List (Row5 K)) (ridge : K) (left right : Fin width) :
    ridgeMatrix features ridge left right =
      if left = right ∧ left ≠ 0 then
        (∑ i : Fin features.length, features[i][left] * features[i][right]) + ridge
      else ∑ i : Fin features.length, features[i][left] * features[i][right] := by
  unfold ridgeMatrix penalty
  rw [Matrix.add_apply, Matrix.mul_apply, Matrix.smul_apply]
  by_cases heq : left = right
  · rw [heq, Matrix.diagonal_apply_eq]
    by_cases hzero : right = 0
    · rw [if_pos hzero, if_neg fun hboth => hboth.2 hzero, smul_zero, add_zero]
      rfl
    · rw [if_neg hzero, if_pos ⟨rfl, hzero⟩, smul_eq_mul, mul_one]
      rfl
  · rw [if_neg fun hboth => heq hboth.1, Matrix.diagonal_apply_ne _ heq, smul_zero, add_zero]
    rfl

end Regression

variable {K : Type} [Field K] [LinearOrder K] [Exact K]

attribute [local instance] Exact.float64

/-- The equation of each row. -/
def equations {n : Nat} (augmented : Augmented K n) : Fin n → Equation K n :=
  fun i => (fun j => augmented[i][j.castSucc], augmented[i][Fin.last n])

theorem column_le_pivotOf {n : Nat} (augmented : Augmented K n) (column : Fin n) :
    column ≤ pivotOf augmented column := by
  have hfold : ∀ (rows : List (Fin n)) (better : Fin n → Fin n → Bool) (pivot : Fin n),
      column ≤ pivot → (∀ row ∈ rows, column ≤ row) →
      column ≤ rows.foldl (fun pivot row => if better pivot row then row else pivot) pivot := by
    intro rows better
    induction rows with
    | nil => exact fun _ hpivot _ => hpivot
    | cons row rows ih =>
      intro pivot hpivot hrows
      obtain ⟨hrow, hrows⟩ := List.forall_mem_cons.mp hrows
      rw [List.foldl_cons]
      cases better pivot row with
      | true => exact ih row hrow hrows
      | false => exact ih pivot hpivot hrows
  refine hfold _ _ column (le_refl _) fun row hrow => ?_
  exact (of_decide_eq_true (List.mem_filter.mp hrow).2).le

omit [Field K] [LinearOrder K] [Exact K] in
theorem equations_swapRows {n : Nat} (augmented : Augmented K n) (i j : Fin n) :
    equations (swapRows augmented i j) = equations augmented ∘ Equiv.swap i j := by
  funext row
  simp [equations, swapRows]

theorem equations_clearColumn {n : Nat} (augmented : Augmented K n) (column : Fin n) :
    equations (clearColumn augmented column) = LinearSystem.pivot (equations augmented) column := by
  funext row
  unfold LinearSystem.pivot scaled
  by_cases hrow : row = column
  · subst hrow
    rw [if_pos rfl]
    simp [equations, clearColumn, div_eq_inv_mul]
    rfl
  · rw [if_neg hrow]
    simp [equations, clearColumn, hrow, div_eq_inv_mul]
    rfl

omit [Field K] [LinearOrder K] [Exact K] in
theorem equations_augment {n : Nat} (matrix : Vector (Vector K n) n) (vector : Vector K n) :
    equations (augment matrix vector) =
      system (Matrix.of fun i j => matrix[i][j]) fun i => vector[i] := by
  funext row
  simp [equations, augment, system]
  rfl

variable [IsStrictOrderedRing K]

/-- One iteration swaps an equation with one to come and clears the column. -/
theorem eliminate_ok {n : Nat} {augmented augmented' : Augmented K n} {column : Fin n}
    (h : eliminate augmented column = .ok augmented') :
    ∃ pivot, column ≤ pivot ∧ (equations augmented pivot).1 column ≠ 0 ∧
      equations augmented' =
        LinearSystem.pivot (equations augmented ∘ Equiv.swap column pivot) column := by
  unfold eliminate at h
  dsimp only at h
  split at h
  · cases h
  · rename_i hlarge
    cases h
    refine ⟨pivotOf augmented column, column_le_pivotOf augmented column, fun hzero => ?_, ?_⟩
    · apply hlarge
      refine decide_eq_true ?_
      have hentry : augmented[pivotOf augmented column][column.castSucc] = 0 := hzero
      rw [hentry, Float64.ordered_abs, abs_zero]
      show (0 : K) < ((1 : Int) : K) / (((10 ^ 12 : Int)) : K)
      positivity
    · rw [equations_clearColumn, equations_swapRows]

theorem eliminate_reduced {n : Nat} {base : Fin n → Equation K n}
    {augmented augmented' : Augmented K n} {column : Fin n}
    (hreduced : Reduced column (equations augmented))
    (hcombinations : Combinations base (equations augmented))
    (h : eliminate augmented column = .ok augmented') :
    Reduced (column + 1) (equations augmented') ∧ Combinations base (equations augmented') := by
  obtain ⟨pivot, hpivot, hentry, heq⟩ := eliminate_ok h
  rw [heq]
  refine ⟨(hreduced.swap hpivot).pivot ?_, (hcombinations.swap column pivot).pivot column⟩
  rw [Function.comp_apply, Equiv.swap_apply_left]
  exact hentry

/-- The loop of `_solve`, from a column on. -/
theorem foldlM_eliminate {n : Nat} {base : Fin n → Equation K n} :
    ∀ {before columns : List (Fin n)} {augmented augmented' : Augmented K n},
      List.finRange n = before ++ columns →
      Reduced before.length (equations augmented) → Combinations base (equations augmented) →
      columns.foldlM eliminate augmented = .ok augmented' →
      Reduced n (equations augmented') ∧ Combinations base (equations augmented') := by
  intro before columns
  induction columns generalizing before with
  | nil =>
    intro augmented augmented' hcolumns hreduced hcombinations h
    cases h
    have hlength : before.length = n := by
      rw [← List.append_nil before, ← hcolumns, List.length_finRange]
    rw [hlength] at hreduced
    exact ⟨hreduced, hcombinations⟩
  | cons column columns ih =>
    intro augmented augmented' hcolumns hreduced hcombinations h
    have hcolumn : column.val = before.length := by
      have hget : (List.finRange n)[before.length]? = some column := by
        rw [hcolumns, List.getElem?_append_right (le_refl _), Nat.sub_self]
        rfl
      obtain ⟨hlt, heq⟩ := List.getElem?_eq_some_iff.mp hget
      rw [← heq, List.getElem_finRange]
      rfl
    rw [List.foldlM_cons] at h
    cases hstep : eliminate augmented column with
    | error err =>
      rw [hstep] at h
      cases h
    | ok next =>
      rw [hstep] at h
      obtain ⟨hnext, hnextCombinations⟩ :=
        eliminate_reduced (by rw [hcolumn]; exact hreduced) hcombinations hstep
      refine @ih (before ++ [column]) next augmented' ?_ ?_ hnextCombinations h
      · rw [hcolumns, List.append_assoc]
        rfl
      · rw [List.length_append, List.length_singleton, ← hcolumn]
        exact hnext

/-- **The solver is correct.** What it returns solves the system, and the matrix is invertible. -/
theorem solve_ok {n : Nat} {matrix : Vector (Vector K n) n} {vector x : Vector K n}
    (h : solve matrix vector = .ok x) :
    (Matrix.of fun i j : Fin n => matrix[i][j]) *ᵥ (fun i => x[i]) = (fun i => vector[i]) ∧
      IsUnit (Matrix.of fun i j : Fin n => matrix[i][j]).det := by
  unfold solve at h
  split at h
  · cases h
  · rename_i augmented hloop
    cases h
    have hbase := Combinations.refl (equations (augment matrix vector))
    obtain ⟨hreduced, hcombinations⟩ :=
      foldlM_eliminate (List.nil_append _).symm (reduced_zero _) hbase hloop
    rw [equations_augment] at hcombinations
    have hsolves := hcombinations.solves hreduced
    have hx : (fun i : Fin n => (Vector.ofFn fun row => augmented[row][Fin.last n])[i]) =
        fun i => (equations augmented i).2 := by
      funext i
      simp [equations]
    rw [hx]
    exact hsolves

omit [Field K] [LinearOrder K] [Exact K] [IsStrictOrderedRing K] in
/-- The only error of the solver. -/
theorem solve_error [Float64 K] {n : Nat} {matrix : Vector (Vector K n) n} {vector : Vector K n}
    {err : String} (h : solve matrix vector = .error err) :
    err = "predictor design matrix is singular" := by
  have hloop : ∀ (columns : List (Fin n)) (augmented : Augmented K n),
      columns.foldlM eliminate augmented = .error err →
      err = "predictor design matrix is singular" := by
    intro columns
    induction columns with
    | nil => exact fun _ h => by cases h
    | cons column columns ih =>
      intro augmented h
      rw [List.foldlM_cons] at h
      cases hstep : eliminate augmented column with
      | error err' =>
        rw [hstep] at h
        cases h
        unfold eliminate at hstep
        dsimp only at hstep
        split at hstep
        · cases hstep
          rfl
        · cases hstep
      | ok next =>
        rw [hstep] at h
        exact ih next h
  unfold solve at h
  split at h
  · rename_i hfold
    cases h
    exact hloop _ _ hfold
  · cases h

/-! ## The ridge regression -/

omit [IsStrictOrderedRing K] in
theorem pySum_eq (values : List K) : pySum values = values.sum := by
  unfold pySum
  rw [show (ofInt 0 : K) = 0 from Int.cast_zero, List.sum_eq_foldl]

omit [IsStrictOrderedRing K] in
/-- A sum over the samples. -/
theorem pySum_zip {features : List (Row5 K)} {targets : List K}
    (h : features.length = targets.length) (f : Row5 K × K → K) :
    pySum ((features.zip targets).map f) =
      ∑ i : Fin features.length, f (features[i], targets[i.cast h]) := by
  have hlist : (features.zip targets).map f =
      List.ofFn fun i : Fin features.length => f (features[i], targets[i.cast h]) := by
    refine List.ext_getElem ?_ fun i _ _ => ?_
    · simp [h]
    · simp
  rw [pySum_eq, hlist, List.sum_ofFn]

omit [IsStrictOrderedRing K] in
/-- The system of `_fit` is that of the ridge regression. -/
theorem normalEquations_eq {features : List (Row5 K)} {targets : List K}
    (h : features.length = targets.length) (ridge : K) :
    (Matrix.of fun i j : Fin width => (normalEquations features targets ridge).1[i][j]) =
        ridgeMatrix features ridge ∧
      (fun i : Fin width => (normalEquations features targets ridge).2[i]) =
        (design features)ᵀ *ᵥ fun i => targets[i.cast h] := by
  constructor
  · ext left right
    rw [Matrix.of_apply, ridgeMatrix_apply]
    simp only [normalEquations, Vector.getElem_ofFn, Fin.getElem_fin, Fin.eta, pySum_zip h]
  · funext left
    simp only [normalEquations, Vector.getElem_ofFn, Fin.getElem_fin, pySum_zip h]
    rfl

omit [IsStrictOrderedRing K] in
theorem clampZero_nonneg (value : K) : 0 ≤ clampZero value := by
  unfold clampZero
  split
  · rename_i hlt
    have hlt : ((0 : Int) : K) < value := of_decide_eq_true hlt
    rw [Int.cast_zero] at hlt
    exact hlt.le
  · exact Int.cast_zero.ge

omit [IsStrictOrderedRing K] in
theorem fit_nonneg {features : List (Row5 K)} {targets : List K} {ridge : K}
    {coefficients : Row5 K} (h : fit features targets ridge = .ok coefficients) (i : Fin width) :
    0 ≤ coefficients[i] := by
  unfold fit at h
  split at h
  · cases h
  split at h
  · cases h
  split at h
  · cases h
  dsimp only at h
  split at h
  · cases h
  cases h
  rw [Fin.getElem_fin, Vector.getElem_set]
  split
  · exact clampZero_nonneg _
  · rw [Vector.getElem_map]
    exact clampZero_nonneg _

/-- **The linear solver is correct** in exact arithmetic, and the fit solves the normal equations of
its ridge regression before it replaces negative coefficients. -/
theorem linear_solver_correct :
    (∀ (n : Nat) (matrix : Vector (Vector K n) n) (vector : Vector K n),
      (∀ x, solve matrix vector = .ok x →
        (Matrix.of fun i j : Fin n => matrix[i][j]) *ᵥ (fun i => x[i]) = fun i => vector[i]) ∧
      ((Matrix.of fun i j : Fin n => matrix[i][j]).det = 0 →
        solve matrix vector = .error "predictor design matrix is singular")) ∧
    ∀ (features : List (Row5 K)) (targets : List K) (ridge : K),
      (∀ x, unclamped features targets ridge = .ok x →
        ∀ h : features.length = targets.length,
          ridgeMatrix features ridge *ᵥ (fun i => x[i]) =
            (design features)ᵀ *ᵥ fun i => targets[i.cast h]) ∧
      ∀ coefficients, fit features targets ridge = .ok coefficients →
        ∀ i : Fin width, 0 ≤ coefficients[i] := by
  refine ⟨fun n matrix vector => ⟨fun x hx => (solve_ok hx).1, fun hsingular => ?_⟩,
    fun features targets ridge => ⟨fun x hx h => ?_, fun coefficients hfit => fit_nonneg hfit⟩⟩
  · cases hsolve : solve matrix vector with
    | error err => rw [solve_error hsolve]
    | ok x =>
      have hunit := (solve_ok hsolve).2
      rw [hsingular] at hunit
      exact absurd rfl hunit.ne_zero
  · obtain ⟨hmatrix, hvector⟩ := normalEquations_eq h ridge
    have hx : solve (normalEquations features targets ridge).1
        (normalEquations features targets ridge).2 = .ok x := hx
    have hsolved := (solve_ok hx).1
    rwa [hmatrix, hvector] at hsolved

section Example

local instance : Exact Rat := ⟨fun _ => 1, fun x => (x + 1 / 2).floor⟩

theorem linear_solver_correct_rat :
    solve (#v[#v[1, 2], #v[2, 4]] : Vector (Vector Rat 2) 2) #v[1, 1] =
      .error "predictor design matrix is singular" := by
  refine ((linear_solver_correct (K := Rat)).1 2 _ _).2 ?_
  rw [Matrix.det_fin_two]
  show (1 : Rat) * 4 - 2 * 2 = 0
  norm_num

end Example

end Kavora.Planner
