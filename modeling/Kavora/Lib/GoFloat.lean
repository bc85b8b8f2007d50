import Mathlib.Data.Option.NAry
import Mathlib.Algebra.Order.Field.Basic
import Mathlib.Tactic.Linarith
import Kavora.Lib.Go

/-!
# Laws of `float64`

* `Float64.Lawful`: what IEEE 754 says about the comparisons and about quotients of exact numbers.
* `Float64.Irrefl`: what the exporter needs of them.
* `Float64.Complement`: the complement of a probability.
* `Float64.Bounding`: what bounds on computed numbers need.
* `Float64.Scaling`: products with zero, differences and maxima of numbers.
* `Float64.ordered`: exact arithmetic in an ordered field.
* `Float64.rationalNaN`: rationals and NaN, which obey these laws.
-/

namespace Kavora.Lib.Go.Float64

/-- `math.IsNaN(a)`. -/
def isNaN {F : Type} [Float64 F] (a : F) : Bool := !eq a a

/-- Comparisons with NaN included, and the sign and the size of a quotient. -/
class Lawful (F : Type) [Float64 F] : Prop where
  lt_trans : ∀ {a b c : F}, lt a b = true → lt b c = true → lt a c = true
  lt_of_not_le : ∀ {a b : F}, isNaN a = false → isNaN b = false → le a b = false → lt b a = true
  lt_of_lt_of_eq : ∀ {a b c : F}, lt a b = true → eq b c = true → lt a c = true
  eq_symm : ∀ {a b : F}, eq a b = true → eq b a = true
  not_lt_nan : ∀ {a b : F}, isNaN b = true → lt a b = false
  ofInt_not_nan : ∀ n : Int, isNaN (ofInt n : F) = false
  div_not_nan : ∀ {a b : Int}, 0 < b → b ≤ 2 ^ 53 → isNaN (ofInt a / ofInt b : F) = false
  /-- A quotient below one is rounded to a number below one. -/
  div_lt_one : ∀ {a b : Int}, 0 ≤ a → a < b → b ≤ 2 ^ 53 →
    lt (ofInt a / ofInt b : F) (ofInt 1) = true
  div_not_neg : ∀ {a b : Int}, 0 ≤ a → 0 < b → b ≤ 2 ^ 53 →
    lt (ofInt a / ofInt b : F) (ofInt 0) = false

/-- No number is less than itself. -/
class Irrefl (F : Type) [Float64 F] : Prop where
  lt_irrefl : ∀ a : F, lt a a = false

/-- The complement of a number in `(0, 1)`, rounded, is in `(0, 1]`, and that of NaN is NaN, which
equals nothing. -/
class Complement (F : Type) [Float64 F] : Prop where
  zero_lt_one : lt (ofInt 0) (ofInt 1 : F) = true
  one_sub : ∀ {p : F}, lt (ofInt 0) p = true → lt p (ofInt 1) = true →
    lt (ofInt 0) (ofInt 1 - p) = true ∧ le (ofInt 1 - p) (ofInt 1) = true
  sub_nan : ∀ {a p : F}, isNaN p = true → isNaN (a - p) = true
  not_eq_nan : ∀ {a b : F}, isNaN a = true → eq a b = false

/-- Neither NaN nor infinite. -/
def IsFinite {F : Type} [Float64 F] (a : F) : Prop := isNaN (a - a) = false

/-- Quotients of integers, `exp`, and the way from an integer to a number and back. -/
class Bounding (F : Type) [Float64 F] : Prop extends Lawful F, Irrefl F where
  zero_lt_one : lt (ofInt 0) (ofInt 1 : F) = true
  nan_lt : ∀ {a b : F}, isNaN a = true → lt a b = false
  nan_eq : ∀ {a b : F}, isNaN a = true → eq a b = false
  quot_not_nan : ∀ {a b : Int}, 0 < b → isNaN (ofInt a / ofInt b : F) = false
  /-- Infinity times zero is NaN, and `exp` of anything else is a number. -/
  exp_nan_iff : ∀ {a : F} {d : Duration}, 0 ≤ d →
    (isNaN (exp (-a * seconds d)) = true ↔ isNaN a = true ∨ ¬ IsFinite a ∧ d = 0)
  round_zero : round (ofInt 0 : F) = 0
  round_mul_one : ∀ n : Int, round (ofInt n * ofInt 1 : F) = round (ofInt n : F)
  /-- A part of a number is rounded to no more than the number, if that does not overflow. -/
  round_mul : ∀ {n : Int} {a : F}, 0 ≤ n → 0 ≤ round (ofInt n : F) → le (ofInt 0) a = true →
    le a (ofInt 1) = true →
    0 ≤ round (ofInt n * a) ∧ round (ofInt n * a) ≤ round (ofInt n : F)

/-- Products with zero, differences and maxima. Infinity times zero is NaN. -/
class Scaling (F : Type) [Float64 F] : Prop extends Lawful F, Irrefl F where
  zero_lt_one : lt (ofInt 0) (ofInt 1 : F) = true
  nan_eq : ∀ {a b : F}, isNaN a = true → eq a b = false
  div_pos : ∀ {a b : Int}, 0 < a → 0 < b → b ≤ 2 ^ 53 → lt (ofInt 0) (ofInt a / ofInt b : F) = true
  max_of_lt : ∀ {a b : F}, lt a b = true → max a b = b
  zero_mul : ∀ {a b : F}, eq a (ofInt 0) = true → isNaN (a * b) = false →
    eq (a * b) (ofInt 0) = true
  sub_congr : ∀ {a b c : F}, eq a b = true → isNaN (a - c) = false → eq (a - c) (b - c) = true
  sub_not_nan : ∀ {a : F} {n : Int}, isNaN a = false → 0 ≤ n → n ≤ 2 ^ 53 →
    isNaN (a - ofInt n) = false

section

variable {F : Type} [Float64 F]

/-- A positive number is not zero. -/
theorem eq_zero_of_pos [Lawful F] [Irrefl F] {a : F} (h : lt (ofInt 0) a = true) :
    eq a (ofInt 0) = false := by
  by_contra hzero
  have hlt : lt (ofInt 0 : F) (ofInt 0) = true :=
    Lawful.lt_of_lt_of_eq h (Bool.eq_true_of_not_eq_false hzero)
  rw [Irrefl.lt_irrefl] at hlt
  cases hlt

/-- Comparisons of numbers that are not NaN form a preorder. -/
theorem lt_asymm [Lawful F] [Irrefl F] {a b : F} (h : lt a b = true) : lt b a = false := by
  by_contra hba
  have haa := Lawful.lt_trans h (Bool.eq_true_of_not_eq_false hba)
  rw [Irrefl.lt_irrefl] at haa
  cases haa

theorem not_eq_of_lt [Lawful F] [Irrefl F] {a b : F} (h : lt a b = true) : eq a b = false := by
  by_contra heq
  have haa := Lawful.lt_of_lt_of_eq h (Lawful.eq_symm (Bool.eq_true_of_not_eq_false heq))
  rw [Irrefl.lt_irrefl] at haa
  cases haa

theorem trichotomy [Lawful F] {a b : F} (ha : isNaN a = false) (hb : isNaN b = false) :
    lt a b = true ∨ eq a b = true ∨ lt b a = true := by
  cases hlt : lt a b with
  | true => exact .inl rfl
  | false =>
    cases heq : eq a b with
    | true => exact .inr (.inl rfl)
    | false =>
      have hle : le a b = false := by
        unfold le
        rw [hlt, heq]
        rfl
      exact .inr (.inr (Lawful.lt_of_not_le ha hb hle))

theorem eq_trans [Lawful F] [Irrefl F] {a b c : F} (ha : isNaN a = false) (hc : isNaN c = false)
    (hab : eq a b = true) (hbc : eq b c = true) : eq a c = true := by
  obtain hlt | heq | hgt := trichotomy ha hc
  · have := Lawful.lt_of_lt_of_eq (Lawful.lt_of_lt_of_eq hlt (Lawful.eq_symm hbc))
      (Lawful.eq_symm hab)
    rw [Irrefl.lt_irrefl] at this
    cases this
  · exact heq
  · have := Lawful.lt_of_lt_of_eq (Lawful.lt_of_lt_of_eq hgt hab) hbc
    rw [Irrefl.lt_irrefl] at this
    cases this

theorem lt_of_eq_of_lt [Lawful F] [Irrefl F] {a b c : F} (ha : isNaN a = false)
    (hc : isNaN c = false) (hab : eq a b = true) (hbc : lt b c = true) : lt a c = true := by
  obtain hlt | heq | hgt := trichotomy ha hc
  · exact hlt
  · have := Lawful.lt_of_lt_of_eq (Lawful.lt_of_lt_of_eq hbc (Lawful.eq_symm heq)) hab
    rw [Irrefl.lt_irrefl] at this
    cases this
  · have := Lawful.lt_of_lt_of_eq (Lawful.lt_trans hbc hgt) hab
    rw [Irrefl.lt_irrefl] at this
    cases this

/-- A number is not less than an equal one. -/
theorem le_self {a : F} (h : isNaN a = false) : le a a = true := by
  unfold isNaN at h
  rw [Bool.not_eq_false'] at h
  unfold le
  rw [h, Bool.or_true]

theorem one_le_one [Lawful F] : le (ofInt 1) (ofInt 1 : F) = true :=
  le_self (Lawful.ofInt_not_nan 1)

/-- Equal numbers compare the same. -/
theorem lt_congr_left [Lawful F] [Irrefl F] {a b c : F} (ha : isNaN a = false)
    (hb : isNaN b = false) (hc : isNaN c = false) (h : eq a b = true) : lt a c = lt b c := by
  rw [Bool.eq_iff_iff]
  exact ⟨lt_of_eq_of_lt hb hc (Lawful.eq_symm h), lt_of_eq_of_lt ha hc h⟩

theorem eq_congr_right [Lawful F] [Irrefl F] {a b c : F} (ha : isNaN a = false)
    (hb : isNaN b = false) (hc : isNaN c = false) (h : eq a b = true) : eq c a = eq c b := by
  rw [Bool.eq_iff_iff]
  exact ⟨fun hca => eq_trans hc hb hca h, fun hcb => eq_trans hc ha hcb (Lawful.eq_symm h)⟩

end

/-! ## Exact arithmetic -/

/-- Exact arithmetic in an ordered field; `exp` and `round` are any functions. -/
@[reducible]
def ordered (K : Type) [Field K] [LinearOrder K] (exp : K → K) (round : K → Int) : Float64 K where
  ofInt n := n
  lt a b := a < b
  eq a b := a = b
  max a b := if a < b then b else a
  exp := exp
  round := round

/-- The functions of a program's numbers that a field does not have. -/
class Exact (K : Type) where
  exp : K → K
  round : K → Int

/-- The numbers of an ordered field with these functions. -/
@[reducible]
def Exact.float64 {K : Type} [Field K] [LinearOrder K] [Exact K] : Float64 K :=
  ordered K Exact.exp Exact.round

section Ordered

variable {K : Type} [Field K] [LinearOrder K] (exp : K → K) (round : K → Int)

theorem ordered_not_nan (a : K) : @isNaN _ (ordered K exp round) a = false := by
  show (!decide (a = a)) = false
  rw [decide_eq_true rfl]
  rfl

theorem ordered_le {a b : K} : @le _ (ordered K exp round) a b = true ↔ a ≤ b := by
  show (decide (a < b) || decide (a = b)) = true ↔ _
  rw [Bool.or_eq_true, decide_eq_true_iff, decide_eq_true_iff, le_iff_lt_or_eq]

theorem ordered_abs [IsStrictOrderedRing K] (a : K) : @abs _ (ordered K exp round) a = |a| := by
  show (if decide (a < ((0 : Int) : K)) = true then -a
    else if decide (a = ((0 : Int) : K)) = true then ((0 : Int) : K) else a) = |a|
  rw [Int.cast_zero]
  by_cases hneg : a < 0
  · rw [if_pos (decide_eq_true hneg), abs_of_neg hneg]
  · rw [if_neg (by rw [decide_eq_true_iff]; exact hneg), abs_of_nonneg (not_lt.mp hneg)]
    split
    · rename_i hzero
      exact (of_decide_eq_true hzero).symm
    · rfl

theorem ordered_irrefl : @Irrefl _ (ordered K exp round) :=
  @Irrefl.mk _ (ordered K exp round) fun a => decide_eq_false (lt_irrefl a)

/-- An ordered field obeys the laws. -/
theorem ordered_lawful [IsStrictOrderedRing K] : @Lawful _ (ordered K exp round) := by
  refine @Lawful.mk _ (ordered K exp round) ?_ ?_ ?_ ?_ ?_ ?_ ?_ ?_ ?_
  · intro a b c hab hbc
    exact decide_eq_true (lt_trans (of_decide_eq_true hab) (of_decide_eq_true hbc))
  · intro a b _ _ hle
    obtain ⟨hlt, heq⟩ := Bool.or_eq_false_iff.mp hle
    have hge : b ≤ a := not_lt.mp (of_decide_eq_false hlt)
    exact decide_eq_true (lt_of_le_of_ne hge (Ne.symm (of_decide_eq_false heq)))
  · intro a b c hab hbc
    obtain rfl : b = c := of_decide_eq_true hbc
    exact hab
  · intro a b hab
    exact decide_eq_true (Eq.symm (of_decide_eq_true hab))
  · intro a b hb
    rw [ordered_not_nan] at hb
    cases hb
  · exact fun n => ordered_not_nan exp round _
  · exact fun _ _ => ordered_not_nan exp round _
  · intro m n hm hmn _
    have hn0 : (0 : K) < n := by exact_mod_cast (by omega : (0 : Int) < n)
    refine decide_eq_true ?_
    show (m : K) / (n : K) < ((1 : Int) : K)
    rw [div_lt_iff₀ hn0]
    simpa using hmn
  · intro m n hm hn _
    refine decide_eq_false (not_lt.mpr ?_)
    show ((0 : Int) : K) ≤ (m : K) / (n : K)
    have hm0 : (0 : K) ≤ m := by exact_mod_cast hm
    have hn0 : (0 : K) ≤ n := by exact_mod_cast hn.le
    simpa using div_nonneg hm0 hn0

theorem ordered_scaling [IsStrictOrderedRing K] : @Scaling _ (ordered K exp round) := by
  have hnan (a : K) : ¬ @isNaN _ (ordered K exp round) a = true := by
    rw [ordered_not_nan]
    exact Bool.false_ne_true
  refine @Scaling.mk _ (ordered K exp round) (ordered_lawful exp round) (ordered_irrefl exp round)
    (decide_eq_true (Int.cast_lt.mpr zero_lt_one)) (fun h => absurd h (hnan _)) ?_ ?_ ?_ ?_
    (fun _ _ _ => ordered_not_nan _ _ _)
  · intro m n hm hn _
    refine decide_eq_true ?_
    show ((0 : Int) : K) < (m : K) / (n : K)
    rw [Int.cast_zero]
    exact div_pos (Int.cast_pos.mpr hm) (Int.cast_pos.mpr hn)
  · intro a b hlt
    exact if_pos (of_decide_eq_true hlt)
  · intro a b hzero _
    have hzero : a = ((0 : Int) : K) := of_decide_eq_true hzero
    refine decide_eq_true ?_
    show a * b = ((0 : Int) : K)
    rw [hzero, Int.cast_zero, MulZeroClass.zero_mul]
  · intro a b c heq _
    exact decide_eq_true (congrArg (· - c) (of_decide_eq_true heq))

theorem exact_scaling [IsStrictOrderedRing K] [Exact K] : @Scaling K Exact.float64 :=
  ordered_scaling _ _

theorem exact_lawful [IsStrictOrderedRing K] [Exact K] : @Lawful K Exact.float64 :=
  ordered_lawful _ _

theorem exact_irrefl [Exact K] : @Irrefl K Exact.float64 := ordered_irrefl _ _

end Ordered

theorem rational_irrefl (exp : Rat → Rat) : @Irrefl _ (rational exp) := ordered_irrefl exp _

section Rational

variable (exp : Rat → Rat)

theorem rational_not_nan (a : Rat) : @isNaN _ (rational exp) a = false := ordered_not_nan exp _ a

/-- Rationals obey the laws. -/
theorem rational_lawful : @Lawful _ (rational exp) := ordered_lawful exp _

theorem rational_complement : @Complement _ (rational exp) := by
  refine @Complement.mk _ (rational exp) (decide_eq_true rfl) ?_ ?_ ?_
  · intro p hpos hlt
    have hpos : ((0 : Int) : Rat) < p := of_decide_eq_true hpos
    have hlt : p < ((1 : Int) : Rat) := of_decide_eq_true hlt
    refine ⟨decide_eq_true ?_, Bool.or_eq_true_iff.mpr (.inl (decide_eq_true ?_))⟩
    · show ((0 : Int) : Rat) < ((1 : Int) : Rat) - p
      push_cast at hlt ⊢
      linarith
    · show ((1 : Int) : Rat) - p < ((1 : Int) : Rat)
      push_cast at hpos ⊢
      linarith
  · intro a p hp
    rw [rational_not_nan] at hp
    cases hp
  · intro a b ha
    rw [rational_not_nan] at ha
    cases ha

/-- The nearest integer of a rational that is not negative. -/
theorem rational_round {x : Rat} (hx : 0 ≤ x) :
    (rational exp).round x = (x + 1 / 2).floor := by
  show (if x < 0 then _ else _) = _
  rw [if_neg (not_lt.mpr hx)]

theorem rational_round_int {n : Int} (hn : 0 ≤ n) : (rational exp).round (n : Rat) = n := by
  rw [rational_round exp (by exact_mod_cast hn)]
  refine Int.le_antisymm (Int.le_of_lt_add_one ?_) ?_
  · rw [Rat.floor_lt_iff]
    push_cast
    linarith
  · rw [Rat.le_floor_iff]
    linarith

theorem rational_bounding : @Bounding _ (rational exp) := by
  have hnan (a : Rat) : ¬ @isNaN _ (rational exp) a = true := by
    rw [rational_not_nan]
    exact Bool.false_ne_true
  refine @Bounding.mk _ (rational exp) (rational_lawful exp) (rational_irrefl exp)
    (decide_eq_true rfl) (fun h => absurd h (hnan _)) (fun h => absurd h (hnan _))
    (fun _ => rational_not_nan exp _) ?_ (rational_round_int exp le_rfl) ?_ ?_
  · intro a d _
    refine iff_of_false (hnan _) ?_
    rintro (h | ⟨h, -⟩)
    · exact hnan _ h
    · exact h (rational_not_nan exp _)
  · intro n
    show (rational exp).round ((n : Rat) * ((1 : Int) : Rat)) = (rational exp).round (n : Rat)
    rw [Int.cast_one, mul_one]
  · intro n a hn _ hlow hhigh
    have hlow : ((0 : Int) : Rat) ≤ a := (ordered_le exp _).mp hlow
    have hhigh : a ≤ ((1 : Int) : Rat) := (ordered_le exp _).mp hhigh
    have hn0 : (0 : Rat) ≤ n := by exact_mod_cast hn
    rw [Int.cast_zero] at hlow
    rw [Int.cast_one] at hhigh
    have hnonneg : 0 ≤ (n : Rat) * a := mul_nonneg hn0 hlow
    have hle : (n : Rat) * a ≤ n := mul_le_of_le_one_right hn0 hhigh
    show 0 ≤ (rational exp).round ((n : Rat) * a) ∧
      (rational exp).round ((n : Rat) * a) ≤ (rational exp).round (n : Rat)
    rw [rational_round exp hnonneg, rational_round exp hn0]
    refine ⟨Rat.le_floor_iff.mpr ?_, Rat.floor_monotone ?_⟩
    · rw [Int.cast_zero]
      linarith
    · linarith

end Rational

/-- Exact arithmetic on rationals and NaN, which is `none`. A quotient by zero is NaN. -/
@[reducible]
def rationalNaN (exp : Rat → Rat) : Float64 (Option Rat) where
  add := Option.map₂ (· + ·)
  sub := Option.map₂ (· - ·)
  mul := Option.map₂ (· * ·)
  div a b := if b = some 0 then none else Option.map₂ (· / ·) a b
  neg := Option.map (-·)
  ofInt n := some n
  lt a b := (Option.map₂ (fun a b => decide (a < b)) a b).getD false
  eq a b := (Option.map₂ (fun a b => decide (a = b)) a b).getD false
  max := Option.map₂ fun a b => if a < b then b else a
  exp := Option.map exp
  round a := (a.map fun x => if x < 0 then -(-x + 1 / 2).floor else (x + 1 / 2).floor).getD 0

section RationalNaN

variable (exp : Rat → Rat) {a b : Option Rat}

theorem lt_iff :
    (rationalNaN exp).lt a b = true ↔ ∃ x y, a = some x ∧ b = some y ∧ x < y := by
  cases a with
  | none =>
    show false = true ↔ _
    simp
  | some x =>
    cases b with
    | none =>
      show false = true ↔ _
      simp
    | some y =>
      show decide (x < y) = true ↔ _
      simp

theorem eq_iff : (rationalNaN exp).eq a b = true ↔ ∃ x, a = some x ∧ b = some x := by
  cases a with
  | none =>
    show false = true ↔ _
    simp
  | some x =>
    cases b with
    | none =>
      show false = true ↔ _
      simp
    | some y =>
      show decide (x = y) = true ↔ _
      rw [decide_eq_true_iff]
      constructor
      · rintro rfl
        exact ⟨x, rfl, rfl⟩
      · rintro ⟨z, hx, hy⟩
        rw [Option.some.inj hx, Option.some.inj hy]

theorem isNaN_iff : @isNaN _ (rationalNaN exp) a = false ↔ ∃ x, a = some x := by
  unfold isNaN
  rw [Bool.not_eq_false', eq_iff]
  constructor
  · rintro ⟨x, hx, -⟩
    exact ⟨x, hx⟩
  · rintro ⟨x, hx⟩
    exact ⟨x, hx, hx⟩

theorem div_eq (m n : Int) (hn : 0 < n) :
    letI := rationalNaN exp
    (ofInt m / ofInt n : Option Rat) = some ((m : Rat) / (n : Rat)) := by
  have hne : ¬ (some (n : Rat) : Option Rat) = some 0 := by
    intro h
    have : (n : Rat) = 0 := Option.some.inj h
    have : n = 0 := by exact_mod_cast this
    omega
  exact if_neg hne

/-- Rationals with NaN obey the laws. -/
theorem rationalNaN_lawful : @Lawful _ (rationalNaN exp) := by
  refine @Lawful.mk _ (rationalNaN exp) ?_ ?_ ?_ ?_ ?_ ?_ ?_ ?_ ?_
  · intro a b c hab hbc
    obtain ⟨x, y, rfl, rfl, hxy⟩ := (lt_iff exp).mp hab
    obtain ⟨_, z, hy, rfl, hyz⟩ := (lt_iff exp).mp hbc
    obtain rfl := Option.some.inj hy
    exact (lt_iff exp).mpr ⟨x, z, rfl, rfl, by linarith⟩
  · intro a b ha hb hle
    obtain ⟨x, rfl⟩ := (isNaN_iff exp).mp ha
    obtain ⟨y, rfl⟩ := (isNaN_iff exp).mp hb
    refine (lt_iff exp).mpr ⟨y, x, rfl, rfl, ?_⟩
    by_contra hnot
    have hor : x < y ∨ x = y := by
      rcases lt_trichotomy x y with h | h | h
      · exact .inl h
      · exact .inr h
      · exact absurd h hnot
    have htrue : @le _ (rationalNaN exp) (some x) (some y) = true := by
      unfold le
      rw [Bool.or_eq_true]
      rcases hor with h | h
      · exact .inl ((lt_iff exp).mpr ⟨x, y, rfl, rfl, h⟩)
      · exact .inr ((eq_iff exp).mpr ⟨x, rfl, by rw [h]⟩)
    rw [htrue] at hle
    cases hle
  · intro a b c hab hbc
    obtain ⟨x, y, rfl, rfl, hxy⟩ := (lt_iff exp).mp hab
    obtain ⟨_, hy, rfl⟩ := (eq_iff exp).mp hbc
    obtain rfl := Option.some.inj hy
    exact (lt_iff exp).mpr ⟨x, y, rfl, rfl, hxy⟩
  · intro a b hab
    obtain ⟨x, rfl, rfl⟩ := (eq_iff exp).mp hab
    exact hab
  · intro a b hb
    cases b with
    | none => cases a <;> rfl
    | some y =>
      have : @isNaN _ (rationalNaN exp) (some y) = false := (isNaN_iff exp).mpr ⟨y, rfl⟩
      rw [this] at hb
      cases hb
  · intro n
    exact (isNaN_iff exp).mpr ⟨n, rfl⟩
  · intro m n hn hle
    exact (isNaN_iff exp).mpr ⟨_, div_eq exp m n hn⟩
  · intro m n hm hmn hn
    rw [div_eq exp m n (by omega)]
    refine (lt_iff exp).mpr ⟨_, 1, rfl, by simp [ofInt], ?_⟩
    have hn0 : (0 : Rat) < n := by exact_mod_cast (by omega : (0 : Int) < n)
    rw [div_lt_one hn0]
    exact_mod_cast hmn
  · intro m n hm hn hle
    rw [div_eq exp m n hn, ← Bool.not_eq_true, lt_iff]
    rintro ⟨x, y, hx, hy, hxy⟩
    obtain rfl := Option.some.inj hx
    have hy : y = 0 := by simpa [ofInt] using hy.symm
    have hm0 : (0 : Rat) ≤ m := by exact_mod_cast hm
    have hn0 : (0 : Rat) ≤ n := by exact_mod_cast hn.le
    have hquot : (0 : Rat) ≤ m / n := div_nonneg hm0 hn0
    rw [hy] at hxy
    linarith

end RationalNaN

end Kavora.Lib.Go.Float64
