import Mathlib.Order.Defs.Unbundled
import Kavora.Lib.GoFloat
import Kavora.Lib.PyDict

/-!
# What Python makes of a parsed document

* `PyError`: the exceptions that the operations on values raise.
* `Json.getItem?`, `Json.asFloat`, `Json.asInt`: `value.get(name)`, `float(value)`, `int(value)`.
* `Json.pyEq`: `a == b`.
* `Json.finiteFloat`, `Json.floatOrZero`: what is read of a value that may not be a number.
* `Finite`: the numbers that `math.isfinite` accepts, in their order.
-/

namespace Kavora.Lib

/-- The exceptions that a conversion raises. -/
inductive PyError where
  | attributeError | keyError | typeError | valueError | overflowError | zeroDivisionError
  deriving DecidableEq, Repr

/-- The built-in functions on the numbers of Python. -/
class PyNumber (F : Type) where
  /-- `float(text)` of a text that is not empty; `none` if the text is no number. -/
  floatOfText : String → Option F
  /-- `int(text)`; `none` if the text is no whole number. -/
  intOfText : String → Option Int
  /-- `int(x)` of a finite number. -/
  trunc : F → Int

/-- A number that `math.isfinite` accepts. -/
structure FiniteNumber (F : Type) [Go.FloatText F] where
  val : F
  isFinite : Go.FloatText.isFinite val = true

namespace Json

/-- `value.get(name)`. -/
def getItem? (value : Json) (name : String) : Except PyError (Option Json) :=
  match value with
  | .object ms => .ok (memberOf name ms)
  | _ => .error .attributeError

/-- `value[name]`. -/
def index (value : Json) (name : String) : Except PyError Json :=
  match value with
  | .object ms =>
    match memberOf name ms with
    | some item => .ok item
    | none => .error .keyError
  | _ => .error .typeError

/-- Whether a value can be a key of a dict. -/
def hashable : Option Json → Bool
  | some (.array _) => false
  | some (.object _) => false
  | _ => true

/-- The items that `for item in value` takes from a list; those of a dict or of a text are texts,
which no program here reads. -/
def items : Json → Except PyError (List Json)
  | .array values => .ok values
  | .object ms => .ok (ms.map fun member => .string member.1)
  | .string s => .ok (s.text.toList.map fun c => .string ⟨c.toString, true⟩)
  | _ => .error .typeError

section

variable (F : Type) [Go.Float64 F] [Go.FloatText F] [PyNumber F]

/-- `float(value)`. A whole number may be too large, a number with a point or an exponent becomes
infinite; an empty text is no number. -/
def asFloat : Json → Except PyError F
  | .number text =>
    match Go.FloatText.parseFloat text.toList with
    | some x => .ok x
    | none => .error .overflowError
  | .bool b => .ok (Go.Float64.ofInt (if b then 1 else 0))
  | .string s =>
    if s.text = "" then .error .valueError
    else
      match PyNumber.floatOfText s.text with
      | some x => .ok x
      | none => .error .valueError
  | _ => .error .typeError

/-- `int(value)`. -/
def asInt : Json → Except PyError Int
  | .number text =>
    match Go.parseInt text.toList with
    | some n => .ok n
    | none =>
      match (Go.FloatText.parseFloat text.toList : Option F) with
      | some x =>
        if Go.FloatText.isFinite x then .ok (PyNumber.trunc x)
        else if Go.Float64.isNaN x then .error .valueError
        else .error .overflowError
      | none => .error .overflowError
  | .bool b => .ok (if b then 1 else 0)
  | .string s =>
    match PyNumber.intOfText F s.text with
    | some n => .ok n
    | none => .error .valueError
  | _ => .error .typeError

/-- `float(value)` if it is finite, and nothing if the value is no number. That the value is too large
is not caught. -/
def finiteFloat : Option Json → Except PyError (Option (FiniteNumber F))
  | none => .ok none
  | some value =>
    match value.asFloat F with
    | .ok x => .ok (if h : Go.FloatText.isFinite x = true then some ⟨x, h⟩ else none)
    | .error .overflowError => .error .overflowError
    | .error _ => .ok none

/-- `float(value.get(name, 0))` of a dict. -/
def floatGet (value : Json) (name : String) : Except PyError F :=
  match value.member name with
  | some item => item.asFloat F
  | none => .ok (Go.Float64.ofInt 0)

mutual

/-- `a == b`. Numbers and booleans are equal by their value, and dicts by their items. -/
def pyEq : Json → Json → Bool
  | .null, .null => true
  | .string s, .string t => s.text = t.text
  | .array values, .array values' => pyEqValues values values'
  | .object ms, .object ms' =>
    (ms.map (·.1.text)).dedup.length = (ms'.map (·.1.text)).dedup.length && pyEqMembers ms ms'
  | a, b =>
    match a.toFloat F, b.toFloat F with
    | some x, some y => Go.Float64.eq x y
    | _, _ => false

/-- Lists are equal if their items are. -/
def pyEqValues : List Json → List Json → Bool
  | [], [] => true
  | a :: values, b :: values' => pyEq a b && pyEqValues values values'
  | _, _ => false

/-- The items of the first dict are items of the second one. -/
def pyEqMembers : List (JsonText × Json) → List (JsonText × Json) → Bool
  | [], _ => true
  | (name, a) :: ms, ms' =>
    (shadowed name ms ||
      match memberOf name.text ms' with
      | some b => pyEq a b
      | none => false) && pyEqMembers ms ms'

end

/-- `a == b`, where a missing value is `None`. -/
def getEq (a b : Option Json) : Bool := pyEq F (a.getD .null) (b.getD .null)

/-- `float(value or 0)`. -/
def floatOrZero (value : Option Json) : Except PyError F :=
  match value with
  | some value => if truthy F (some value) then value.asFloat F else .ok (Go.Float64.ofInt 0)
  | none => .ok (Go.Float64.ofInt 0)

end

end Json

/-- A number that counts as false is zero. -/
theorem Json.eq_zero_of_not_truthy {F : Type} [Go.Float64 F] [Go.FloatText F] [PyNumber F]
    [Go.Float64.Lawful F] {value : Json} {x : F} (h : value.asFloat F = .ok x)
    (hfalse : ¬ Json.truthy F (some value) = true) : Go.Float64.eq x (Go.Float64.ofInt 0) = true := by
  cases value with
  | null => cases h
  | array values => cases h
  | object ms => cases h
  | bool b =>
    cases b with
    | true => exact absurd rfl hfalse
    | false =>
      cases h
      have hnan := Go.Float64.Lawful.ofInt_not_nan (F := F) 0
      unfold Go.Float64.isNaN at hnan
      rwa [Bool.not_eq_false'] at hnan
  | number text =>
    cases hparse : (Go.FloatText.parseFloat text.toList : Option F) with
    | none =>
      simp only [Json.asFloat, hparse] at h
      cases h
    | some y =>
      simp only [Json.asFloat, hparse] at h
      cases h
      simpa [Json.truthy, hparse] using hfalse
  | string s =>
    by_cases hempty : s.text = ""
    · simp only [Json.asFloat, if_pos hempty] at h
      cases h
    · exact absurd (decide_eq_true hempty) hfalse

/-- What is read of a number is the number, up to the sign of a zero. -/
theorem Json.floatOrZero_of_asFloat {F : Type} [Go.Float64 F] [Go.FloatText F] [PyNumber F]
    [Go.Float64.Lawful F] {value : Json} {x : F} (hx : value.asFloat F = .ok x) :
    ∃ y, floatOrZero F (some value) = .ok y ∧
      (y = x ∨ y = Go.Float64.ofInt 0 ∧ Go.Float64.eq x (Go.Float64.ofInt 0) = true) := by
  unfold floatOrZero
  dsimp only
  by_cases htruthy : Json.truthy F (some value) = true
  · rw [if_pos htruthy]
    exact ⟨x, hx, .inl rfl⟩
  · rw [if_neg htruthy]
    exact ⟨_, rfl, .inr ⟨rfl, Json.eq_zero_of_not_truthy hx htruthy⟩⟩

theorem Json.getItem?_ok {value : Json} {name : String} {item : Option Json}
    (h : value.getItem? name = .ok item) : item = value.member name := by
  cases value with
  | object ms =>
    cases h
    rfl
  | _ => cases h

/-! ## Finite numbers -/

namespace FiniteNumber

open Go Float64

variable {F : Type} [Float64 F] [FloatText F] [Lawful F] [Irrefl F] [FiniteFloatText F]

omit [Lawful F] [Irrefl F] in
theorem not_nan (x : FiniteNumber F) : isNaN x.1 = false := by
  unfold isNaN
  rw [FiniteFloatText.eq_self x.2]
  rfl

theorem le_trans' {a b c : FiniteNumber F} (hab : le a.1 b.1 = true) (hbc : le b.1 c.1 = true) :
    le a.1 c.1 = true := by
  unfold le at hab hbc ⊢
  rw [Bool.or_eq_true] at hab hbc ⊢
  rcases hab with hab | hab <;> rcases hbc with hbc | hbc
  · exact .inl (Lawful.lt_trans hab hbc)
  · exact .inl (Lawful.lt_of_lt_of_eq hab hbc)
  · exact .inl (lt_of_eq_of_lt a.not_nan c.not_nan hab hbc)
  · exact .inr (eq_trans a.not_nan c.not_nan hab hbc)

omit [FiniteFloatText F] in
theorem lt_iff_le_not_ge' {a b : FiniteNumber F} :
    lt a.1 b.1 = true ↔ le a.1 b.1 = true ∧ ¬ le b.1 a.1 = true := by
  unfold le
  rw [Bool.or_eq_true, Bool.or_eq_true]
  constructor
  · intro hlt
    refine ⟨.inl hlt, ?_⟩
    rintro (hback | heq)
    · rw [lt_asymm hlt] at hback
      cases hback
    · have hne := not_eq_of_lt hlt
      rw [Lawful.eq_symm heq] at hne
      cases hne
  · rintro ⟨hlt | heq, hnot⟩
    · exact hlt
    · exact absurd (.inr (Lawful.eq_symm heq)) hnot

/-- Finite numbers by their value, whatever the sign of a zero. -/
instance : Preorder (FiniteNumber F) where
  le a b := le a.1 b.1 = true
  lt a b := lt a.1 b.1 = true
  le_refl a := by
    unfold le
    rw [FiniteFloatText.eq_self a.2, Bool.or_true]
  le_trans _ _ _ := le_trans'
  lt_iff_le_not_ge _ _ := lt_iff_le_not_ge'

theorem le_of_not_lt {a b : FiniteNumber F} (h : lt b.1 a.1 = false) : a ≤ b := by
  show le a.1 b.1 = true
  unfold le
  rw [Bool.or_eq_true]
  rcases trichotomy a.not_nan b.not_nan with hlt | heq | hgt
  · exact .inl hlt
  · exact .inr heq
  · rw [h] at hgt
    cases hgt

instance : Std.Total (α := FiniteNumber F) (· ≤ ·) where
  total a b := by
    cases hlt : lt b.1 a.1 with
    | false => exact .inl (le_of_not_lt hlt)
    | true =>
      have hle : b < a := hlt
      exact .inr hle.le

/-- Two finite numbers are equal if neither is less. -/
theorem eq_eq (a b : FiniteNumber F) : eq a.1 b.1 = (!lt a.1 b.1 && !lt b.1 a.1) := by
  rcases trichotomy a.not_nan b.not_nan with hlt | heq | hgt
  · rw [not_eq_of_lt hlt, hlt]
    rfl
  · have hnot : ∀ {x y : F}, eq x y = true → lt x y = false := fun heq =>
      Bool.eq_false_iff.mpr fun hlt => by
        rw [not_eq_of_lt hlt] at heq
        cases heq
    rw [heq, hnot heq, hnot (Lawful.eq_symm heq)]
    rfl
  · have hne : eq a.1 b.1 = false := Bool.eq_false_iff.mpr fun heq => by
      have hne := not_eq_of_lt hgt
      rw [Lawful.eq_symm heq] at hne
      cases hne
    rw [hne, hgt, Bool.not_true, Bool.and_false]

/-- Elements are ordered by a finite number. -/
theorem orders {α : Type} (key : α → FiniteNumber F) (l : List α) :
    Orders (fun a b => lt (key a).1 (key b).1) l where
  asymm _ _ _ _ h := lt_asymm h
  trans a _ b _ c _ hba hcb := by
    have hle : key a ≤ key c := (le_of_not_lt hba).trans (le_of_not_lt hcb)
    refine Bool.eq_false_iff.mpr fun hca => ?_
    have hlt : key c < key a := hca
    exact absurd hle (not_le_of_gt hlt)

end FiniteNumber

end Kavora.Lib
