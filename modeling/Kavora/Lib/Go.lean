import Mathlib.Data.List.AList
import Mathlib.Data.List.Sort
import Mathlib.Algebra.Ring.Int.Defs
import Mathlib.Algebra.Ring.Nat

/-!
# Go's clocks, numbers, maps and sorting

* `Time`, `Duration`: nanoseconds; `Time.sub` saturates at the ends of `int64`.
* `Float64`: the arithmetic of `float64` that a program uses, over any type of numbers.
* `Map`: a map without duplicate keys; `Map.index` is the zero value for a missing key, and
  `Map.mapValues` replaces every value.
* `SortSlice`: `sort.Slice`, a permutation that is sorted when the comparison orders the elements of
  the list.
-/

namespace Kavora.Lib.Go

/-! ## Time -/

/-- Nanoseconds since the Unix epoch. -/
abbrev Time := Int

/-- `time.Duration`, in nanoseconds. -/
abbrev Duration := Int

namespace Time

/-- The zero `time.Time`: the first of January of year 1. -/
def zero : Time := -62135596800000000000

/-- `IsZero`. -/
def isZero (t : Time) : Bool := t = zero

/-- `time.UnixMilli`. -/
def unixMilli (ms : Int) : Time := ms * 1000000

/-- `Sub`, which saturates. -/
def sub (t u : Time) : Duration := max (-2 ^ 63) (min (2 ^ 63 - 1) (t - u))

/-- `Before`. -/
def before (t u : Time) : Bool := t < u

/-- `Add`. -/
def add (t : Time) (d : Duration) : Time := t + d

end Time

/-! ## Numbers -/

/-- The operations on `float64`. `max` and `exp` are those of `math`; `round` is
`int(math.Round(x))`. -/
class Float64 (F : Type) extends Add F, Sub F, Mul F, Div F, Neg F where
  ofInt : Int → F
  lt : F → F → Bool
  eq : F → F → Bool
  max : F → F → F
  exp : F → F
  round : F → Int

namespace Float64

variable {F : Type} [Float64 F]

/-- `a <= b`. -/
def le (a b : F) : Bool := lt a b || eq a b

/-- `math.Abs(a)`. -/
def abs (a : F) : F := if lt a (ofInt 0) then -a else if eq a (ofInt 0) then ofInt 0 else a

/-- `d.Seconds()`. -/
def seconds (d : Duration) : F :=
  ofInt (d.tdiv 1000000000) + ofInt (d.tmod 1000000000) / ofInt 1000000000

/-- Exact arithmetic on rationals; `exp` is any function. -/
@[reducible]
def rational (exp : Rat → Rat) : Float64 Rat where
  ofInt n := n
  lt a b := a < b
  eq a b := a = b
  max a b := if a < b then b else a
  exp := exp
  round x := if x < 0 then -(-x + 1 / 2).floor else (x + 1 / 2).floor

end Float64

/-- Wraps around at 64 bits. -/
def wrap64 (n : Int) : Int := n.bmod (2 ^ 64)

theorem wrap64_of_fits {n : Int} (hlow : -2 ^ 63 ≤ n) (hhigh : n < 2 ^ 63) : wrap64 n = n :=
  Int.bmod_eq_of_le (by omega) (by omega)

/-! ## Maps -/

/-- A map, as the list of its entries. -/
abbrev Map (κ β : Type) := AList fun _ : κ => β

namespace Map

variable {κ β : Type} [DecidableEq κ]

/-- `m[k]`, where `zero` is the zero value. -/
def index (m : Map κ β) (k : κ) (zero : β) : β := (m.lookup k).getD zero

/-- The map with `f` of each value. -/
def mapValues {γ : Type} (f : β → γ) (m : Map κ β) : Map κ γ where
  entries := m.entries.map fun entry => ⟨entry.1, f entry.2⟩
  nodupKeys := by
    have hkeys : (m.entries.map fun entry => (⟨entry.1, f entry.2⟩ : Sigma fun _ : κ => γ)).keys =
        m.entries.keys := by
      unfold List.keys
      rw [List.map_map]
      rfl
    unfold List.NodupKeys
    rw [hkeys]
    exact m.nodupKeys

theorem lookup_mapValues {γ : Type} (f : β → γ) (m : Map κ β) (k : κ) :
    (m.mapValues f).lookup k = (m.lookup k).map f := by
  obtain ⟨entries, hkeys⟩ := m
  unfold mapValues AList.lookup
  dsimp only
  clear hkeys
  induction entries with
  | nil => rfl
  | cons entry entries ih =>
    obtain ⟨key, value⟩ := entry
    rw [List.map_cons]
    by_cases h : key = k
    · subst h
      rw [List.dlookup_cons_eq, List.dlookup_cons_eq]
      rfl
    · rw [List.dlookup_cons_ne (β := fun _ => β) _ _ (Ne.symm h)]
      exact (List.dlookup_cons_ne (β := fun _ => γ) _ _ (Ne.symm h)).trans ih

theorem mapValues_congr {γ : Type} {f g : β → γ} {m : Map κ β}
    (h : ∀ k v, m.lookup k = some v → f v = g v) : m.mapValues f = m.mapValues g := by
  refine AList.ext (List.map_congr_left fun entry hentry => ?_)
  rw [h entry.1 entry.2 (List.mem_dlookup m.nodupKeys hentry)]

omit [DecidableEq κ] in
theorem mapValues_id (m : Map κ β) : m.mapValues (fun v => v) = m := AList.ext (List.map_id _)

omit [DecidableEq κ] in
theorem mapValues_mapValues {γ δ : Type} (f : β → γ) (g : γ → δ) (m : Map κ β) :
    (m.mapValues f).mapValues g = m.mapValues fun v => g (f v) :=
  AList.ext List.map_map

end Map

/-! ## Sorting and strings -/

/-- The comparison orders the elements of the list, some of them alike. -/
structure Orders {α : Type} (less : α → α → Bool) (l : List α) : Prop where
  asymm : ∀ a ∈ l, ∀ b ∈ l, less a b = true → less b a = false
  trans : ∀ a ∈ l, ∀ b ∈ l, ∀ c ∈ l, less b a = false → less c b = false → less c a = false

/-- `sort.Slice` with a comparison `less`. -/
structure SortSlice where
  sort : {α : Type} → (α → α → Bool) → List α → List α
  perm : ∀ {α : Type} (less : α → α → Bool) (l : List α), (sort less l).Perm l
  sorted : ∀ {α : Type} (less : α → α → Bool) (l : List α), Orders less l →
    (sort less l).Pairwise fun a b => less b a = false

/-- Insertion sort. -/
def SortSlice.insertion : SortSlice where
  sort less l := l.insertionSort fun a b => less b a = false
  perm less l := l.perm_insertionSort _
  sorted {α} less l h := by
    let r (a b : {a // a ∈ l}) : Prop := less b a = false
    have htotal : Std.Total r := by
      refine ⟨fun a b => ?_⟩
      cases hless : less b a with
      | false => exact .inl hless
      | true => exact .inr (h.asymm b b.2 a a.2 hless)
    have htrans : IsTrans _ r := ⟨fun a b c => h.trans a a.2 b b.2 c c.2⟩
    have hmap := List.map_insertionSort r (fun a b => less b a = false) Subtype.val l.attach
      fun a _ b _ => Iff.rfl
    rw [List.attach_map_subtype_val] at hmap
    rw [← hmap, List.pairwise_map]
    exact l.attach.pairwise_insertionSort r

/-- `sort.Strings`. -/
def sortStrings (l : List String) : List String := l.insertionSort (· ≤ ·)

theorem mem_sortStrings {l : List String} {s : String} : s ∈ sortStrings l ↔ s ∈ l :=
  (l.perm_insertionSort _).mem_iff

theorem sortStrings_eq_nil {l : List String} : sortStrings l = [] ↔ l = [] := by
  rw [List.eq_nil_iff_forall_not_mem, List.eq_nil_iff_forall_not_mem]
  exact forall_congr' fun s => not_congr mem_sortStrings

theorem sortStrings_nodup {l : List String} (h : l.Nodup) : (sortStrings l).Nodup :=
  (l.perm_insertionSort _).nodup_iff.mpr h

/-- What stands before and after the first separator. -/
theorem append_separator_inj {separator : Char} {a b c d : List Char} (ha : separator ∉ a)
    (hb : separator ∉ b) (h : a ++ separator :: c = b ++ separator :: d) : a = b ∧ c = d := by
  induction a generalizing b with
  | nil =>
    cases b with
    | nil =>
      rw [List.nil_append, List.nil_append] at h
      exact ⟨rfl, (List.cons.inj h).2⟩
    | cons x b =>
      have hx : separator = x := (List.cons.inj h).1
      exact absurd (hx ▸ List.mem_cons_self) hb
  | cons x a ih =>
    cases b with
    | nil =>
      have hx : x = separator := (List.cons.inj h).1
      exact absurd (hx ▸ List.mem_cons_self) ha
    | cons y b =>
      obtain ⟨hxy, h⟩ := List.cons.inj h
      obtain ⟨hab, hcd⟩ := ih (fun hmem => ha (List.mem_cons_of_mem _ hmem))
        (fun hmem => hb (List.mem_cons_of_mem _ hmem)) h
      rw [hxy, hab]
      exact ⟨rfl, hcd⟩

/-- What stands before and after the last separator. -/
theorem separator_append_inj {separator : Char} {a b c d : List Char} (hc : separator ∉ c)
    (hd : separator ∉ d) (h : a ++ separator :: c = b ++ separator :: d) : a = b ∧ c = d := by
  have h := congrArg List.reverse h
  simp only [List.reverse_append, List.reverse_cons, List.append_assoc, List.singleton_append] at h
  obtain ⟨hcd, hab⟩ := append_separator_inj (fun hmem => hc (List.mem_reverse.mp hmem))
    (fun hmem => hd (List.mem_reverse.mp hmem)) h
  exact ⟨List.reverse_injective hab, List.reverse_injective hcd⟩

theorem natText_toList (n : Nat) : (toString n).toList = Nat.toDigits 10 n := String.toList_ofList

theorem natText_injective {n m : Nat} (h : toString n = toString m) : n = m := by
  have h := congrArg String.toList h
  rw [natText_toList, natText_toList] at h
  rw [← Nat.ofDigitChars_ten_toDigits (n := n), h, Nat.ofDigitChars_ten_toDigits]

theorem notMem_natText {c : Char} (hc : c.isDigit = false) (n : Nat) :
    c ∉ (toString n).toList := by
  intro hmem
  rw [natText_toList] at hmem
  rw [Nat.isDigit_of_mem_toDigits (by decide) (by decide) hmem] at hc
  cases hc

/-- `strings.HasPrefix(s, initial)`. -/
def hasPrefix (s initial : String) : Bool := initial.toList.isPrefixOf s.toList

/-- `unicode.IsSpace`. -/
def isSpace (c : Char) : Bool :=
  [0x9, 0xA, 0xB, 0xC, 0xD, 0x20, 0x85, 0xA0, 0x1680, 0x2028, 0x2029, 0x202F, 0x205F,
    0x3000].contains c.toNat || (0x2000 ≤ c.toNat && c.toNat ≤ 0x200A)

/-- `strings.TrimSpace`. -/
def trimSpace (s : String) : String :=
  .ofList ((s.toList.dropWhile isSpace).reverse.dropWhile isSpace).reverse

end Kavora.Lib.Go
