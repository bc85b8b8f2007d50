import Mathlib.Data.List.Infix
import Mathlib.Logic.Function.Basic

/-!
# Regular expressions of Python (`re`)

A backtracking matcher is the list of its matches, the preferred one first.

* `Regex.results`: the matches from a text on, each with the rest of the text and the groups.
* `Regex.prefixMatch`: `pattern.match(text)`, the first of them.
* `Regex.Reads`: a match by the text that it takes; `reads_seq` and the like say what each operator
  takes.
* `prefixMatch_eq_some`: where only one match is possible, it is the one that is found.
-/

namespace Kavora.Lib

/-- Regular expressions with groups, whose first match counts. -/
inductive Regex where
  | empty
  /-- A character of a class. -/
  | one (p : Char → Bool)
  | seq (a b : Regex)
  /-- `a|b`. -/
  | alt (a b : Regex)
  /-- `a*`, as often as possible. -/
  | star (a : Regex)
  /-- `(a)`, the group of a number. -/
  | group (index : Nat) (a : Regex)
  /-- `$`. -/
  | atEnd

namespace Regex

instance : Append Regex := ⟨seq⟩

/-- One character. -/
def char (c : Char) : Regex := one (· = c)

/-- `.`. -/
def anyChar : Regex := one (· ≠ '\n')

/-- The characters of a text. -/
def text : List Char → Regex
  | [] => empty
  | c :: cs => char c ++ text cs

/-- `a?`. -/
def opt (a : Regex) : Regex := alt a empty

/-- `a+`. -/
def plus (a : Regex) : Regex := a ++ star a

/-! ## The matcher -/

/-- The texts of the groups; `none` is one that took no part. -/
abbrev Groups := Nat → Option (List Char)

/-- The text that is left and the groups so far. -/
structure State where
  rest : List Char
  groups : Groups

/-- The turns of a star; each takes a character at least. -/
def turns (step : State → List State) : Nat → State → List State
  | 0, s => [s]
  | fuel + 1, s =>
    ((step s).filter fun t => t.rest.length < s.rest.length).flatMap (turns step fuel) ++ [s]

/-- A group closes with the text from `s` to `t`. -/
def close (index : Nat) (s t : State) : State :=
  { t with
    groups :=
      Function.update t.groups index (some (s.rest.take (s.rest.length - t.rest.length))) }

/-- All matches, the preferred one first. -/
def results : Regex → State → List State
  | empty, s => [s]
  | one p, s =>
    match s.rest with
    | c :: rest => if p c then [{ s with rest }] else []
    | [] => []
  | seq a b, s => (a.results s).flatMap b.results
  | alt a b, s => a.results s ++ b.results s
  | star a, s => turns a.results s.rest.length s
  | group index a, s => (a.results s).map (close index s)
  | atEnd, s => if s.rest = [] ∨ s.rest = ['\n'] then [s] else []

/-- `pattern.match(text)`. -/
def prefixMatch (r : Regex) (text : List Char) : Option State :=
  (r.results { rest := text, groups := fun _ => none }).head?

/-- `match.group(index)`, where `None` is the empty text. -/
def State.group (s : State) (index : Nat) : List Char := (s.groups index).getD []

/-! ## Loops -/

section Turns

variable {step : State → List State}

/-- Fuel for each character of the text is enough. -/
theorem turns_succ {fuel : Nat} {s : State} (h : s.rest.length ≤ fuel) :
    turns step (fuel + 1) s = turns step fuel s := by
  induction fuel generalizing s with
  | zero =>
    have hnone : ((step s).filter fun t => t.rest.length < s.rest.length) = [] :=
      List.filter_eq_nil_iff.mpr fun t _ hlt => by
        have := of_decide_eq_true hlt
        omega
    unfold turns
    rw [hnone]
    rfl
  | succ fuel ih =>
    rw [turns, turns]
    congr 1
    refine List.flatMap_congr fun t ht => ih ?_
    have := of_decide_eq_true (List.mem_filter.mp ht).2
    omega

theorem turns_fuel {fuel : Nat} {s : State} (h : s.rest.length ≤ fuel) :
    turns step fuel s = turns step s.rest.length s := by
  induction fuel, h using Nat.le_induction with
  | base => rfl
  | succ fuel h ih => rw [turns_succ h, ih]

theorem turns_suffix (hstep : ∀ s, ∀ t ∈ step s, t.rest <:+ s.rest) {fuel : Nat} {s t : State}
    (h : t ∈ turns step fuel s) : t.rest <:+ s.rest := by
  induction fuel generalizing s with
  | zero =>
    rw [List.mem_singleton.mp h]
  | succ fuel ih =>
    rcases List.mem_append.mp h with h | h
    · obtain ⟨m, hm, ht⟩ := List.mem_flatMap.mp h
      exact (ih ht).trans (hstep s m (List.mem_filter.mp hm).1)
    · rw [List.mem_singleton.mp h]

end Turns

/-- A star takes a turn and goes on, or stops. -/
theorem results_star (a : Regex) (s : State) :
    (star a).results s =
      ((a.results s).filter fun t => t.rest.length < s.rest.length).flatMap (star a).results ++
        [s] := by
  have hfuel : (star a).results s = turns a.results (s.rest.length + 1) s :=
    (turns_succ le_rfl).symm
  rw [hfuel, turns]
  congr 1
  refine List.flatMap_congr fun t ht => ?_
  have := of_decide_eq_true (List.mem_filter.mp ht).2
  exact turns_fuel (by omega)

/-- A match leaves an end of the text. -/
theorem results_suffix {r : Regex} : ∀ {s t : State}, t ∈ r.results s → t.rest <:+ s.rest := by
  induction r with
  | empty =>
    intro s t h
    rw [List.mem_singleton.mp h]
  | one p =>
    intro s t h
    unfold results at h
    split at h
    · rename_i c rest hrest
      split at h
      · rw [List.mem_singleton.mp h, hrest]
        exact List.suffix_cons c rest
      · cases h
    · cases h
  | seq a b iha ihb =>
    intro s t h
    obtain ⟨m, hm, ht⟩ := List.mem_flatMap.mp h
    exact (ihb ht).trans (iha hm)
  | alt a b iha ihb =>
    intro s t h
    rcases List.mem_append.mp h with h | h
    · exact iha h
    · exact ihb h
  | star a ih => exact fun h => turns_suffix (fun _ _ ht => ih ht) h
  | group index a ih =>
    intro s t h
    obtain ⟨m, hm, rfl⟩ := List.mem_map.mp h
    exact ih (t := m) hm
  | atEnd =>
    intro s t h
    unfold results at h
    split at h
    · rw [List.mem_singleton.mp h]
    · cases h

/-! ## What a match takes -/

/-- The expression takes `xs` before `rest`, and the groups become `g'`. -/
def Reads (r : Regex) (xs rest : List Char) (g g' : Groups) : Prop :=
  { rest, groups := g' } ∈ r.results { rest := xs ++ rest, groups := g }

section Reads

variable {a b : Regex} {p : Char → Bool} {xs rest : List Char} {g g' : Groups}

/-- Every match takes a text. -/
theorem exists_reads {r : Regex} {s t : State} (h : t ∈ r.results s) :
    ∃ xs, s.rest = xs ++ t.rest ∧ r.Reads xs t.rest s.groups t.groups := by
  obtain ⟨xs, hxs⟩ := results_suffix h
  refine ⟨xs, hxs.symm, ?_⟩
  unfold Reads
  rw [hxs]
  exact h

theorem reads_empty : empty.Reads xs rest g g' ↔ xs = [] ∧ g' = g := by
  unfold Reads results
  rw [List.mem_singleton, State.mk.injEq, List.self_eq_append_left]

theorem reads_atEnd :
    atEnd.Reads xs rest g g' ↔ xs = [] ∧ g' = g ∧ (rest = [] ∨ rest = ['\n']) := by
  unfold Reads results
  constructor
  · intro h
    split at h
    · rename_i hend
      obtain ⟨hrest, hg⟩ := State.mk.inj (List.mem_singleton.mp h)
      have hxs := List.self_eq_append_left.mp hrest
      rw [hxs, List.nil_append] at hend
      exact ⟨hxs, hg, hend⟩
    · cases h
  · rintro ⟨rfl, rfl, hend⟩
    rw [List.nil_append, if_pos hend]
    exact List.mem_singleton.mpr rfl

theorem reads_one : (one p).Reads xs rest g g' ↔ ∃ c, xs = [c] ∧ p c = true ∧ g' = g := by
  unfold Reads results
  constructor
  · intro h
    split at h
    · rename_i c tail htail
      split at h
      · rename_i hc
        obtain ⟨rfl, hg⟩ := State.mk.inj (List.mem_singleton.mp h)
        exact ⟨c, List.append_cancel_right htail, hc, hg⟩
      · cases h
    · cases h
  · rintro ⟨c, rfl, hc, rfl⟩
    rw [List.singleton_append]
    dsimp only
    rw [if_pos hc]
    exact List.mem_singleton.mpr rfl

theorem reads_char {c : Char} : (char c).Reads xs rest g g' ↔ xs = [c] ∧ g' = g := by
  unfold char
  rw [reads_one]
  constructor
  · rintro ⟨d, rfl, hd, hg⟩
    rw [of_decide_eq_true hd]
    exact ⟨rfl, hg⟩
  · rintro ⟨rfl, hg⟩
    exact ⟨c, rfl, decide_eq_true rfl, hg⟩

theorem reads_seq {zs : List Char} :
    (a ++ b).Reads zs rest g g' ↔
      ∃ xs ys g₁, zs = xs ++ ys ∧ a.Reads xs (ys ++ rest) g g₁ ∧ b.Reads ys rest g₁ g' := by
  constructor
  · intro h
    obtain ⟨m, hm, ht⟩ := List.mem_flatMap.mp h
    obtain ⟨xs, hxs, hreads⟩ := exists_reads hm
    obtain ⟨ys, hys, hreads'⟩ := exists_reads ht
    dsimp only at hxs hys hreads hreads'
    rw [hys] at hxs hreads
    rw [← List.append_assoc] at hxs
    exact ⟨xs, ys, m.groups, List.append_cancel_right hxs, hreads, hreads'⟩
  · rintro ⟨xs, ys, g₁, rfl, hreads, hreads'⟩
    refine List.mem_flatMap.mpr ⟨_, ?_, hreads'⟩
    rw [List.append_assoc]
    exact hreads

theorem reads_alt : (alt a b).Reads xs rest g g' ↔ a.Reads xs rest g g' ∨ b.Reads xs rest g g' :=
  List.mem_append

theorem reads_opt : (opt a).Reads xs rest g g' ↔ a.Reads xs rest g g' ∨ xs = [] ∧ g' = g :=
  reads_alt.trans (or_congr_right reads_empty)

theorem reads_text {word : List Char} : (text word).Reads xs rest g g' ↔ xs = word ∧ g' = g := by
  induction word generalizing xs g with
  | nil => exact reads_empty
  | cons c word ih =>
    rw [text, reads_seq]
    constructor
    · rintro ⟨_, _, _, rfl, hc, hword⟩
      obtain ⟨rfl, rfl⟩ := reads_char.mp hc
      obtain ⟨rfl, rfl⟩ := ih.mp hword
      exact ⟨rfl, rfl⟩
    · rintro ⟨rfl, rfl⟩
      exact ⟨[c], word, g', rfl, reads_char.mpr ⟨rfl, rfl⟩, ih.mpr ⟨rfl, rfl⟩⟩

/-- A group holds the text that was taken. -/
theorem reads_group {index : Nat} :
    (group index a).Reads xs rest g g' ↔
      ∃ g₁, a.Reads xs rest g g₁ ∧ g' = Function.update g₁ index (some xs) := by
  have hclose : ∀ g₁ : Groups,
      close index { rest := xs ++ rest, groups := g } { rest, groups := g₁ } =
        { rest, groups := Function.update g₁ index (some xs) } := by
    intro g₁
    unfold close
    dsimp only
    rw [List.length_append, Nat.add_sub_cancel, List.take_left]
  constructor
  · intro h
    obtain ⟨m, hm, heq⟩ := List.mem_map.mp h
    have hrest : m.rest = rest := congrArg State.rest heq
    obtain ⟨mrest, g₁⟩ := m
    obtain rfl : mrest = rest := hrest
    rw [hclose] at heq
    exact ⟨g₁, hm, (congrArg State.groups heq).symm⟩
  · rintro ⟨g₁, hreads, rfl⟩
    exact List.mem_map.mpr ⟨_, hreads, hclose g₁⟩

/-- A star takes nothing, or a turn and the rest of the star. -/
theorem reads_star {zs : List Char} :
    (star a).Reads zs rest g g' ↔ zs = [] ∧ g' = g ∨
      ∃ xs ys g₁, xs ≠ [] ∧ zs = xs ++ ys ∧ a.Reads xs (ys ++ rest) g g₁ ∧
        (star a).Reads ys rest g₁ g' := by
  unfold Reads
  rw [results_star, List.mem_append, List.mem_singleton, State.mk.injEq, List.self_eq_append_left,
    or_comm]
  refine or_congr_right ?_
  constructor
  · intro h
    obtain ⟨m, hm, ht⟩ := List.mem_flatMap.mp h
    obtain ⟨hm, hlt⟩ := List.mem_filter.mp hm
    have hlt := of_decide_eq_true hlt
    obtain ⟨xs, hxs, hreads⟩ := exists_reads hm
    obtain ⟨ys, hys, hreads'⟩ := exists_reads ht
    dsimp only at hxs hys hreads hreads' hlt
    rw [hys] at hxs hreads
    refine ⟨xs, ys, m.groups, ?_, ?_, hreads, hreads'⟩
    · rintro rfl
      rw [hxs, hys, List.nil_append] at hlt
      exact Nat.lt_irrefl _ hlt
    · rw [← List.append_assoc] at hxs
      exact List.append_cancel_right hxs
  · rintro ⟨xs, ys, g₁, hne, rfl, hreads, hreads'⟩
    refine List.mem_flatMap.mpr ⟨_, List.mem_filter.mpr ⟨?_, ?_⟩, hreads'⟩
    · rw [List.append_assoc]
      exact hreads
    · have := List.length_pos_of_ne_nil hne
      simp only [List.length_append, decide_eq_true_eq]
      omega

/-- A star of a class takes characters of the class. -/
theorem reads_star_one :
    (star (one p)).Reads xs rest g g' ↔ (∀ c ∈ xs, p c = true) ∧ g' = g := by
  induction xs with
  | nil =>
    rw [reads_star]
    constructor
    · rintro (⟨-, hg⟩ | ⟨ys, zs, _, hne, heq, -⟩)
      · exact ⟨nofun, hg⟩
      · exact absurd (List.append_eq_nil_iff.mp heq.symm).1 hne
    · rintro ⟨-, hg⟩
      exact .inl ⟨rfl, hg⟩
  | cons c xs ih =>
    rw [reads_star]
    constructor
    · rintro (⟨hnil, -⟩ | ⟨ys, zs, g₁, -, heq, hone, hstar⟩)
      · cases hnil
      · obtain ⟨d, rfl, hd, rfl⟩ := reads_one.mp hone
        obtain ⟨rfl, rfl⟩ := List.cons.inj heq
        obtain ⟨hxs, hg⟩ := ih.mp hstar
        exact ⟨List.forall_mem_cons.mpr ⟨hd, hxs⟩, hg⟩
    · rintro ⟨hp, hg⟩
      obtain ⟨hc, hxs⟩ := List.forall_mem_cons.mp hp
      exact .inr ⟨[c], xs, g, List.cons_ne_nil _ _, rfl, reads_one.mpr ⟨c, rfl, hc, rfl⟩,
        ih.mpr ⟨hxs, hg⟩⟩

theorem reads_plus_one :
    (plus (one p)).Reads xs rest g g' ↔ xs ≠ [] ∧ (∀ c ∈ xs, p c = true) ∧ g' = g := by
  unfold plus
  rw [reads_seq]
  constructor
  · rintro ⟨_, ys, _, rfl, hone, hstar⟩
    obtain ⟨c, rfl, hc, rfl⟩ := reads_one.mp hone
    obtain ⟨hys, hg⟩ := reads_star_one.mp hstar
    exact ⟨List.cons_ne_nil _ _, List.forall_mem_cons.mpr ⟨hc, hys⟩, hg⟩
  · rintro ⟨hne, hp, rfl⟩
    obtain ⟨c, xs, rfl⟩ := List.exists_cons_of_ne_nil hne
    obtain ⟨hc, hxs⟩ := List.forall_mem_cons.mp hp
    exact ⟨[c], xs, g', rfl, reads_one.mpr ⟨c, rfl, hc, rfl⟩, reads_star_one.mpr ⟨hxs, rfl⟩⟩

end Reads

/-! ## Matching a text -/

variable {r : Regex} {s : State}

/-- What is found takes a beginning of the text. -/
theorem prefixMatch_reads {text : List Char} (h : r.prefixMatch text = some s) :
    ∃ xs, text = xs ++ s.rest ∧ r.Reads xs s.rest (fun _ => none) s.groups :=
  exists_reads (List.mem_of_head? h)

/-- The only possible match is found. -/
theorem prefixMatch_eq_some {xs rest : List Char} {g : Groups}
    (h : r.Reads xs rest (fun _ => none) g)
    (hunique : ∀ ys rest' g', xs ++ rest = ys ++ rest' → r.Reads ys rest' (fun _ => none) g' →
      rest' = rest ∧ g' = g) :
    r.prefixMatch (xs ++ rest) = some { rest, groups := g } := by
  cases hfound : r.prefixMatch (xs ++ rest) with
  | none =>
    unfold Reads at h
    rw [List.head?_eq_none_iff.mp hfound] at h
    cases h
  | some s =>
    obtain ⟨ys, hys, hreads⟩ := prefixMatch_reads hfound
    obtain ⟨hrest, hg⟩ := hunique ys s.rest s.groups hys hreads
    rw [← hrest, ← hg]

end Regex

/-! ## Texts that split in one way -/

section Split

variable {p : Char → Bool} {a b x y : List Char}

theorem head?_nil_class : ∀ c ∈ ([] : List Char).head?, p c = false := by
  intro c hc
  cases hc

theorem head?_cons_class {c : Char} (hc : p c = false) : ∀ d ∈ (c :: x).head?, p d = false := by
  rintro d ⟨rfl⟩
  exact hc

theorem head?_append_class (ha : ∀ c ∈ a, p c = false) (hx : ∀ c ∈ x.head?, p c = false) :
    ∀ c ∈ (a ++ x).head?, p c = false := by
  cases a with
  | nil => exact hx
  | cons c a => exact head?_cons_class (ha c List.mem_cons_self)

/-- The characters of a class that a text starts with. -/
theorem class_append_inj (ha : ∀ c ∈ a, p c = true) (hb : ∀ c ∈ b, p c = true)
    (hx : ∀ c ∈ x.head?, p c = false) (hy : ∀ c ∈ y.head?, p c = false)
    (h : a ++ x = b ++ y) : a = b ∧ x = y := by
  induction a generalizing b with
  | nil =>
    cases b with
    | nil => exact ⟨rfl, h⟩
    | cons d b =>
      have hd := hx d (by rw [← List.nil_append x, h]; rfl)
      rw [hb d List.mem_cons_self] at hd
      cases hd
  | cons c a ih =>
    obtain ⟨hc, ha⟩ := List.forall_mem_cons.mp ha
    cases b with
    | nil =>
      have hc' := hy c (by rw [← List.nil_append y, ← h]; rfl)
      rw [hc] at hc'
      cases hc'
    | cons d b =>
      obtain ⟨hcd, htail⟩ := List.cons.inj h
      obtain ⟨hab, hxy⟩ := ih ha (List.forall_mem_cons.mp hb).2 htail
      rw [hcd, hab]
      exact ⟨rfl, hxy⟩

end Split

end Kavora.Lib
