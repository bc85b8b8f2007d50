import Mathlib.Algebra.BigOperators.Group.List.Basic
import Mathlib.Algebra.BigOperators.Group.List.Lemmas
import Mathlib.Data.UInt
import Mathlib.Algebra.Ring.Int.Defs
import Mathlib.Algebra.Order.BigOperators.Group.List
import Kavora.Lib.System

/-!
# Programs that interleave

Each program performs a list of effects on a shared state, one after another, and the effects of the
programs interleave in any way. A program's effects may depend on what it meets: its list is what they
turn out to be.

* `Pool.system`: the runs of programs that start at any time; `Pool.turn` computes them.
* `Pool.value_eq`: a quantity that each effect changes by its weight is the sum of the weights that
  were performed.
* `Pool.value_balanced`: if the weights of every program cancel, the programs that still run account
  for it.
* `Pool.value_map`, `Pool.balanced_map`: the same for a quantity that holds the sum only as it is
  mapped, as a counter of a machine word does.
-/

namespace Kavora.Lib

variable {V E σ M : Type*}

/-- A program that runs, with the effects it has performed and those that follow. -/
structure Process (trace : V → List E) where
  program : V
  done : List E
  rest : List E
  split : done ++ rest = trace program

namespace Process

variable {trace : V → List E}

/-- A process before its first effect. -/
def start (trace : V → List E) (program : V) : Process trace where
  program
  done := []
  rest := trace program
  split := List.nil_append _

/-- The process at its end. -/
def whole (trace : V → List E) (program : V) : Process trace where
  program
  done := trace program
  rest := []
  split := List.append_nil _

/-- The process after its next effect. -/
def advance (p : Process trace) {e : E} {rest : List E} (h : p.rest = e :: rest) :
    Process trace where
  program := p.program
  done := p.done ++ [e]
  rest
  split := by rw [List.append_assoc, List.singleton_append, ← h, p.split]

theorem done_prefix (p : Process trace) : p.done <+: trace p.program := ⟨p.rest, p.split⟩

theorem done_eq {p : Process trace} (h : p.rest = []) : p.done = trace p.program := by
  rw [← p.split, h, List.append_nil]

end Process

/-- Programs that run at once on a shared state. -/
structure Pool (trace : V → List E) (σ : Type*) where
  shared : σ
  live : List (Process trace)
  finished : List V

namespace Pool

variable {trace : V → List E}

/-- A process starts, performs its next effect or finishes. -/
inductive Label (V E : Type*) where
  | start (program : V)
  | perform (effect : E)
  | finish

/-- One step of one process. -/
inductive Step (apply : E → σ → σ) (s : Pool trace σ) : Label V E → Pool trace σ → Prop
  | start (program : V) :
    Step apply s (.start program) { s with live := s.live ++ [.start trace program] }
  | perform {before after : List (Process trace)} {p : Process trace} {e : E} {rest : List E} :
    s.live = before ++ p :: after → (h : p.rest = e :: rest) →
    Step apply s (.perform e)
      { s with shared := apply e s.shared, live := before ++ p.advance h :: after }
  | finish {before after : List (Process trace)} {p : Process trace} :
    s.live = before ++ p :: after → p.rest = [] →
    Step apply s .finish { s with live := before ++ after, finished := s.finished ++ [p.program] }

/-- Any interleaving of any processes. -/
def system (trace : V → List E) (apply : E → σ → σ) (s₀ : σ) : System (Pool trace σ) (Label V E) where
  init s := s = { shared := s₀, live := [], finished := [] }
  step := Step apply

/-- A turn of a run: a program starts, or the program at a position takes its next step. -/
inductive Turn (V : Type*) where
  | start (program : V)
  | go (position : Nat)

/-- The pool after a turn; a program without effects left is finished. -/
def turn (apply : E → σ → σ) (s : Pool trace σ) : Turn V → Option (Pool trace σ)
  | .start program => some { s with live := s.live ++ [.start trace program] }
  | .go position =>
    s.live[position]?.map fun p =>
      let before := s.live.take position
      let after := s.live.drop (position + 1)
      match h : p.rest with
      | [] => { s with live := before ++ after, finished := s.finished ++ [p.program] }
      | e :: _ => { s with shared := apply e s.shared, live := before ++ p.advance h :: after }

theorem turn_step {apply : E → σ → σ} {s s' : Pool trace σ} {t : Turn V}
    (h : turn apply s t = some s') : ∃ label, Step apply s label s' := by
  cases t with
  | start program =>
    cases h
    exact ⟨_, .start program⟩
  | go position =>
    obtain ⟨p, hp, rfl⟩ := Option.map_eq_some_iff.mp h
    obtain ⟨hlt, rfl⟩ := List.getElem?_eq_some_iff.mp hp
    have hlive : s.live = s.live.take position ++ s.live[position] ::
        s.live.drop (position + 1) := by
      rw [← List.drop_eq_getElem_cons hlt, List.take_append_drop]
    dsimp only
    split
    · rename_i hrest
      exact ⟨_, .finish hlive hrest⟩
    · rename_i e rest hrest
      exact ⟨_, .perform hlive hrest⟩

/-- A run that is computed turn by turn. -/
theorem turns_reach {apply : E → σ → σ} {s₀ : σ} {s s' : Pool trace σ} (turns : List (Turn V))
    (hs : (system trace apply s₀).Reach s) (h : turns.foldlM (turn apply) s = some s') :
    (system trace apply s₀).Reach s' := by
  induction turns generalizing s with
  | nil =>
    cases h
    exact hs
  | cons t turns ih =>
    rw [List.foldlM_cons] at h
    obtain ⟨next, hnext, h⟩ := Option.bind_eq_some_iff.mp h
    obtain ⟨label, hstep⟩ := turn_step hnext
    exact ih (.step hs hstep) h

/-- The weight of some effects. -/
def total [AddCommMonoid M] (weight : E → M) (effects : List E) : M := (effects.map weight).sum

section

variable [AddCommMonoid M] {weight : E → M}

@[simp] theorem total_nil : total weight [] = 0 := rfl

@[simp] theorem total_cons (e : E) (effects : List E) :
    total weight (e :: effects) = weight e + total weight effects := List.sum_cons

@[simp] theorem total_append (effects more : List E) :
    total weight (effects ++ more) = total weight effects + total weight more := by
  simp [total]

theorem total_eq_zero {effects : List E} (h : ∀ e ∈ effects, weight e = 0) :
    total weight effects = 0 := by
  induction effects with
  | nil => rfl
  | cons e effects ih =>
    obtain ⟨he, heffects⟩ := List.forall_mem_cons.mp h
    rw [total_cons, he, ih heffects, add_zero]

variable {apply : E → σ → σ} {s₀ : σ} {s : Pool trace σ}

/-- **A quantity is the sum of the weights that were performed.** -/
theorem value_eq (value : σ → M) (hvalue : ∀ e x, value (apply e x) = value x + weight e)
    (hs : (system trace apply s₀).Reach s) :
    value s.shared = value s₀ + (s.finished.map fun v => total weight (trace v)).sum +
      (s.live.map fun p => total weight p.done).sum := by
  induction hs with
  | init h =>
    rw [h]
    simp
  | step _ hstep ih =>
    cases hstep with
    | start program => simp [ih, Process.start]
    | perform hlive h =>
      dsimp only
      rw [hvalue, ih, hlive]
      simp [Process.advance, add_assoc, add_comm, add_left_comm]
    | finish hlive h =>
      dsimp only
      rw [ih, hlive]
      simp [Process.done_eq h, add_assoc, add_comm, add_left_comm]

/-- **What balances in every program** is up to the programs that still run. -/
theorem value_balanced (value : σ → M) (weight : E → M)
    (hvalue : ∀ e x, value (apply e x) = value x + weight e)
    (htrace : ∀ v, total weight (trace v) = 0) (hs : (system trace apply s₀).Reach s) :
    value s.shared = value s₀ + (s.live.map fun p => total weight p.done).sum := by
  have hfinished : (s.finished.map fun v => total weight (trace v)).sum = 0 := by
    simp [htrace]
  rw [value_eq value hvalue hs, hfinished, add_zero]

variable {N : Type*} [AddCommMonoid N]

/-- A mapped weight is the weight, mapped. -/
theorem total_map (f : N →+ M) (weight : E → N) (effects : List E) :
    total (f ∘ weight) effects = f (total weight effects) := by
  unfold total
  rw [map_list_sum, List.map_map]

/-- A quantity that holds a sum as it is mapped. -/
theorem value_map (f : N →+ M) (value : σ → M) (weight : E → N)
    (hvalue : ∀ e x, value (apply e x) = value x + f (weight e))
    (hs : (system trace apply s₀).Reach s) :
    value s.shared = value s₀ + f ((s.finished.map fun v => total weight (trace v)).sum +
      (s.live.map fun p => total weight p.done).sum) := by
  have hcomposed : ∀ e x, value (apply e x) = value x + (f ∘ weight) e := hvalue
  rw [value_eq value hcomposed hs, map_add, map_list_sum, map_list_sum, List.map_map,
    List.map_map, add_assoc]
  simp only [total_map]
  rfl

/-- What balances in every program, as it is mapped. -/
theorem balanced_map (f : N →+ M) (value : σ → M) (weight : E → N)
    (hvalue : ∀ e x, value (apply e x) = value x + f (weight e))
    (htrace : ∀ v, total weight (trace v) = 0) (hs : (system trace apply s₀).Reach s) :
    value s.shared = value s₀ + f (s.live.map fun p => total weight p.done).sum := by
  have hfinished : (s.finished.map fun v => total weight (trace v)).sum = 0 := by
    simp [htrace]
  rw [value_map f value weight hvalue hs, hfinished, zero_add]

end

/-! ## Brackets -/

theorem prefix_append_cases {done pre post : List E} (h : done <+: pre ++ post) :
    done <+: pre ∨ ∃ more, done = pre ++ more ∧ more <+: post := by
  rcases List.prefix_or_prefix_of_prefix h (List.prefix_append pre post) with hshort | ⟨more, rfl⟩
  · exact .inl hshort
  · exact .inr ⟨more, rfl, (List.prefix_append_right_inj pre).mp h⟩

section

variable {weight : E → Int} {pre mid post done : List E} {opening closing : E}

theorem total_prefix_zero (h : ∀ e ∈ mid, weight e = 0) (hdone : done <+: mid) :
    total weight done = 0 :=
  total_eq_zero fun e he => h e (hdone.subset he)

/-- Up to a closing effect. -/
theorem total_prefix_closing (hmid : ∀ e ∈ mid, weight e = 0) (hpost : ∀ e ∈ post, weight e = 0)
    (hclosing : weight closing = -1) (hdone : done <+: mid ++ closing :: post) :
    (closing ∈ done ∧ total weight done = -1) ∨ (closing ∉ done ∧ total weight done = 0) := by
  have hplain : ∀ {l : List E}, (∀ e ∈ l, weight e = 0) → closing ∉ l := fun h hmem => by
    have hzero := h closing hmem
    omega
  rcases prefix_append_cases hdone with hshort | ⟨more, rfl, hmore⟩
  · exact .inr ⟨fun hmem => hplain hmid (hshort.subset hmem), total_prefix_zero hmid hshort⟩
  · rw [total_append, total_eq_zero hmid, zero_add]
    cases more with
    | nil => exact .inr ⟨by simpa using hplain hmid, rfl⟩
    | cons e more =>
      obtain ⟨rfl, hrest⟩ := List.cons_prefix_cons.mp hmore
      rw [total_cons, total_prefix_zero hpost hrest, hclosing]
      exact .inl ⟨by simp, by omega⟩

/-- **A bracket**: of effects that open and close once, the part that was performed weighs one if it
has opened and not closed. -/
theorem total_bracket [DecidableEq E] (hpre : ∀ e ∈ pre, weight e = 0)
    (hmid : ∀ e ∈ mid, weight e = 0) (hpost : ∀ e ∈ post, weight e = 0)
    (hopening : weight opening = 1) (hclosing : weight closing = -1)
    (hdone : done <+: pre ++ opening :: (mid ++ closing :: post)) :
    total weight done = if opening ∈ done ∧ closing ∉ done then 1 else 0 := by
  have hplain : ∀ {l : List E}, (∀ e ∈ l, weight e = 0) → opening ∉ l ∧ closing ∉ l := fun h =>
    ⟨fun hmem => by have hzero := h _ hmem; omega, fun hmem => by have hzero := h _ hmem; omega⟩
  have hne : closing ≠ opening := fun heq => by rw [heq] at hclosing; omega
  rcases prefix_append_cases hdone with hshort | ⟨more, rfl, hmore⟩
  · rw [if_neg fun h => (hplain hpre).1 (hshort.subset h.1), total_prefix_zero hpre hshort]
  · rw [total_append, total_eq_zero hpre, zero_add]
    cases more with
    | nil =>
      rw [if_neg fun h => (hplain hpre).1 (by simpa using h.1)]
      rfl
    | cons e more =>
      obtain ⟨rfl, hrest⟩ := List.cons_prefix_cons.mp hmore
      rw [total_cons, hopening]
      rcases total_prefix_closing hmid hpost hclosing hrest with ⟨hmem, htotal⟩ | ⟨hmem, htotal⟩
      · rw [htotal, if_neg fun h => h.2 (by simp [hmem])]
        rfl
      · rw [htotal, if_pos ⟨by simp, by simp [hplain hpre, hne, hmem]⟩]
        rfl

end

/-! ## Counters -/

/-- What a counter of 64 bits makes of a number. -/
def uint64OfNat : Nat →+ UInt64 where
  toFun := UInt64.ofNat
  map_zero' := rfl
  map_add' := UInt64.ofNat_add

/-- Reduction to a machine word, which adds. -/
def uint64OfInt : Int →+ UInt64 where
  toFun := UInt64.ofInt
  map_zero' := rfl
  map_add' := UInt64.ofInt_add

theorem uint64OfInt_natCast (n : Nat) : uint64OfInt n = .ofNat n := by
  apply UInt64.toNat_inj.mp
  show (UInt64.ofNat _).toNat = _
  rw [UInt64.toNat_ofNat', UInt64.toNat_ofNat']
  omega

theorem uint64OfInt_ite (p : Prop) [Decidable p] :
    uint64OfInt (if p then 1 else 0) = if p then 1 else 0 := by
  split <;> rfl

theorem uint64OfNat_ite (p : Prop) [Decidable p] :
    uint64OfNat (if p then 1 else 0) = if p then 1 else 0 := by
  split <;> rfl

/-- A signed word is the same word without its sign. -/
theorem uint64OfInt_toInt (x : Int64) : uint64OfInt x.toInt = x.toUInt64 := by
  have hmod : x.toInt % 2 ^ 64 = x.toUInt64.toNat := by
    show x.toBitVec.toInt % 2 ^ 64 = x.toBitVec.toNat
    rw [BitVec.toInt_eq_toNat_bmod, show (2 : Int) ^ 64 = ((2 ^ 64 : Nat) : Int) by norm_cast,
      Int.bmod_emod]
    exact Int.emod_eq_of_lt (Int.natCast_nonneg _) (by exact_mod_cast x.toBitVec.isLt)
  apply UInt64.toNat_inj.mp
  show (UInt64.ofNat _).toNat = _
  rw [UInt64.toNat_ofNat', hmod, Int.toNat_natCast]
  exact Nat.mod_eq_of_lt x.toUInt64.toNat_lt

theorem int64_eq_ofNat {x : Int64} {n : Nat} (h : x.toUInt64 = .ofNat n) : x = .ofNat n := by
  rw [← Int64.toInt64_toUInt64 x, h]
  rfl

theorem sum_map_ite {α : Type*} (p : α → Prop) [DecidablePred p] (l : List α) :
    (l.map fun a => if p a then (1 : Int) else 0).sum = l.countP fun a => p a := by
  induction l with
  | nil => rfl
  | cons a l ih =>
    rw [List.map_cons, List.sum_cons, ih, List.countP_cons]
    by_cases h : p a
    · simp [h, add_comm]
    · simp [h]

end Pool

end Kavora.Lib
