import Mathlib.Data.List.Induction

/-!
# Transition systems and their invariants

A component that takes one step after another is a `System`: its initial states and its labelled
steps. A property of every run is proved from an inductive invariant (`System.Inductive`): it holds
initially and every step keeps it.

* `System.Reach`: the states that a run reaches.
* `System.Inductive.reach`: an inductive invariant holds in every reachable state.
* `System.restrict`: the runs whose steps all meet a condition on the state before the step and
  its label.
* `System.after`: the runs that go on from a state.
* `System.Lockstep`: a system that takes the very steps of another one.
* `System.ofFun`: the runs of a step function.
-/

namespace Kavora.Lib

/-- States `σ` with steps labelled by `ι`. -/
structure System (σ ι : Type*) where
  init : σ → Prop
  step : σ → ι → σ → Prop

namespace System

variable {σ ι : Type*} {S : System σ ι}

/-- The states that a run reaches. -/
inductive Reach (S : System σ ι) : σ → Prop
  | init {s : σ} : S.init s → Reach S s
  | step {s s' : σ} {i : ι} : Reach S s → S.step s i s' → Reach S s'

/-- An inductive invariant: it holds initially and every step keeps it. -/
structure Inductive (S : System σ ι) (I : σ → Prop) : Prop where
  init : ∀ s, S.init s → I s
  step : ∀ s i s', I s → S.step s i s' → I s'

theorem Inductive.reach {I : σ → Prop} (h : S.Inductive I) {s : σ} (hs : S.Reach s) : I s := by
  induction hs with
  | init hi => exact h.init _ hi
  | step _ hst ih => exact h.step _ _ _ ih hst

/-- The runs of `S` whose steps all meet `C`. -/
def restrict (S : System σ ι) (C : σ → ι → Prop) : System σ ι where
  init := S.init
  step s i s' := S.step s i s' ∧ C s i

theorem Reach.restrict_mono {C D : σ → ι → Prop} (h : ∀ s i, C s i → D s i) {s : σ}
    (hs : (S.restrict C).Reach s) : (S.restrict D).Reach s := by
  induction hs with
  | init hi => exact .init hi
  | step _ hst ih => exact .step ih ⟨hst.1, h _ _ hst.2⟩

/-- A run that is computed step by step. -/
theorem Reach.foldlM {f : σ → ι → Option σ} (hf : ∀ s i s', f s i = some s' → S.step s i s')
    (inputs : List ι) {s s' : σ} (hs : S.Reach s) (h : inputs.foldlM f s = some s') :
    S.Reach s' := by
  induction inputs generalizing s with
  | nil =>
    obtain rfl := Option.some.inj h
    exact hs
  | cons i inputs ih =>
    rw [List.foldlM_cons] at h
    obtain ⟨next, hnext, h⟩ := Option.bind_eq_some_iff.mp h
    exact ih (.step hs (hf s i next hnext)) h

/-- The runs of `S` that go on from a state. -/
def after (S : System σ ι) (s₀ : σ) : System σ ι where
  init s := s = s₀
  step := S.step

theorem Reach.trans {s₀ s : σ} (h₀ : S.Reach s₀) (h : (S.after s₀).Reach s) : S.Reach s := by
  induction h with
  | init hs =>
    obtain rfl : _ = s₀ := hs
    exact h₀
  | step _ hstep ih => exact .step ih hstep

/-- `S` takes the steps of `S'`, and no others, in the states that `f` makes of those of `S'`. -/
structure Lockstep {τ : Type*} (S : System σ ι) (S' : System τ ι) (f : τ → σ) : Prop where
  init : ∀ s, S.init s ↔ ∃ q, s = f q ∧ S'.init q
  step : ∀ q i s, S.step (f q) i s ↔ ∃ q', s = f q' ∧ S'.step q i q'

/-- Systems in lockstep have the same runs. -/
theorem Lockstep.reach_iff {τ : Type*} {S' : System τ ι} {f : τ → σ} (h : S.Lockstep S' f) {s : σ} :
    S.Reach s ↔ ∃ q, s = f q ∧ S'.Reach q := by
  constructor
  · intro hs
    induction hs with
    | init hinit =>
      obtain ⟨q, rfl, hq⟩ := (h.init _).mp hinit
      exact ⟨q, rfl, .init hq⟩
    | step _ hstep ih =>
      obtain ⟨q, rfl, hq⟩ := ih
      obtain ⟨q', rfl, hq'⟩ := (h.step _ _ _).mp hstep
      exact ⟨q', rfl, .step hq hq'⟩
  · rintro ⟨q, rfl, hq⟩
    induction hq with
    | init hinit => exact .init ((h.init _).mpr ⟨_, rfl, hinit⟩)
    | step _ hstep ih => exact .step ih ((h.step _ _ _).mpr ⟨_, rfl, hstep⟩)

/-- The system of a total step function started in `s₀`. -/
def ofFun (s₀ : σ) (f : σ → ι → σ) : System σ ι where
  init s := s = s₀
  step s i s' := s' = f s i

end System

end Kavora.Lib
