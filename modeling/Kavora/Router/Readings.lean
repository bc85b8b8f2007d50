import Kavora.Router.Evaluator
import Kavora.Router.Score

/-!
# What a plan reads of the states

A plan takes four numbers from the state of an eligible backend: the confidence of its age, the
queue, the pressure and the prefill rate.

* `Candidate.Reads`: these four. `Controller.plan_reads` says that every eligible candidate has
  those of its backend.
* `Controller.trusted`: what a plan should take them from, the fresh signals of a snapshot inside
  the maximum age.
-/

namespace Kavora.Router

open Lib Lib.Go BackendState
open Float64 (ofInt)

variable {F : Type} [Float64 F]

/-- The candidate has the numbers of a state. -/
structure Candidate.Reads (c : Controller F) (now : Time) (state : Snapshot F)
    (candidate : Candidate F) : Prop where
  stateConfidence : candidate.stateConfidence = c.stateConfidence now state
  queueDepth : candidate.queueDepth = signalValue state "queue_depth"
  kvPressure : candidate.kvPressure = Controller.pressure state
  recentPrefillRate : candidate.recentPrefillRate = Controller.prefillRate state

/-- The veto leaves them alone. -/
theorem Rollout.vetoOne_reads (rollout : Rollout F) (candidates : List (Candidate F))
    {c : Controller F} {now : Time} {state : Snapshot F} {candidate : Candidate F}
    (h : candidate.Reads c now state) :
    (rollout.vetoOne candidates candidate).Reads c now state := by
  unfold vetoOne
  split
  · split
    · exact h
    · rw [vetoed_eq]
      split
      · exact ⟨h.stateConfidence, h.queueDepth, h.kvPressure, h.recentPrefillRate⟩
      · exact h
  · exact h

namespace Controller

variable {c : Controller F} {now : Time} {rollout : Rollout F} {request : RoutingRequest F}

theorem planCandidates_reads (clock : Nat → Time) :
    ∀ (i : Nat) (backends : List BackendDescriptor) (cache : CacheState F),
      ∀ candidate ∈ (c.planCandidates now clock rollout request i backends cache).1,
        candidate.eligible = true →
          candidate.Reads c now (c.states.index candidate.backendID .zero)
  | _, [], _, _, hmem, _ => absurd hmem List.not_mem_nil
  | i, backend :: backends, cache, candidate, hmem, heligible => by
    rw [planCandidates] at hmem
    dsimp only at hmem
    obtain rfl | hmem := List.mem_cons.mp hmem
    · unfold planCandidate at heligible ⊢
      dsimp only at heligible ⊢
      split at heligible
      · cases heligible
      · rename_i hnot
        rw [if_neg hnot]
        exact ⟨rfl, rfl, rfl, rfl⟩
    · exact planCandidates_reads clock (i + 1) backends _ candidate hmem heligible

theorem plan_reads (env : Externals F) (clock : Nat → Time) (backends : List BackendDescriptor)
    {candidate : Candidate F}
    (hmem : candidate ∈ (c.plan env now clock request backends).1.candidates)
    (heligible : candidate.eligible = true) :
    candidate.Reads c now (c.states.index candidate.backendID .zero) := by
  rw [plan_eq_planFrom, planFrom_candidates] at hmem
  have hmem := (env.sorting.perm _ _).mem_iff.mp hmem
  rw [Rollout.veto_eq] at hmem
  obtain ⟨before, hbefore, rfl⟩ := List.mem_map.mp hmem
  obtain ⟨hid, hsame, -⟩ := Rollout.vetoOne_fields
    (c.rollout env request.requestID now) (c.planned env now clock request backends) before
  rw [hsame] at heligible
  rw [hid]
  exact Rollout.vetoOne_reads _ _ (planCandidates_reads clock 0 backends c.cache before hbefore
    heligible)

/-- The eligible candidates of a plan are the eligible backends. -/
theorem plan_eligible_iff (env : Externals F) (c : Controller F) (now : Time) (clock : Nat → Time)
    (request : RoutingRequest F) (backends : List BackendDescriptor) (id : String) :
    (∃ candidate ∈ (c.plan env now clock request backends).1.candidates,
      candidate.backendID = id ∧ candidate.eligible = true) ↔
    ∃ backend ∈ backends, backend.id = id ∧
      exclusions (c.rollout env request.requestID now).assignment.backendPool request.requirements
        backend = [] := by
  have hverdicts := c.plan_verdicts env now clock request backends
  have hmem : (∃ candidate ∈ (c.plan env now clock request backends).1.candidates,
      candidate.backendID = id ∧ candidate.eligible = true) ↔
      (id, true) ∈ verdicts (c.plan env now clock request backends).1.candidates := by
    unfold verdicts
    rw [List.mem_map]
    simp only [Prod.mk.injEq]
  rw [hmem, hverdicts.mem_iff, List.mem_map]
  unfold verdict
  simp only [Prod.mk.injEq, decide_eq_true_eq]

/-! ## Trust -/

omit [Float64 F] in
/-- The test of `Plan` for the maximum age is that of `Decide`. -/
theorem not_overAge_iff (c : Controller F) (now : Time) (state : Snapshot F) :
    c.maxStateAge ≤ 0 ∨
        ageAt now (Time.unixMilli state.observedAtUnixMillis) ≤ c.maxStateAge ↔
      ¬ c.OverAge now state := by
  unfold OverAge ageAt maxInt
  have hmax : ∀ age maxAge : Int,
      (maxAge ≤ 0 ∨ (if age > 0 then age else 0) ≤ maxAge ↔ ¬ (maxAge > 0 ∧ age > maxAge)) := by
    intro age maxAge
    split <;> omega
  exact hmax _ _

/-- The fresh signals of a state. -/
def freshSignals (state : Snapshot F) (name : String) : Option (Signal F) :=
  (state.signals.lookup name).filter fun signal => signal.quality = .fresh

/-- The time and the fresh signals of a snapshot inside the maximum age. -/
def trusted (c : Controller F) (now : Time) (state : Snapshot F) :
    Option (Int × (String → Option (Signal F))) :=
  if 0 < state.observedAtUnixMillis ∧ ¬ c.OverAge now state then
    some (state.observedAtUnixMillis, freshSignals state)
  else none

/-- The confidence comes from the trusted part of a state. -/
theorem stateConfidence_eq (c : Controller F) (now : Time) (state : Snapshot F) :
    c.stateConfidence now state =
      match c.trusted now state with
      | none => ofInt 0
      | some (observedAt, _) =>
        confidenceForAge (ageAt now (Time.unixMilli observedAt)) c.stateLambda := by
  unfold stateConfidence trusted
  by_cases hobserved : 0 < state.observedAtUnixMillis
  · rw [if_pos hobserved]
    dsimp only
    by_cases hage : c.OverAge now state
    · rw [if_neg (by rw [not_overAge_iff]; exact not_not.mpr hage),
        if_neg (not_and_not_right.mpr fun _ => hage)]
    · rw [if_pos ((not_overAge_iff c now state).mpr hage), if_pos ⟨hobserved, hage⟩]
  · rw [if_neg hobserved, if_neg fun h : _ ∧ _ => hobserved h.1]

/-- The value of a signal comes from the fresh ones. -/
theorem signalValue_eq (state : Snapshot F) (name : String) :
    signalValue state name =
      match freshSignals state name with
      | none => ofInt 0
      | some signal => if signal.hasValue = false then ofInt 0 else signal.value := by
  unfold signalValue value freshSignals
  cases state.signals.lookup name with
  | none => rfl
  | some signal =>
    cases hquality : signal.quality with
    | fresh => cases hhas : signal.hasValue <;> simp [Option.filter, hquality, hhas]
    | stale | missing | invalid | other =>
      cases hhas : signal.hasValue <;> simp [Option.filter, hquality, hhas]

theorem signalValue_congr_fresh {state state' : Snapshot F} {name : String}
    (h : freshSignals state' name = freshSignals state name) :
    signalValue state' name = signalValue state name := by
  rw [signalValue_eq, signalValue_eq, h]

end Controller

end Kavora.Router
