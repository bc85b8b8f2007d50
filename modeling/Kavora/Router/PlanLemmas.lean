import Kavora.Router.Controller

/-!
# What a plan keeps

* `plan_verdicts`: the candidates of a plan are the backends, each eligible when no hard constraint
  excludes it, in some order.
* `plan_mapping`: planning adds and rebinds no affinity mapping.
-/

namespace Kavora.Router

open Lib Lib.Go BackendState

/-- Only an enforced decision that is no fallback prefers a backend and writes the table. -/
theorem Controller.preferredIDs_cases {F : Type} (c : Controller F) (decision : Decision F)
    (cacheKey : String) :
    c.preferredIDsForDecision decision cacheKey = ([], c) ∨
      decision.enforced = true ∧ decision.fallback = false ∧
        (c.preferredIDsForDecision decision cacheKey).1 = [decision.selected] := by
  unfold preferredIDsForDecision
  by_cases h : decision.enforced = false ∨ decision.fallback ∨ decision.selected = ""
  · rw [if_pos h]
    exact .inl rfl
  · rw [if_neg h]
    rw [not_or, not_or] at h
    exact .inr ⟨by simpa using h.1, by simpa using h.2.1, rfl⟩

variable {F : Type} [Float64 F]

/-- Which backends a list of candidates finds eligible. -/
def verdicts (candidates : List (Candidate F)) : List (String × Bool) :=
  candidates.map fun candidate => (candidate.backendID, candidate.eligible)

/-- The verdict of the hard constraints on a backend. -/
def verdict (backendPool : List String) (requirements : Map String String)
    (backend : BackendDescriptor) : String × Bool :=
  (backend.id, decide (exclusions backendPool requirements backend = []))

namespace Controller

variable {c : Controller F} {now : Time} {rollout : Rollout F} {request : RoutingRequest F}

theorem planCandidate_verdict {clock : Time} {cache : CacheState F} {backend : BackendDescriptor} :
    ((c.planCandidate now clock rollout request cache backend).1.backendID,
        (c.planCandidate now clock rollout request cache backend).1.eligible) =
      verdict rollout.assignment.backendPool request.requirements backend := by
  unfold planCandidate verdict
  dsimp only
  by_cases hexcluded : exclusions rollout.assignment.backendPool request.requirements backend = []
  · rw [if_neg (not_not.mpr (sortStrings_eq_nil.mpr hexcluded)), decide_eq_true hexcluded]
    rfl
  · rw [if_pos fun hnil => hexcluded (sortStrings_eq_nil.mp hnil), decide_eq_false hexcluded]
    rfl

theorem planCandidates_verdicts (clock : Nat → Time) {backends : List BackendDescriptor} {i : Nat}
    {cache : CacheState F} :
    verdicts (c.planCandidates now clock rollout request i backends cache).1 =
      backends.map (verdict rollout.assignment.backendPool request.requirements) := by
  induction backends generalizing i cache with
  | nil => rfl
  | cons backend backends ih =>
    rw [planCandidates, List.map_cons, ← ih, ← planCandidate_verdict]
    rfl

theorem planCandidates_mapping {clock : Nat → Time} {backends : List BackendDescriptor} {i : Nat}
    {cache : CacheState F} {tenant key mapped : String}
    (h : (c.planCandidates now clock rollout request i backends cache).2.mapping tenant key =
      some mapped) :
    cache.mapping tenant key = some mapped := by
  induction backends generalizing i cache with
  | nil => exact h
  | cons backend backends ih =>
    rw [planCandidates] at h
    have hnext := ih h
    unfold planCandidate at hnext
    dsimp only at hnext
    split at hnext
    · exact hnext
    · exact CacheState.mapping_matchCache hnext

end Controller

theorem vetoed_verdict (least : F) (candidate : Candidate F) :
    (vetoed least candidate).backendID = candidate.backendID ∧
      (vetoed least candidate).eligible = candidate.eligible := by
  unfold vetoed
  dsimp only
  split
  · exact ⟨rfl, rfl⟩
  · split <;> split <;> exact ⟨rfl, rfl⟩

theorem applyKVV2QueueVeto_verdicts (candidates : List (Candidate F)) :
    verdicts (applyKVV2QueueVeto candidates) = verdicts candidates := by
  unfold applyKVV2QueueVeto
  split
  · rfl
  · rename_i least _
    unfold verdicts
    rw [List.map_map]
    refine List.map_congr_left fun candidate _ => ?_
    obtain ⟨hid, heligible⟩ := vetoed_verdict least candidate
    rw [Function.comp_apply, hid, heligible]

/-- The selection sets the fields of the verdict on the request only. -/
theorem select_eq (env : Externals F) (mode : Mode) (decision : Decision F)
    (candidates : List (Candidate F)) :
    (select env mode decision candidates).candidates = decision.candidates ∧
      (select env mode decision candidates).enforced = decision.enforced := by
  induction candidates with
  | nil => exact ⟨rfl, rfl⟩
  | cons candidate candidates ih =>
    rw [select]
    split
    · exact ih
    split
    · exact ⟨rfl, rfl⟩
    split
    · exact ⟨rfl, rfl⟩
    split
    · exact ⟨rfl, rfl⟩
    · exact ⟨rfl, rfl⟩

namespace Controller

/-- A request under an experiment is assigned to the pool of one of the arms. -/
theorem rollout_backendPool (env : Externals F) (c : Controller F) (requestID : String)
    (now : Time) {experiment : Experiment.Controller F} (h : c.experiment = some experiment) :
    (c.rollout env requestID now).assignment.backendPool = experiment.config.control.backendPool ∨
      (c.rollout env requestID now).assignment.backendPool =
        experiment.config.treatment.backendPool := by
  unfold rollout
  rw [h]
  dsimp only
  split
  · exact .inl rfl
  · exact experiment.assign_backendPool env.sha64 requestID now

theorem plan_verdicts (env : Externals F) (c : Controller F) (now : Time) (clock : Nat → Time)
    (request : RoutingRequest F) (backends : List BackendDescriptor) :
    (verdicts (c.plan env now clock request backends).1.candidates).Perm
      (backends.map (verdict (c.rollout env request.requestID now).assignment.backendPool
        request.requirements)) := by
  unfold plan
  dsimp only
  rw [(select_eq env _ _ _).1]
  refine ((env.sorting.perm _ _).map _).trans ?_
  rw [← planCandidates_verdicts (c := c) clock]
  split
  · exact List.Perm.of_eq (applyKVV2QueueVeto_verdicts _)
  · exact List.Perm.refl _

theorem plan_mapping {env : Externals F} {c : Controller F} {now : Time} {clock : Nat → Time}
    {request : RoutingRequest F} {backends : List BackendDescriptor} {tenant key mapped : String}
    (h : (c.plan env now clock request backends).2.cache.mapping tenant key = some mapped) :
    c.cache.mapping tenant key = some mapped :=
  planCandidates_mapping h

end Controller

end Kavora.Router
