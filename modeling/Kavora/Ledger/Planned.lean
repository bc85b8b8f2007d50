import Kavora.Ledger.DecisionLedger
import Kavora.Router.PlanReads

/-!
# Planned decisions in the ledger

`Plan` hands its decision to the ledger. The router and the ledger share the Go types; here the
ledger has its own ones, whose fields are those of the JSON documents.

* `Decision.ofPlan`: a planned decision as the ledger records it.
* `PlanCall`: a call of `Plan` under an experiment.
* `PlanCall.assigned`: what the decision says of the arm.
-/

namespace Kavora

open Lib Lib.Go
open Float64 (ofInt)

/-! ## Texts -/

/-- The name of a source in the records. -/
def Router.CacheSource.text : Router.CacheSource → String
  | .none => "none"
  | .affinity => "affinity"
  | .shadowIndex => "shadow_index"
  | .kvEvents => "kv_events"

namespace Ledger

variable {F : Type}

/-! ## Decisions -/

/-- The record of a candidate. -/
def Candidate.ofPlan (candidate : Router.Candidate F) : Candidate F where
  backendID := candidate.backendID
  eligible := candidate.eligible
  excludedBy := candidate.excludedBy
  prefixMatch := candidate.prefixMatch
  matchedTokens := .ofInt candidate.matchedTokens
  cacheSource := candidate.cacheSource.text
  cacheQuality := candidate.cacheQuality.text
  cacheConfidence := candidate.cacheConfidence
  evidenceQuality := candidate.evidenceQuality.text
  queueDepth := candidate.queueDepth
  queuePenaltyMS := candidate.queuePenaltyMS
  kvPressure := candidate.kvPressure
  recentPrefillRate := candidate.recentPrefillRate
  predictorVersion := candidate.predictorVersion
  predictedTTFTMS := candidate.predictedTTFTMS
  sloViolationProbability := candidate.sloViolationProbability
  stateConfidence := candidate.stateConfidence
  score := candidate.score
  reason := candidate.reason

/-- The candidates that were appended to a nil slice. -/
def appended (candidates : List (Router.Candidate F)) : Slice (Candidate F) :=
  if candidates.isEmpty then .nil else .of (candidates.map Candidate.ofPlan)

/-- A map as it is recorded. -/
def stringMap (m : Map String String) : StringMap :=
  m.entries.foldl (fun m entry => m.insert entry.1 entry.2) .empty

/-- A decision of `Plan`, which has no outcome and no prediction error yet. -/
def Decision.ofPlan (decision : Router.Decision F) : Decision F where
  requestID := decision.requestID
  tenantID := decision.tenantID
  cacheKey := decision.cacheKey
  hashAlignment := decision.hashAlignment
  externalCacheKeyCount := .ofNat decision.externalCacheKeyCount
  experimentID := decision.experimentID
  assignedPolicy := decision.assignedPolicy
  assignmentUnit := decision.assignmentUnit
  assignmentProbability := decision.assignmentProbability
  assignmentSeed := decision.assignmentSeed
  experimentWindow := decision.experimentWindow
  warmup := decision.warmup
  carryoverGuard := decision.carryoverGuard
  experimentActive := decision.experimentActive
  experimentStopReason := decision.experimentStopReason
  policyVersion := decision.policyVersion
  predictorVersion := decision.predictorVersion
  mode := decision.mode.text
  stage := decision.stage
  enforced := decision.enforced
  canaryFraction := decision.canaryFraction
  requirements := stringMap decision.requirements
  selected := decision.selected
  actualSelected := decision.actualSelected
  fallback := decision.fallback
  reason := decision.reason
  reasons := decision.reasons
  candidates := appended decision.candidates
  occurredAt := decision.occurredAt
  outcome := none
  predictionError := none

variable [Float64 F]

/-- A call of `Plan` of a router with an experiment, on any state and with any reads of the
lifecycle. -/
structure PlanCall (experiment : Experiment.Controller F) where
  controller : Router.Controller F
  assigns : controller.experiment = some experiment
  reads : Option (Router.LifecycleReads F)
  now : Time
  clock : Nat → Time
  request : Router.RoutingRequest F
  backends : List Router.BackendDescriptor

namespace PlanCall

variable {experiment : Experiment.Controller F} (env : Router.Externals F)
  (call : PlanCall experiment)

/-- The decision that the call returns. -/
def planned : Router.Decision F :=
  (call.controller.planWith env call.reads call.now call.clock call.request call.backends).1

/-- A call whose reads of the lifecycle nothing interrupts is `Controller.plan`. -/
theorem planned_eq_plan
    (h : call.reads = call.controller.readNow call.request.requestID) :
    call.planned env = (call.controller.plan env call.now call.clock call.request
      call.backends).1 := by
  unfold planned
  rw [Router.Controller.plan_eq, h]

/-- The decision that the call records. -/
def decision : Decision F := .ofPlan (call.planned env)

/-- The experiment is inactive at the time of the call, or the lifecycle does not enforce its
request. -/
def Unenforced : Prop :=
  experiment.Inactive call.now ∨ ∃ reads ∈ call.reads, reads.enforces = false

/-- A call has no outcome or error to record. -/
theorem planned_outcome :
    (call.planned env).outcome.isNone ∧ (call.planned env).predictionError.isNone := by
  obtain ⟨_, _, _, _, _, _, hplanned⟩ := call.controller.planWith_fields env call.reads call.now
    call.clock call.request call.backends
  unfold planned
  rw [hplanned]
  exact ⟨rfl, rfl⟩

/-- The assignment of a call. -/
def assignment : Experiment.Assignment F :=
  if call.reads.isSome ∧ ¬ (call.controller.stageRolloutWith call.reads).enforced then
    experiment.controlAssignment "lifecycle_not_enforced"
  else experiment.assign env.sha64 call.request.requestID call.now

theorem rollout_assignment :
    (call.controller.rolloutWith env call.reads call.request.requestID call.now).assignment =
      call.assignment env := by
  unfold Router.Controller.rolloutWith assignment
  rw [call.assigns]

/-- The decision records the assignment. -/
theorem decision_assignment (hid : (call.assignment env).experimentID ≠ "") :
    (call.decision env).experimentID = (call.assignment env).experimentID ∧
      (call.decision env).assignedPolicy = (call.assignment env).assignedPolicy ∧
      (call.decision env).assignmentProbability = (call.assignment env).assignmentProbability ∧
      (call.decision env).experimentWindow = (call.assignment env).experimentWindow ∧
      (call.decision env).carryoverGuard = (call.assignment env).carryoverGuard := by
  obtain ⟨_, _, _, _, _, _, hplanned⟩ := call.controller.planWith_fields env call.reads call.now
    call.clock call.request call.backends
  unfold decision planned
  rw [hplanned]
  unfold Router.Controller.newDecision
  simp only [rollout_assignment, if_pos hid]
  exact ⟨rfl, rfl, rfl, rfl, rfl⟩

/-- The assignment is inactive, or to the arm of its window or of its request. -/
theorem assignment_cases :
    (∃ assignment reason, assignment.experimentID = experiment.config.id ∧
      call.assignment env = experiment.inactiveAssignment assignment reason) ∨
    (¬ call.Unenforced ∧ ∃ assignment unit, assignment.experimentID = experiment.config.id ∧
      (assignment.experimentWindow = unit ∨ assignment.experimentWindow = "isolated-pool") ∧
      call.assignment env =
        experiment.armAssignment assignment (experiment.usesTreatment env.sha64 unit)) := by
  unfold assignment
  by_cases hcontrol : call.reads.isSome ∧
      ¬ (call.controller.stageRolloutWith call.reads).enforced
  · rw [if_pos hcontrol]
    exact .inl ⟨_, _, rfl, rfl⟩
  rw [if_neg hcontrol]
  rcases experiment.assign_cases env.sha64 call.request.requestID call.now with
    ⟨-, hinactive⟩ | ⟨hactive, harm⟩
  · exact .inl hinactive
  refine .inr ⟨?_, harm⟩
  rintro (hinactive | ⟨reads, hreads, henforces⟩)
  · exact hactive hinactive
  · rw [Option.mem_def.mp hreads] at hcontrol
    refine hcontrol ⟨rfl, ?_⟩
    show ¬ reads.enforces = true
    rw [henforces]
    exact Bool.false_ne_true

end PlanCall

/-! ## Arms -/

/-- The policy of the arm of a unit. -/
def armPolicy (sha64 : String → Nat) (experiment : Experiment.Controller F) (unit : String) :
    String :=
  if experiment.usesTreatment sha64 unit then experiment.config.treatment.policy
  else experiment.config.control.policy

/-- What a decision says of its arm. -/
structure Assigned (sha64 : String → Nat) (experiment : Experiment.Controller F)
    (d : Decision F) : Prop where
  policy : d.assignedPolicy = experiment.config.control.policy ∨
    d.assignedPolicy = experiment.config.treatment.policy
  probability : d.assignmentProbability = ofInt 1 ∨
    d.assignmentProbability = experiment.config.design.treatmentProbability ∨
    d.assignmentProbability = ofInt 1 - experiment.config.design.treatmentProbability
  /-- The policy of an unguarded decision is that of its window, except for isolated pools. -/
  window : d.carryoverGuard = true ∨ d.experimentWindow = "isolated-pool" ∨
    d.assignedPolicy = armPolicy sha64 experiment d.experimentWindow

namespace PlanCall

variable {experiment : Experiment.Controller F} (env : Router.Externals F)
  (call : PlanCall experiment) (hid : experiment.config.id ≠ "")

include hid

theorem assigned : Assigned env.sha64 experiment (call.decision env) := by
  rcases call.assignment_cases env with
    ⟨assignment, reason, hassignment, heq⟩ | ⟨-, assignment, unit, hassignment, hunit, heq⟩
  · have hne : (call.assignment env).experimentID ≠ "" := by
      rw [heq]
      exact hassignment.trans_ne hid
    obtain ⟨-, hpolicy, hprobability, -, hguard⟩ := call.decision_assignment env hne
    rw [heq] at hpolicy hprobability hguard
    exact ⟨.inl hpolicy, .inl hprobability, .inl hguard⟩
  · have hne : (call.assignment env).experimentID ≠ "" := by
      rw [heq]
      exact hassignment.trans_ne hid
    obtain ⟨-, hpolicy, hprobability, hwindow, -⟩ := call.decision_assignment env hne
    rw [heq] at hpolicy hprobability hwindow
    have hwindow : (call.decision env).experimentWindow = assignment.experimentWindow := hwindow
    have harm : (call.decision env).assignedPolicy = armPolicy env.sha64 experiment unit := by
      rw [hpolicy]
      unfold Experiment.Controller.armAssignment armPolicy
      cases experiment.usesTreatment env.sha64 unit with
      | false => rfl
      | true => rfl
    refine ⟨?_, ?_, ?_⟩
    · rw [harm, armPolicy]
      split
      · exact .inr rfl
      · exact .inl rfl
    · rw [hprobability]
      unfold Experiment.Controller.armAssignment
      cases experiment.usesTreatment env.sha64 unit with
      | false => exact .inr (.inr rfl)
      | true => exact .inr (.inl rfl)
    · rw [hwindow]
      rcases hunit with hunit | hunit
      · rw [hunit]
        exact .inr (.inr harm)
      · exact .inr (.inl hunit)

/-- A decision without enforcement is guarded. -/
theorem guarded_of_unenforced (h : call.Unenforced) :
    (call.decision env).carryoverGuard = true := by
  rcases call.assignment_cases env with ⟨assignment, reason, hassignment, heq⟩ | ⟨henforced, -⟩
  · have hne : (call.assignment env).experimentID ≠ "" := by
      rw [heq]
      exact hassignment.trans_ne hid
    obtain ⟨-, -, -, -, hguard⟩ := call.decision_assignment env hne
    rw [hguard, heq]
    rfl
  · exact absurd h henforced

end PlanCall

end Ledger

end Kavora
