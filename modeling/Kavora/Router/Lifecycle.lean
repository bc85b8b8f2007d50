import Kavora.Lib.Bytes
import Kavora.Lib.Go

/-!
# The rollout lifecycle (`gateway/internal/router/lifecycle.go`)

A policy is static, shadow, canary for a fraction of the requests, or enforced. A request is in the
canary when the hash of its ID samples below the fraction.

* `Lifecycle.new`: accepts a configuration.
* `Lifecycle.observe`: promotes by one step, or rolls back to static.
* `Lifecycle.approve`: records the approval that a promotion from shadow may need.
-/

namespace Kavora.Router

open Lib Lib.Go
open Float64 (ofInt)

/-- The stages of a rollout. -/
inductive LifecycleStage where
  | static | shadow | canary | enforced
  deriving DecidableEq, Repr

/-- The limits that an observation must keep. -/
structure LifecycleGates (F : Type) where
  maxP95RegressionPercent : F
  maxErrorDelta : F
  maxFallbackRate : F
  maxSLOViolationRate : F
  maxPredictionMAEMS : F
  maxEvidenceErrorRate : F
  requireExperimentPromotion : Bool

/-- The settings of a lifecycle. -/
structure LifecycleConfig (F : Type) where
  enabled : Bool
  requireHumanApproval : Bool
  policyVersion : String
  minRequests : Int
  canarySteps : List F
  gates : LifecycleGates F

/-- What was observed of a stage. -/
structure LifecycleObservation (F : Type) where
  requests : Int
  p95RegressionPercent : F
  errorDelta : F
  fallbackRate : F
  sloViolationRate : F
  stateHealthy : Bool
  policyHealthy : Bool
  predictionMAEMS : F
  evidenceErrorRate : F
  experimentPromotionEligible : Bool
  experimentIntegrityHealthy : Bool

/-- The lifecycle of a policy. -/
structure Lifecycle (F : Type) where
  config : LifecycleConfig F
  stage : LifecycleStage
  step : Nat
  lastReason : String
  approved : Bool
  approvedBy : String

/-- What others see of a lifecycle. -/
structure LifecycleSnapshot (F : Type) where
  stage : LifecycleStage
  canaryFraction : F
  policyVersion : String
  lastReason : String
  approvalRequired : Bool
  approved : Bool
  approvedBy : String

/-- FNV-1a with 64 bits. -/
def fnv64a (data : Bytes) : Nat :=
  data.foldl (fun hash byte => (hash ^^^ byte.toNat) * 1099511628211 % 2 ^ 64) 14695981039346656037

variable {F : Type} [Float64 F]

/-- A number from zero to one, which a request ID fixes. -/
def stableSample (requestID : String) : F :=
  Float64.ofInt (fnv64a (utf8 requestID) % 1000000 : Nat) / Float64.ofInt 1000000

/-! ## The gates -/

/-- A quality gate that fails. -/
def LifecycleGates.qualityFails (gates : LifecycleGates F) (observation : LifecycleObservation F) :
    Bool :=
  Float64.lt gates.maxP95RegressionPercent observation.p95RegressionPercent ||
    Float64.lt gates.maxErrorDelta observation.errorDelta ||
    Float64.lt gates.maxFallbackRate observation.fallbackRate ||
    Float64.lt gates.maxSLOViolationRate observation.sloViolationRate

/-- A gate on the predictions or the evidence that is set and fails. -/
def LifecycleGates.drifts (gates : LifecycleGates F) (observation : LifecycleObservation F) :
    Bool :=
  (Float64.lt (ofInt 0) gates.maxPredictionMAEMS &&
      Float64.lt gates.maxPredictionMAEMS observation.predictionMAEMS) ||
    (Float64.lt (ofInt 0) gates.maxEvidenceErrorRate &&
      Float64.lt gates.maxEvidenceErrorRate observation.evidenceErrorRate)

/-- The experiment does not allow a promotion. -/
def LifecycleGates.refusesPromotion (gates : LifecycleGates F)
    (observation : LifecycleObservation F) : Bool :=
  gates.requireExperimentPromotion &&
    (!observation.experimentPromotionEligible || !observation.experimentIntegrityHealthy)

namespace Lifecycle

/-! ## Accepting a configuration -/

/-- The loop over the canary steps. -/
def validSteps (previous : F) : List F → Bool
  | [] => true
  | step :: steps =>
    !(Float64.le step previous || Float64.le step (ofInt 0) || Float64.lt (ofInt 1) step) &&
      validSteps step steps

/-- The configuration with its defaults. -/
def withDefaults (config : LifecycleConfig F) : LifecycleConfig F :=
  { config with
    policyVersion := if config.policyVersion = "" then "routing-v1" else config.policyVersion
    minRequests := if config.minRequests ≤ 0 then 100 else config.minRequests
    canarySteps :=
      if config.canarySteps = [] then
        [ofInt 5 / ofInt 100, ofInt 25 / ofInt 100, ofInt 5 / ofInt 10, ofInt 1]
      else config.canarySteps }

/-- `NewLifecycle`, if the canary steps grow. -/
def new (config : LifecycleConfig F) : Except String (Lifecycle F) :=
  let config := withDefaults config
  if validSteps (ofInt 0) config.canarySteps then
    .ok
      { config
        stage := if config.enabled then .shadow else .static
        step := 0
        lastReason := "initialized"
        approved := false
        approvedBy := "" }
  else .error "canary_steps must be strictly increasing values in (0,1]"

/-! ## Reading it -/

/-- `Snapshot`; the step is an index of `canarySteps` in the canary stage. -/
def snapshot (lifecycle : Lifecycle F) : LifecycleSnapshot F where
  stage := lifecycle.stage
  canaryFraction :=
    match lifecycle.stage with
    | .canary => lifecycle.config.canarySteps.getD lifecycle.step (Float64.ofInt 0)
    | .enforced => Float64.ofInt 1
    | _ => Float64.ofInt 0
  policyVersion := lifecycle.config.policyVersion
  lastReason := lifecycle.lastReason
  approvalRequired := lifecycle.config.requireHumanApproval
  approved := lifecycle.approved
  approvedBy := lifecycle.approvedBy

/-- A request is routed by the policy. -/
def enforces (lifecycle : Lifecycle F) (requestID : String) : Bool :=
  lifecycle.snapshot.stage = .enforced ||
    (lifecycle.snapshot.stage = .canary &&
      Float64.lt (stableSample requestID) lifecycle.snapshot.canaryFraction)

/-! ## Changing it -/

/-- `Approve`, in the shadow stage of a lifecycle that needs an approval. -/
def approve (lifecycle : Lifecycle F) (approvedBy : String) : Lifecycle F :=
  if lifecycle.config.requireHumanApproval ∧ lifecycle.stage = .shadow ∧ approvedBy ≠ "" then
    { lifecycle with approved := true, approvedBy, lastReason := "human_approved" }
  else lifecycle

/-- The exits of `observe` that end the rollout. -/
def rollBack (lifecycle : Lifecycle F) (reason : String) : Lifecycle F :=
  { lifecycle with
    stage := .static
    step := 0
    lastReason := reason
    approved := false
    approvedBy := "" }

/-- The promotion by one step. -/
def promote (lifecycle : Lifecycle F) : Lifecycle F :=
  let lifecycle :=
    match lifecycle.stage with
    | .static => { lifecycle with stage := .shadow }
    | .shadow => { lifecycle with stage := .canary, step := 0 }
    | .canary =>
      if lifecycle.step + 1 < lifecycle.config.canarySteps.length then
        { lifecycle with step := lifecycle.step + 1 }
      else { lifecycle with stage := .enforced }
    | .enforced => lifecycle
  { lifecycle with lastReason := "quality_gates_passed" }

/-- `Observe`: an observation moves the rollout one step on, or ends it, or changes nothing but the
reason. -/
def observe (lifecycle : Lifecycle F) (observation : LifecycleObservation F) : Lifecycle F :=
  if lifecycle.config.enabled = false then
    { lifecycle with stage := .static, lastReason := "disabled" }
  else if observation.stateHealthy = false ∨ observation.policyHealthy = false then
    lifecycle.rollBack "unhealthy_state_or_policy"
  else if observation.requests < lifecycle.config.minRequests then
    { lifecycle with lastReason := "minimum_request_gate" }
  else if lifecycle.config.gates.qualityFails observation then
    lifecycle.rollBack "quality_gate_failed"
  else if lifecycle.config.gates.drifts observation then
    lifecycle.rollBack "prediction_or_evidence_drift"
  else if lifecycle.config.gates.refusesPromotion observation then
    lifecycle.rollBack "experiment_promotion_gate_failed"
  else if lifecycle.stage = .shadow ∧ lifecycle.config.requireHumanApproval ∧
      lifecycle.approved = false then
    { lifecycle with lastReason := "human_approval_required" }
  else lifecycle.promote

end Lifecycle

end Kavora.Router
