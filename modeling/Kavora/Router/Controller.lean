import Kavora.Router.Decision
import Kavora.Router.Lifecycle
import Kavora.Experiment.Controller

/-!
# Planning a request (`Controller.Plan` in `gateway/internal/router/controller.go`)

`Controller.plan` decides how a request is routed: the mode from the lifecycle and the experiment,
a candidate for each backend with its exclusions and its score, and the selected backend. The
ledger that records the decision is not part of this module.

* `exclusions`: the hard constraints that a backend fails.
* `planCandidate`: one candidate. The match may touch the cache state.
* `preferredIDsForDecision`: the backend to prefer, which the affinity table then remembers.
-/

namespace Kavora.Router

open Lib Lib.Go BackendState
open Float64 (ofInt)

/-- What the router links. -/
structure Externals (F : Type) where
  sorting : SortSlice
  /-- The first eight bytes of the SHA-256 of a text. -/
  sha64 : String → Nat
  /-- `%.nf` of a number. -/
  fixed : Nat → F → String

/-- The router: its settings, the states of the backends and the providers. -/
structure Controller (F : Type) where
  mode : Mode
  states : Map String (Snapshot F)
  cache : CacheState F
  predictor : TTFTPredictor F
  lifecycle : Option (Lifecycle F)
  experiment : Option (Experiment.Controller F)
  maxStateAge : Duration
  stateLambda : F

section Plan

variable {F : Type} [Float64 F]

/-! ## The mode -/

/-- What the lifecycle and the experiment say about a request. -/
structure Rollout (F : Type) where
  mode : Mode
  stage : String
  fraction : F
  enforced : Bool
  version : String
  assignment : Experiment.Assignment F

/-- The mode of a stage. -/
def LifecycleStage.mode : LifecycleStage → Mode
  | .static => .static
  | .shadow => .shadow
  | .canary => .enforced
  | .enforced => .enforced

/-- The text of a stage. -/
def LifecycleStage.text : LifecycleStage → String
  | .static => "static"
  | .shadow => "shadow"
  | .canary => "canary"
  | .enforced => "enforced"

/-- The mode that an assigned policy sets. -/
def policyMode (assignedPolicy : String) (mode : Mode) : Mode :=
  if assignedPolicy = "static" then .static
  else if assignedPolicy = "load-aware" then .loadAware
  else if assignedPolicy = "kv-v1" ∨ assignedPolicy = "kv-v2" then .enforced
  else mode

/-- The modes that route by signals. -/
def Mode.enforcing (mode : Mode) : Bool := mode = .enforced || mode = .loadAware

namespace Controller

/-- The rollout of the lifecycle's stage, or of the mode without one. -/
def stageRollout (c : Controller F) (requestID : String) : Rollout F :=
  match c.lifecycle with
  | none =>
    { mode := c.mode
      stage := c.mode.text
      fraction := ofInt 1
      enforced := c.mode.enforcing
      version := "routing-v1"
      assignment := .zero }
  | some lifecycle =>
    { mode := lifecycle.snapshot.stage.mode
      stage := lifecycle.snapshot.stage.text
      fraction := lifecycle.snapshot.canaryFraction
      enforced := lifecycle.enforces requestID
      version := lifecycle.snapshot.policyVersion
      assignment := .zero }

/-- The rollout of a request, with the arm of its experiment. -/
def rollout (env : Externals F) (c : Controller F) (requestID : String) (now : Time) : Rollout F :=
  let r := c.stageRollout requestID
  match c.experiment with
  | none => r
  | some experiment =>
    let assignment :=
      if c.lifecycle.isSome ∧ ¬ r.enforced then
        experiment.controlAssignment "lifecycle_not_enforced"
      else experiment.assign env.sha64 requestID now
    let mode := policyMode assignment.assignedPolicy r.mode
    { r with
      mode
      assignment
      enforced := if c.lifecycle.isSome then r.enforced && mode.enforcing else mode.enforcing }

end Controller

/-! ## Candidates -/

/-- The hard constraints that a backend fails. -/
def exclusions (backendPool : List String) (requirements : Map String String)
    (backend : BackendDescriptor) : List String :=
  (if backendPool ≠ [] ∧ backend.id ∉ backendPool then ["experiment_backend_pool"] else []) ++
    requirements.entries.filterMap fun requirement =>
      if backend.attributes.index requirement.1 "" ≠ requirement.2 then
        some (requirement.1 ++ "=" ++ requirement.2)
      else none

/-- A candidate before its constraints and its score. -/
def Candidate.new (backendID : String) : Candidate F where
  backendID := backendID
  eligible := true
  excludedBy := []
  prefixMatch := ofInt 0
  matchedTokens := 0
  cacheSource := .none
  cacheQuality := .missing
  cacheConfidence := ofInt 0
  evidenceQuality := .unset
  queueDepth := ofInt 0
  queuePenaltyMS := ofInt 0
  kvPressure := ofInt 0
  recentPrefillRate := ofInt 0
  predictorVersion := ""
  predictedTTFTMS := ofInt 0
  sloViolationProbability := ofInt 0
  stateConfidence := ofInt 0
  score := ofInt 0
  reason := "eligible"

/-- A signal that counts: fresh and with a value. -/
def signalValue (snapshot : Snapshot F) (name : String) : F :=
  match value snapshot name with
  | none => ofInt 0
  | some v =>
    if (snapshot.signals.lookup name).map (·.quality) ≠ some .fresh then ofInt 0 else v

namespace Controller

/-- The confidence in a state, by its age. -/
def stateConfidence (c : Controller F) (now : Time) (state : Snapshot F) : F :=
  if state.observedAtUnixMillis > 0 then
    let age := ageAt now (Time.unixMilli state.observedAtUnixMillis)
    if c.maxStateAge ≤ 0 ∨ age ≤ c.maxStateAge then confidenceForAge age c.stateLambda else ofInt 0
  else ofInt 0

/-- The prefill rate of a backend, the recent one if it is known. -/
def prefillRate (state : Snapshot F) : F :=
  let rate := signalValue state "recent_prefill_tokens_per_second"
  if Float64.eq rate (ofInt 0) then signalValue state "prefill_tokens_per_second" else rate

/-- The pressure on a backend's cache. -/
def pressure (state : Snapshot F) : F :=
  let kvPressure := signalValue state "kv_pressure"
  if Float64.eq kvPressure (ofInt 0) then
    match value state "cold_free_perc" with
    | some coldFree => ofInt 1 - clamp01 coldFree
    | none => kvPressure
  else kvPressure

/-- The score of an eligible backend from its state and its evidence. -/
def scored (c : Controller F) (now : Time) (mode : Mode) (request : RoutingRequest F)
    (backend : BackendDescriptor) (state : Snapshot F) (evidence : CacheEvidence F) :
    Candidate F :=
  let stateConfidence := c.stateConfidence now state
  let queueDepth := signalValue state "queue_depth"
  let kvPressure := pressure state
  let recentPrefillRate := prefillRate state
  let predictor :=
    if c.predictor.matches request.model backend.attributes then c.predictor else .default
  let predicted :=
    predictor.predict request.promptTokens evidence.matchedTokens queueDepth kvPressure
      recentPrefillRate
  let violation := predictor.violationProbability predicted request.ttftSloMS
  let confidence :=
    if mode = .loadAware then Float64.max stateConfidence (ofInt 1 / ofInt 100)
    else evidence.confidence
  { (Candidate.new backend.id : Candidate F) with
    prefixMatch := evidence.matchRatio
    matchedTokens := evidence.matchedTokens
    cacheSource := evidence.source
    cacheQuality := evidence.quality
    cacheConfidence := evidence.confidence
    evidenceQuality :=
      if evidence.evidenceQuality = .unset then .missing else evidence.evidenceQuality
    queueDepth
    queuePenaltyMS := predictor.queuePenaltyMS
    kvPressure
    recentPrefillRate
    predictorVersion := predictor.version
    predictedTTFTMS := predicted
    sloViolationProbability := violation
    stateConfidence
    score := confidence * (evidence.matchRatio * ofInt 100 - queueDepth * ofInt 8 -
      kvPressure * ofInt 35 - violation * ofInt 60)
    reason := "confidence_weighted_cache_queue_slo" }

/-- The candidate of one backend; `clock` is the time that the provider reads. -/
def planCandidate (c : Controller F) (now clock : Time) (rollout : Rollout F)
    (request : RoutingRequest F) (cache : CacheState F) (backend : BackendDescriptor) :
    Candidate F × CacheState F :=
  let excludedBy :=
    sortStrings (exclusions rollout.assignment.backendPool request.requirements backend)
  if excludedBy ≠ [] then
    ({ (Candidate.new backend.id : Candidate F) with
       eligible := false
       excludedBy
       reason := "hard_constraint_mismatch" }, cache)
  else
    let state := c.states.index backend.id .zero
    let (evidence, cache) := cache.matchCache clock
      { requestID := request.requestID
        tenantID := request.tenantID
        cacheKey := request.cacheKey
        externalCacheKeys := request.externalCacheKeys
        promptTokens := request.promptTokens }
      { id := backend.id, state }
    (c.scored now rollout.mode request backend state evidence, cache)

/-- The candidates in order; `clock i` is the time that the provider reads for the `i`-th. -/
def planCandidates (c : Controller F) (now : Time) (clock : Nat → Time) (rollout : Rollout F)
    (request : RoutingRequest F) :
    Nat → List BackendDescriptor → CacheState F → List (Candidate F) × CacheState F
  | _, [], cache => ([], cache)
  | i, backend :: backends, cache =>
    let (candidate, cache) := c.planCandidate now (clock i) rollout request cache backend
    let (candidates, cache) := c.planCandidates now clock rollout request (i + 1) backends cache
    (candidate :: candidates, cache)

end Controller

/-! ## Veto and order -/

/-- The least queue of the eligible candidates; `none` is infinity. -/
def leastQueue (candidates : List (Candidate F)) : Option F :=
  candidates.foldl
    (fun least candidate =>
      if candidate.eligible then
        match least with
        | none => some candidate.queueDepth
        | some least =>
          if Float64.lt candidate.queueDepth least then some candidate.queueDepth else some least
      else least)
    none

/-- The candidate without the gain of its cache where its queue costs more. -/
def vetoed (least : F) (candidate : Candidate F) : Candidate F :=
  if ¬ candidate.eligible ∨ candidate.matchedTokens ≤ 0 ∨
      Float64.le candidate.queueDepth least then candidate
  else
    let prefillRate :=
      if Float64.le candidate.recentPrefillRate (ofInt 0) then ofInt 8000
      else candidate.recentPrefillRate
    let cacheBenefitMS := ofInt candidate.matchedTokens / prefillRate * ofInt 1000
    let queuePenaltyMS := (candidate.queueDepth - least) * candidate.queuePenaltyMS
    if Float64.lt cacheBenefitMS queuePenaltyMS then
      { candidate with
        score := candidate.score - ofInt 1000000
        reason := "queue_penalty_exceeds_cache_benefit" }
    else candidate

/-- `applyKVV2QueueVeto`. -/
def applyKVV2QueueVeto (candidates : List (Candidate F)) : List (Candidate F) :=
  match leastQueue candidates with
  | none => candidates
  | some least => candidates.map (vetoed least)

/-- The comparison of `sortCandidates`. -/
def Candidate.less (a b : Candidate F) : Bool :=
  if a.eligible ≠ b.eligible then a.eligible
  else if Float64.eq a.score b.score then a.backendID < b.backendID
  else Float64.lt b.score a.score

/-- The candidates in their order. -/
def sortCandidates (sorting : SortSlice) (candidates : List (Candidate F)) : List (Candidate F) :=
  sorting.sort Candidate.less candidates

/-- The version of the predictors that were used. -/
def predictorVersions (candidates : List (Candidate F)) : String :=
  let versions := (candidates.filter fun candidate =>
    candidate.eligible && candidate.predictorVersion ≠ "").map (·.predictorVersion)
  match versions with
  | [] => ""
  | version :: versions => if versions.any (· ≠ version) then "mixed" else version

/-! ## The decision -/

/-- The loop over the sorted candidates: the first eligible one decides. -/
def select (env : Externals F) (mode : Mode) (decision : Decision F) :
    List (Candidate F) → Decision F
  | [] => { decision with reason := "no_eligible_backend" }
  | candidate :: candidates =>
    if ¬ candidate.eligible then select env mode decision candidates
    else if mode = .static then
      { decision with reason := "static_round_robin", fallback := false }
    else if mode = .loadAware ∧ Float64.le candidate.stateConfidence (ofInt 0) then
      { decision with reason := "no_usable_queue_state" }
    else if mode ≠ .loadAware ∧ Float64.le candidate.cacheConfidence (ofInt 0) then
      { decision with reason := "no_confident_cache_evidence" }
    else
      { decision with
        selected := candidate.backendID
        predictorVersion := candidate.predictorVersion
        fallback := false
        reason := "highest_confidence_weighted_score"
        reasons :=
          ["hard_constraints_satisfied",
            "cache_match=" ++ env.fixed 3 candidate.prefixMatch ++ " confidence=" ++
              env.fixed 3 candidate.cacheConfidence,
            "predicted_ttft_ms=" ++ env.fixed 2 candidate.predictedTTFTMS, candidate.reason] }

namespace Controller

/-- The requirements of the decision. -/
def decisionRequirements (request : RoutingRequest F) : Map String String :=
  let requirements := request.requirements
  let requirements :=
    if request.model ≠ "" then requirements.insert "model" request.model else requirements
  if request.tenantID ≠ "" then requirements.insert "tenant" request.tenantID else requirements

/-- The decision before a candidate is selected. -/
def newDecision (rollout : Rollout F) (now : Time) (request : RoutingRequest F) : Decision F :=
  let assignment :=
    if rollout.assignment.experimentID ≠ "" then rollout.assignment else .zero
  { (Decision.zero : Decision F) with
    requestID := request.requestID
    tenantID := request.tenantID
    cacheKey := request.cacheKey
    hashAlignment := if request.externalCacheKeys ≠ [] then "vllm_external_block_hash" else ""
    externalCacheKeyCount := request.externalCacheKeys.length
    experimentID := assignment.experimentID
    assignedPolicy := assignment.assignedPolicy
    assignmentUnit := assignment.assignmentUnit
    assignmentProbability := assignment.assignmentProbability
    assignmentSeed := assignment.assignmentSeed
    experimentWindow := assignment.experimentWindow
    warmup := assignment.warmup
    carryoverGuard := assignment.carryoverGuard
    experimentActive := assignment.experimentActive
    experimentStopReason := assignment.stopReason
    policyVersion := rollout.version
    mode := rollout.mode
    stage := rollout.stage
    enforced := rollout.enforced
    canaryFraction := rollout.fraction
    requirements := decisionRequirements request
    fallback := true
    reason := "no_usable_backend_state"
    occurredAt := now }

/-- `Plan`: the decision on a request. -/
def plan (env : Externals F) (c : Controller F) (now : Time) (clock : Nat → Time)
    (request : RoutingRequest F) (backends : List BackendDescriptor) :
    Decision F × Controller F :=
  let rollout := c.rollout env request.requestID now
  let (candidates, cache) := c.planCandidates now clock rollout request 0 backends c.cache
  let candidates :=
    if rollout.assignment.assignedPolicy = "kv-v2" then applyKVV2QueueVeto candidates
    else candidates
  let candidates := sortCandidates env.sorting candidates
  let decision :=
    { newDecision rollout now request with
      candidates
      predictorVersion := predictorVersions candidates }
  (select env rollout.mode decision candidates, { c with cache })

/-- `PreferredIDsForDecision`: the selected backend, which the table then maps to. -/
def preferredIDsForDecision (c : Controller F) (decision : Decision F) (cacheKey : String) :
    List String × Controller F :=
  if decision.enforced = false ∨ decision.fallback ∨ decision.selected = "" then ([], c)
  else
    let affinity :=
      if cacheKey ≠ "" then
        c.cache.affinity.map fun affinity =>
          affinity.put decision.tenantID cacheKey decision.selected decision.occurredAt
      else c.cache.affinity
    ([decision.selected], { c with cache := { c.cache with affinity } })

end Controller

end Plan

end Kavora.Router
