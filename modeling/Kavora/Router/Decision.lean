import Kavora.Router.CacheProvider

/-!
# Routing requests and decisions

The data of `gateway/internal/router/controller.go` and `kvaware.go`: a request, the backends to
choose from, the predictor of the time to the first token, and the decision with its candidates.
-/

namespace Kavora.Router

open Lib Lib.Go BackendState
open Float64 (ofInt)

/-- The modes of the router. -/
inductive Mode where
  | static | loadAware | shadow | enforced
  deriving DecidableEq, Repr

/-- `string(mode)`. -/
def Mode.text : Mode → String
  | .static => "static"
  | .loadAware => "load-aware"
  | .shadow => "shadow"
  | .enforced => "enforced"

/-- What the router sees of a request. -/
structure RoutingRequest (F : Type) where
  requestID : String
  tenantID : String
  model : String
  cacheKey : String
  externalCacheKeys : List String
  promptTokens : Int
  requirements : Map String String
  ttftSloMS : F

/-- What the router sees of a backend. -/
structure BackendDescriptor where
  id : String
  attributes : Map String String

/-- A backend with what speaks for it. -/
structure Candidate (F : Type) where
  backendID : String
  eligible : Bool
  excludedBy : List String
  prefixMatch : F
  matchedTokens : Int
  cacheSource : CacheSource
  cacheQuality : Quality
  cacheConfidence : F
  evidenceQuality : EvidenceQuality
  queueDepth : F
  queuePenaltyMS : F
  kvPressure : F
  recentPrefillRate : F
  predictorVersion : String
  predictedTTFTMS : F
  sloViolationProbability : F
  stateConfidence : F
  score : F
  reason : String

/-- How a request ended. -/
structure DecisionOutcome (F : Type) where
  requestID : String
  actualBackend : String
  ttftMS : F
  e2eMS : F
  success : Bool
  statusCode : Int
  promptTokens : Int
  outputTokens : Int
  model : String
  gpuType : String
  backendEngine : String
  backendVersion : String
  observedCacheHitRatio : Option F
  observedMatchedTokens : Option Int
  tpotMS : Option F
  streamGapP95MS : Option F
  streamChunkCount : Int
  completedAt : Time

/-- What was predicted for a request and what came. -/
structure PredictionError (F : Type) where
  predictorVersion : String
  predictedTTFTMS : F
  actualTTFTMS : F
  ttftSignedMS : F
  ttftAbsoluteMS : F
  predictedCacheHitRatio : Option F
  actualCacheHitRatio : Option F
  cacheHitAbsoluteError : Option F
  evidenceQuality : EvidenceQuality

/-- A decision of the router. -/
structure Decision (F : Type) where
  requestID : String
  tenantID : String
  cacheKey : String
  hashAlignment : String
  externalCacheKeyCount : Nat
  experimentID : String
  assignedPolicy : String
  assignmentUnit : String
  assignmentProbability : F
  assignmentSeed : String
  experimentWindow : String
  warmup : Bool
  carryoverGuard : Bool
  experimentActive : Bool
  experimentStopReason : String
  policyVersion : String
  predictorVersion : String
  mode : Mode
  stage : String
  enforced : Bool
  canaryFraction : F
  requirements : Map String String
  selected : String
  actualSelected : String
  fallback : Bool
  reason : String
  reasons : List String
  candidates : List (Candidate F)
  occurredAt : Time
  outcome : Option (DecisionOutcome F)
  predictionError : Option (PredictionError F)

/-- The zero value; the mode is the empty text, for which static stands here. -/
def Decision.zero {F : Type} [Float64 F] : Decision F where
  requestID := ""
  tenantID := ""
  cacheKey := ""
  hashAlignment := ""
  externalCacheKeyCount := 0
  experimentID := ""
  assignedPolicy := ""
  assignmentUnit := ""
  assignmentProbability := ofInt 0
  assignmentSeed := ""
  experimentWindow := ""
  warmup := false
  carryoverGuard := false
  experimentActive := false
  experimentStopReason := ""
  policyVersion := ""
  predictorVersion := ""
  mode := .static
  stage := ""
  enforced := false
  canaryFraction := ofInt 0
  requirements := ∅
  selected := ""
  actualSelected := ""
  fallback := false
  reason := ""
  reasons := []
  candidates := []
  occurredAt := Time.zero
  outcome := none
  predictionError := none

/-! ## The predictor -/

/-- A predictor, and the backends that it is for. -/
structure TTFTPredictor (F : Type) where
  version : String
  model : String
  gpuType : String
  backendEngine : String
  backendVersion : String
  baseMS : F
  promptTokenMS : F
  cachedTokenMS : F
  queuePenaltyMS : F
  pressurePenalty : F
  sloScaleMS : F
  useObservedPrefillRate : Bool

namespace TTFTPredictor

variable {F : Type} [Float64 F]

/-- The predictor is for a model on such a backend. -/
def «matches» (predictor : TTFTPredictor F) (model : String) (attributes : Map String String) :
    Bool :=
  (predictor.model = "" || predictor.model = model) &&
    (predictor.gpuType = "" || predictor.gpuType = attributes.index "gpu_type" "") &&
    (predictor.backendEngine = "" || predictor.backendEngine = attributes.index "engine" "") &&
    (predictor.backendVersion = "" ||
      predictor.backendVersion = attributes.index "engine_version" "")

/-- `DefaultTTFTPredictor`. -/
def default : TTFTPredictor F where
  version := "heuristic-v1"
  model := ""
  gpuType := ""
  backendEngine := ""
  backendVersion := ""
  baseMS := ofInt 12
  promptTokenMS := ofInt 8 / ofInt 100
  cachedTokenMS := ofInt 7 / ofInt 100
  queuePenaltyMS := ofInt 8
  pressurePenalty := ofInt 45
  sloScaleMS := ofInt 25
  useObservedPrefillRate := true

/-- `Predict`: the time to the first token. -/
def predict (predictor : TTFTPredictor F) (promptTokens matchedTokens : Int)
    (queueDepth pressure recentPrefillRate : F) : F :=
  let uncached : F := ofInt (maxInt (wrap64 (promptTokens - matchedTokens)) 0)
  let prefillCost :=
    if predictor.useObservedPrefillRate ∧ Float64.lt (ofInt 0) recentPrefillRate then
      uncached / recentPrefillRate * ofInt 1000
    else uncached * predictor.promptTokenMS
  let cacheLookupCost := ofInt matchedTokens * predictor.cachedTokenMS
  Float64.max (ofInt 0)
    (predictor.baseMS + prefillCost + cacheLookupCost + queueDepth * predictor.queuePenaltyMS +
      pressure * predictor.pressurePenalty)

/-- The probability that a time is above the SLO. -/
def violationProbability (predictor : TTFTPredictor F) (predicted slo : F) : F :=
  if Float64.le slo (ofInt 0) then ofInt 0
  else
    let scale :=
      if Float64.le predictor.sloScaleMS (ofInt 0) then ofInt 25 else predictor.sloScaleMS
    ofInt 1 / (ofInt 1 + Float64.exp (-(predicted - slo) / scale))

end TTFTPredictor

end Kavora.Router
