import Kavora.Lib.Marshal

/-!
# The records of the decision ledger (`gateway/internal/router/kvaware.go`)

A decision, its candidates, its outcome and its prediction error as `encoding/json` writes and
reads them, with the types of their fields in Go.

* `fields`: the fields of a struct with their tags.
* `Decision.unmarshal_marshal`: a decision is read back, but for the sign of a zero probability.
-/

namespace Kavora.Ledger

open Lib Lib.Go
open Float64 (ofInt)

/-! ## Empty values -/

theorem isEmpty_string (s : String) (h : s.isEmpty = true) : s = Marshal.zero :=
  String.isEmpty_iff.mp h

theorem isEmpty_list {α : Type} [Marshal α] (l : List α) (h : l.isEmpty = true) :
    l = Marshal.zero := List.isEmpty_iff.mp h

theorem isNone_option {α : Type} [Marshal α] (a : Option α) (h : a.isNone = true) :
    a = Marshal.zero := Option.isNone_iff_eq_none.mp h

theorem isZero_int (n : Int64) (h : (n == 0) = true) : n = Marshal.zero := eq_of_beq h

theorem isFalse_bool (b : Bool) (h : (!b) = true) : b = Marshal.zero := by
  rwa [Bool.not_eq_true'] at h

theorem isEmpty_map (m : StringMap) (h : m.entries.isEmpty = true) : m = Marshal.zero :=
  StringMap.ext (List.isEmpty_iff.mp h)

instance : NeverNull Int64 where
  ne_null h := by
    cases h
    exact nofun

instance {F : Type} [Float64 F] [FloatText F] : NeverNull F where
  ne_null {x doc} h := by
    have h : (if FloatText.isFinite x then some (Json.number (.ofList (FloatText.format x)))
      else none) = some doc := h
    split at h
    · cases h
      exact nofun
    · cases h

/-! ## Candidates -/

/-- A candidate of a decision, as it is recorded. -/
structure Candidate (F : Type) where
  backendID : String
  eligible : Bool
  excludedBy : List String
  prefixMatch : F
  matchedTokens : Int64
  cacheSource : String
  cacheQuality : String
  cacheConfidence : F
  evidenceQuality : String
  queueDepth : F
  queuePenaltyMS : F
  kvPressure : F
  recentPrefillRate : F
  predictorVersion : String
  predictedTTFTMS : F
  sloViolationProbability : F
  stateConfidence : F
  score : F
  reason : String

namespace Candidate

variable {F : Type} [Float64 F] [FloatText F]

/-- The zero value. -/
def zero : Candidate F where
  backendID := ""
  eligible := false
  excludedBy := []
  prefixMatch := ofInt 0
  matchedTokens := 0
  cacheSource := ""
  cacheQuality := ""
  cacheConfidence := ofInt 0
  evidenceQuality := ""
  queueDepth := ofInt 0
  queuePenaltyMS := ofInt 0
  kvPressure := ofInt 0
  recentPrefillRate := ofInt 0
  predictorVersion := ""
  predictedTTFTMS := ofInt 0
  sloViolationProbability := ofInt 0
  stateConfidence := ofInt 0
  score := ofInt 0
  reason := ""

/-- The fields of its JSON object. -/
def fields : List (Go.Field (Candidate F)) :=
  [ field "backend_id" backendID fun a s => { s with backendID := a },
    field "eligible" eligible fun a s => { s with eligible := a },
    omitempty "excluded_by" List.isEmpty excludedBy fun a s => { s with excludedBy := a },
    field "prefix_match" prefixMatch fun a s => { s with prefixMatch := a },
    field "matched_tokens" matchedTokens fun a s => { s with matchedTokens := a },
    field "cache_source" cacheSource fun a s => { s with cacheSource := a },
    field "cache_quality" cacheQuality fun a s => { s with cacheQuality := a },
    field "cache_confidence" cacheConfidence fun a s => { s with cacheConfidence := a },
    field "evidence_quality" evidenceQuality fun a s => { s with evidenceQuality := a },
    field "queue_depth" queueDepth fun a s => { s with queueDepth := a },
    field "queue_penalty_ms" queuePenaltyMS fun a s => { s with queuePenaltyMS := a },
    field "kv_pressure" kvPressure fun a s => { s with kvPressure := a },
    field "recent_prefill_tokens_per_second" recentPrefillRate
      fun a s => { s with recentPrefillRate := a },
    field "predictor_version" predictorVersion fun a s => { s with predictorVersion := a },
    field "predicted_ttft_ms" predictedTTFTMS fun a s => { s with predictedTTFTMS := a },
    field "slo_violation_probability" sloViolationProbability
      fun a s => { s with sloViolationProbability := a },
    field "state_confidence" stateConfidence fun a s => { s with stateConfidence := a },
    field "score" score fun a s => { s with score := a },
    field "reason" reason fun a s => { s with reason := a } ]

instance : Marshal (Candidate F) where
  zero := zero
  marshal := marshalStruct fields
  unmarshal := unmarshalStruct fields

theorem copies [LawfulFloatText F] (s : Candidate F) : Copies s fields zero s :=
  .cons (keeps_field rfl) <|
  .cons (keeps_field rfl) <|
  .cons (keeps_omitzero isEmpty_list rfl rfl) <|
  .cons (keeps_field rfl) <|
  .cons (keeps_field rfl) <|
  .cons (keeps_field rfl) <|
  .cons (keeps_field rfl) <|
  .cons (keeps_field rfl) <|
  .cons (keeps_field rfl) <|
  .cons (keeps_field rfl) <|
  .cons (keeps_field rfl) <|
  .cons (keeps_field rfl) <|
  .cons (keeps_field rfl) <|
  .cons (keeps_field rfl) <|
  .cons (keeps_field rfl) <|
  .cons (keeps_field rfl) <|
  .cons (keeps_field rfl) <|
  .cons (keeps_field rfl) <|
  .cons (keeps_field rfl) <|
  .nil

theorem read_back [LawfulFloatText F] {s : Candidate F} {doc : Json}
    (h : Marshal.marshal s = some doc) :
    doc.Readable ∧ (∃ ms, doc = .object ms) ∧ Marshal.unmarshal doc zero = some s :=
  unmarshalStruct_marshalStruct (by simp [fields, field, omitempty]) (copies s) h

instance [LawfulFloatText F] : LawfulMarshal (Candidate F) where
  readable h := (read_back h).1
  unmarshal_marshal h := (read_back h).2.2

instance [LawfulFloatText F] : NeverNull (Candidate F) where
  ne_null h := by
    obtain ⟨ms, rfl⟩ := (read_back h).2.1
    exact nofun

end Candidate

/-! ## Outcomes -/

/-- How a request ended. -/
structure DecisionOutcome (F : Type) where
  requestID : String
  actualBackend : String
  ttftMS : F
  e2eMS : F
  success : Bool
  statusCode : Int64
  promptTokens : Int64
  outputTokens : Int64
  model : String
  gpuType : String
  backendEngine : String
  backendVersion : String
  observedCacheHitRatio : Option F
  observedMatchedTokens : Option Int64
  tpotMS : Option F
  streamGapP95MS : Option F
  streamChunkCount : Int64
  completedAt : Time

namespace DecisionOutcome

variable {F : Type} [Float64 F] [FloatText F]

/-- The zero value. -/
def zero : DecisionOutcome F where
  requestID := ""
  actualBackend := ""
  ttftMS := ofInt 0
  e2eMS := ofInt 0
  success := false
  statusCode := 0
  promptTokens := 0
  outputTokens := 0
  model := ""
  gpuType := ""
  backendEngine := ""
  backendVersion := ""
  observedCacheHitRatio := none
  observedMatchedTokens := none
  tpotMS := none
  streamGapP95MS := none
  streamChunkCount := 0
  completedAt := Time.zero

/-- The fields of its JSON object. -/
def fields : List (Go.Field (DecisionOutcome F)) :=
  [ field "request_id" requestID fun a s => { s with requestID := a },
    field "actual_backend" actualBackend fun a s => { s with actualBackend := a },
    field "ttft_ms" ttftMS fun a s => { s with ttftMS := a },
    field "e2e_ms" e2eMS fun a s => { s with e2eMS := a },
    field "success" success fun a s => { s with success := a },
    field "status_code" statusCode fun a s => { s with statusCode := a },
    field "prompt_tokens" promptTokens fun a s => { s with promptTokens := a },
    field "output_tokens" outputTokens fun a s => { s with outputTokens := a },
    omitempty "model" String.isEmpty model fun a s => { s with model := a },
    omitempty "gpu_type" String.isEmpty gpuType fun a s => { s with gpuType := a },
    omitempty "backend_engine" String.isEmpty backendEngine
      fun a s => { s with backendEngine := a },
    omitempty "backend_version" String.isEmpty backendVersion
      fun a s => { s with backendVersion := a },
    omitempty "observed_cache_hit_ratio" Option.isNone observedCacheHitRatio
      fun a s => { s with observedCacheHitRatio := a },
    omitempty "observed_matched_tokens" Option.isNone observedMatchedTokens
      fun a s => { s with observedMatchedTokens := a },
    omitempty "tpot_ms" Option.isNone tpotMS fun a s => { s with tpotMS := a },
    omitempty "stream_gap_p95_ms" Option.isNone streamGapP95MS
      fun a s => { s with streamGapP95MS := a },
    omitempty "stream_chunk_count" (· == 0) streamChunkCount
      fun a s => { s with streamChunkCount := a },
    field "completed_at" completedAt fun a s => { s with completedAt := a } ]

instance : Marshal (DecisionOutcome F) where
  zero := zero
  marshal := marshalStruct fields
  unmarshal := unmarshalStruct fields

theorem copies [LawfulFloatText F] (s : DecisionOutcome F) : Copies s fields zero s :=
  .cons (keeps_field rfl) <|
  .cons (keeps_field rfl) <|
  .cons (keeps_field rfl) <|
  .cons (keeps_field rfl) <|
  .cons (keeps_field rfl) <|
  .cons (keeps_field rfl) <|
  .cons (keeps_field rfl) <|
  .cons (keeps_field rfl) <|
  .cons (keeps_omitzero isEmpty_string rfl rfl) <|
  .cons (keeps_omitzero isEmpty_string rfl rfl) <|
  .cons (keeps_omitzero isEmpty_string rfl rfl) <|
  .cons (keeps_omitzero isEmpty_string rfl rfl) <|
  .cons (keeps_omitzero isNone_option rfl rfl) <|
  .cons (keeps_omitzero isNone_option rfl rfl) <|
  .cons (keeps_omitzero isNone_option rfl rfl) <|
  .cons (keeps_omitzero isNone_option rfl rfl) <|
  .cons (keeps_omitzero isZero_int rfl rfl) <|
  .cons (keeps_field rfl) <|
  .nil

theorem read_back [LawfulFloatText F] {s : DecisionOutcome F} {doc : Json}
    (h : Marshal.marshal s = some doc) :
    doc.Readable ∧ (∃ ms, doc = .object ms) ∧ Marshal.unmarshal doc zero = some s :=
  unmarshalStruct_marshalStruct (by simp [fields, field, omitempty]) (copies s) h

instance [LawfulFloatText F] : LawfulMarshal (DecisionOutcome F) where
  readable h := (read_back h).1
  unmarshal_marshal h := (read_back h).2.2

instance [LawfulFloatText F] : NeverNull (DecisionOutcome F) where
  ne_null h := by
    obtain ⟨ms, rfl⟩ := (read_back h).2.1
    exact nofun

end DecisionOutcome

/-! ## Prediction errors -/

/-- What was predicted for a request and what came. -/
structure PredictionError (F : Type) where
  predictorVersion : String
  predictedTTFTMS : F
  actualTTFTMS : F
  ttftSignedMS : F
  ttftAbsoluteMS : F
  predictedCacheHitRatio : Option F
  actualCacheHitRatio : Option F
  cacheHitAbsoluteError : Option F
  evidenceQuality : String

namespace PredictionError

variable {F : Type} [Float64 F] [FloatText F]

/-- The zero value. -/
def zero : PredictionError F where
  predictorVersion := ""
  predictedTTFTMS := ofInt 0
  actualTTFTMS := ofInt 0
  ttftSignedMS := ofInt 0
  ttftAbsoluteMS := ofInt 0
  predictedCacheHitRatio := none
  actualCacheHitRatio := none
  cacheHitAbsoluteError := none
  evidenceQuality := ""

/-- The fields of its JSON object. -/
def fields : List (Go.Field (PredictionError F)) :=
  [ field "predictor_version" predictorVersion fun a s => { s with predictorVersion := a },
    field "predicted_ttft_ms" predictedTTFTMS fun a s => { s with predictedTTFTMS := a },
    field "actual_ttft_ms" actualTTFTMS fun a s => { s with actualTTFTMS := a },
    field "ttft_signed_error_ms" ttftSignedMS fun a s => { s with ttftSignedMS := a },
    field "ttft_absolute_error_ms" ttftAbsoluteMS fun a s => { s with ttftAbsoluteMS := a },
    omitempty "predicted_cache_hit_ratio" Option.isNone predictedCacheHitRatio
      fun a s => { s with predictedCacheHitRatio := a },
    omitempty "actual_cache_hit_ratio" Option.isNone actualCacheHitRatio
      fun a s => { s with actualCacheHitRatio := a },
    omitempty "cache_hit_absolute_error" Option.isNone cacheHitAbsoluteError
      fun a s => { s with cacheHitAbsoluteError := a },
    field "evidence_quality" evidenceQuality fun a s => { s with evidenceQuality := a } ]

instance : Marshal (PredictionError F) where
  zero := zero
  marshal := marshalStruct fields
  unmarshal := unmarshalStruct fields

theorem copies [LawfulFloatText F] (s : PredictionError F) : Copies s fields zero s :=
  .cons (keeps_field rfl) <|
  .cons (keeps_field rfl) <|
  .cons (keeps_field rfl) <|
  .cons (keeps_field rfl) <|
  .cons (keeps_field rfl) <|
  .cons (keeps_omitzero isNone_option rfl rfl) <|
  .cons (keeps_omitzero isNone_option rfl rfl) <|
  .cons (keeps_omitzero isNone_option rfl rfl) <|
  .cons (keeps_field rfl) <|
  .nil

theorem read_back [LawfulFloatText F] {s : PredictionError F} {doc : Json}
    (h : Marshal.marshal s = some doc) :
    doc.Readable ∧ (∃ ms, doc = .object ms) ∧ Marshal.unmarshal doc zero = some s :=
  unmarshalStruct_marshalStruct (by simp [fields, field, omitempty]) (copies s) h

instance [LawfulFloatText F] : LawfulMarshal (PredictionError F) where
  readable h := (read_back h).1
  unmarshal_marshal h := (read_back h).2.2

instance [LawfulFloatText F] : NeverNull (PredictionError F) where
  ne_null h := by
    obtain ⟨ms, rfl⟩ := (read_back h).2.1
    exact nofun

end PredictionError

/-! ## Decisions -/

/-- A decision of the router, with its outcome. -/
structure Decision (F : Type) where
  requestID : String
  tenantID : String
  cacheKey : String
  hashAlignment : String
  externalCacheKeyCount : Int64
  experimentID : String
  assignedPolicy : String
  assignmentUnit : String
  assignmentProbability : F
  assignmentSeed : String
  experimentWindow : String
  warmup : Bool
  carryoverGuard : Bool
  experimentActive : Bool
  experimentStopReason : String
  policyVersion : String
  predictorVersion : String
  mode : String
  stage : String
  enforced : Bool
  canaryFraction : F
  requirements : StringMap
  selected : String
  actualSelected : String
  fallback : Bool
  reason : String
  reasons : List String
  candidates : Slice (Candidate F)
  occurredAt : Time
  outcome : Option (DecisionOutcome F)
  predictionError : Option (PredictionError F)

namespace Decision

variable {F : Type} [Float64 F] [FloatText F]

/-- The zero value. -/
def zero : Decision F where
  requestID := ""
  tenantID := ""
  cacheKey := ""
  hashAlignment := ""
  externalCacheKeyCount := 0
  experimentID := ""
  assignedPolicy := ""
  assignmentUnit := ""
  assignmentProbability := ofInt 0
  assignmentSeed := ""
  experimentWindow := ""
  warmup := false
  carryoverGuard := false
  experimentActive := false
  experimentStopReason := ""
  policyVersion := ""
  predictorVersion := ""
  mode := ""
  stage := ""
  enforced := false
  canaryFraction := ofInt 0
  requirements := .empty
  selected := ""
  actualSelected := ""
  fallback := false
  reason := ""
  reasons := []
  candidates := .nil
  occurredAt := Time.zero
  outcome := none
  predictionError := none

/-- The fields of its JSON object. -/
def fields : List (Go.Field (Decision F)) :=
  [ field "request_id" requestID fun a s => { s with requestID := a },
    field "tenant_id" tenantID fun a s => { s with tenantID := a },
    omitempty "cache_key" String.isEmpty cacheKey fun a s => { s with cacheKey := a },
    omitempty "hash_alignment" String.isEmpty hashAlignment
      fun a s => { s with hashAlignment := a },
    omitempty "external_cache_key_count" (· == 0) externalCacheKeyCount
      fun a s => { s with externalCacheKeyCount := a },
    omitempty "experiment_id" String.isEmpty experimentID fun a s => { s with experimentID := a },
    omitempty "assigned_policy" String.isEmpty assignedPolicy
      fun a s => { s with assignedPolicy := a },
    omitempty "assignment_unit" String.isEmpty assignmentUnit
      fun a s => { s with assignmentUnit := a },
    omitempty "assignment_probability" (Float64.eq · (ofInt 0)) assignmentProbability
      fun a s => { s with assignmentProbability := a },
    omitempty "assignment_seed" String.isEmpty assignmentSeed
      fun a s => { s with assignmentSeed := a },
    omitempty "experiment_window" String.isEmpty experimentWindow
      fun a s => { s with experimentWindow := a },
    omitempty "warmup" (!·) warmup fun a s => { s with warmup := a },
    omitempty "carryover_guard" (!·) carryoverGuard fun a s => { s with carryoverGuard := a },
    omitempty "experiment_active" (!·) experimentActive
      fun a s => { s with experimentActive := a },
    omitempty "experiment_stop_reason" String.isEmpty experimentStopReason
      fun a s => { s with experimentStopReason := a },
    field "policy_version" policyVersion fun a s => { s with policyVersion := a },
    field "predictor_version" predictorVersion fun a s => { s with predictorVersion := a },
    field "mode" mode fun a s => { s with mode := a },
    omitempty "stage" String.isEmpty stage fun a s => { s with stage := a },
    field "enforced" enforced fun a s => { s with enforced := a },
    field "canary_fraction" canaryFraction fun a s => { s with canaryFraction := a },
    omitempty "requirements" (·.entries.isEmpty) requirements
      fun a s => { s with requirements := a },
    field "selected" selected fun a s => { s with selected := a },
    omitempty "actual_selected" String.isEmpty actualSelected
      fun a s => { s with actualSelected := a },
    field "fallback" fallback fun a s => { s with fallback := a },
    field "reason" reason fun a s => { s with reason := a },
    omitempty "reasons" List.isEmpty reasons fun a s => { s with reasons := a },
    field "candidates" candidates fun a s => { s with candidates := a },
    field "occurred_at" occurredAt fun a s => { s with occurredAt := a },
    omitempty "outcome" Option.isNone outcome fun a s => { s with outcome := a },
    omitempty "prediction_error" Option.isNone predictionError
      fun a s => { s with predictionError := a } ]

instance : Marshal (Decision F) where
  zero := zero
  marshal := marshalStruct fields
  unmarshal := unmarshalStruct fields

/-- A decision as it is read back: a probability of zero is left out and read as `0`. -/
def normal (d : Decision F) : Decision F :=
  { d with
    assignmentProbability :=
      if Float64.eq d.assignmentProbability (ofInt 0) then ofInt 0 else d.assignmentProbability }

theorem copies [LawfulFloatText F] (s : Decision F) :
    Copies s fields zero s.normal :=
  .cons (keeps_field rfl) <|
  .cons (keeps_field rfl) <|
  .cons (keeps_omitzero isEmpty_string rfl rfl) <|
  .cons (keeps_omitzero isEmpty_string rfl rfl) <|
  .cons (keeps_omitzero isZero_int rfl rfl) <|
  .cons (keeps_omitzero isEmpty_string rfl rfl) <|
  .cons (keeps_omitzero isEmpty_string rfl rfl) <|
  .cons (keeps_omitzero isEmpty_string rfl rfl) <|
  .cons (keeps_omitempty rfl rfl) <|
  .cons (keeps_omitzero isEmpty_string rfl rfl) <|
  .cons (keeps_omitzero isEmpty_string rfl rfl) <|
  .cons (keeps_omitzero isFalse_bool rfl rfl) <|
  .cons (keeps_omitzero isFalse_bool rfl rfl) <|
  .cons (keeps_omitzero isFalse_bool rfl rfl) <|
  .cons (keeps_omitzero isEmpty_string rfl rfl) <|
  .cons (keeps_field rfl) <|
  .cons (keeps_field rfl) <|
  .cons (keeps_field rfl) <|
  .cons (keeps_omitzero isEmpty_string rfl rfl) <|
  .cons (keeps_field rfl) <|
  .cons (keeps_field rfl) <|
  .cons (keeps_omitzero isEmpty_map rfl rfl) <|
  .cons (keeps_field rfl) <|
  .cons (keeps_omitzero isEmpty_string rfl rfl) <|
  .cons (keeps_field rfl) <|
  .cons (keeps_field rfl) <|
  .cons (keeps_omitzero isEmpty_list rfl rfl) <|
  .cons (keeps_field rfl) <|
  .cons (keeps_field rfl) <|
  .cons (keeps_omitzero isNone_option rfl rfl) <|
  .cons (keeps_omitzero isNone_option rfl rfl) <|
  .nil

/-- **A decision is read back** but for the sign of a zero probability. -/
theorem read_back [LawfulFloatText F] {s : Decision F} {doc : Json}
    (h : Marshal.marshal s = some doc) :
    doc.Readable ∧ (∃ ms, doc = .object ms) ∧ Marshal.unmarshal doc zero = some s.normal :=
  unmarshalStruct_marshalStruct (by simp [fields, field, omitempty]) (copies s) h

end Decision

end Kavora.Ledger
