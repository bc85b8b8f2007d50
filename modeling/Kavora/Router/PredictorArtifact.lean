import Kavora.Lib.StructFields
import Kavora.Router.Decision

/-!
# Artifacts of the predictor (`gateway/internal/router/predictor_artifact.go`)

The fitted predictor comes as a document with its coefficients.

* `loadTTFTPredictor`: the check of a document and the predictor that it makes.
* `readCoefficient`: a coefficient as the gateway reads it.
* `loadTTFTPredictor_ok`: the coefficients of a loaded predictor.
-/

namespace Kavora.Router

open Lib Lib.Go
open Float64 (ofInt)

section Model

variable (F : Type) [Float64 F] [FloatText F]

/-- The version that the gateway accepts. -/
def predictorArtifactSchemaVersion : String := "kavora-ttft-predictor/v1"

/-- The coefficients of an artifact. -/
structure PredictorCoefficients where
  interceptMS : F
  uncachedTokenMS : F
  cachedTokenMS : F
  queuePenaltyMS : F
  kvPressurePenaltyMS : F
  sloScaleMS : F

/-- How an artifact was validated. -/
structure PredictorValidation where
  maeMS : F
  p95AbsoluteErrorMS : F
  samples : Int64
  method : String

/-- A fitted predictor, as it is stored. -/
structure PredictorArtifact where
  schemaVersion : String
  predictorVersion : String
  model : String
  gpuType : String
  backendEngine : String
  backendVersion : String
  coefficients : PredictorCoefficients F
  validation : PredictorValidation F
  claimBoundary : String

variable {F}

namespace PredictorCoefficients

/-- The zero value. -/
def zero : PredictorCoefficients F where
  interceptMS := ofInt 0
  uncachedTokenMS := ofInt 0
  cachedTokenMS := ofInt 0
  queuePenaltyMS := ofInt 0
  kvPressurePenaltyMS := ofInt 0
  sloScaleMS := ofInt 0

/-- The fields of its JSON object. -/
def fields : List (Go.Field (PredictorCoefficients F)) :=
  [ field "intercept_ms" interceptMS fun a s => { s with interceptMS := a },
    field "uncached_token_ms" uncachedTokenMS fun a s => { s with uncachedTokenMS := a },
    field "cached_token_ms" cachedTokenMS fun a s => { s with cachedTokenMS := a },
    field "queue_penalty_ms" queuePenaltyMS fun a s => { s with queuePenaltyMS := a },
    field "kv_pressure_penalty_ms" kvPressurePenaltyMS
      fun a s => { s with kvPressurePenaltyMS := a },
    field "slo_scale_ms" sloScaleMS fun a s => { s with sloScaleMS := a } ]

instance : Marshal (PredictorCoefficients F) where
  zero := zero
  marshal := marshalStruct fields
  unmarshal := unmarshalStruct fields

end PredictorCoefficients

namespace PredictorValidation

/-- The zero value. -/
def zero : PredictorValidation F where
  maeMS := ofInt 0
  p95AbsoluteErrorMS := ofInt 0
  samples := 0
  method := ""

/-- The fields of its JSON object. -/
def fields : List (Go.Field (PredictorValidation F)) :=
  [ field "mae_ms" maeMS fun a s => { s with maeMS := a },
    field "p95_absolute_error_ms" p95AbsoluteErrorMS fun a s => { s with p95AbsoluteErrorMS := a },
    field "samples" samples fun a s => { s with samples := a },
    omitempty "method" String.isEmpty method fun a s => { s with method := a } ]

instance : Marshal (PredictorValidation F) where
  zero := zero
  marshal := marshalStruct fields
  unmarshal := unmarshalStruct fields

end PredictorValidation

namespace PredictorArtifact

/-- The zero value. -/
def zero : PredictorArtifact F where
  schemaVersion := ""
  predictorVersion := ""
  model := ""
  gpuType := ""
  backendEngine := ""
  backendVersion := ""
  coefficients := .zero
  validation := .zero
  claimBoundary := ""

/-- The fields of its JSON object. -/
def fields : List (Go.Field (PredictorArtifact F)) :=
  [ field "schema_version" schemaVersion fun a s => { s with schemaVersion := a },
    field "predictor_version" predictorVersion fun a s => { s with predictorVersion := a },
    omitempty "model" String.isEmpty model fun a s => { s with model := a },
    omitempty "gpu_type" String.isEmpty gpuType fun a s => { s with gpuType := a },
    omitempty "backend_engine" String.isEmpty backendEngine
      fun a s => { s with backendEngine := a },
    omitempty "backend_version" String.isEmpty backendVersion
      fun a s => { s with backendVersion := a },
    field "coefficients" coefficients fun a s => { s with coefficients := a },
    field "validation" validation fun a s => { s with validation := a },
    omitempty "claim_boundary" String.isEmpty claimBoundary
      fun a s => { s with claimBoundary := a } ]

end PredictorArtifact

/-- Why an artifact is not loaded. -/
inductive LoadError where
  | unmarshal
  | invalid (text : String)
  deriving DecidableEq, Repr

/-- `LoadTTFTPredictor` of the document that the data is. -/
def loadTTFTPredictor (doc : Json) : Except LoadError (TTFTPredictor F × PredictorArtifact F) :=
  if 10000 < doc.nesting then .error .unmarshal
  else
    match unmarshalStruct PredictorArtifact.fields doc .zero with
    | none => .error .unmarshal
    | some artifact =>
      if artifact.schemaVersion ≠ predictorArtifactSchemaVersion then
        .error (.invalid "unsupported TTFT predictor artifact schema")
      else if artifact.predictorVersion = "" then
        .error (.invalid "predictor_version is required")
      else if artifact.model = "" ∨ artifact.gpuType = "" ∨ artifact.backendEngine = "" ∨
          artifact.backendVersion = "" then
        .error (.invalid "predictor runtime dimensions are required")
      else if [artifact.coefficients.interceptMS, artifact.coefficients.uncachedTokenMS,
          artifact.coefficients.cachedTokenMS, artifact.coefficients.queuePenaltyMS,
          artifact.coefficients.kvPressurePenaltyMS].any fun coefficient =>
            Float64.lt coefficient (ofInt 0) || !FloatText.isFinite coefficient then
        .error (.invalid "TTFT predictor coefficients must be finite and non-negative")
      else
        let sloScale :=
          if Float64.le artifact.coefficients.sloScaleMS (ofInt 0) ||
              !FloatText.isFinite artifact.coefficients.sloScaleMS then ofInt 25
          else artifact.coefficients.sloScaleMS
        .ok
          ({ version := artifact.predictorVersion
             model := artifact.model
             gpuType := artifact.gpuType
             backendEngine := artifact.backendEngine
             backendVersion := artifact.backendVersion
             baseMS := artifact.coefficients.interceptMS
             promptTokenMS := artifact.coefficients.uncachedTokenMS
             cachedTokenMS := artifact.coefficients.cachedTokenMS
             queuePenaltyMS := artifact.coefficients.queuePenaltyMS
             pressurePenalty := artifact.coefficients.kvPressurePenaltyMS
             sloScaleMS := sloScale
             useObservedPrefillRate := false }, artifact)

end Model

/-! ## The coefficients of a loaded predictor -/

/-- The names of the coefficients in the file. -/
def coefficientNames : List String :=
  ["intercept_ms", "uncached_token_ms", "cached_token_ms", "queue_penalty_ms",
    "kv_pressure_penalty_ms", "slo_scale_ms"]

/-- The names of the artifact's fields in the file. -/
def artifactNames : List String :=
  ["schema_version", "predictor_version", "model", "gpu_type", "backend_engine", "backend_version",
    "coefficients", "validation", "claim_boundary"]

/-- The members of the coefficients, whatever the case of their name and however often they come. -/
def coefficientMembers (doc : Json) : List (JsonText × Json) :=
  (valuesFor artifactNames "coefficients" (membersOf doc)).flatMap membersOf

/-- A coefficient as the gateway reads it: the last number for the name, whatever its case. -/
def readCoefficient (F : Type) [Float64 F] [FloatText F] (doc : Json) (name : String) : F :=
  lastNumber (valuesFor coefficientNames name (coefficientMembers doc))

section

variable {F : Type} [Float64 F] [FloatText F]

theorem reads_coefficients : ∀ f ∈ PredictorArtifact.fields (F := F),
    f.Reads "coefficients" PredictorArtifact.coefficients := by
  simp only [PredictorArtifact.fields, List.forall_mem_cons]
  exact ⟨reads_other (by decide) fun _ _ => rfl, reads_other (by decide) fun _ _ => rfl,
    reads_omitempty (reads_other (by decide) fun _ _ => rfl),
    reads_omitempty (reads_other (by decide) fun _ _ => rfl),
    reads_omitempty (reads_other (by decide) fun _ _ => rfl),
    reads_omitempty (reads_other (by decide) fun _ _ => rfl),
    reads_field fun _ _ => rfl, reads_other (by decide) fun _ _ => rfl,
    reads_omitempty (reads_other (by decide) fun _ _ => rfl), List.forall_mem_nil _⟩

/-- Each coefficient is read from the members of its name and from no others. -/
theorem reads_coefficient :
    (∀ f ∈ PredictorCoefficients.fields (F := F),
      f.Reads "intercept_ms" PredictorCoefficients.interceptMS) ∧
    (∀ f ∈ PredictorCoefficients.fields (F := F),
      f.Reads "uncached_token_ms" PredictorCoefficients.uncachedTokenMS) ∧
    (∀ f ∈ PredictorCoefficients.fields (F := F),
      f.Reads "cached_token_ms" PredictorCoefficients.cachedTokenMS) ∧
    (∀ f ∈ PredictorCoefficients.fields (F := F),
      f.Reads "queue_penalty_ms" PredictorCoefficients.queuePenaltyMS) ∧
    (∀ f ∈ PredictorCoefficients.fields (F := F),
      f.Reads "kv_pressure_penalty_ms" PredictorCoefficients.kvPressurePenaltyMS) := by
  refine ⟨?_, ?_, ?_, ?_, ?_⟩ <;> simp only [PredictorCoefficients.fields, List.forall_mem_cons] <;>
    refine ⟨?_, ?_, ?_, ?_, ?_, ?_, List.forall_mem_nil _⟩ <;>
    first
    | exact reads_field fun _ _ => rfl
    | exact reads_other (by decide) fun _ _ => rfl

theorem coefficient_eq {doc : Json} {artifact : PredictorArtifact F} {name : String}
    {get : PredictorCoefficients F → F}
    (hget : ∀ f ∈ PredictorCoefficients.fields (F := F), f.Reads name get)
    (hzero : get .zero = ofInt 0)
    (h : unmarshalStruct PredictorArtifact.fields doc .zero = some artifact) :
    get artifact.coefficients = readCoefficient F doc name := by
  have hmembers : (membersOf doc).foldlM (assignMember PredictorArtifact.fields) .zero =
      some artifact := by
    have hdocs : [doc].foldlM (fun s doc => unmarshalStruct PredictorArtifact.fields doc s) .zero =
        some artifact := by
      rw [List.foldlM_cons, h]
      rfl
    have hfold := foldlM_unmarshalStruct hdocs
    rwa [List.flatMap_singleton] at hfold
  have hcoefficients := get_unmarshal reads_coefficients hmembers
  have hall : (coefficientMembers doc).foldlM (assignMember PredictorCoefficients.fields) .zero =
      some artifact.coefficients := foldlM_unmarshalStruct hcoefficients
  have hnumber := get_unmarshal hget hall
  rw [hzero] at hnumber
  exact foldlM_unmarshal_number hnumber

/-- What a predictor is that was loaded. -/
structure Loaded (doc : Json) (predictor : TTFTPredictor F) : Prop where
  base : predictor.baseMS = readCoefficient F doc "intercept_ms"
  promptToken : predictor.promptTokenMS = readCoefficient F doc "uncached_token_ms"
  cachedToken : predictor.cachedTokenMS = readCoefficient F doc "cached_token_ms"
  queuePenalty : predictor.queuePenaltyMS = readCoefficient F doc "queue_penalty_ms"
  pressurePenalty : predictor.pressurePenalty = readCoefficient F doc "kv_pressure_penalty_ms"
  observed : predictor.useObservedPrefillRate = false

theorem loadTTFTPredictor_ok {doc : Json} {predictor : TTFTPredictor F}
    {artifact : PredictorArtifact F} (h : loadTTFTPredictor doc = .ok (predictor, artifact)) :
    Loaded doc predictor := by
  unfold loadTTFTPredictor at h
  split at h
  · cases h
  split at h
  · cases h
  rename_i artifact' hread
  split at h
  · cases h
  split at h
  · cases h
  split at h
  · cases h
  split at h
  · cases h
  · obtain ⟨hintercept, huncached, hcached, hqueue, hpressure⟩ := reads_coefficient (F := F)
    cases h
    exact ⟨coefficient_eq hintercept rfl hread, coefficient_eq huncached rfl hread,
      coefficient_eq hcached rfl hread, coefficient_eq hqueue rfl hread,
      coefficient_eq hpressure rfl hread, rfl⟩

end

end Kavora.Router
