import Kavora.Lib.Except
import Kavora.Lib.PyValue
import Kavora.Planner.Predictor
import Kavora.Router.PredictorArtifact

/-!
# Validation of the predictor (`planner/ttft_validation.py`)

A fitted predictor is validated on journals that it was not fitted on. Three programs compute its
prediction: the validation, the fit, and the gateway.

* `heldOutSamples`: the samples of the validation with its predictions.
* `exactCoefficient`: a coefficient as the validation reads it.
* `predictors_agree_iff`: when the three predictions of a sample are one number.
-/

namespace Kavora.Planner

open Lib Router
open Lib.Go hiding Field
open Lib.Go.Float64 (ofInt Exact)

section Model

variable {F : Type} [Float64 F] [FloatText F] [PyNumber F]

/-- An outcome that counts, with the signals of its candidate and the prediction. -/
structure HeldOut (F : Type) where
  prompt : Int
  matched : Int
  actual : F
  queue : F
  pressure : F
  predicted : F

/-- The row of `features` that the fit makes of the same numbers. -/
def HeldOut.features (sample : HeldOut F) : Row5 F :=
  #v[ofInt 1, ofInt (sample.prompt - sample.matched), ofInt sample.matched, sample.queue,
    sample.pressure]

/-- `_candidate`. -/
def candidateFor (decision : Option Json) (backendID : String) : Except PyError (Option Json) :=
  match decision.bind fun decision => decision.member "candidates" with
  | none => .ok none
  | some candidates =>
    candidates.items.map fun items =>
      items.find? fun candidate =>
        match candidate with
        | .object _ => Json.isText (candidate.member "backend_id") backendID
        | _ => false

/-- The numbers of the coefficients. -/
def coefficientRow (coefficients : Json) : Except PyError (Row5 F) := do
  let intercept ← (← coefficients.index "intercept_ms").asFloat F
  let uncached ← (← coefficients.index "uncached_token_ms").asFloat F
  let cached ← (← coefficients.index "cached_token_ms").asFloat F
  let queue ← (← coefficients.index "queue_penalty_ms").asFloat F
  let pressure ← (← coefficients.index "kv_pressure_penalty_ms").asFloat F
  pure #v[intercept, uncached, cached, queue, pressure]

instance : NeZero width := ⟨Nat.succ_ne_zero 4⟩

/-- The body of `try`. -/
def readSample (coefficients candidate outcome : Json) : Except PyError (HeldOut F) := do
  let prompt ← (← outcome.index "prompt_tokens").asInt F
  let matched ← (← outcome.index "observed_matched_tokens").asInt F
  let actual ← (← outcome.index "ttft_ms").asFloat F
  let queue ← candidate.floatGet F "queue_depth"
  let pressure ← candidate.floatGet F "kv_pressure"
  let row ← coefficientRow coefficients
  pure
    { prompt, matched, actual, queue, pressure
      predicted := row.get 0 + ofInt (prompt - matched) * row.get 1 + ofInt matched * row.get 2 +
        queue * row.get 3 + pressure * row.get 4 }

/-- The exceptions that the loop catches. -/
def isCaught : PyError → Bool
  | .keyError | .typeError | .valueError => true
  | _ => false

/-- The sample can be judged: its numbers are possible ones. -/
def HeldOut.counts (sample : HeldOut F) : Bool :=
  !(sample.prompt ≤ 0 || sample.matched < 0 || sample.prompt < sample.matched ||
    Float64.le sample.actual (ofInt 0) ||
    !(FloatText.isFinite sample.actual && FloatText.isFinite sample.predicted))

/-- `str(outcome.get("actual_backend", ""))`, where `str` is `str(value)` of a value that is no
text. -/
def backendOf (str : Json → String) (outcome : Json) : String :=
  match outcome.member "actual_backend" with
  | none => ""
  | some (.string s) => s.text
  | some value => str value

/-- One iteration of the loop over the outcomes; `none` if the outcome is skipped. -/
def validateRow (str : Json → String) (artifact coefficients : Json) (decisions : List Json)
    (outcome : Json) : Except PyError (Option (HeldOut F)) :=
  if !Json.hashable (outcome.member "request_id") then .error .typeError
  else
    let decision := decisions.reverse.find? fun decision =>
      Json.getEq F (decision.member "request_id") (outcome.member "request_id")
    match candidateFor decision (backendOf str outcome) with
    | .error err => .error err
    | .ok none => .ok none
    | .ok (some candidate) =>
      if !Json.truthy F (outcome.member "success") ||
          ["model", "gpu_type", "backend_engine", "backend_version"].any fun key =>
            !Json.getEq F (outcome.member key) (artifact.member key) then .ok none
      else
        match readSample coefficients candidate outcome with
        | .ok sample => .ok (if sample.counts then some sample else none)
        | .error err => if isCaught err then .ok none else .error err

/-- The samples of `validate_predictor` for an artifact and the rows of a journal. -/
def heldOutSamples (str : Json → String) (artifact : Json) (decisionRows outcomeRows : List Json) :
    Except PyError (List (HeldOut F)) := do
  let coefficients ← artifact.index "coefficients"
  let decisions := decisionRows.filter fun row => Json.truthy F (row.member "request_id")
  if decisions.any fun row => !Json.hashable (row.member "request_id") then .error .typeError
  else
    let rows ← outcomeRows.mapM (validateRow str artifact coefficients decisions)
    pure (rows.filterMap id)

end Model

/-! ## The coefficients of the validation -/

section

variable (F : Type) [Float64 F] [FloatText F] [PyNumber F]

/-- A coefficient as the validation reads it: the last member of just this name. -/
def exactCoefficient (doc : Json) (name : String) : F :=
  match ((doc.member "coefficients").bind fun coefficients => coefficients.member name).map
    (Json.asFloat F) with
  | some (.ok x) => x
  | _ => ofInt 0

/-- The coefficients in the order of `FEATURE_NAMES`. -/
def exactRow (doc : Json) : Row5 F :=
  #v[exactCoefficient F doc "intercept_ms", exactCoefficient F doc "uncached_token_ms",
    exactCoefficient F doc "cached_token_ms", exactCoefficient F doc "queue_penalty_ms",
    exactCoefficient F doc "kv_pressure_penalty_ms"]

/-- The coefficients as the gateway reads them. -/
def readRow (doc : Json) : Row5 F :=
  #v[readCoefficient F doc "intercept_ms", readCoefficient F doc "uncached_token_ms",
    readCoefficient F doc "cached_token_ms", readCoefficient F doc "queue_penalty_ms",
    readCoefficient F doc "kv_pressure_penalty_ms"]

end

section

variable {F : Type} [Float64 F] [FloatText F] [PyNumber F]

theorem index_ok {value item : Json} {name : String} (h : value.index name = .ok item) :
    value.member name = some item := by
  unfold Json.index at h
  split at h
  · split at h
    · rename_i heq
      cases h
      exact heq
    · cases h
  · cases h

theorem exactCoefficient_eq {artifact coefficients item : Json} {name : String} {x : F}
    (hcoefficients : artifact.index "coefficients" = .ok coefficients)
    (hitem : coefficients.index name = .ok item) (hx : item.asFloat F = .ok x) :
    exactCoefficient F artifact name = x := by
  unfold exactCoefficient
  rw [index_ok hcoefficients, Option.bind_some, index_ok hitem, Option.map_some, hx]

theorem coefficientRow_ok {artifact coefficients : Json} {row : Row5 F}
    (hcoefficients : artifact.index "coefficients" = .ok coefficients)
    (h : coefficientRow coefficients = .ok row) : row = exactRow F artifact := by
  unfold coefficientRow at h
  obtain ⟨item₀, hitem₀, h⟩ := bind_ok h
  obtain ⟨x₀, hx₀, h⟩ := bind_ok h
  obtain ⟨item₁, hitem₁, h⟩ := bind_ok h
  obtain ⟨x₁, hx₁, h⟩ := bind_ok h
  obtain ⟨item₂, hitem₂, h⟩ := bind_ok h
  obtain ⟨x₂, hx₂, h⟩ := bind_ok h
  obtain ⟨item₃, hitem₃, h⟩ := bind_ok h
  obtain ⟨x₃, hx₃, h⟩ := bind_ok h
  obtain ⟨item₄, hitem₄, h⟩ := bind_ok h
  obtain ⟨x₄, hx₄, h⟩ := bind_ok h
  cases h
  unfold exactRow
  rw [exactCoefficient_eq hcoefficients hitem₀ hx₀, exactCoefficient_eq hcoefficients hitem₁ hx₁,
    exactCoefficient_eq hcoefficients hitem₂ hx₂, exactCoefficient_eq hcoefficients hitem₃ hx₃,
    exactCoefficient_eq hcoefficients hitem₄ hx₄]

/-- What a sample is that was read. -/
structure Predicts (artifact : Json) (sample : HeldOut F) : Prop where
  predicted : sample.predicted =
    (exactRow F artifact)[0] + ofInt (sample.prompt - sample.matched) * (exactRow F artifact)[1] +
      ofInt sample.matched * (exactRow F artifact)[2] + sample.queue * (exactRow F artifact)[3] +
      sample.pressure * (exactRow F artifact)[4]
  matched_nonneg : 0 ≤ sample.matched
  matched_le : sample.matched ≤ sample.prompt

theorem readSample_ok {artifact coefficients candidate outcome : Json} {sample : HeldOut F}
    (hcoefficients : artifact.index "coefficients" = .ok coefficients)
    (h : readSample coefficients candidate outcome = .ok sample) (hcounts : sample.counts = true) :
    Predicts artifact sample := by
  unfold readSample at h
  obtain ⟨_, -, h⟩ := bind_ok h
  obtain ⟨prompt, -, h⟩ := bind_ok h
  obtain ⟨_, -, h⟩ := bind_ok h
  obtain ⟨matched, -, h⟩ := bind_ok h
  obtain ⟨_, -, h⟩ := bind_ok h
  obtain ⟨actual, -, h⟩ := bind_ok h
  obtain ⟨queue, -, h⟩ := bind_ok h
  obtain ⟨pressure, -, h⟩ := bind_ok h
  obtain ⟨row, hrow, h⟩ := bind_ok h
  cases h
  have hexact := coefficientRow_ok hcoefficients hrow
  simp only [HeldOut.counts, Bool.not_eq_true', Bool.or_eq_false_iff,
    decide_eq_false_iff_not] at hcounts
  obtain ⟨⟨⟨⟨-, hmatched⟩, hprompt⟩, -⟩, -⟩ := hcounts
  refine ⟨?_, Int.not_lt.mp hmatched, Int.not_lt.mp hprompt⟩
  rw [← hexact]
  rfl

theorem validateRow_ok {str : Json → String} {artifact coefficients : Json} {decisions : List Json}
    {outcome : Json} {sample : HeldOut F}
    (hcoefficients : artifact.index "coefficients" = .ok coefficients)
    (h : validateRow str artifact coefficients decisions outcome = .ok (some sample)) :
    Predicts artifact sample := by
  unfold validateRow at h
  split at h
  · cases h
  dsimp only at h
  split at h
  · cases h
  · cases h
  split at h
  · cases h
  split at h
  · rename_i hread
    split at h
    · rename_i hcounts
      cases h
      exact readSample_ok hcoefficients hread hcounts
    · cases h
  · split at h
    · cases h
    · cases h

theorem heldOutSamples_ok {str : Json → String} {artifact : Json}
    {decisionRows outcomeRows : List Json} {samples : List (HeldOut F)}
    (h : heldOutSamples str artifact decisionRows outcomeRows = .ok samples) {sample : HeldOut F}
    (hsample : sample ∈ samples) : Predicts artifact sample := by
  unfold heldOutSamples at h
  obtain ⟨coefficients, hcoefficients, h⟩ := bind_ok h
  dsimp only at h
  split at h
  · cases h
  · obtain ⟨rows, hrows, h⟩ := bind_ok h
    cases h
    obtain ⟨row, hrow, hid⟩ := List.mem_filterMap.mp hsample
    obtain ⟨outcome, -, hread⟩ := mem_of_mapM hrows hrow
    rw [show row = some sample from hid] at hread
    exact validateRow_ok hcoefficients hread

end

/-! ## The three predictions -/

section Agreement

variable {K : Type} [Field K] [LinearOrder K] [Exact K]

attribute [local instance] Exact.float64

/-- The weighted sum of the features. -/
def weighted (features row : Row5 K) : K := ∑ i : Fin width, features.get i * row.get i

theorem weighted_eq (features row : Row5 K) : weighted features row =
    features[0] * row[0] + features[1] * row[1] + features[2] * row[2] + features[3] * row[3] +
      features[4] * row[4] := by
  unfold weighted
  rw [Fin.sum_univ_five]
  rfl

theorem clampZero_eq (value : K) : clampZero value = max 0 value := by
  have hzero : (ofInt 0 : K) = 0 := Int.cast_zero
  unfold clampZero
  rw [hzero]
  split
  · rename_i hlt
    exact (max_eq_right (of_decide_eq_true hlt : (0 : K) < value).le).symm
  · rename_i hlt
    exact (max_eq_left (not_lt.mp fun h => hlt (decide_eq_true h))).symm

theorem predict_eq (features row : Row5 K) :
    predict features row = max 0 (weighted features row) := by
  unfold predict weighted
  rw [clampZero_eq, pySum_eq, ← List.ofFn_eq_map, List.sum_ofFn]
  rfl

variable [FloatText K] [PyNumber K]

theorem Predicts.predicted_eq {artifact : Json} {sample : HeldOut K} (h : Predicts artifact sample) :
    sample.predicted = weighted sample.features (exactRow K artifact) := by
  rw [h.predicted, weighted_eq]
  show _ = ((1 : Int) : K) * _ + _ + _ + _ + _
  rw [Int.cast_one, one_mul]
  rfl

theorem gateway_eq {artifact : Json} {predictor : TTFTPredictor K}
    (hloaded : Loaded artifact predictor) {sample : HeldOut K} (hsample : Predicts artifact sample)
    (hprompt : sample.prompt < 2 ^ 63) (rate : K) :
    predictor.predict sample.prompt sample.matched sample.queue sample.pressure rate =
      max 0 (weighted sample.features (readRow K artifact)) := by
  have hwrap : wrap64 (sample.prompt - sample.matched) = sample.prompt - sample.matched := by
    have hle := hsample.matched_le
    have hnonneg := hsample.matched_nonneg
    exact wrap64_of_fits (by omega) (by omega)
  have huncached : maxInt (sample.prompt - sample.matched) 0 = sample.prompt - sample.matched := by
    have hle := hsample.matched_le
    unfold maxInt
    split <;> omega
  have hmax : ∀ x : K, Float64.max (ofInt 0) x = max 0 x := by
    intro x
    rw [show (ofInt 0 : K) = 0 from Int.cast_zero, max_def_lt]
    rfl
  unfold TTFTPredictor.predict
  rw [hwrap, huncached, hmax, weighted_eq, hloaded.base, hloaded.promptToken, hloaded.cachedToken,
    hloaded.queuePenalty, hloaded.pressurePenalty, hloaded.observed]
  show max 0 (_ + _ + _ + _ + _) = max 0 (((1 : Int) : K) * _ + _ + _ + _ + _)
  rw [Int.cast_one, one_mul]
  rfl

/-- **The three predictors agree** on a sample just if the weighted sum of the validation is not
negative, and the coefficients that the gateway reads have the same sum, or one that is cut to it. -/
theorem predictors_agree_iff {str : Json → String} {artifact : Json} {predictor : TTFTPredictor K}
    {loaded : PredictorArtifact K} {decisionRows outcomeRows : List Json}
    {samples : List (HeldOut K)} {sample : HeldOut K}
    (hload : loadTTFTPredictor artifact = .ok (predictor, loaded))
    (hsamples : heldOutSamples str artifact decisionRows outcomeRows = .ok samples)
    (hsample : sample ∈ samples) (hprompt : sample.prompt < 2 ^ 63) (rate : K) :
    (sample.predicted = predict sample.features (exactRow K artifact) ∧
      predict sample.features (exactRow K artifact) =
        predictor.predict sample.prompt sample.matched sample.queue sample.pressure rate) ↔
    0 ≤ weighted sample.features (exactRow K artifact) ∧
      (weighted sample.features (readRow K artifact) =
          weighted sample.features (exactRow K artifact) ∨
        weighted sample.features (exactRow K artifact) = 0 ∧
          weighted sample.features (readRow K artifact) ≤ 0) := by
  have hpredicts := heldOutSamples_ok hsamples hsample
  rw [hpredicts.predicted_eq, predict_eq,
    gateway_eq (loadTTFTPredictor_ok hload) hpredicts hprompt rate]
  constructor
  · rintro ⟨hclamp, hgateway⟩
    have hnonneg : 0 ≤ weighted sample.features (exactRow K artifact) := by
      rw [hclamp]
      exact le_max_left _ _
    refine ⟨hnonneg, ?_⟩
    rw [max_eq_right hnonneg] at hgateway
    rcases le_total 0 (weighted sample.features (readRow K artifact)) with hread | hread
    · rw [max_eq_right hread] at hgateway
      exact .inl hgateway.symm
    · rw [max_eq_left hread] at hgateway
      exact .inr ⟨hgateway, hread⟩
  · rintro ⟨hnonneg, hread⟩
    rw [max_eq_right hnonneg]
    refine ⟨rfl, ?_⟩
    rcases hread with hread | ⟨hzero, hread⟩
    · rw [hread, max_eq_right hnonneg]
    · rw [hzero, max_eq_left hread]

end Agreement

namespace ValidationSample

local instance : Exact Rat := ⟨fun _ => 1, fun x => (x + 1 / 2).floor⟩

local instance : PyNumber Rat := ⟨fun _ => none, fun _ => none, Rat.floor⟩

attribute [local instance] Exact.float64 integerText

def name (text : String) : JsonText := { text, wellFormed := true }

def text (value : String) : Json := .string (name value)

/-- The model and where it runs. -/
def dimensions : List (JsonText × Json) :=
  [(name "model", text "m"), (name "gpu_type", text "g"), (name "backend_engine", text "e"),
    (name "backend_version", text "1")]

/-- Each request in the queue costs 8 ms, and all else is free. -/
def coefficients : Json :=
  .object [(name "intercept_ms", .number "0"), (name "uncached_token_ms", .number "0"),
    (name "cached_token_ms", .number "0"), (name "queue_penalty_ms", .number "8"),
    (name "kv_pressure_penalty_ms", .number "0")]

def artifact : Json :=
  .object ([(name "schema_version", text "kavora-ttft-predictor/v1"),
    (name "predictor_version", text "fitted"), (name "coefficients", coefficients)] ++ dimensions)

def candidate (queue : String) : Json :=
  .object [(name "backend_id", text "b"), (name "queue_depth", .number queue)]

def decision (queue : String) : Json :=
  .object [(name "request_id", text "r"), (name "candidates", .array [candidate queue])]

def outcome : Json :=
  .object ([(name "request_id", text "r"), (name "actual_backend", text "b"),
    (name "success", .bool true), (name "prompt_tokens", .number "1"),
    (name "observed_matched_tokens", .number "0"), (name "ttft_ms", .number "5")] ++ dimensions)

def sample (queue : Rat) : HeldOut Rat where
  prompt := 1
  matched := 0
  actual := 5
  queue
  pressure := ofInt 0
  predicted := 0 + ofInt (1 - 0) * 0 + ofInt 0 * 0 + queue * 8 + ofInt 0 * 0

def loaded : PredictorArtifact Rat :=
  { PredictorArtifact.zero with
    schemaVersion := "kavora-ttft-predictor/v1"
    predictorVersion := "fitted"
    model := "m"
    gpuType := "g"
    backendEngine := "e"
    backendVersion := "1"
    coefficients := { PredictorCoefficients.zero with queuePenaltyMS := 8 } }

def predictor : TTFTPredictor Rat where
  version := "fitted"
  model := "m"
  gpuType := "g"
  backendEngine := "e"
  backendVersion := "1"
  baseMS := 0
  promptTokenMS := 0
  cachedTokenMS := 0
  queuePenaltyMS := 8
  pressurePenalty := 0
  sloScaleMS := 25
  useObservedPrefillRate := false

theorem artifact_loaded : loadTTFTPredictor artifact = .ok (predictor, loaded) := rfl

theorem samples_of_queue {text : String} {queue : Rat}
    (hread : readSample coefficients (candidate text) outcome = .ok (sample queue))
    (hcounts : (sample queue).counts = true) :
    heldOutSamples (fun _ => "") artifact [decision text] [outcome] = .ok [sample queue] := by
  have hrow : validateRow (fun _ => "") artifact coefficients [decision text] outcome =
      .ok (some (sample queue)) := by
    have hcandidate : candidateFor ([decision text].reverse.find?
        fun decision => Json.getEq Rat (decision.member "request_id") (outcome.member "request_id"))
        (backendOf (fun _ => "") outcome) = .ok (some (candidate text)) := rfl
    unfold validateRow
    rw [if_neg (by decide)]
    dsimp only
    rw [hcandidate]
    dsimp only
    rw [if_neg (by decide +kernel), hread]
    dsimp only
    rw [if_pos hcounts]
  have hrun : heldOutSamples (fun _ => "") artifact [decision text] [outcome] =
      [outcome].mapM (validateRow (F := Rat) (fun _ => "") artifact coefficients [decision text]) >>=
        fun rows => pure (rows.filterMap id) := rfl
  rw [hrun, List.mapM_cons, hrow]
  rfl

theorem samples_of_three :
    heldOutSamples (fun _ => "") artifact [decision "3"] [outcome] = .ok [sample 3] :=
  samples_of_queue rfl (by decide +kernel)

theorem predictors_agree_on_queue :
    (sample 3).predicted = predict (sample 3).features (exactRow Rat artifact) ∧
      predict (sample 3).features (exactRow Rat artifact) =
        predictor.predict 1 0 3 0 0 := by
  have hagree : 0 ≤ weighted (sample 3).features (exactRow Rat artifact) ∧
      (weighted (sample 3).features (readRow Rat artifact) =
          weighted (sample 3).features (exactRow Rat artifact) ∨
        weighted (sample 3).features (exactRow Rat artifact) = 0 ∧
          weighted (sample 3).features (readRow Rat artifact) ≤ 0) := by
    decide +kernel
  exact (predictors_agree_iff artifact_loaded samples_of_three List.mem_cons_self
    (by decide) 0).mpr hagree

/-- A signal may be negative. The validation then counts a negative time, and the fit and the gateway
predict none. -/
theorem negative_queue_disagrees :
    loadTTFTPredictor artifact = .ok (predictor, loaded) ∧
      heldOutSamples (fun _ => "") artifact [decision "-1"] [outcome] = .ok [sample (-1)] ∧
      (sample (-1)).predicted ≠
        predict (sample (-1)).features (exactRow Rat artifact) ∧
      predict (sample (-1)).features (exactRow Rat artifact) = 0 ∧
      predictor.predict 1 0 (-1) 0 0 = 0 := by
  refine ⟨rfl, samples_of_queue rfl (by decide +kernel), ?_, ?_, ?_⟩
  · decide +kernel
  · decide +kernel
  · decide +kernel

end ValidationSample

end Kavora.Planner
