import Kavora.Lib.PyDict
import Kavora.Planner.Readers

/-!
# The evaluation of an experiment (`planner/policy_evaluation.py`)

`evaluateExperiment` joins the decisions of an experiment with their outcomes, leaves out the
guarded ones, compares the arms, and says whether the treatment may be promoted. `none` is an
exception.

* `joinedRows`, `isGuarded`, `armRows`: the rows of an arm.
* `armMetrics`: the metrics of an arm; `safety` and `integrity` are the gates.

Goodput, throughput and the qualification of requests, which only describe the arms, are not part
of the report here.
-/

namespace Kavora.Planner

open Lib Lib.Go
open Float64 (ofInt)

/-- `statistics.mean` and `math`. -/
class Statistics (F : Type) where
  mean : List F → F
  floor : F → Int
  ceil : F → Int
  inf : F

/-- `random.Random`. -/
structure Random where
  State : Type
  seed : Int → State
  /-- The index of the item that `choice` picks from so many. -/
  choice : State → Nat → Nat × State

variable {F : Type} [Float64 F] [FloatText F] [Statistics F]

/-! ## Numbers -/

/-- `_percentile`. -/
def percentile (values : List F) (quantile : F) : Option F :=
  if values = [] then none
  else
    let ordered := values.insertionSort fun a b => Float64.lt b a = false
    let position := quantile * ofInt (ordered.length - 1)
    let lower := Statistics.floor position
    let upper := Statistics.ceil position
    let item (i : Int) : F := ordered.getD i.toNat (ofInt 0)
    if lower = upper then some (item lower)
    else some (item lower + (item upper - item lower) * (position - ofInt lower))

/-- `statistics.mean(generator.choice(values) for _ in values)`. -/
def resampledMean (random : Random) (state : random.State) (values : List F) :
    F × random.State :=
  let picked := values.foldl (fun (picked, state) _ =>
    let (i, state) := random.choice state values.length
    (picked ++ [values.getD i (ofInt 0)], state)) (([] : List F), state)
  (Statistics.mean picked.1, picked.2)

/-- `value or 0`. -/
def orZero (value : Option F) : F :=
  match value with
  | none => ofInt 0
  | some x => if Float64.eq x (ofInt 0) then ofInt 0 else x

/-- `value or math.inf`. -/
def orInf (value : Option F) : F :=
  match value with
  | none => Statistics.inf
  | some x => if Float64.eq x (ofInt 0) then Statistics.inf else x

/-- `_bootstrap_difference`. -/
def bootstrapDifference (random : Random) (control treatment : List F) (samples : Nat)
    (seed : Int) : F × F :=
  let drawn := (List.range samples).foldl (fun (differences, state) _ =>
    let (controlMean, state) := resampledMean random state control
    let (treatmentMean, state) := resampledMean random state treatment
    (differences ++ [treatmentMean - controlMean], state)) (([] : List F), random.seed seed)
  (orZero (percentile drawn.1 (ofInt 25 / ofInt 1000)),
    orZero (percentile drawn.1 (ofInt 975 / ofInt 1000)))

/-- `max(a, b)`. -/
def pyMax (a b : F) : F := if Float64.lt a b then b else a

/-- `a / b` of two counts. -/
def ratio (a b : Nat) : F := ofInt a / ofInt b

/-! ## Rows -/

/-- A decision with its outcome. -/
structure Row where
  decision : Json
  outcome : Json

/-- The key of a row in a dict by `request_id`; `none` if the value is neither a text nor `None`. -/
def requestKey (row : Json) : Option (Option String) :=
  match row.member "request_id" with
  | none => some none
  | some .null => some none
  | some (.string s) => some (some s.text)
  | _ => none

/-- A row under its request, if it names one. -/
def keyed (row : Json) : Option (Option String × Json) := (requestKey row).map fun key => (key, row)

/-- The decisions of the experiment that have outcomes. -/
def joinedRows (F : Type) [Float64 F] [FloatText F] (experimentID : String)
    (decisionRows outcomeRows : List Json) : Option (List Row) := do
  let decisions ←
    (decisionRows.filter fun row => Json.isText (row.member "experiment_id") experimentID).mapM keyed
  let outcomes ←
    (outcomeRows.filter fun row => Json.truthy F (row.member "request_id")).mapM keyed
  pure ((dict decisions).filterMap fun (key, decision) =>
    ((dict outcomes).lookup key).map fun outcome => { decision, outcome })

/-- The row is of a warm-up or is guarded against a carry-over. -/
def isGuarded (F : Type) [Float64 F] [FloatText F] (row : Row) : Bool :=
  Json.truthy F (row.decision.member "warmup") || Json.truthy F (row.decision.member "carryover_guard")

/-- The rows that are not guarded. A row that equals a guarded one is guarded, too. -/
def eligibleRows (F : Type) [Float64 F] [FloatText F] (joined : List Row) : List Row :=
  joined.filter fun row => !isGuarded F row

/-- The rows of a policy. -/
def armRows (policy : String) (eligible : List Row) : List Row :=
  eligible.filter fun row => Json.isText (row.decision.member "assigned_policy") policy

/-- `float(doc.get(name, 0))`. -/
def floatOf (value : Option Json) : Option F :=
  match value with
  | none => some (ofInt 0)
  | some value => Json.toFloat F value

/-- The times to the first token that are positive. -/
def positiveTTFTs (rows : List Row) : Option (List F) :=
  (rows.mapM fun row => floatOf (row.outcome.member "ttft_ms")).map fun ttfts =>
    ttfts.filter fun ttft => Float64.lt (ofInt 0) ttft

/-- The prediction errors that decisions carry. -/
def predictionErrors (rows : List Row) : Option (List F) :=
  (rows.filter fun row => Json.truthy F (row.decision.member "prediction_error")).mapM fun row =>
    match row.decision.member "prediction_error" with
    | some (.object ms) => floatOf ((Json.object ms).member "ttft_absolute_error_ms")
    | _ => none

/-- `str(doc.get(name, ""))` of a text. -/
def textOr (value : Option Json) : String :=
  match value with
  | none => ""
  | some (.string s) => s.text
  | some value => .ofList value.print

/-- The window and the policy of a decision. -/
def windowOf (row : Row) : String := textOr (row.decision.member "experiment_window")

/-- The policy of a row. -/
def policyOf (row : Row) : String := textOr (row.decision.member "assigned_policy")

/-- `_window_means`. -/
def windowMeans (rows : List Row) : Option (List F) := do
  let ttfts : List F ← rows.mapM fun row => floatOf (row.outcome.member "ttft_ms")
  let positive := (rows.zip ttfts).filter fun (_, ttft) => Float64.lt (ofInt 0) ttft
  let windows := groups (fun (row, _) => windowOf row) positive
  pure (windows.map fun (_, group) => Statistics.mean (group.map Prod.snd))

/-! ## Metrics -/

/-- What the rows of an arm come to. -/
structure ArmMetrics (F : Type) where
  requests : Nat
  successfulRequests : Nat
  ttftSamples : Nat
  ttftMeanMS : Option F
  ttftP95MS : Option F
  sloViolationRate : Option F
  errorRate : Option F
  fallbackRate : Option F
  predictionMAEMS : Option F

/-- The mean of some values, if there are any. -/
def meanOf (values : List F) : Option F :=
  if values = [] then none else some (Statistics.mean values)

/-- `_arm_metrics`. -/
def armMetrics (rows : List Row) (sloMS : F) : Option (ArmMetrics F) := do
  let ttfts : List F ← positiveTTFTs rows
  let errors : List F ← predictionErrors rows
  let successes := rows.filter fun row => Json.truthy F (row.outcome.member "success")
  let fallbacks := rows.filter fun row => Json.truthy F (row.decision.member "fallback")
  let violations := ttfts.filter fun ttft => Float64.lt sloMS ttft
  pure
    { requests := rows.length
      successfulRequests := successes.length
      ttftSamples := ttfts.length
      ttftMeanMS := meanOf ttfts
      ttftP95MS := percentile ttfts (ofInt 95 / ofInt 100)
      sloViolationRate := if ttfts = [] then none else some (ratio violations.length ttfts.length)
      errorRate := if rows = [] then none else some (ofInt 1 - ratio successes.length rows.length)
      fallbackRate := if rows = [] then none else some (ratio fallbacks.length rows.length)
      predictionMAEMS := meanOf errors }

/-- The text of a member, for comparisons with another one. -/
def memberText (value : Option Json) : Option String :=
  match value with
  | some (.string s) => some s.text
  | _ => none

/-- The queue of the backend that answered among the candidates. -/
def candidateQueue (actual : Option String) : List Json → Option F
  | [] => some (ofInt 0)
  | .object ms :: candidates =>
    if memberText ((Json.object ms).member "backend_id") = actual then
      floatOf ((Json.object ms).member "queue_depth")
    else candidateQueue actual candidates
  | _ :: _ => none

/-- `_actual_queue`, which fails if the candidates are `null`. -/
def actualQueue (row : Row) : Option F :=
  let actual := memberText (row.outcome.member "actual_backend")
  match row.decision.member "candidates" with
  | none => some (ofInt 0)
  | some (.array candidates) => candidateQueue actual candidates
  | some _ => none

/-- A comparison of the arms on some of the rows. -/
structure Stratum (F : Type) where
  stratum : String
  controlRequests : Nat
  treatmentRequests : Nat
  ttftMeanDifferenceMS : Option F
  controlSLOViolationRate : Option F
  treatmentSLOViolationRate : Option F

/-- The prompt tokens of a row. -/
def promptTokens (row : Row) : Option Int :=
  match row.outcome.member "prompt_tokens" with
  | none => some 0
  | some value => Json.toInt value

/-- `float(doc.get("observed_cache_hit_ratio", 0) or 0)`. -/
def cacheHitRatio (row : Row) : Option F :=
  let value := row.outcome.member "observed_cache_hit_ratio"
  if Json.truthy F value then floatOf value else some (ofInt 0)

/-- The strata; a row may have no value for one. -/
def strataDefinitions (F : Type) [Float64 F] [FloatText F] : List (String × (Row → Option Bool)) :=
  let half : F := ofInt 1 / ofInt 2
  let one : F := ofInt 1
  [ ("short_prompt", fun row => (promptTokens row).map fun n => n ≤ 1024),
    ("long_prompt", fun row => (promptTokens row).map fun n => n > 1024),
    ("low_reuse", fun row => (cacheHitRatio row).map fun x => Float64.lt x half),
    ("high_reuse", fun row => (cacheHitRatio row).map fun x => Float64.le half x),
    ("low_load", fun row => (actualQueue row).map fun x => Float64.lt x one),
    ("high_load", fun row => (actualQueue row).map fun x => Float64.le one x) ]

/-- `_strata`. -/
def strata (rows : List Row) (control treatment : String) (sloMS : F) : Option (List (Stratum F)) :=
  (strataDefinitions F).mapM fun (name, predicate) => do
    let selected ← rows.filterM predicate
    let controlMetrics ← armMetrics (armRows control selected) sloMS
    let treatmentMetrics ← armMetrics (armRows treatment selected) sloMS
    pure
      { stratum := name
        controlRequests := controlMetrics.requests
        treatmentRequests := treatmentMetrics.requests
        ttftMeanDifferenceMS :=
          match controlMetrics.ttftMeanMS, treatmentMetrics.ttftMeanMS with
          | some c, some t => some (t - c)
          | _, _ => none
        controlSLOViolationRate := controlMetrics.sloViolationRate
        treatmentSLOViolationRate := treatmentMetrics.sloViolationRate }

/-! ## The gates -/

/-- The limits that both arms must keep. -/
structure Guardrails (F : Type) where
  maxErrorRate : Option F
  maxFallbackRate : Option F
  maxP95TTFTMS : Option F
  maxPredictionMAEMS : Option F

/-- Whether each gate passes. -/
structure Safety where
  errors : Bool
  fallback : Bool
  p95TTFT : Bool
  predictionDrift : Bool
  deriving DecidableEq, Repr

/-- Which of the limits are kept. -/
def safety (guardrails : Guardrails F) (control treatment : ArmMetrics F) : Safety where
  errors :=
    Float64.le (pyMax (orZero control.errorRate) (orZero treatment.errorRate))
      (guardrails.maxErrorRate.getD (ofInt 1))
  fallback :=
    Float64.le (pyMax (orZero control.fallbackRate) (orZero treatment.fallbackRate))
      (guardrails.maxFallbackRate.getD (ofInt 1))
  p95TTFT :=
    Float64.le (pyMax (orInf control.ttftP95MS) (orInf treatment.ttftP95MS))
      (guardrails.maxP95TTFTMS.getD Statistics.inf)
  predictionDrift :=
    Float64.le (orZero treatment.predictionMAEMS)
      (guardrails.maxPredictionMAEMS.getD Statistics.inf)

/-- The probability of the assignment is in `(0, 1]` and its policy one of the two. -/
def assignmentCheck (F : Type) [Float64 F] [FloatText F] (control treatment : String) (row : Row) :
    Option Bool :=
  (floatOf (row.decision.member "assignment_probability") : Option F).map fun probability =>
    Float64.lt (ofInt 0) probability && Float64.le probability (ofInt 1) &&
      (Json.isText (row.decision.member "assigned_policy") control ||
        Json.isText (row.decision.member "assigned_policy") treatment)

/-- The windows with rows of more than one policy. -/
def contaminatedWindows (eligible : List Row) : List String :=
  ((groups windowOf eligible).filter fun (window, rows) =>
    window ≠ "isolated-pool" && 1 < (rows.map policyOf).dedup.length).map Prod.fst

/-- Whether the assignment of the requests can be trusted. -/
structure Integrity where
  assignment : Bool
  warmupExcluded : Nat
  windowBalance : Bool
  joinedOutcomes : Nat
  contaminatedWindows : List String
  deriving DecidableEq, Repr

/-- The settings of an evaluation. -/
structure Settings (F : Type) where
  experimentID : String
  controlPolicy : String
  treatmentPolicy : String
  sloMS : F
  minRequests : Int
  bootstrapSamples : Nat
  seed : Int
  guardrails : Guardrails F

/-- The report on an experiment. -/
structure Report (F : Type) where
  control : ArmMetrics F
  treatment : ArmMetrics F
  ttftMeanDifferenceMS : F
  ci95LowMS : F
  ci95HighMS : F
  clustered : Bool
  safety : Safety
  integrity : Integrity
  strata : List (Stratum F)
  promotionEligible : Bool

/-- The report on the joined rows. -/
def reportOf (random : Random) (settings : Settings F) (joined : List Row) :
    Option (Report F) := do
  let eligible := eligibleRows F joined
  let controlRows := armRows settings.controlPolicy eligible
  let treatmentRows := armRows settings.treatmentPolicy eligible
  let controlTTFT : List F ← positiveTTFTs controlRows
  let treatmentTTFT : List F ← positiveTTFTs treatmentRows
  if controlTTFT = [] ∨ treatmentTTFT = [] then none
  else
    let controlWindows : List F ← windowMeans controlRows
    let treatmentWindows : List F ← windowMeans treatmentRows
    let clustered : Bool := 1 < controlWindows.length && 1 < treatmentWindows.length
    let ci :=
      bootstrapDifference random (if clustered then controlWindows else controlTTFT)
        (if clustered then treatmentWindows else treatmentTTFT) settings.bootstrapSamples
        settings.seed
    let controlMetrics ← armMetrics controlRows settings.sloMS
    let treatmentMetrics ← armMetrics treatmentRows settings.sloMS
    let assignmentOk ←
      joined.allM (assignmentCheck F settings.controlPolicy settings.treatmentPolicy)
    let contaminated := contaminatedWindows eligible
    let arms : Bool := controlRows ≠ [] && treatmentRows ≠ []
    let safety := safety settings.guardrails controlMetrics treatmentMetrics
    let assignment := assignmentOk && arms
    let windowBalance : Bool := arms && contaminated = []
    let strata ← strata eligible settings.controlPolicy settings.treatmentPolicy settings.sloMS
    pure
      { control := controlMetrics
        treatment := treatmentMetrics
        ttftMeanDifferenceMS := Statistics.mean treatmentTTFT - Statistics.mean controlTTFT
        ci95LowMS := ci.1
        ci95HighMS := ci.2
        clustered
        safety
        integrity :=
          { assignment
            warmupExcluded := (joined.filter (isGuarded F)).length
            windowBalance
            joinedOutcomes := joined.length
            contaminatedWindows := contaminated }
        strata
        promotionEligible :=
          settings.minRequests ≤ eligible.length && safety.errors && safety.fallback &&
            safety.p95TTFT && safety.predictionDrift && assignment && windowBalance &&
            Float64.lt ci.2 (ofInt 0) }

/-- `evaluate_experiment` on the files of the journal. -/
def evaluateExperiment (random : Random) (settings : Settings F)
    (decisionFiles outcomeFiles : List Bytes) : Option (Report F) := do
  let decisionRows ← readJsonl .evaluation decisionFiles
  let outcomeRows ← readJsonl .evaluation outcomeFiles
  let joined ← joinedRows F settings.experimentID decisionRows outcomeRows
  reportOf random settings joined

end Kavora.Planner
