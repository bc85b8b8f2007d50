import Kavora.Benchmark.RunEntries
import Kavora.Lib.Except
import Kavora.Lib.Ranking
import Kavora.Planner.Evaluation

/-!
# The calibration of the operating envelope (`planner/auto_calibrator.py`)

The runs of each point of a sweep pass some gates, for each threshold of the hit ratio. A candidate
is a point with a threshold; of those with enough feasible runs the one with the best robust score
is recommended.

* `judge`: the gates of a run.
* `evaluateCandidate`, `calibrate`: a candidate, and the recommendation.
* `measuredFeasible_iff`: which of the runs that pass the gates are measured.
* `calibratesMeasured_iff`: when a calibration rests on measured runs only.
-/

namespace Kavora.Planner

open Lib Lib.Go Benchmark BackendState
open Lib.Go.Float64 (lt le eq ofInt)

/-- `statistics.stdev`, `math.sqrt` and `round(x, 6)`. -/
class Spread (F : Type) where
  stdev : List F → F
  sqrt : F → F
  round6 : F → F

/-- What a run must meet to be feasible, and how many runs must. -/
structure CalibrationConstraints (F : Type) where
  e2eP95SLOMS : F
  minSuccessRate : F
  minFeasibleRuns : Int

/-- What the robust score takes off the mean. -/
structure CalibrationWeights (F : Type) where
  instability : F
  evidenceUncertainty : F
  safetyFactor : F

/-- The keys of `rejected_counts`. -/
inductive Gate where
  | slo | successRate | hitRatio | metricQuality | evidenceMissing
  deriving DecidableEq, Repr

/-- An item of `feasible`. -/
structure FeasibleRun (F : Type) [FloatText F] where
  rps : F
  hitRatio : FiniteNumber F
  evidenceQuality : EvidenceQuality

/-- `_quality_name`. -/
inductive QualityName where
  | only (quality : EvidenceQuality)
  | mixed
  deriving DecidableEq, Repr

/-- A point of the sweep with a threshold of the hit ratio. -/
structure CandidateResult (F : Type) where
  scenario : Json
  concurrency : Int
  minHitRatio : F
  feasibleRuns : Nat
  totalRuns : Nat
  meanRPS : Option F
  rpsLowerBound : F
  expectedRPS : F
  instability : F
  evidenceUncertainty : F
  evidenceQuality : QualityName
  score : Option F
  rejectionReasons : List String
  rejectedCounts : Gate → Nat
  selected : Bool

section Runs

variable {F : Type} [Float64 F] [FloatText F] [PyNumber F]

/-- `_success_rate`. -/
def successRate (run : Json) : Except PyError F := do
  let summary := (← run.getItem? "summary").getD (.object [])
  let requests := (← summary.getItem? "requests").getD (.object [])
  let total : F ← Json.floatOrZero F (← requests.getItem? "total")
  if lt (ofInt 0) total then
    let ok : F ← Json.floatOrZero F (← requests.getItem? "ok")
    return ok / total
  else return ofInt 0

/-- The value at a path of dicts. -/
def valueAt (run : Json) (path : List String) : Json :=
  path.foldl (fun value key => (value.member key).getD (.object [])) run

/-- `_number`: what is no finite number counts as zero. -/
def number (run : Json) (path : List String) : Except PyError F :=
  match Json.floatOrZero F (some (valueAt run path)) with
  | .ok x => .ok (if FloatText.isFinite x then x else ofInt 0)
  | .error .overflowError => .error .overflowError
  | .error _ => .ok (ofInt 0)

/-- Where a run has its latency. -/
def latencyPath : List String := ["summary", "latency", "e2e_latency_p95_ms"]

/-- What the gates read of a run. -/
structure Reading (F : Type) [FloatText F] where
  hitRatio : Option (FiniteNumber F)
  metricQuality : MetricQuality
  evidenceQuality : EvidenceQuality
  e2e : F
  successRate : F

/-- The values of a run that the gates compare. -/
def readRun (run : Json) : Except PyError (Reading F) := do
  let (hitRatio, metricQuality, _) ← getEntryHitRatioQualityAndSource (F := F) run
  let evidenceQuality ← getEntryEvidenceQuality F run
  let e2e ← number run latencyPath
  let successRate ← successRate run
  return { hitRatio, metricQuality, evidenceQuality, e2e, successRate }

/-- The gates, in their order: the first that stops a run, or its hit ratio. -/
def gates (constraints : CalibrationConstraints F) (threshold : F) (reading : Reading F) :
    Gate ⊕ FiniteNumber F :=
  if lt constraints.e2eP95SLOMS reading.e2e then .inl .slo
  else if lt reading.successRate constraints.minSuccessRate then .inl .successRate
  else if reading.metricQuality ≠ .ok then .inl .metricQuality
  else
    match reading.hitRatio with
    | none => .inl .hitRatio
    | some hitRatio =>
      if lt hitRatio.val threshold then .inl .hitRatio
      else if reading.evidenceQuality = .missing then .inl .evidenceMissing
      else .inr hitRatio

/-- The body of the loop of `_evaluate_candidate`. -/
def judge (constraints : CalibrationConstraints F) (threshold : F) (run : Json) :
    Except PyError (Gate ⊕ FeasibleRun F) := do
  let reading : Reading F ← readRun run
  match gates constraints threshold reading with
  | .inl gate => return .inl gate
  | .inr hitRatio =>
    let rps ← number run ["summary", "throughput", "req_s"]
    return .inr { rps, hitRatio, evidenceQuality := reading.evidenceQuality }

/-- `point.get("runs", [])`. -/
def runsOf (point : Json) : Except PyError (List Json) := do
  ((← point.getItem? "runs").getD (.array [])).items

/-- `source.get("points", [])`. -/
def pointsOf (document : Json) : Except PyError (List Json) := do
  ((← document.getItem? "points").getD (.array [])).items

end Runs

section Candidates

variable {F : Type} [Float64 F] [FloatText F] [PyNumber F] [Statistics F] [Spread F]

/-- `EVIDENCE_UNCERTAINTY`. -/
def evidenceUncertainty : EvidenceQuality → F
  | .strict => ofInt 0
  | .estimated => ofInt 25 / ofInt 100
  | .fallback => ofInt 6 / ofInt 10
  | _ => ofInt 1

/-- The quality that all feasible runs have in common. -/
def qualityName : List EvidenceQuality → QualityName
  | [] => .only .missing
  | quality :: rest => if rest.all (· = quality) then .only quality else .mixed

/-- `max(0.0, x)`. -/
def positivePart (x : F) : F := if lt (ofInt 0) x then x else ofInt 0

/-- The candidate of some verdicts on its runs. -/
def candidateOf (scenario : Json) (concurrency : Int) (threshold : F)
    (constraints : CalibrationConstraints F) (weights : CalibrationWeights F)
    (verdicts : List (Gate ⊕ FeasibleRun F)) : CandidateResult F :=
  let feasible := verdicts.filterMap Sum.getRight?
  let insufficient :=
    if (feasible.length : Int) < constraints.minFeasibleRuns then ["insufficient_feasible_runs"]
    else []
  let rejectedCounts (gate : Gate) :=
    verdicts.countP fun verdict => verdict.getLeft? = some gate
  if feasible = [] then
    { scenario, concurrency
      minHitRatio := threshold
      feasibleRuns := 0
      totalRuns := verdicts.length
      meanRPS := none
      rpsLowerBound := ofInt 0
      expectedRPS := ofInt 0
      instability := ofInt 1
      evidenceUncertainty := ofInt 1
      evidenceQuality := .only .missing
      score := none
      rejectionReasons := insufficient
      rejectedCounts
      selected := false }
  else
    let rpsValues := feasible.map (·.rps)
    let meanRPS := Statistics.mean rpsValues
    let stddev := if 1 < rpsValues.length then Spread.stdev rpsValues else ofInt 0
    let standardError := stddev / Spread.sqrt (ofInt rpsValues.length)
    let lowerBound := positivePart (meanRPS - ofInt 196 / ofInt 100 * standardError)
    let instability := if lt (ofInt 0) meanRPS then stddev / meanRPS else ofInt 1
    let uncertainty := Statistics.mean (feasible.map fun item =>
      (evidenceUncertainty item.evidenceQuality : F))
    let score := lowerBound - weights.instability * meanRPS * instability -
      weights.evidenceUncertainty * meanRPS * uncertainty
    { scenario, concurrency
      minHitRatio := threshold
      feasibleRuns := feasible.length
      totalRuns := verdicts.length
      meanRPS := some meanRPS
      rpsLowerBound := lowerBound
      expectedRPS := lowerBound * weights.safetyFactor
      instability
      evidenceUncertainty := uncertainty
      evidenceQuality := qualityName (feasible.map (·.evidenceQuality))
      score := some score
      rejectionReasons :=
        insufficient ++ if lt (ofInt 0) uncertainty then ["evidence_uncertainty"] else []
      rejectedCounts
      selected := false }

/-- `_evaluate_candidate`. -/
def evaluateCandidate (constraints : CalibrationConstraints F) (weights : CalibrationWeights F)
    (point : Json) (threshold : F) : Except PyError (CandidateResult F) := do
  let verdicts ← (← runsOf point).mapM (judge constraints threshold)
  let scenario := ((← point.getItem? "scenario").getD (.string ⟨"unknown", true⟩))
  let concurrency ← ((← point.getItem? "concurrency").getD (.number "0")).asInt F
  return candidateOf scenario concurrency threshold constraints weights verdicts

/-- An item of `selectable`, with its place among the candidates. -/
structure Selectable (F : Type) where
  candidate : CandidateResult F
  index : Nat
  score : F

/-- `selectable`, before it is sorted. -/
def selectable (constraints : CalibrationConstraints F) (candidates : List (CandidateResult F)) :
    List (Selectable F) :=
  candidates.zipIdx.filterMap fun (candidate, index) =>
    if constraints.minFeasibleRuns ≤ candidate.feasibleRuns then
      candidate.score.map fun score => { candidate, index, score }
    else none

/-- The comparison of the keys of the sort. -/
def Selectable.less : Selectable F → Selectable F → Bool :=
  lexLess (fun a b => eq a.score b.score) (fun a b => lt a.score b.score)
    (lexLess
      (fun a b => eq (-a.candidate.evidenceUncertainty) (-b.candidate.evidenceUncertainty))
      (fun a b => lt (-a.candidate.evidenceUncertainty) (-b.candidate.evidenceUncertainty))
      (lexLess (fun a b => eq a.candidate.minHitRatio b.candidate.minHitRatio)
        (fun a b => lt a.candidate.minHitRatio b.candidate.minHitRatio)
        fun a b => -a.candidate.concurrency < -b.candidate.concurrency))

/-- `recommendation`. -/
structure CalibrationRecommendation (F : Type) where
  minHitRatio : F
  maxConcurrency : Int
  expectedRPS : F
  confidence : F
  evidenceQuality : QualityName
  scenario : Json

/-- The recommendation of the selected candidate. -/
def recommendationOf (constraints : CalibrationConstraints F) (selected : CandidateResult F) :
    CalibrationRecommendation F :=
  let fraction : F :=
    ofInt selected.feasibleRuns / ofInt (max (constraints.minFeasibleRuns * 2) 1)
  let sampleConfidence := if lt fraction (ofInt 1) then fraction else ofInt 1
  let confidence := sampleConfidence * positivePart (ofInt 1 - selected.instability) *
    positivePart (ofInt 1 - selected.evidenceUncertainty)
  { minHitRatio := selected.minHitRatio
    maxConcurrency := selected.concurrency
    expectedRPS := Spread.round6 selected.expectedRPS
    confidence := Spread.round6 confidence
    evidenceQuality := selected.evidenceQuality
    scenario := selected.scenario }

/-- An alternative of the result: the selected candidate is marked, and each other one that could
have been selected is told why it is not. -/
def alternative (constraints : CalibrationConstraints F) (selected : Option (Selectable F))
    (candidate : CandidateResult F) (index : Nat) : CandidateResult F :=
  if selected.map (·.index) = some index then
    { candidate with selected := true, rejectionReasons := [] }
  else if candidate.score.isSome ∧ constraints.minFeasibleRuns ≤ candidate.feasibleRuns ∧
      "lower_robust_score" ∉ candidate.rejectionReasons then
    { candidate with rejectionReasons := candidate.rejectionReasons ++ ["lower_robust_score"] }
  else candidate

/-- The result of a calibration. -/
structure Calibration (F : Type) where
  schemaVersion : String
  recommendation : Option (CalibrationRecommendation F)
  constraints : CalibrationConstraints F
  weights : CalibrationWeights F
  deploymentStatus : String
  recommendedAction : String
  alternatives : List (CandidateResult F)

/-- The candidate that ranks first is recommended. -/
def calibrationOf (constraints : CalibrationConstraints F) (weights : CalibrationWeights F)
    (candidates : List (CandidateResult F)) : Calibration F :=
  let selected := (sortedReverse Selectable.less (selectable constraints candidates)).head?
  { schemaVersion := "kavora-auto-calibration/v1"
    recommendation := selected.map fun item => recommendationOf constraints item.candidate
    constraints
    weights
    deploymentStatus := if selected.isSome then "human_approval_required" else "blocked"
    recommendedAction :=
      if selected.isSome then "replay_then_canary" else "collect_more_evidence"
    alternatives := candidates.zipIdx.map fun (candidate, index) =>
      alternative constraints selected candidate index }

/-- `candidates`: each point with each threshold. -/
def candidatesOf (constraints : CalibrationConstraints F) (weights : CalibrationWeights F)
    (thresholds : List F) (points : List Json) : Except PyError (List (CandidateResult F)) :=
  (points.flatMap fun point => thresholds.map fun threshold => (point, threshold)).mapM
    fun (point, threshold) => evaluateCandidate constraints weights point threshold

/-- `calibrate` of the points of a document. -/
def calibrate (constraints : CalibrationConstraints F) (weights : CalibrationWeights F)
    (thresholds : List F) (document : Json) : Except PyError (Calibration F) := do
  let points ← pointsOf document
  let candidates ← candidatesOf constraints weights thresholds points
  return calibrationOf constraints weights candidates

end Candidates

/-! ## Measured runs -/

section Measured

variable {F : Type} [Float64 F] [FloatText F] [PyNumber F]

/-- The value at a path, if each name of it is there. -/
def presentAt : Json → List String → Option Json
  | value, [] => some value
  | value, name :: path => (value.member name).bind fun inner => presentAt inner path

/-- One of two numbers is not above the other one, so that neither is NaN. -/
def Comparable (a b : F) : Prop := le a b = true ∨ lt b a = true

/-- The finite latency that a run reports. -/
def MeasuredLatency (run : Json) (x : F) : Prop :=
  ∃ value, presentAt run latencyPath = some value ∧ value.asFloat F = .ok x ∧
    FloatText.isFinite x = true

/-- The positive number of requests that a run reports. -/
def MeasuredTotal (F : Type) [Float64 F] [FloatText F] [PyNumber F] (run : Json) : Prop :=
  ∃ value, presentAt run ["summary", "requests", "total"] = some value ∧
    ∃ total : F, value.asFloat F = .ok total ∧ lt (ofInt 0) total = true

theorem presentAt_eq_some {value inner : Json} {path : List String}
    (h : presentAt value path = some inner) : valueAt value path = inner := by
  induction path generalizing value with
  | nil => exact Option.some.inj h
  | cons name path ih =>
    obtain ⟨next, hnext, hinner⟩ := Option.bind_eq_some_iff.mp h
    unfold valueAt
    rw [List.foldl_cons, hnext]
    exact ih hinner

/-- What counts as the latency of a measured run is its latency, up to the sign of a zero. -/
theorem number_of_measured [Float64.Lawful F] {run : Json} {x y : F}
    (hx : MeasuredLatency run x) (hy : number run latencyPath = .ok y) :
    y = x ∨ y = ofInt 0 ∧ eq x (ofInt 0) = true := by
  obtain ⟨value, hvalue, hfloat, hfinite⟩ := hx
  unfold number at hy
  obtain ⟨z, hz, hcases⟩ := Json.floatOrZero_of_asFloat hfloat
  rw [presentAt_eq_some hvalue, hz] at hy
  dsimp only at hy
  rcases hcases with rfl | ⟨rfl, hzero⟩
  · rw [if_pos hfinite] at hy
    cases hy
    exact .inl rfl
  · rw [ite_self] at hy
    cases hy
    exact .inr ⟨rfl, hzero⟩

/-- A measured latency that passes the gate is at most the SLO, if neither is NaN. -/
theorem le_of_measured [Float64.Lawful F] {run : Json} {x y slo : F} (hx : MeasuredLatency run x)
    (hy : number run latencyPath = .ok y) (hpass : lt slo y = false) (h : Comparable x slo) :
    le x slo = true := by
  refine h.resolve_right fun hlt => ?_
  have hgreater : lt slo y = true := by
    rcases number_of_measured hx hy with rfl | ⟨rfl, hzero⟩
    · exact hlt
    · exact Float64.Lawful.lt_of_lt_of_eq hlt hzero
  rw [hpass] at hgreater
  cases hgreater

omit [PyNumber F] in
theorem gates_eq_inr_iff {constraints : CalibrationConstraints F} {threshold : F}
    {reading : Reading F} {hitRatio : FiniteNumber F} :
    gates constraints threshold reading = .inr hitRatio ↔
      lt constraints.e2eP95SLOMS reading.e2e = false ∧
        lt reading.successRate constraints.minSuccessRate = false ∧
        reading.metricQuality = .ok ∧ reading.hitRatio = some hitRatio ∧
        lt hitRatio.val threshold = false ∧ reading.evidenceQuality ≠ .missing := by
  unfold gates
  cases lt constraints.e2eP95SLOMS reading.e2e with
  | true => simp
  | false =>
    cases lt reading.successRate constraints.minSuccessRate with
    | true => simp
    | false =>
      by_cases hquality : reading.metricQuality = .ok
      · cases reading.hitRatio with
        | none => simp [hquality]
        | some hit =>
          cases hlt : lt hit.val threshold with
          | true =>
            have hne : ∀ h : hit = hitRatio, lt hitRatio.val threshold = true := by
              rintro rfl
              exact hlt
            grind
          | false =>
            by_cases hmissing : reading.evidenceQuality = .missing
            · simp [hquality, hmissing, hlt]
            · have hne : ∀ h : hit = hitRatio, lt hitRatio.val threshold = false := by
                rintro rfl
                exact hlt
              grind
      · simp [hquality]

/-- A run counts as feasible just if it passes the gates. -/
theorem judge_ok {constraints : CalibrationConstraints F} {threshold : F} {run : Json}
    {verdict : Gate ⊕ FeasibleRun F} (h : judge constraints threshold run = .ok verdict) :
    ∃ reading, readRun run = .ok reading ∧
      ((∃ feasible, verdict = .inr feasible) ↔
        ∃ hitRatio, gates constraints threshold reading = .inr hitRatio) := by
  unfold judge at h
  obtain ⟨reading, hreading, h⟩ := bind_ok h
  refine ⟨reading, hreading, ?_⟩
  cases hgates : gates constraints threshold reading with
  | inl gate =>
    rw [hgates] at h
    cases h
    exact iff_of_false nofun nofun
  | inr hitRatio =>
    rw [hgates] at h
    obtain ⟨rps, -, h⟩ := bind_ok h
    cases h
    exact iff_of_true ⟨_, rfl⟩ ⟨_, rfl⟩

/-- A run with a finite latency of at most the SLO, and a success rate of at least the target over a
positive number of requests. -/
structure MeasuredRun (slo target : F) (run : Json) : Prop where
  latency : ∃ x, MeasuredLatency run x ∧ le x slo = true
  total : MeasuredTotal F run
  rate : ∃ rate, successRate run = .ok rate ∧ le target rate = true

/-- A measured run with evidence for a hit ratio of at least the threshold. -/
structure MeasuredFeasible (constraints : CalibrationConstraints F) (threshold : F)
    (run : Json) : Prop
    extends MeasuredRun constraints.e2eP95SLOMS constraints.minSuccessRate run where
  hitRatio : ∃ hitRatio source,
    getEntryHitRatioQualityAndSource run = .ok (some hitRatio, .ok, source) ∧
      le threshold hitRatio.val = true
  evidence : ∃ quality, getEntryEvidenceQuality F run = .ok quality ∧ quality ≠ .missing

/-- A run has the numbers that the gates compare, and none of them is NaN. -/
structure Complete (constraints : CalibrationConstraints F) (threshold : F) (run : Json) :
    Prop where
  latency : ∃ x, MeasuredLatency run x ∧ Comparable x constraints.e2eP95SLOMS
  total : MeasuredTotal F run
  rate : ∃ rate, successRate run = .ok rate ∧ Comparable constraints.minSuccessRate rate
  hitRatio : ∃ hitRatio quality source,
    getEntryHitRatioQualityAndSource run = .ok (some hitRatio, quality, source) ∧
      Comparable threshold hitRatio.val

theorem readRun_ok {run : Json} {reading : Reading F} (h : readRun run = .ok reading) :
    (∃ source, getEntryHitRatioQualityAndSource run =
        .ok (reading.hitRatio, reading.metricQuality, source)) ∧
      getEntryEvidenceQuality F run = .ok reading.evidenceQuality ∧
      number run latencyPath = .ok reading.e2e ∧ successRate run = .ok reading.successRate := by
  unfold readRun at h
  obtain ⟨⟨hitRatio, metricQuality, source⟩, hentry, h⟩ := bind_ok h
  obtain ⟨evidence, hevidence, h⟩ := bind_ok h
  obtain ⟨e2e, he2e, h⟩ := bind_ok h
  obtain ⟨rate, hrate, h⟩ := bind_ok h
  cases h
  exact ⟨⟨source, hentry⟩, hevidence, he2e, hrate⟩

/-- A run that passes the gates is measured just if it has the numbers that they compare. -/
theorem measuredFeasible_iff [Float64.Lawful F] {constraints : CalibrationConstraints F}
    {threshold : F} {run : Json} {reading : Reading F} {hitRatio : FiniteNumber F}
    (hreading : readRun run = .ok reading)
    (hgates : gates constraints threshold reading = .inr hitRatio) :
    MeasuredFeasible constraints threshold run ↔ Complete constraints threshold run := by
  obtain ⟨⟨source, hentry⟩, hevidence, he2e, hrate⟩ := readRun_ok hreading
  obtain ⟨hslo, htarget, hquality, hhit, hthreshold, hmissing⟩ := gates_eq_inr_iff.mp hgates
  rw [hquality, hhit] at hentry
  constructor
  · rintro ⟨⟨⟨x, hx, hle⟩, htotal, ⟨rate, hrate', hleRate⟩⟩, ⟨hit, source', hentry', hleHit⟩, -⟩
    exact ⟨⟨x, hx, .inl hle⟩, htotal, ⟨rate, hrate', .inl hleRate⟩,
      ⟨hit, _, source', hentry', .inl hleHit⟩⟩
  · rintro ⟨⟨x, hx, hcomparable⟩, htotal, ⟨rate, hrate', hrateComparable⟩,
      ⟨hit, quality, source', hentry', hhitComparable⟩⟩
    rw [hrate] at hrate'
    cases hrate'
    rw [hentry] at hentry'
    cases hentry'
    refine ⟨⟨⟨x, hx, le_of_measured hx he2e hslo hcomparable⟩, htotal, ⟨_, hrate, ?_⟩⟩,
      ⟨_, _, hentry, ?_⟩, ⟨_, hevidence, hmissing⟩⟩
    · refine hrateComparable.resolve_right fun hlt => ?_
      rw [htarget] at hlt
      cases hlt
    · refine hhitComparable.resolve_right fun hlt => ?_
      rw [hthreshold] at hlt
      cases hlt

end Measured

/-! ## The recommendation -/

section Recommendation

variable {F : Type} [Float64 F] [FloatText F] [PyNumber F] [Statistics F] [Spread F]

/-- A run of a point of a document. -/
def IsRun (document run : Json) : Prop :=
  ∃ points point runs, pointsOf document = .ok points ∧ point ∈ points ∧
    runsOf point = .ok runs ∧ run ∈ runs

/-- A gate stops a run, or the run has the numbers that the gates compare. -/
def StoppedOrComplete (constraints : CalibrationConstraints F) (threshold : F) (run : Json) :
    Prop :=
  (∃ reading gate, readRun run = .ok reading ∧
    gates constraints threshold reading = .inl gate) ∨ Complete constraints threshold run

/-- The runs that count as feasible for a threshold are measured and feasible. -/
def FeasibleMeasured (constraints : CalibrationConstraints F) (thresholds : List F)
    (document : Json) : Prop :=
  ∀ threshold ∈ thresholds, ∀ run, IsRun document run → ∀ feasible,
    judge constraints threshold run = .ok (.inr feasible) →
      MeasuredFeasible constraints threshold run

/-- The recommendation is the candidate that ranks first among those with enough feasible runs; if
no rank is NaN. -/
def RanksFirst (constraints : CalibrationConstraints F) (weights : CalibrationWeights F)
    (thresholds : List F) (document : Json) (result : Calibration F) : Prop :=
  ∀ points candidates, pointsOf document = .ok points →
    candidatesOf constraints weights thresholds points = .ok candidates →
    Orders Selectable.less (selectable constraints candidates) →
    (∀ r, Leads Selectable.less (selectable constraints candidates) r →
      result.recommendation = some (recommendationOf constraints r.candidate)) ∧
    (selectable constraints candidates = [] → result.recommendation = none)

/-- A selectable candidate has enough runs that count as feasible. -/
def EnoughRuns (constraints : CalibrationConstraints F) (weights : CalibrationWeights F)
    (thresholds : List F) (document : Json) : Prop :=
  ∀ points candidates, pointsOf document = .ok points →
    candidatesOf constraints weights thresholds points = .ok candidates →
    ∀ r ∈ selectable constraints candidates, ∃ point ∈ points, ∃ threshold ∈ thresholds,
      ∃ runs feasible, runsOf point = .ok runs ∧ List.Sublist feasible runs ∧
        constraints.minFeasibleRuns ≤ feasible.length ∧
        r.candidate.minHitRatio = threshold ∧
        ∀ run ∈ feasible, MeasuredFeasible constraints threshold run

theorem calibrate_ok {constraints : CalibrationConstraints F} {weights : CalibrationWeights F}
    {thresholds : List F} {document : Json} {result : Calibration F}
    (h : calibrate constraints weights thresholds document = .ok result) :
    ∃ points candidates, pointsOf document = .ok points ∧
      candidatesOf constraints weights thresholds points = .ok candidates ∧
      result = calibrationOf constraints weights candidates := by
  unfold calibrate at h
  obtain ⟨points, hpoints, h⟩ := bind_ok h
  obtain ⟨candidates, hcandidates, h⟩ := bind_ok h
  cases h
  exact ⟨points, candidates, hpoints, hcandidates, rfl⟩

theorem ranksFirst {constraints : CalibrationConstraints F} {weights : CalibrationWeights F}
    {thresholds : List F} {document : Json} {result : Calibration F}
    (h : calibrate constraints weights thresholds document = .ok result) :
    RanksFirst constraints weights thresholds document result := by
  intro points candidates hpoints hcandidates horders
  obtain ⟨points', candidates', hpoints', hcandidates', rfl⟩ := calibrate_ok h
  rw [hpoints] at hpoints'
  cases hpoints'
  rw [hcandidates] at hcandidates'
  cases hcandidates'
  have hrecommendation : (calibrationOf constraints weights candidates).recommendation =
      (sortedReverse Selectable.less (selectable constraints candidates)).head?.map
        fun item => recommendationOf constraints item.candidate := rfl
  constructor
  · intro r hleads
    rw [hrecommendation]
    cases hsorted : sortedReverse Selectable.less (selectable constraints candidates) with
    | nil =>
      have hmem : r ∈ sortedReverse Selectable.less (selectable constraints candidates) :=
        List.mem_mergeSort.mpr hleads.mem
      rw [hsorted] at hmem
      cases hmem
    | cons first rest =>
      rw [hleads.unique (leads_of_sortedReverse horders hsorted)]
      rfl
  · intro hnone
    rw [hrecommendation, hnone, sortedReverse, List.mergeSort_nil]
    rfl

/-- Every run was judged. -/
theorem judge_of_calibrate {constraints : CalibrationConstraints F}
    {weights : CalibrationWeights F} {thresholds : List F} {document : Json}
    {result : Calibration F}
    (h : calibrate constraints weights thresholds document = .ok result) {threshold : F}
    (hthreshold : threshold ∈ thresholds) {run : Json} (hrun : IsRun document run) :
    ∃ verdict, judge constraints threshold run = .ok verdict := by
  obtain ⟨points, candidates, hpoints, hcandidates, -⟩ := calibrate_ok h
  obtain ⟨points', point, runs, hpoints', hpoint, hruns, hmem⟩ := hrun
  rw [hpoints] at hpoints'
  cases hpoints'
  have hpair : (point, threshold) ∈
      points.flatMap fun point => thresholds.map fun threshold => (point, threshold) :=
    List.mem_flatMap.mpr ⟨point, hpoint, List.mem_map.mpr ⟨threshold, hthreshold, rfl⟩⟩
  obtain ⟨candidate, -, hcandidate⟩ := mem_of_mapM_ok hcandidates hpair
  unfold evaluateCandidate at hcandidate
  obtain ⟨runs', hruns', hcandidate⟩ := bind_ok hcandidate
  rw [hruns] at hruns'
  cases hruns'
  obtain ⟨verdicts, hverdicts, -⟩ := bind_ok hcandidate
  obtain ⟨verdict, -, hverdict⟩ := mem_of_mapM_ok hverdicts hmem
  exact ⟨verdict, hverdict⟩

/-- The runs that count as feasible are measured if and only if a gate stops each run that lacks
one of the numbers. -/
theorem feasibleMeasured_iff [Float64.Lawful F] {constraints : CalibrationConstraints F}
    {weights : CalibrationWeights F} {thresholds : List F} {document : Json}
    {result : Calibration F}
    (h : calibrate constraints weights thresholds document = .ok result) :
    FeasibleMeasured constraints thresholds document ↔
      ∀ threshold ∈ thresholds, ∀ run, IsRun document run →
        StoppedOrComplete constraints threshold run := by
  refine forall₂_congr fun threshold hthreshold => forall₂_congr fun run hrun => ?_
  obtain ⟨verdict, hverdict⟩ := judge_of_calibrate h hthreshold hrun
  obtain ⟨reading, hreading, hiff⟩ := judge_ok hverdict
  cases hgates : gates constraints threshold reading with
  | inl gate =>
    refine iff_of_true (fun feasible hfeasible => ?_) (.inl ⟨reading, gate, hreading, hgates⟩)
    rw [hverdict] at hfeasible
    obtain ⟨hitRatio, hpasses⟩ := hiff.mp ⟨feasible, Except.ok.inj hfeasible⟩
    rw [hgates] at hpasses
    cases hpasses
  | inr hitRatio =>
    have hmeasured := measuredFeasible_iff hreading hgates
    obtain ⟨feasible, rfl⟩ := hiff.mpr ⟨hitRatio, hgates⟩
    constructor
    · exact fun hall => .inr (hmeasured.mp (hall feasible hverdict))
    · rintro (⟨reading', gate, hreading', hgates'⟩ | hcomplete) _ _
      · rw [hreading] at hreading'
        cases hreading'
        rw [hgates] at hgates'
        cases hgates'
      · exact hmeasured.mpr hcomplete

omit [Statistics F] [Spread F] in
/-- The runs that count as feasible, in their order. -/
theorem exists_feasible {constraints : CalibrationConstraints F} {threshold : F}
    {runs : List Json} {verdicts : List (Gate ⊕ FeasibleRun F)}
    (h : runs.mapM (judge constraints threshold) = .ok verdicts) :
    ∃ feasible : List Json, List.Sublist feasible runs ∧
      feasible.length = (verdicts.filterMap Sum.getRight?).length ∧
      ∀ run ∈ feasible, ∃ item, judge constraints threshold run = .ok (.inr item) := by
  induction runs generalizing verdicts with
  | nil =>
    cases h
    exact ⟨[], List.Sublist.refl _, rfl, nofun⟩
  | cons run runs ih =>
    obtain ⟨verdict, rest, hverdict, hrest, rfl⟩ := mapM_cons_ok h
    obtain ⟨feasible, hsublist, hlength, hall⟩ := ih hrest
    cases verdict with
    | inl gate => exact ⟨feasible, hsublist.cons run, hlength, hall⟩
    | inr item =>
      refine ⟨run :: feasible, hsublist.cons_cons run, ?_, ?_⟩
      · rw [List.length_cons, hlength]
        rfl
      · exact List.forall_mem_cons.mpr ⟨⟨item, hverdict⟩, hall⟩

omit [PyNumber F] in
theorem candidateOf_fields (scenario : Json) (concurrency : Int) (threshold : F)
    (constraints : CalibrationConstraints F) (weights : CalibrationWeights F)
    (verdicts : List (Gate ⊕ FeasibleRun F)) :
    (candidateOf scenario concurrency threshold constraints weights verdicts).feasibleRuns =
        (verdicts.filterMap Sum.getRight?).length ∧
      (candidateOf scenario concurrency threshold constraints weights verdicts).minHitRatio =
        threshold := by
  unfold candidateOf
  by_cases hnone : verdicts.filterMap Sum.getRight? = []
  · simp only [hnone, if_pos, List.length_nil, and_self]
  · simp only [hnone, if_neg, not_false_eq_true, and_self]

theorem enoughRuns {constraints : CalibrationConstraints F} {weights : CalibrationWeights F}
    {thresholds : List F} {document : Json}
    (h : FeasibleMeasured constraints thresholds document) :
    EnoughRuns constraints weights thresholds document := by
  intro points candidates hpoints hcandidates r hr
  obtain ⟨⟨candidate, index⟩, hin, hselectable⟩ := List.mem_filterMap.mp hr
  have hmem : candidate ∈ candidates := List.fst_mem_of_mem_zipIdx hin
  dsimp only at hselectable
  split at hselectable
  · rename_i henough
    obtain ⟨score, -, rfl⟩ := Option.map_eq_some_iff.mp hselectable
    obtain ⟨⟨point, threshold⟩, hpair, hcandidate⟩ := mem_of_mapM hcandidates hmem
    obtain ⟨point', hpoint, hthresholds⟩ := List.mem_flatMap.mp hpair
    obtain ⟨threshold', hthreshold, heq⟩ := List.mem_map.mp hthresholds
    cases heq
    unfold evaluateCandidate at hcandidate
    obtain ⟨runs, hruns, hcandidate⟩ := bind_ok hcandidate
    obtain ⟨verdicts, hverdicts, hcandidate⟩ := bind_ok hcandidate
    obtain ⟨scenario, -, hcandidate⟩ := bind_ok hcandidate
    obtain ⟨value, -, hcandidate⟩ := bind_ok hcandidate
    obtain ⟨concurrency, -, hcandidate⟩ := bind_ok hcandidate
    cases hcandidate
    obtain ⟨feasible, hsublist, hlength, hall⟩ := exists_feasible hverdicts
    obtain ⟨hcount, hratio⟩ :=
      candidateOf_fields (scenario.getD (.string ⟨"unknown", true⟩)) concurrency threshold
        constraints weights verdicts
    refine ⟨point, hpoint, threshold, hthreshold, runs, feasible, hruns, hsublist, ?_, hratio,
      fun run hrun => ?_⟩
    · rw [hlength, ← hcount]
      exact henough
    · obtain ⟨item, hitem⟩ := hall run hrun
      exact h threshold hthreshold run
        ⟨points, point, runs, hpoints, hpoint, hruns, hsublist.subset hrun⟩ item hitem
  · cases hselectable

/-- What a calibration promises: the feasible runs are measured, and the recommendation ranks first
of the candidates that have enough of them. -/
structure CalibratesMeasured (constraints : CalibrationConstraints F)
    (weights : CalibrationWeights F) (thresholds : List F) (document : Json)
    (result : Calibration F) : Prop where
  feasible : FeasibleMeasured constraints thresholds document
  enough : EnoughRuns constraints weights thresholds document
  first : RanksFirst constraints weights thresholds document result

theorem calibratesMeasured_iff [Float64.Lawful F] {constraints : CalibrationConstraints F}
    {weights : CalibrationWeights F} {thresholds : List F} {document : Json}
    {result : Calibration F}
    (h : calibrate constraints weights thresholds document = .ok result) :
    CalibratesMeasured constraints weights thresholds document result ↔
      ∀ threshold ∈ thresholds, ∀ run, IsRun document run →
        StoppedOrComplete constraints threshold run := by
  rw [← feasibleMeasured_iff h]
  constructor
  · exact fun hpromise => hpromise.feasible
  · exact fun hfeasible => ⟨hfeasible, enoughRuns hfeasible, ranksFirst h⟩

end Recommendation

end Kavora.Planner
