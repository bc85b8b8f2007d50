import Kavora.Planner.AutoCalibrator

/-!
# The advice on some runs (`planner/policy.py`)

* `recommendRuns`: the rate that the runs allow which pass the gates.
* `passedMeasured_iff`: which of the runs that pass are measured.
* `feasible_measured_iff`: when both planners rest on measured runs only.
-/

namespace Kavora.Planner

open Lib Lib.Go Benchmark BackendState
open Lib.Go.Float64 (lt le eq ofInt)

/-- What a run must meet to pass. -/
structure PolicySettings (F : Type) where
  e2eP95SLOMS : F
  minSuccessRate : F
  minHitRatio : Option F
  safetyFactor : F

/-- What the loop reads of an entry. -/
structure PolicyReading (F : Type) [FloatText F] where
  successRate : F
  e2e : F
  reqS : F
  hitRatio : Option (FiniteNumber F)
  metricQuality : MetricQuality
  hitRatioSource : HitRatioSource
  prefixMetricCheck : PrefixMetricCheck
  evidenceQuality : EvidenceQuality

/-- The recommended rate, and how many runs it rests on. -/
structure PolicyResult (F : Type) where
  recommendedRPS : F
  numRuns : Nat
  numRunsMissingHitRatio : Nat
  numRunsStaleMetrics : Nat
  numRunsOkMetrics : Nat
  metricQuality : String
  numRunsWindowHitRatio : Nat
  numRunsSnapshotFallbackHitRatio : Nat
  hitRatioSource : String
  okMetricRunFraction : F
  hitRatioComparable : Bool
  numRunsPrefixMetric : PrefixMetricCheck → Nat
  prefixMetricCheck : String
  evidenceQuality : String
  evidenceQualityCounts : EvidenceQuality → Nat

section Model

variable {F : Type} [Float64 F] [FloatText F] [PyNumber F]

/-- The values of a run that the policy compares. -/
def readEntry (entry : Json) : Except PyError (PolicyReading F) := do
  let s := (← entry.getItem? "summary").getD (.object [])
  let req := (← s.getItem? "requests").getD (.object [])
  let total : F ← Json.floatOrZero F (← req.getItem? "total")
  let ok : F ← Json.floatOrZero F (← req.getItem? "ok")
  let successRate := if lt (ofInt 0) total then ok / total else ofInt 0
  let latency := (← s.getItem? "latency").getD (.object [])
  let e2e ← Json.floatOrZero F (← latency.getItem? "e2e_latency_p95_ms")
  let throughput := (← s.getItem? "throughput").getD (.object [])
  let reqS ← Json.floatOrZero F (← throughput.getItem? "req_s")
  let (hitRatio, metricQuality, hitRatioSource) ← getEntryHitRatioQualityAndSource entry
  let prefixMetricCheck ← getEntryPrefixMetricCheck F entry
  let evidenceQuality ← getEntryEvidenceQuality F entry
  return { successRate, e2e, reqS, hitRatio, metricQuality, hitRatioSource, prefixMetricCheck,
           evidenceQuality }

/-- `hard_ok and hot_ok`. -/
def PolicyReading.passes (settings : PolicySettings F) (reading : PolicyReading F) : Bool :=
  le reading.e2e settings.e2eP95SLOMS && le settings.minSuccessRate reading.successRate &&
    match settings.minHitRatio with
    | none => true
    | some minHitRatio =>
      reading.metricQuality = .ok &&
        match reading.hitRatio with
        | none => false
        | some hitRatio => le minHitRatio hitRatio.val

/-- `max(passed)`. -/
def pyMaximum (first : F) (rest : List F) : F :=
  rest.foldl (fun best x => if lt best x then x else best) first

/-- `summarize_metric_quality_counts`. -/
def summarizeMetricQualityCounts (totalRuns ok stale missing : Nat) : String :=
  if totalRuns = 0 then "missing"
  else if ok = totalRuns then "ok"
  else if stale = totalRuns then "stale"
  else if missing = totalRuns then "missing"
  else "mixed"

/-- `summarize_hit_ratio_source_counts`. -/
def summarizeHitRatioSourceCounts (window snapshotFallback missing : Nat) : String :=
  if 1 < [window, snapshotFallback, missing].countP (0 < ·) then "mixed"
  else if 0 < window then "window"
  else if 0 < snapshotFallback then "snapshot_fallback"
  else "missing"

/-- The result of some readings. -/
def policyResultOf (settings : PolicySettings F) (readings : List (PolicyReading F)) :
    PolicyResult F :=
  let total := readings.length
  let passed := (readings.filter (·.passes settings)).map (·.reqS)
  let quality (q : MetricQuality) := readings.countP (·.metricQuality = q)
  let source (q : HitRatioSource) := readings.countP (·.hitRatioSource = q)
  let check (q : PrefixMetricCheck) := readings.countP (·.prefixMetricCheck = q)
  let evidence (q : EvidenceQuality) := readings.countP (·.evidenceQuality = q)
  let dominantQuality :=
    summarizeMetricQualityCounts total (quality .ok) (quality .stale) (quality .missing)
  let dominantSource := summarizeHitRatioSourceCounts (source .window) (source .snapshotFallback)
    (total - source .window - source .snapshotFallback)
  { recommendedRPS :=
      match passed with
      | [] => ofInt 0
      | first :: rest => pyMaximum first rest * settings.safetyFactor
    numRuns := total
    numRunsMissingHitRatio := quality .missing
    numRunsStaleMetrics := quality .stale
    numRunsOkMetrics := quality .ok
    metricQuality := dominantQuality
    numRunsWindowHitRatio := source .window
    numRunsSnapshotFallbackHitRatio := source .snapshotFallback
    hitRatioSource := dominantSource
    okMetricRunFraction :=
      if total = 0 then ofInt 0 else ofInt (quality .ok) / ofInt total
    hitRatioComparable := dominantQuality = "ok" ∧ dominantSource ≠ "mixed"
    numRunsPrefixMetric := check
    prefixMetricCheck :=
      if total = 0 ∨ check .missing = total then "missing"
      else if check .strict = total then "strict"
      else if check .tokenFallback = total then "token_fallback"
      else if check .other = total then "other"
      else "mixed"
    evidenceQuality :=
      if total = 0 ∨ evidence .missing = total then "missing"
      else if evidence .strict = total then "strict"
      else if evidence .estimated = total then "estimated"
      else if evidence .fallback = total then "fallback"
      else "mixed"
    evidenceQualityCounts := evidence }

/-- `recommend_runs`. -/
def recommendRuns (settings : PolicySettings F) (runs : Json) :
    Except PyError (PolicyResult F) := do
  let readings ← (← runs.items).mapM readEntry
  return policyResultOf settings readings

end Model

/-! ## Measured runs -/

section Measured

variable {F : Type} [Float64 F] [FloatText F] [PyNumber F]

/-- The rate and the latency of a reading are those of the run. -/
theorem readEntry_ok {run : Json} {reading : PolicyReading F} (h : readEntry run = .ok reading) :
    successRate run = .ok reading.successRate ∧
      ∀ value, presentAt run latencyPath = some value →
        Json.floatOrZero F (some value) = .ok reading.e2e := by
  unfold readEntry at h
  obtain ⟨summary, hsummary, h⟩ := bind_ok h
  obtain ⟨requests, hrequests, h⟩ := bind_ok h
  obtain ⟨total, htotal, h⟩ := bind_ok h
  obtain ⟨totalValue, htotalValue, h⟩ := bind_ok h
  obtain ⟨ok, hok, h⟩ := bind_ok h
  obtain ⟨okValue, hokValue, h⟩ := bind_ok h
  obtain ⟨latency, hlatency, h⟩ := bind_ok h
  obtain ⟨e2e, he2e, h⟩ := bind_ok h
  obtain ⟨e2eValue, he2eValue, h⟩ := bind_ok h
  obtain ⟨throughput, hthroughput, h⟩ := bind_ok h
  obtain ⟨reqS, hreqS, h⟩ := bind_ok h
  obtain ⟨reqSValue, hreqSValue, h⟩ := bind_ok h
  obtain ⟨⟨hitRatio, quality, source⟩, hentry, h⟩ := bind_ok h
  obtain ⟨check, hcheck, h⟩ := bind_ok h
  obtain ⟨evidence, hevidence, h⟩ := bind_ok h
  cases h
  constructor
  · simp only [successRate, hsummary, hrequests, htotal, htotalValue, hok, hokValue, bind,
      Except.bind]
    split
    · rfl
    · rfl
  · intro value hvalue
    obtain ⟨summary', hsummary', hvalue⟩ := Option.bind_eq_some_iff.mp hvalue
    obtain ⟨latency', hlatency', hvalue⟩ := Option.bind_eq_some_iff.mp hvalue
    obtain ⟨value', hvalue', heq⟩ := Option.bind_eq_some_iff.mp hvalue
    cases heq
    rw [Json.getItem?_ok hsummary, hsummary'] at hlatency
    rw [Json.getItem?_ok hlatency] at he2e
    have hlatency' : (Option.getD (some summary') (Json.object [])).member "latency" =
      some latency' := hlatency'
    rw [hlatency'] at he2e
    have he2e' : e2e = latency'.member "e2e_latency_p95_ms" := Json.getItem?_ok he2e
    rw [he2e', hvalue'] at he2eValue
    exact he2eValue

variable [Float64.Lawful F] [Float64.Irrefl F] [Float64.Complement F] [FiniteFloatText F]

omit [PyNumber F] in
/-- A zero is at most what the number zero is at most, whatever its sign. -/
theorem le_of_eq_zero {x slo : F} (hx : FloatText.isFinite x = true) (hzero : eq x (ofInt 0) = true)
    (h : le (ofInt 0) slo = true) : le x slo = true := by
  have hxNaN : Float64.isNaN x = false := FiniteNumber.not_nan ⟨x, hx⟩
  have hslo : Float64.isNaN slo = false := by
    refine Bool.eq_false_iff.mpr fun hnan => ?_
    rcases Bool.or_eq_true_iff.mp h with hlt | heq
    · rw [Float64.Lawful.not_lt_nan hnan] at hlt
      cases hlt
    · have hne : eq slo (ofInt 0) = false := Float64.Complement.not_eq_nan hnan
      rw [Float64.Lawful.eq_symm heq] at hne
      cases hne
  unfold le at h ⊢
  rw [Bool.or_eq_true] at h ⊢
  rcases h with hlt | heq
  · exact .inl (Float64.lt_of_eq_of_lt hxNaN hslo hzero hlt)
  · exact .inr (Float64.eq_trans hxNaN hslo hzero heq)

/-- A run that passes is measured just if it reports a finite latency and a positive total. -/
theorem measuredRun_iff {settings : PolicySettings F} {run : Json} {reading : PolicyReading F}
    (h : readEntry run = .ok reading) (hpasses : reading.passes settings = true) :
    MeasuredRun settings.e2eP95SLOMS settings.minSuccessRate run ↔
      (∃ x : F, MeasuredLatency run x) ∧ MeasuredTotal F run := by
  obtain ⟨hrate, hlatency⟩ := readEntry_ok h
  unfold PolicyReading.passes at hpasses
  rw [Bool.and_eq_true, Bool.and_eq_true] at hpasses
  obtain ⟨⟨hslo, htarget⟩, -⟩ := hpasses
  constructor
  · rintro ⟨⟨x, hx, -⟩, htotal, -⟩
    exact ⟨⟨x, hx⟩, htotal⟩
  · rintro ⟨⟨x, hx⟩, htotal⟩
    refine ⟨⟨x, hx, ?_⟩, htotal, ⟨_, hrate, htarget⟩⟩
    obtain ⟨value, hvalue, hfloat, hfinite⟩ := hx
    obtain ⟨y, hy, hcases⟩ := Json.floatOrZero_of_asFloat hfloat
    rw [hlatency value hvalue] at hy
    cases hy
    rcases hcases with heq | ⟨heq, hzero⟩
    · rw [← heq]
      exact hslo
    · rw [heq] at hslo
      exact le_of_eq_zero hfinite hzero hslo

/-- The runs that pass are measured. -/
def PassedMeasured (settings : PolicySettings F) (runs : Json) : Prop :=
  ∀ entries, runs.items = .ok entries → ∀ run ∈ entries, ∀ reading : PolicyReading F,
    readEntry run = .ok reading → reading.passes settings = true →
      MeasuredRun settings.e2eP95SLOMS settings.minSuccessRate run

/-- A run does not pass, or reports a finite latency and a positive total. -/
def FailsOrReports (settings : PolicySettings F) (run : Json) : Prop :=
  (∃ reading : PolicyReading F, readEntry run = .ok reading ∧ reading.passes settings = false) ∨
    (∃ x : F, MeasuredLatency run x) ∧ MeasuredTotal F run

omit [Float64.Lawful F] [Float64.Irrefl F] [Float64.Complement F] [FiniteFloatText F] in
/-- Every run was read. -/
theorem readEntry_of_recommendRuns {settings : PolicySettings F} {runs : Json}
    {result : PolicyResult F} (h : recommendRuns settings runs = .ok result) {entries : List Json}
    (hentries : runs.items = .ok entries) {run : Json} (hrun : run ∈ entries) :
    ∃ reading : PolicyReading F, readEntry run = .ok reading := by
  unfold recommendRuns at h
  obtain ⟨entries', hentries', h⟩ := bind_ok h
  rw [hentries] at hentries'
  cases hentries'
  obtain ⟨readings, hreadings, -⟩ := bind_ok h
  obtain ⟨reading, -, hreading⟩ := mem_of_mapM_ok hreadings hrun
  exact ⟨reading, hreading⟩

theorem passedMeasured_iff {settings : PolicySettings F} {runs : Json} {result : PolicyResult F}
    (h : recommendRuns settings runs = .ok result) :
    PassedMeasured settings runs ↔
      ∀ entries, runs.items = .ok entries → ∀ run ∈ entries, FailsOrReports settings run := by
  refine forall₂_congr fun entries hentries => forall₂_congr fun run hrun => ?_
  obtain ⟨reading, hreading⟩ := readEntry_of_recommendRuns h hentries hrun
  cases hpasses : reading.passes settings with
  | false =>
    refine iff_of_true (fun reading' hreading' hpasses' => ?_) (.inl ⟨reading, hreading, hpasses⟩)
    rw [hreading] at hreading'
    cases hreading'
    rw [hpasses] at hpasses'
    cases hpasses'
  | true =>
    have hmeasured := measuredRun_iff hreading hpasses
    constructor
    · exact fun hall => .inr (hmeasured.mp (hall reading hreading hpasses))
    · rintro (⟨reading', hreading', hfails⟩ | hreports) _ _ _
      · rw [hreading] at hreading'
        cases hreading'
        rw [hpasses] at hfails
        cases hfails
      · exact hmeasured.mpr hreports

variable [Statistics F] [Spread F]

/-- **Feasible means measured feasible** if and only if each run that lacks a finite latency, a
positive total or a number that is compared is stopped by a gate; in both planners. -/
theorem feasible_measured_iff :
    (∀ (constraints : CalibrationConstraints F) (weights : CalibrationWeights F)
      (thresholds : List F) (document : Json) (result : Calibration F),
      calibrate constraints weights thresholds document = .ok result →
      (CalibratesMeasured constraints weights thresholds document result ↔
        ∀ threshold ∈ thresholds, ∀ run, IsRun document run →
          StoppedOrComplete constraints threshold run)) ∧
    ∀ (settings : PolicySettings F) (runs : Json) (result : PolicyResult F),
      recommendRuns settings runs = .ok result →
      (PassedMeasured settings runs ↔
        ∀ entries, runs.items = .ok entries → ∀ run ∈ entries, FailsOrReports settings run) :=
  ⟨fun _ _ _ _ _ h => calibratesMeasured_iff h, fun _ _ _ h => passedMeasured_iff h⟩

end Measured

namespace CalibrationSample

local instance : Float64 Rat := .rational fun _ => 1

attribute [local instance] integerText

local instance : PyNumber Rat := ⟨fun _ => none, fun _ => none, Rat.floor⟩

local instance : Float64.Lawful Rat := Float64.rational_lawful _

local instance : Float64.Irrefl Rat := Float64.rational_irrefl _

local instance : Float64.Complement Rat := Float64.rational_complement _

local instance : FiniteFloatText Rat where
  eq_self _ := decide_eq_true rfl

local instance : Statistics Rat where
  mean values := values.sum / values.length
  floor x := x.floor
  ceil x := x.ceil
  inf := 2 ^ 1024

/-- Of runs of which no two differ. -/
local instance : Spread Rat := ⟨fun _ => 0, id, id⟩

def text (s : String) : JsonText := ⟨s, true⟩

/-- A run in which some of ten requests succeeded, with these latencies. -/
def runWith (ok : String) (latency : List (JsonText × Json)) : Json :=
  .object [(text "summary", .object [
      (text "requests", .object [(text "total", .number "10"), (text "ok", .number ok)]),
      (text "latency", .object latency),
      (text "throughput", .object [(text "req_s", .number "5")])]),
    (text "derived_window_metrics", .object [
      (text "cache_hit_ratio_window", .number "1"),
      (text "evidence_quality", .string (text "strict"))])]

/-- A run in which all requests succeeded. -/
def run (latency : List (JsonText × Json)) : Json := runWith "10" latency

def point (latency : List (JsonText × Json)) : Json :=
  .object [(text "concurrency", .number "4"), (text "runs", .array [run latency])]

def document (latency : List (JsonText × Json)) : Json :=
  .object [(text "points", .array [point latency])]

/-- A latency of 100 ms. -/
def fast : List (JsonText × Json) := [(text "e2e_latency_p95_ms", .number "100")]

def constraints : CalibrationConstraints Rat where
  e2eP95SLOMS := 500
  minSuccessRate := 1
  minFeasibleRuns := 1

def weights : CalibrationWeights Rat where
  instability := 1
  evidenceUncertainty := 1
  safetyFactor := 1

def feasible : FeasibleRun Rat where
  rps := 5
  hitRatio := ⟨1, rfl⟩
  evidenceQuality := .strict

def calibration : Calibration Rat :=
  calibrationOf constraints weights
    [candidateOf (.string (text "unknown")) 4 0 constraints weights [.inr feasible]]

/-- The run without a latency counts as feasible. -/
theorem judge_unmeasured : judge constraints 0 (run []) = .ok (.inr feasible) := by
  have hreading : readRun (run []) =
      .ok ⟨some ⟨1, rfl⟩, .ok, .strict, (0 : Rat), 10 / 10⟩ := rfl
  have hrate : (10 / 10 : Rat) = 1 := by norm_num
  have hgates : gates constraints 0 ⟨some ⟨1, rfl⟩, .ok, .strict, 0, 1⟩ =
      .inr (⟨1, rfl⟩ : FiniteNumber Rat) :=
    gates_eq_inr_iff.mpr ⟨rfl, rfl, rfl, rfl, rfl, nofun⟩
  unfold judge
  rw [hreading, hrate]
  simp only [bind, Except.bind]
  rw [hgates]
  rfl

theorem calibrate_unmeasured :
    calibrate constraints weights [0] (document []) = .ok calibration := by
  have hruns : runsOf (point []) = .ok [run []] := rfl
  have hverdicts : [run []].mapM (judge constraints 0) = .ok [.inr feasible] := by
    rw [List.mapM_cons, judge_unmeasured]
    rfl
  have hcandidate : evaluateCandidate constraints weights (point []) 0 =
      .ok (candidateOf (.string (text "unknown")) 4 0 constraints weights [.inr feasible]) := by
    unfold evaluateCandidate
    rw [hruns]
    simp only [bind, Except.bind] at hverdicts ⊢
    rw [hverdicts]
    rfl
  have hcandidates : candidatesOf constraints weights [0] [point []] =
      .ok [candidateOf (.string (text "unknown")) 4 0 constraints weights [.inr feasible]] := by
    show List.mapM _ [(point [], (0 : Rat))] = _
    rw [List.mapM_cons]
    dsimp only
    rw [hcandidate]
    rfl
  have hpoints : pointsOf (document []) = .ok [point []] := rfl
  unfold calibrate
  rw [hpoints]
  simp only [bind, Except.bind]
  rw [hcandidates]
  rfl

def settings : PolicySettings Rat where
  e2eP95SLOMS := 500
  minSuccessRate := 1
  minHitRatio := none
  safetyFactor := 1

/-- A latency of 900 ms. -/
def slow : List (JsonText × Json) := [(text "e2e_latency_p95_ms", .number "900")]

/-- A run of which no request succeeded, so that it has no latency. -/
def failed : Json := runWith "0" []

/-- Two points of two runs each. -/
def sweep : Json :=
  .object [(text "points", .array [
    .object [(text "concurrency", .number "8"), (text "runs", .array [run fast, run slow])],
    .object [(text "concurrency", .number "4"), (text "runs", .array [failed, run fast])]])]

theorem runs_of_sweep {r : Json} (h : IsRun sweep r) : r = run fast ∨ r = run slow ∨ r = failed := by
  obtain ⟨points, point, runs, hpoints, hpoint, hruns, hrun⟩ := h
  cases hpoints
  rcases List.mem_pair.mp hpoint with rfl | rfl
  · cases hruns
    rcases List.mem_pair.mp hrun with rfl | rfl
    · exact .inl rfl
    · exact .inr (.inl rfl)
  · cases hruns
    rcases List.mem_pair.mp hrun with rfl | rfl
    · exact .inr (.inr rfl)
    · exact .inl rfl

theorem latency_fast : MeasuredLatency (run fast) (100 : Rat) := ⟨.number "100", rfl, rfl, rfl⟩

theorem total_run (latency : List (JsonText × Json)) : MeasuredTotal Rat (run latency) :=
  ⟨.number "10", rfl, 10, rfl, rfl⟩

theorem complete_fast : Complete constraints 0 (run fast) where
  latency := ⟨100, latency_fast, .inl rfl⟩
  total := total_run fast
  rate := ⟨10 / 10, rfl, .inl (by decide +kernel)⟩
  hitRatio := ⟨⟨1, rfl⟩, .ok, .window, rfl, .inl rfl⟩

theorem stoppedOrComplete_sweep {r : Json} (h : IsRun sweep r) :
    StoppedOrComplete constraints 0 r := by
  rcases runs_of_sweep h with rfl | rfl | rfl
  · exact .inr complete_fast
  · exact .inl ⟨⟨some ⟨1, rfl⟩, .ok, .strict, 900, 10 / 10⟩, .slo, rfl, rfl⟩
  · refine .inl ⟨⟨some ⟨1, rfl⟩, .ok, .strict, 0, 0 / 10⟩, .successRate, rfl, ?_⟩
    exact (if_neg (by decide +kernel)).trans (if_pos (by decide +kernel))

def entries : Json := .array [run fast, run slow, failed]

def failedReading : PolicyReading Rat where
  successRate := 0 / 10
  e2e := 0
  reqS := 5
  hitRatio := some ⟨1, rfl⟩
  metricQuality := .ok
  hitRatioSource := .window
  prefixMetricCheck := .strict
  evidenceQuality := .strict

theorem failsOrReports_entries {r : Json} (h : r ∈ [run fast, run slow, failed]) :
    FailsOrReports settings r := by
  simp only [List.mem_cons, List.not_mem_nil, or_false] at h
  rcases h with rfl | rfl | rfl
  · exact .inr ⟨⟨100, latency_fast⟩, total_run fast⟩
  · exact .inr ⟨⟨900, .number "900", rfl, rfl, rfl⟩, total_run slow⟩
  · exact .inl ⟨failedReading, rfl, by decide +kernel⟩

/-- With slow and failed runs in the sweep, only measured runs count as feasible. -/
theorem feasible_measured_sweep :
    (∃ result, calibrate constraints weights [0] sweep = .ok result ∧
      CalibratesMeasured constraints weights [0] sweep result) ∧
    (recommendRuns settings entries).toOption.isSome = true ∧ PassedMeasured settings entries := by
  have hcalibrate : (calibrate constraints weights [0] sweep).toOption.isSome = true := by
    decide +kernel
  have hrecommend : (recommendRuns settings entries).toOption.isSome = true := by decide +kernel
  cases hresult : calibrate constraints weights [0] sweep with
  | error e =>
    rw [hresult] at hcalibrate
    cases hcalibrate
  | ok result =>
    cases hpolicy : recommendRuns settings entries with
    | error e =>
      rw [hpolicy] at hrecommend
      cases hrecommend
    | ok policy =>
      refine ⟨⟨result, rfl, (feasible_measured_iff.1 _ _ _ _ _ hresult).mpr ?_⟩, rfl,
        (feasible_measured_iff.2 _ _ _ hpolicy).mpr ?_⟩
      · intro threshold hthreshold run hrun
        rw [List.mem_singleton.mp hthreshold]
        exact stoppedOrComplete_sweep hrun
      · intro items hitems run hrun
        cases hitems
        exact failsOrReports_entries hrun

/-- The run without a latency counts as feasible. -/
theorem unmeasured_feasible :
    ∃ result, calibrate constraints weights [0] (document []) = .ok result ∧
      ¬ CalibratesMeasured constraints weights [0] (document []) result := by
  refine ⟨calibration, calibrate_unmeasured, fun h => ?_⟩
  have hrun : IsRun (document []) (run []) :=
    ⟨[point []], point [], [run []], rfl, List.mem_singleton.mpr rfl, rfl,
      List.mem_singleton.mpr rfl⟩
  obtain ⟨x, ⟨value, hvalue, -⟩, -⟩ :=
    (h.feasible 0 (List.mem_singleton.mpr rfl) (run []) hrun feasible judge_unmeasured).latency
  cases hvalue

end CalibrationSample

end Kavora.Planner
