import Kavora.Lib.Pareto
import Kavora.Lib.PyValue
import Kavora.Lib.Ranking

/-!
# The operating envelope (`planner/operating_envelope.py`)

The points of a capacity sweep are judged by their aggregates. Of the feasible ones the first with
the largest lower bound of the goodput is recommended, and those that no other one dominates are
the Pareto points.

* `recommendOperatingPoint`: the judged points, the Pareto points and the recommendation.
* `mem_pareto`: the Pareto points are the frontier of the feasible ones.
* `recommendation_leads`: what is recommended leads the feasible points.
* `recommendation_pareto_iff`: when the recommendation is one of the Pareto points and these
  dominate the others.
-/

namespace Kavora.Planner

open Lib Lib.Go
open Lib.Go.Float64 (lt le eq ofInt)

section Model

variable {F : Type} [Float64 F] [FloatText F] [PyNumber F]

/-- `_number`. -/
def finiteNumber (value : Option Json) : Except PyError (Option (FiniteNumber F)) :=
  Json.finiteFloat F value

/-- `point.get("aggregates", {})`. -/
def aggregatesOf (point : Json) : Json := (point.member "aggregates").getD (.object [])

/-- `_point_resource`: a zero is replaced by what the nested dict has. -/
def pointResource (point : Json) : Except PyError (Option (FiniteNumber F)) := do
  let aggregates := aggregatesOf point
  let resource := (aggregates.member "resource").getD (.object [])
  match ← finiteNumber (F := F) (aggregates.member "gpu_seconds_mean") with
  | some x => if eq x.1 (ofInt 0) then finiteNumber (resource.member "gpu_seconds_mean") else .ok x
  | none => finiteNumber (resource.member "gpu_seconds_mean")

/-- The mean of the goodput and its lower bound, which is the mean if there is no other. -/
structure Goodput (F : Type) [FloatText F] where
  mean : Option (FiniteNumber F)
  lower : Option (FiniteNumber F)
  lower_of_mean : mean.isSome → lower.isSome

/-- `_point_goodput`. -/
def pointGoodput (point : Json) : Except PyError (Goodput F) := do
  let aggregates := aggregatesOf point
  let mean ← finiteNumber (aggregates.member "goodput_req_s_mean")
  let lower ← finiteNumber (aggregates.member "goodput_req_s_lcb")
  return { mean, lower := lower.or mean, lower_of_mean := fun h => by simp [h] }

/-- What a point must meet to be feasible. -/
structure EnvelopeConstraints (F : Type) where
  e2eP95SLOMS : F
  minSuccessRate : F
  resourceBudgetGPUSeconds : Option F
  safetyFactor : F

/-- `reasons`. -/
def rejectionReasons (constraints : EnvelopeConstraints F) (goodput : Goodput F)
    (e2eP95 successRate resource : Option (FiniteNumber F)) (metricQuality : Option Json) :
    List String :=
  (if goodput.mean.isNone then ["goodput_missing"] else []) ++
    (match e2eP95 with
    | none => ["e2e_p95_slo"]
    | some x => if lt constraints.e2eP95SLOMS x.1 then ["e2e_p95_slo"] else []) ++
    (match successRate with
    | none => []
    | some x => if lt x.1 constraints.minSuccessRate then ["success_rate"] else []) ++
    (if metricQuality.isNone ∨
        ["missing", "stale", "invalid"].any (Json.isText metricQuality) then ["evidence_quality"]
    else []) ++
    match constraints.resourceBudgetGPUSeconds, resource with
    | none, _ => []
    | some _, none => ["resource_missing"]
    | some budget, some x => if lt budget x.1 then ["resource_budget"] else []

/-- An item of `evaluated`. -/
structure EvaluatedPoint (F : Type) [FloatText F] where
  scenario : Json
  concurrency : Int
  goodput : Goodput F
  e2eP95MSMean : Option (FiniteNumber F)
  successRateMean : Option (FiniteNumber F)
  gpuSecondsMean : Option (FiniteNumber F)
  evidenceQuality : Json
  rejectionReasons : List String
  /-- A feasible point has a goodput. -/
  mean_of_feasible : rejectionReasons = [] → goodput.mean.isSome

omit [PyNumber F] in
theorem mean_of_rejectionReasons {constraints : EnvelopeConstraints F} {goodput : Goodput F}
    {e2eP95 successRate resource : Option (FiniteNumber F)} {metricQuality : Option Json}
    (h : rejectionReasons constraints goodput e2eP95 successRate resource metricQuality = []) :
    goodput.mean.isSome := by
  unfold rejectionReasons at h
  cases hmean : goodput.mean with
  | some x => rfl
  | none =>
    rw [hmean] at h
    cases h

/-- The body of the loop over the points. -/
def evaluatePoint (constraints : EnvelopeConstraints F) (point : Json) :
    Except PyError (EvaluatedPoint F) := do
  let aggregates := aggregatesOf point
  let quality := (aggregates.member "quality_summary").getD (.object [])
  let goodput ← pointGoodput point
  let e2eP95 ← finiteNumber (aggregates.member "e2e_p95_ms_mean")
  let successRate ← finiteNumber (aggregates.member "success_rate_mean")
  let resource ← pointResource point
  let metricQuality ← quality.getItem? "metric_quality"
  let concurrency ← ((point.member "concurrency").getD (.number "0")).asInt F
  return {
    scenario := (point.member "scenario").getD (.string ⟨"unknown", true⟩)
    concurrency
    goodput
    e2eP95MSMean := e2eP95
    successRateMean := successRate
    gpuSecondsMean := resource
    evidenceQuality := metricQuality.getD (.string ⟨"missing", true⟩)
    rejectionReasons :=
      rejectionReasons constraints goodput e2eP95 successRate resource metricQuality
    mean_of_feasible := mean_of_rejectionReasons }

/-- The value is a dict. -/
def isObject : Json → Bool
  | .object _ => true
  | _ => false

/-- `evaluated`: the points that are dicts. -/
def evaluatePoints (constraints : EnvelopeConstraints F) (document : Json) :
    Except PyError (List (EvaluatedPoint F)) := do
  let points ← ((← document.getItem? "points").getD (.array [])).items
  (points.filter isObject).mapM (evaluatePoint constraints)

/-! ## The recommendation -/

/-- No reason speaks against the point. -/
def EvaluatedPoint.feasible (item : EvaluatedPoint F) : Bool := item.rejectionReasons.isEmpty

/-- A point against which no reason speaks. -/
abbrev FeasiblePoint (F : Type) [FloatText F] :=
  {item : EvaluatedPoint F // item.rejectionReasons = []}

namespace FeasiblePoint

/-- Its mean goodput. -/
def goodputMean (item : FeasiblePoint F) : FiniteNumber F :=
  item.1.goodput.mean.get (item.1.mean_of_feasible item.2)

/-- The lower bound of its goodput. -/
def goodputLCB (item : FeasiblePoint F) : FiniteNumber F :=
  item.1.goodput.lower.get (item.1.goodput.lower_of_mean (item.1.mean_of_feasible item.2))

/-- What it costs, if that was measured. -/
def gpuSeconds (item : FeasiblePoint F) : Option (FiniteNumber F) := item.1.gpuSecondsMean

/-- The comparison of the keys of the sort. -/
def less : FeasiblePoint F → FeasiblePoint F → Bool :=
  lexLess (fun a b => eq a.goodputLCB.1 b.goodputLCB.1)
    (fun a b => lt a.goodputLCB.1 b.goodputLCB.1)
    (lexLess (fun a b => eq a.goodputMean.1 b.goodputMean.1)
      (fun a b => lt a.goodputMean.1 b.goodputMean.1)
      fun a b => -a.1.concurrency < -b.1.concurrency)

/-- The condition on `other` in `dominated`. -/
def dominates (other candidate : FeasiblePoint F) : Bool :=
  le candidate.goodputLCB.1 other.goodputLCB.1 &&
    (match candidate.gpuSeconds, other.gpuSeconds with
    | some c, some o => le o.1 c.1
    | _, _ => true) &&
    (lt candidate.goodputLCB.1 other.goodputLCB.1 ||
      match candidate.gpuSeconds, other.gpuSeconds with
      | some c, some o => lt o.1 c.1
      | _, _ => false)

end FeasiblePoint

/-- The feasible points, in the order of the document. -/
def feasiblePoints (evaluated : List (EvaluatedPoint F)) : List (FeasiblePoint F) :=
  evaluated.filterMap fun item =>
    if h : item.rejectionReasons = [] then some ⟨item, h⟩ else none

/-- `pareto`: `other is not candidate` compares places of the list. -/
def paretoPoints (feasible : List (FeasiblePoint F)) : List (FeasiblePoint F) :=
  (feasible.zipIdx.filter fun (candidate, i) =>
    !feasible.zipIdx.any fun (other, j) => i ≠ j && other.dominates candidate).map Prod.fst

/-- The envelope of a sweep. -/
structure OperatingEnvelope (F : Type) [FloatText F] where
  schemaVersion : String
  constraints : EnvelopeConstraints F
  points : List (EvaluatedPoint F)
  paretoPoints : List (FeasiblePoint F)
  /-- The point with its `recommended_goodput_req_s`. -/
  recommendation : Option (FeasiblePoint F × F)
  status : String
  claimBoundary : String

/-- The envelope of evaluated points. -/
def envelopeOf (constraints : EnvelopeConstraints F) (evaluated : List (EvaluatedPoint F)) :
    OperatingEnvelope F :=
  let feasible := sortedReverse FeasiblePoint.less (feasiblePoints evaluated)
  let selected := feasible.head?.map fun item =>
    (item, item.goodputLCB.1 * constraints.safetyFactor)
  { schemaVersion := "kavora-operating-envelope/v1"
    constraints
    points := evaluated
    paretoPoints := paretoPoints feasible
    recommendation := selected
    status := if selected.isSome then "recommended" else "blocked"
    claimBoundary :=
      "Recommendations are valid only for the supplied model, hardware, workload, pool, SLO, " ++
        "and resource evidence window. Missing goodput or resource evidence is not imputed." }

/-- `recommend_operating_point`. -/
def recommendOperatingPoint (constraints : EnvelopeConstraints F) (document : Json) :
    Except PyError (OperatingEnvelope F) :=
  (evaluatePoints constraints document).map (envelopeOf constraints)

end Model

/-! ## The frontier -/

section Frontier

open Pareto FeasiblePoint

variable {F : Type} [Float64 F] [FloatText F] [Float64.Lawful F] [Float64.Irrefl F]
  [FiniteFloatText F]

theorem dominates_iff {other candidate : FeasiblePoint F} :
    other.dominates candidate = true ↔ Dominates goodputLCB gpuSeconds other candidate := by
  unfold FeasiblePoint.dominates Dominates
  rw [Bool.and_eq_true, Bool.and_eq_true, Bool.or_eq_true, and_assoc]
  refine and_congr Iff.rfl (and_congr ?_ (or_congr Iff.rfl ?_))
  · cases hc : candidate.gpuSeconds with
    | none => exact iff_of_true rfl noDearer_none_right
    | some c =>
      cases ho : other.gpuSeconds with
      | none => exact iff_of_true rfl noDearer_none_left
      | some o => exact (noDearer_some (x := o) (y := c)).symm
  · cases hc : candidate.gpuSeconds with
    | none =>
      refine iff_of_false Bool.false_ne_true ?_
      rintro ⟨_, _, y, hy, -⟩
      cases hy
    | some c =>
      cases ho : other.gpuSeconds with
      | none => exact iff_of_false Bool.false_ne_true not_cheaper_none_left
      | some o => exact (cheaper_some (x := o) (y := c)).symm

/-- No point dominates itself. -/
theorem not_dominates_self (item : FeasiblePoint F) : item.dominates item = false := by
  refine Bool.eq_false_iff.mpr fun h => ?_
  obtain ⟨-, -, hlt | ⟨x, hx, y, hy, hlt⟩⟩ := dominates_iff.mp h
  · exact lt_irrefl _ hlt
  · rw [hx] at hy
    cases hy
    exact lt_irrefl _ hlt

/-- The Pareto points are those that no feasible point dominates. -/
theorem mem_paretoPoints {feasible : List (FeasiblePoint F)} {item : FeasiblePoint F} :
    item ∈ paretoPoints feasible ↔
      item ∈ Pareto.Frontier goodputLCB gpuSeconds {p | p ∈ feasible} := by
  unfold paretoPoints
  rw [List.mem_map]
  constructor
  · rintro ⟨⟨candidate, i⟩, hmem, rfl⟩
    obtain ⟨hin, hnone⟩ := List.mem_filter.mp hmem
    obtain ⟨_, hi, hcandidate⟩ := List.mem_zipIdx hin
    refine ⟨List.fst_mem_of_mem_zipIdx hin, fun other hother hdominates => ?_⟩
    obtain ⟨j, hj, hotherAt⟩ := List.mem_iff_getElem.mp hother
    have hdominates := dominates_iff.mpr hdominates
    refine absurd hnone ?_
    show ¬ (!feasible.zipIdx.any fun x => decide (i ≠ x.2) && x.1.dominates candidate) = true
    have hany : (feasible.zipIdx.any fun x => decide (i ≠ x.2) && x.1.dominates candidate) =
        true := by
      refine List.any_eq_true.mpr ⟨(other, j), ?_, ?_⟩
      · exact List.mk_mem_zipIdx_iff_getElem?.mpr (List.getElem?_eq_some_iff.mpr ⟨hj, hotherAt⟩)
      · refine Bool.and_eq_true_iff.mpr ⟨decide_eq_true fun heq => ?_, hdominates⟩
        have hsame : candidate = other := by
          rw [← hotherAt]
          simpa [heq] using hcandidate
        rw [hsame, not_dominates_self] at hdominates
        cases hdominates
    rw [hany]
    exact Bool.false_ne_true
  · rintro ⟨hmem, hnone⟩
    obtain ⟨i, hi, hat⟩ := List.mem_iff_getElem.mp hmem
    refine ⟨(item, i), List.mem_filter.mpr ⟨?_, ?_⟩, rfl⟩
    · exact List.mk_mem_zipIdx_iff_getElem?.mpr (List.getElem?_eq_some_iff.mpr ⟨hi, hat⟩)
    · rw [Bool.not_eq_true', List.any_eq_false]
      rintro ⟨other, j⟩ hother hboth
      obtain ⟨-, hdominates⟩ := Bool.and_eq_true_iff.mp hboth
      exact hnone other (List.fst_mem_of_mem_zipIdx hother) (dominates_iff.mp hdominates)

/-- The keys order the feasible points. -/
theorem orders_less (feasible : List (FeasiblePoint F)) : Orders FeasiblePoint.less feasible := by
  have hconcurrency :
      Orders (fun a b : FeasiblePoint F => decide (-a.1.concurrency < -b.1.concurrency))
        feasible := by
    constructor
    · intro a _ b _ h
      simp only [decide_eq_true_eq, decide_eq_false_iff_not] at h ⊢
      omega
    · intro a _ b _ c _ hba hcb
      simp only [decide_eq_false_iff_not] at hba hcb ⊢
      omega
  have hmean := (FiniteNumber.orders goodputMean feasible).lex hconcurrency
    fun a _ b _ => FiniteNumber.eq_eq a.goodputMean b.goodputMean
  exact (FiniteNumber.orders goodputLCB feasible).lex hmean
    fun a _ b _ => FiniteNumber.eq_eq a.goodputLCB b.goodputLCB

/-- The recommended point leads the feasible ones. -/
theorem recommendation_leads {constraints : EnvelopeConstraints F}
    {evaluated : List (EvaluatedPoint F)} {r : FeasiblePoint F × F}
    (h : r ∈ (envelopeOf constraints evaluated).recommendation) :
    Leads FeasiblePoint.less (feasiblePoints evaluated) r.1 := by
  obtain ⟨item, hitem, rfl⟩ := Option.map_eq_some_iff.mp h
  obtain ⟨rest, hrest⟩ := List.head?_eq_some_iff.mp hitem
  exact leads_of_sortedReverse (orders_less _) hrest

omit [Float64.Lawful F] [Float64.Irrefl F] [FiniteFloatText F] in
/-- There is a recommendation if there is a feasible point. -/
theorem recommendation_isSome {constraints : EnvelopeConstraints F}
    {evaluated : List (EvaluatedPoint F)} {item : FeasiblePoint F}
    (h : item ∈ feasiblePoints evaluated) :
    ∃ r, r ∈ (envelopeOf constraints evaluated).recommendation := by
  have hmem : item ∈ sortedReverse FeasiblePoint.less (feasiblePoints evaluated) :=
    List.mem_mergeSort.mpr h
  cases hsorted : sortedReverse FeasiblePoint.less (feasiblePoints evaluated) with
  | nil =>
    rw [hsorted] at hmem
    cases hmem
  | cons first rest =>
    refine ⟨_, Option.map_eq_some_iff.mpr ⟨first, ?_, rfl⟩⟩
    rw [hsorted]
    rfl

/-- No feasible point has a larger lower bound than the one that leads. -/
theorem goodputLCB_le_of_leads {feasible : List (FeasiblePoint F)} {r : FeasiblePoint F}
    (h : Leads FeasiblePoint.less feasible r) :
    ∀ p ∈ feasible, p.goodputLCB ≤ r.goodputLCB := by
  intro p hp
  have hnot := h.not_less (orders_less feasible) p hp
  refine FiniteNumber.le_of_not_lt (Bool.eq_false_iff.mpr fun hlt => ?_)
  have hne : eq r.goodputLCB.1 p.goodputLCB.1 = false := Float64.not_eq_of_lt hlt
  have hless : FeasiblePoint.less r p = lt r.goodputLCB.1 p.goodputLCB.1 := lexLess_of_ne hne
  rw [hless, hlt] at hnot
  cases hnot

theorem mem_envelope_pareto {constraints : EnvelopeConstraints F}
    {evaluated : List (EvaluatedPoint F)} {item : FeasiblePoint F} :
    item ∈ (envelopeOf constraints evaluated).paretoPoints ↔
      item ∈ Pareto.Frontier goodputLCB gpuSeconds {p | p ∈ feasiblePoints evaluated} := by
  have hset : {p | p ∈ sortedReverse FeasiblePoint.less (feasiblePoints evaluated)} =
      {p | p ∈ feasiblePoints evaluated} := by
    ext p
    exact List.mem_mergeSort
  show item ∈ paretoPoints (sortedReverse FeasiblePoint.less (feasiblePoints evaluated)) ↔ _
  rw [mem_paretoPoints, hset]

/-- The recommended point is a Pareto point, and each feasible point that is not is dominated by
one that is. -/
structure ParetoOptimal (result : OperatingEnvelope F) : Prop where
  recommended : ∀ r ∈ result.recommendation, r.1 ∈ result.paretoPoints
  covered : ∀ c ∈ feasiblePoints result.points, c ∉ result.paretoPoints →
    ∃ p ∈ result.paretoPoints, Dominates goodputLCB gpuSeconds p c

/-- No feasible point has the lower bound of the one that leads them and takes fewer known
GPU-seconds. -/
def CheapestLeads (feasible : List (FeasiblePoint F)) : Prop :=
  ∀ r, Leads FeasiblePoint.less feasible r →
    ∀ p ∈ feasible, r.goodputLCB ≤ p.goodputLCB → ¬ Cheaper p.gpuSeconds r.gpuSeconds

theorem recommended_iff (constraints : EnvelopeConstraints F)
    (evaluated : List (EvaluatedPoint F)) :
    (∀ r ∈ (envelopeOf constraints evaluated).recommendation,
        r.1 ∈ (envelopeOf constraints evaluated).paretoPoints) ↔
      CheapestLeads (feasiblePoints evaluated) := by
  have hfrontier : ∀ {r}, Leads FeasiblePoint.less (feasiblePoints evaluated) r →
      (r ∈ (envelopeOf constraints evaluated).paretoPoints ↔
        ∀ p ∈ feasiblePoints evaluated, r.goodputLCB ≤ p.goodputLCB →
          ¬ Cheaper p.gpuSeconds r.gpuSeconds) := fun hleads =>
    mem_envelope_pareto.trans
      (best_mem_frontier_iff hleads.mem (goodputLCB_le_of_leads hleads))
  constructor
  · intro h r hleads
    obtain ⟨r', hr'⟩ : ∃ r', r' ∈ (envelopeOf constraints evaluated).recommendation :=
      recommendation_isSome hleads.mem
    have heq := hleads.unique (recommendation_leads hr')
    subst heq
    exact (hfrontier hleads).mp (h r' hr')
  · intro h r hr
    have hleads := recommendation_leads hr
    exact (hfrontier hleads).mpr (h r.1 hleads)

theorem paretoOptimal_iff (constraints : EnvelopeConstraints F)
    (evaluated : List (EvaluatedPoint F)) :
    ParetoOptimal (envelopeOf constraints evaluated) ↔
      CheapestLeads (feasiblePoints evaluated) ∧
        Anchored goodputLCB gpuSeconds {p | p ∈ feasiblePoints evaluated} := by
  have hcovered : Covered goodputLCB gpuSeconds {p | p ∈ feasiblePoints evaluated} ↔
      Anchored goodputLCB gpuSeconds {p | p ∈ feasiblePoints evaluated} :=
    covered_iff (List.finite_toSet _)
  rw [← recommended_iff constraints, ← hcovered]
  constructor
  · rintro ⟨hrecommended, hcovered⟩
    refine ⟨hrecommended, fun c hc hoff => ?_⟩
    obtain ⟨p, hp, hdominates⟩ := hcovered c hc (mt mem_envelope_pareto.mp hoff)
    exact ⟨p, mem_envelope_pareto.mp hp, hdominates⟩
  · rintro ⟨hrecommended, hcovered⟩
    refine ⟨hrecommended, fun c hc hoff => ?_⟩
    obtain ⟨p, hp, hdominates⟩ := hcovered c hc (mt mem_envelope_pareto.mpr hoff)
    exact ⟨p, mem_envelope_pareto.mpr hp, hdominates⟩

/-- **The recommendation is Pareto-optimal** if and only if no feasible point has its lower bound and
takes fewer GPU-seconds, and each known resource below an unknown one is anchored above it. -/
theorem recommendation_pareto_iff [PyNumber F] {constraints : EnvelopeConstraints F}
    {document : Json} {evaluated : List (EvaluatedPoint F)}
    (h : evaluatePoints constraints document = .ok evaluated) :
    ∃ result, recommendOperatingPoint constraints document = .ok result ∧
      (ParetoOptimal result ↔ CheapestLeads (feasiblePoints evaluated) ∧
        Anchored goodputLCB gpuSeconds {p | p ∈ feasiblePoints evaluated}) := by
  refine ⟨envelopeOf constraints evaluated, ?_, paretoOptimal_iff constraints evaluated⟩
  unfold recommendOperatingPoint
  rw [h]
  rfl

end Frontier

namespace EnvelopeSample

open FeasiblePoint

@[reducible]
def number : Float64 Rat := .rational fun _ => 1

attribute [local instance] number integerText

local instance : PyNumber Rat := ⟨fun _ => none, fun _ => none, Rat.floor⟩

local instance : Float64.Lawful Rat := Float64.rational_lawful _

local instance : Float64.Irrefl Rat := Float64.rational_irrefl _

local instance : FiniteFloatText Rat where
  eq_self _ := decide_eq_true rfl

def text (s : String) : JsonText := ⟨s, true⟩

/-- A point of a sweep with a goodput of ten requests a second. -/
def point (concurrency gpuSeconds : String) : Json :=
  .object [(text "concurrency", .number concurrency),
    (text "aggregates", .object [(text "goodput_req_s_mean", .number "10"),
      (text "e2e_p95_ms_mean", .number "100"),
      (text "gpu_seconds_mean", .number gpuSeconds),
      (text "quality_summary", .object [(text "metric_quality", .string (text "ok"))])])]

def document : Json :=
  .object [(text "points", .array [point "1" "40", point "2" "20"])]

def constraints : EnvelopeConstraints Rat where
  e2eP95SLOMS := 200
  minSuccessRate := 1
  resourceBudgetGPUSeconds := none
  safetyFactor := 1

def ten : FiniteNumber Rat := ⟨10, rfl⟩

def evaluated (concurrency gpuSeconds : Int) : EvaluatedPoint Rat where
  scenario := .string (text "unknown")
  concurrency := concurrency
  goodput := ⟨some ten, some ten, fun _ => rfl⟩
  e2eP95MSMean := some ⟨100, rfl⟩
  successRateMean := none
  gpuSecondsMean := some ⟨Rat.ofInt gpuSeconds, decide_eq_true rfl⟩
  evidenceQuality := .string (text "ok")
  rejectionReasons := []
  mean_of_feasible _ := rfl

theorem evaluatePoints_document :
    evaluatePoints constraints document = .ok [evaluated 1 40, evaluated 2 20] :=
  rfl

theorem recommendation_pareto_iff_sample :
    ∃ result, recommendOperatingPoint constraints document = .ok result ∧
      (ParetoOptimal result ↔
        CheapestLeads (feasiblePoints [evaluated 1 40, evaluated 2 20]) ∧
          Pareto.Anchored goodputLCB gpuSeconds
            {p | p ∈ feasiblePoints [evaluated 1 40, evaluated 2 20]}) :=
  recommendation_pareto_iff evaluatePoints_document

theorem feasiblePoints_evaluated :
    feasiblePoints [evaluated 1 40, evaluated 2 20] =
      [⟨evaluated 1 40, rfl⟩, ⟨evaluated 2 20, rfl⟩] := by
  unfold feasiblePoints
  rw [List.filterMap_cons_some (dif_pos rfl), List.filterMap_cons_some (dif_pos rfl),
    List.filterMap_nil]

/-- The point with fewer requests at a time is recommended, although it takes twice the
GPU-seconds for the same goodput. -/
theorem recommends_dominated :
    ∃ result, recommendOperatingPoint constraints document = .ok result ∧
      ¬ ParetoOptimal result := by
  refine ⟨envelopeOf constraints [evaluated 1 40, evaluated 2 20], ?_, fun h => ?_⟩
  · unfold recommendOperatingPoint
    rw [evaluatePoints_document]
    rfl
  · obtain ⟨hcheapest, -⟩ := (paretoOptimal_iff _ _).mp h
    rw [feasiblePoints_evaluated] at hcheapest
    have hleads : Leads FeasiblePoint.less
        [⟨evaluated 1 40, rfl⟩, ⟨evaluated 2 20, rfl⟩] ⟨evaluated 1 40, rfl⟩ := by
      refine ⟨[], [⟨evaluated 2 20, rfl⟩], rfl, fun _ hnil => absurd hnil List.not_mem_nil,
        fun a ha => ?_⟩
      rw [List.mem_singleton.mp ha]
      decide +kernel
    refine hcheapest _ hleads ⟨evaluated 2 20, rfl⟩ ?_ ?_ ?_
    · exact List.mem_cons_of_mem _ List.mem_cons_self
    · show ten ≤ ten
      exact le_rfl
    · refine ⟨⟨Rat.ofInt 20, rfl⟩, rfl, ⟨Rat.ofInt 40, rfl⟩, rfl, ?_⟩
      show decide ((Rat.ofInt 20) < Rat.ofInt 40) = true
      decide +kernel

end EnvelopeSample

end Kavora.Planner
