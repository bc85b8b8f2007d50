import Kavora.Benchmark.WindowMetrics
import Kavora.Lib.PyValue

/-!
# The entries of runs (`benchmark/window_metrics.py`)

An entry of a sweep carries the derived metrics of its window, or those of the exporter only.

* `getEntryHitRatioQualityAndSource`: the hit ratio of a run and what it rests on.
* `getEntryEvidenceQuality`: the quality of the evidence of a run.
* `getEntryPrefixMetricCheck`: the same as a check of the prefix metrics.
-/

namespace Kavora.Benchmark

open Lib Lib.Go BackendState
open Lib.Go.Float64 (eq le ofInt)

/-- `metric_quality`. -/
inductive MetricQuality where
  | ok | stale | missing
  deriving DecidableEq, Repr

/-- `hit_ratio_source`. -/
inductive HitRatioSource where
  | window | snapshotFallback | missing
  deriving DecidableEq, Repr

/-- `prefix_metric_check` of a run. -/
inductive PrefixMetricCheck where
  | strict | tokenFallback | other | missing
  deriving DecidableEq, Repr

section Model

variable {F : Type} [Float64 F] [FloatText F] [PyNumber F]

/-- `_coerce_finite_float`. -/
def coerceFiniteFloat (value : Option Json) : Except PyError (Option (FiniteNumber F)) :=
  Json.finiteFloat F value

/-- The hit ratio of a window: a stale one is returned with its quality. -/
def windowHitRatio (derived : Json) :
    Except PyError (Option (FiniteNumber F) × MetricQuality × HitRatioSource) :=
  match derived with
  | .object ms => do
    let value ← coerceFiniteFloat (Json.memberOf "cache_hit_ratio_window" ms)
    let metricsStale := Json.truthy F (Json.memberOf "metrics_stale" ms)
    return (value, if metricsStale then .stale else if value.isSome then .ok else .missing, .window)
  | _ => .ok (none, .missing, .window)

/-- `get_entry_hit_ratio_quality_and_source`. -/
def getEntryHitRatioQualityAndSource (entry : Json) :
    Except PyError (Option (FiniteNumber F) × MetricQuality × HitRatioSource) :=
  match entry with
  | .object ms =>
    match Json.memberOf "derived_window_metrics" ms with
    | some derived => windowHitRatio derived
    | none => do
      let exporterMetrics := (Json.memberOf "exporter_metrics" ms).getD (.object [])
      let value ← coerceFiniteFloat (exporterMetrics.member "kvcache_kv_cache_hit_ratio")
      return if value.isSome then (value, .ok, .snapshotFallback) else (none, .missing, .missing)
  -- `"derived_window_metrics" in entry` is an answer for texts and lists, which have no `get`.
  | .string _ => .error .attributeError
  | .array _ => .error .attributeError
  | _ => .error .typeError

/-- `_coerce_finite_float(exporter_metrics.get(name)) == 1.0`. -/
def isOne (exporterMetrics : Json) (name : String) : Except PyError Bool := do
  match ← coerceFiniteFloat (F := F) (exporterMetrics.member name) with
  | some x => return eq x.val (ofInt 1)
  | none => return false

/-- The quality that the metrics of the exporter give. -/
def exporterEvidenceQuality (F : Type) [Float64 F] [FloatText F] [PyNumber F]
    (exporterMetrics : Json) : Except PyError EvidenceQuality := do
  if ← isOne (F := F) exporterMetrics "kvcache_exporter_prefix_metric_comparable" then
    return .strict
  if ← isOne (F := F) exporterMetrics "kvcache_exporter_prefix_metric_estimated" then
    return .estimated
  if ← isOne (F := F) exporterMetrics "kvcache_exporter_prefix_metric_token_fallback" then
    return .fallback
  return .missing

/-- `get_entry_evidence_quality`. -/
def getEntryEvidenceQuality (F : Type) [Float64 F] [FloatText F] [PyNumber F] (entry : Json) :
    Except PyError EvidenceQuality := do
  let derived := (← entry.getItem? "derived_window_metrics").getD (.object [])
  let quality := derived.member "evidence_quality"
  if Json.isText quality "strict" then return .strict
  if Json.isText quality "estimated" then return .estimated
  if Json.isText quality "fallback" then return .fallback
  let exporterMetrics := (← entry.getItem? "exporter_metrics").getD (.object [])
  exporterEvidenceQuality F exporterMetrics

/-- A flag of the exporter is there, and at least one half. -/
def isSet (F : Type) [Float64 F] [FloatText F] [PyNumber F] (exporterMetrics : Json)
    (name : String) : Except PyError Bool := do
  match ← coerceFiniteFloat (F := F) (exporterMetrics.member name) with
  | some x => return le (ofInt 5 / ofInt 10) x.val
  | none => return false

/-- `get_entry_prefix_metric_check`. -/
def getEntryPrefixMetricCheck (F : Type) [Float64 F] [FloatText F] [PyNumber F] (entry : Json) :
    Except PyError PrefixMetricCheck := do
  match ← getEntryEvidenceQuality F entry with
  | .strict => return .strict
  | .fallback => return .tokenFallback
  | .estimated => return .other
  | _ =>
    let exporterMetrics := (← entry.getItem? "exporter_metrics").getD (.object [])
    let comparable ← isSet F exporterMetrics "kvcache_exporter_prefix_metric_comparable"
    let tokenFallback ← isSet F exporterMetrics "kvcache_exporter_prefix_metric_token_fallback"
    return if comparable then .strict
      else if tokenFallback then .tokenFallback
      else if (exporterMetrics.member "kvcache_exporter_prefix_metric_comparable").isSome ∨
          (exporterMetrics.member "kvcache_exporter_prefix_metric_token_fallback").isSome then
        .other
      else .missing

end Model

end Kavora.Benchmark
