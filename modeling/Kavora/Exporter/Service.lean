import Mathlib.Data.List.Induction
import Kavora.Exporter.BackendState
import Kavora.Lib.Lines

/-!
# The exporter (`exporter/app.py`, `exporter/advisor.py` and `exporter/registry/prom_writer.py`)

A service scrapes its backend again and again. What it serves between two scrapes is what the scrapes
so far have left.

* `PromWriter`: the gauges, with those that are there only if their value is known.
* `buildAdvice`: the recommendations of a scrape.
* `Service.poll`: one turn of `poll_loop`; `readyz`, `backendStateSnapshot` and `tuningAdvice` are
  the endpoints.
* `serves`: what a service serves after any scrapes, and what is in its files.
-/

namespace Kavora.Exporter

open Lib Lib.Go Lib.Go.Float64 BackendState

/-- `f"{x:.3f}"` and the like. -/
class PyFixed (F : Type) where
  fixed : Nat → F → String

variable {F : Type} [Float64 F]

/-! ## Gauges -/

/-- The metrics that the exporter serves. -/
structure PromWriter (F : Type) where
  gauges : Map String F
  /-- The labels of `kvcache_exporter_prefix_metric_semantics`. -/
  prefixMetricInfo : List (String × String)
  prefixMetricComparable : F
  prefixMetricTokenFallback : F
  prefixMetricEstimated : F
  scrapeFailures : Nat

namespace PromWriter

/-- The gauges of the health of the scrapes. -/
def lastSuccessName : String := "kvcache_exporter_scrape_last_success_timestamp_seconds"

/-- The gauge of the failures in a row. -/
def failuresName : String := "kvcache_exporter_scrape_consecutive_failures"

/-- The gauges that every scrape sets. -/
def blockGauges (snap : DerivedSnapshot F) : List (String × F) :=
  [("kvcache_kv_total_blocks", snap.totalBlocks),
    ("kvcache_kv_active_blocks", snap.activeBlocks),
    ("kvcache_kv_reusable_cached_blocks", snap.reusableCachedBlocks),
    ("kvcache_kv_free_uncached_blocks", snap.freeUncachedBlocks),
    ("kvcache_kv_duplicate_cached_blocks", snap.duplicateCachedBlocks),
    ("kvcache_kv_hidden_reuse_ready_perc", snap.hiddenReuseReadyPerc),
    ("kvcache_kv_effective_residency_perc", snap.effectiveResidencyPerc),
    ("kvcache_kv_cold_free_perc", snap.coldFreePerc)]

/-- The gauges that are there only with a value. -/
def optionalGauges (snap : DerivedSnapshot F) : List (String × Option F) :=
  [("kvcache_kv_cache_hit_ratio", snap.cacheHitRatio),
    ("kvcache_backend_queue_depth", snap.queueDepth),
    ("kvcache_backend_running_requests", snap.runningRequests)]

/-- The names of the gauges that a new registry has. -/
def requiredNames : List String :=
  ["kvcache_kv_total_blocks", "kvcache_kv_active_blocks", "kvcache_kv_reusable_cached_blocks",
    "kvcache_kv_free_uncached_blocks", "kvcache_kv_duplicate_cached_blocks",
    "kvcache_kv_hidden_reuse_ready_perc", "kvcache_kv_effective_residency_perc",
    "kvcache_kv_cold_free_perc", lastSuccessName, failuresName]

/-- The metrics before the first scrape. -/
def new : PromWriter F where
  gauges := requiredNames.foldl (fun gauges name => gauges.insert name (ofInt 0)) ∅
  prefixMetricInfo := []
  prefixMetricComparable := ofInt 0
  prefixMetricTokenFallback := ofInt 0
  prefixMetricEstimated := ofInt 0
  scrapeFailures := 0

/-- `_set_optional_gauge`. -/
def setOptionalGauge (gauges : Map String F) (name : String) : Option F → Map String F
  | none => gauges.erase name
  | some value => gauges.insert name value

/-- A label that says so where there is no name. -/
def orMissing (text : String) : String := if text = "" then "missing" else text

/-- `write`: the metrics after a snapshot. -/
def write (self : PromWriter F) (snap : DerivedSnapshot F) : PromWriter F :=
  { self with
    gauges :=
      (optionalGauges snap).foldl (fun gauges gauge => setOptionalGauge gauges gauge.1 gauge.2)
        ((blockGauges snap).foldl (fun gauges gauge => gauges.insert gauge.1 gauge.2) self.gauges)
    prefixMetricInfo :=
      [("backend", if snap.backend = "" then "unknown" else snap.backend),
        ("semantics", orMissing snap.prefixMetricSemantics),
        ("comparability", orMissing snap.prefixMetricComparability),
        ("basis", orMissing snap.prefixMetricBasis),
        ("hits_metric", orMissing snap.prefixHitsMetricName),
        ("queries_metric", orMissing snap.prefixQueriesMetricName),
        ("evidence_quality", orMissing snap.prefixEvidenceQuality.text)]
    prefixMetricComparable := ofInt (if snap.prefixMetricComparability = "strict" then 1 else 0)
    prefixMetricTokenFallback :=
      ofInt (if snap.prefixMetricSemantics = "token_counter_fallback" then 1 else 0)
    prefixMetricEstimated := ofInt (if snap.prefixEvidenceQuality = .estimated then 1 else 0) }

/-- `set_scrape_health`. -/
def setScrapeHealth (self : PromWriter F) (lastSuccess : Option F) (consecutiveFailures : Nat) :
    PromWriter F :=
  let gauges :=
    match lastSuccess with
    | none => self.gauges
    | some seconds => self.gauges.insert lastSuccessName seconds
  { self with gauges := gauges.insert failuresName (ofInt consecutiveFailures) }

/-- `inc_scrape_failure`. -/
def incScrapeFailure (self : PromWriter F) : PromWriter F :=
  { self with scrapeFailures := self.scrapeFailures + 1 }

omit [Float64 F] in
theorem lookup_setOptionalGauge (gauges : Map String F) (name name' : String) (value : Option F) :
    (setOptionalGauge gauges name value).lookup name' =
      if name' = name then value else gauges.lookup name' := by
  cases value with
  | none =>
    by_cases h : name' = name
    · rw [if_pos h, h]
      exact AList.lookup_erase name gauges
    · rw [if_neg h]
      exact AList.lookup_erase_ne h
  | some value =>
    by_cases h : name' = name
    · rw [if_pos h, h]
      exact AList.lookup_insert gauges
    · rw [if_neg h]
      exact AList.lookup_insert_ne h

omit [Float64 F] in
/-- Gauges that are set one after the other. -/
theorem lookup_foldl_setOptionalGauge {l : List (String × Option F)} (hnodup : (l.map (·.1)).Nodup)
    (gauges : Map String F) :
    (∀ gauge ∈ l, (l.foldl (fun gauges gauge => setOptionalGauge gauges gauge.1 gauge.2)
        gauges).lookup gauge.1 = gauge.2) ∧
      ∀ name ∉ l.map (·.1), (l.foldl (fun gauges gauge => setOptionalGauge gauges gauge.1 gauge.2)
        gauges).lookup name = gauges.lookup name := by
  induction l generalizing gauges with
  | nil => exact ⟨List.forall_mem_nil _, fun name _ => rfl⟩
  | cons first l ih =>
    obtain ⟨hfirst, hnodup⟩ := List.nodup_cons.mp hnodup
    obtain ⟨hmem, hother⟩ := ih hnodup (setOptionalGauge gauges first.1 first.2)
    constructor
    · refine List.forall_mem_cons.mpr ⟨?_, hmem⟩
      rw [List.foldl_cons, hother first.1 hfirst, lookup_setOptionalGauge, if_pos rfl]
    · intro name hname
      rw [List.map_cons, List.mem_cons, not_or] at hname
      rw [List.foldl_cons, hother name hname.2, lookup_setOptionalGauge, if_neg hname.1]

/-- The gauges of a scrape, the optional ones last. -/
def scrapeGauges (snap : DerivedSnapshot F) : List (String × Option F) :=
  (blockGauges snap).map (fun gauge => (gauge.1, some gauge.2)) ++ optionalGauges snap

/-- The gauges are those of a scrape. -/
def Shows (self : PromWriter F) (snap : DerivedSnapshot F) : Prop :=
  (∀ gauge ∈ blockGauges snap, self.gauges.lookup gauge.1 = some gauge.2) ∧
    ∀ gauge ∈ optionalGauges snap, self.gauges.lookup gauge.1 = gauge.2

theorem write_gauges (self : PromWriter F) (snap : DerivedSnapshot F) :
    (self.write snap).gauges = (scrapeGauges snap).foldl
      (fun gauges gauge => setOptionalGauge gauges gauge.1 gauge.2) self.gauges := by
  rw [scrapeGauges, List.foldl_append, List.foldl_map]
  rfl

omit [Float64 F] in
theorem scrapeGauges_names (snap : DerivedSnapshot F) : (scrapeGauges snap).map (·.1) =
    requiredNames.take 8 ++ ["kvcache_kv_cache_hit_ratio", "kvcache_backend_queue_depth",
      "kvcache_backend_running_requests"] := rfl

omit [Float64 F] in
theorem nodup_scrapeGauges (snap : DerivedSnapshot F) : ((scrapeGauges snap).map (·.1)).Nodup := by
  rw [scrapeGauges_names]
  decide

omit [Float64 F] in
/-- The health of the scrapes has gauges of its own. -/
theorem health_not_mem (snap : DerivedSnapshot F) :
    lastSuccessName ∉ (scrapeGauges snap).map (·.1) ∧
      failuresName ∉ (scrapeGauges snap).map (·.1) := by
  rw [scrapeGauges_names]
  decide

/-- A scrape sets its gauges and leaves those of the health of the scrapes. -/
theorem write_shows (self : PromWriter F) (snap : DerivedSnapshot F) :
    (self.write snap).Shows snap ∧
      (self.write snap).gauges.lookup lastSuccessName = self.gauges.lookup lastSuccessName := by
  obtain ⟨hmem, hother⟩ := lookup_foldl_setOptionalGauge (nodup_scrapeGauges snap) self.gauges
  unfold Shows
  rw [write_gauges]
  refine ⟨⟨fun gauge hgauge => ?_, fun gauge hgauge => ?_⟩, hother _ ?_⟩
  · exact hmem (gauge.1, some gauge.2) (List.mem_append_left _ (List.mem_map_of_mem hgauge))
  · exact hmem gauge (List.mem_append_right _ hgauge)
  · exact (health_not_mem snap).1

theorem setScrapeHealth_shows (self : PromWriter F) (lastSuccess : Option F) (failures : Nat) :
    (self.setScrapeHealth lastSuccess failures).gauges.lookup failuresName =
        some (ofInt failures) ∧
      (self.setScrapeHealth lastSuccess failures).gauges.lookup lastSuccessName =
        (lastSuccess <|> self.gauges.lookup lastSuccessName) ∧
      ∀ snap, self.Shows snap → (self.setScrapeHealth lastSuccess failures).Shows snap := by
  have hnames : lastSuccessName ≠ failuresName := by decide
  have hother : ∀ (snap : DerivedSnapshot F), ∀ gauge ∈ scrapeGauges snap,
      (self.setScrapeHealth lastSuccess failures).gauges.lookup gauge.1 =
        self.gauges.lookup gauge.1 := by
    intro snap gauge hgauge
    obtain ⟨hlast, hfailures⟩ := health_not_mem snap
    have hmem : gauge.1 ∈ (scrapeGauges snap).map (·.1) := List.mem_map_of_mem hgauge
    unfold setScrapeHealth
    dsimp only
    rw [AList.lookup_insert_ne (ne_of_mem_of_not_mem hmem hfailures)]
    cases lastSuccess with
    | none => rfl
    | some seconds => exact AList.lookup_insert_ne (ne_of_mem_of_not_mem hmem hlast)
  refine ⟨AList.lookup_insert _, ?_, fun snap hshows => ⟨fun gauge hgauge => ?_,
    fun gauge hgauge => ?_⟩⟩
  · unfold setScrapeHealth
    dsimp only
    rw [AList.lookup_insert_ne hnames]
    cases lastSuccess with
    | none => rfl
    | some seconds => exact AList.lookup_insert _
  · exact (hother snap (gauge.1, some gauge.2)
      (List.mem_append_left _ (List.mem_map_of_mem hgauge))).trans (hshows.1 gauge hgauge)
  · exact (hother snap gauge (List.mem_append_right _ hgauge)).trans (hshows.2 gauge hgauge)

end PromWriter

/-! ## Advice -/

/-- A piece of advice. -/
structure Recommendation where
  severity : String
  code : String
  action : String
  reason : String
  deriving DecidableEq, Repr

/-- `build_advice`: the recommendations. -/
def buildAdvice [PyFixed F] (snap : DerivedSnapshot F) (stale : Bool) : List Recommendation :=
  let recommendations :=
    (if stale then
      [⟨"critical", "metrics_stale", "check_backend_metrics_endpoint",
        "backend metrics are stale; keep static routing and do not promote KV-aware decisions"⟩]
      else []) ++
    (if snap.prefixEvidenceQuality ∈ [.estimated, .fallback, .missing] then
      [⟨"warning", "cache_evidence_not_strict", "keep_recommendations_dry_run_only",
        "cache evidence quality is " ++ snap.prefixEvidenceQuality.text ++
          "; do not auto-promote a calibrated policy"⟩]
      else []) ++
    (match snap.cacheHitRatio with
      | none =>
        [⟨"info", "cache_hit_ratio_missing", "enable_comparable_prefix_counters",
          "cache hit ratio is unavailable and must not be inferred from zero"⟩]
      | some ratio =>
        if lt ratio (ofInt 2 / ofInt 10) then
          [⟨"warning", "low_prefix_reuse", "increase_shared_prefix_or_review_prompt_stability",
            "cache hit ratio is " ++ PyFixed.fixed 3 ratio⟩]
        else []) ++
    (if lt (ofInt 35 / ofInt 100) snap.coldFreePerc then
      [⟨"info", "cold_capacity_available", "consider_higher_concurrency_or_batch_size",
        "cold free ratio is " ++ PyFixed.fixed 3 snap.coldFreePerc⟩]
      else []) ++
    (if lt (ofInt 9 / ofInt 10) snap.effectiveResidencyPerc then
      [⟨"warning", "kv_pressure_high", "reduce_concurrency_or_increase_gpu_memory",
        "effective residency is " ++ PyFixed.fixed 3 snap.effectiveResidencyPerc⟩]
      else []) ++
    (let tenth := snap.totalBlocks * (ofInt 1 / ofInt 10)
     let limit := if lt tenth (ofInt 1) then ofInt 1 else tenth
     if lt limit snap.duplicateCachedBlocks then
      [⟨"warning", "duplicate_cache_pressure", "review_prefix_normalization_and_tenant_isolation",
        "duplicate cached blocks are " ++ PyFixed.fixed 1 snap.duplicateCachedBlocks⟩]
      else [])
  if recommendations = [] then
    [⟨"ok", "healthy", "continue_observing", "no immediate tuning action is indicated"⟩]
  else recommendations

/-- The advice that is served. -/
inductive Advice where
  | empty
  | given (backend model instanceName : String) (observedAtUnixMillis : Int)
    (recommendations : List Recommendation)
  | unavailable (detail : String)
  deriving DecidableEq, Repr

/-! ## Scrapes -/

/-- The settings of an exporter. -/
structure Settings (F : Type) where
  adapter : Adapter
  backendID : String
  scrapeStaleAfter : F
  scrapeFailuresNotReady : Int
  scrapeErrorMaxLen : Nat
  /-- The hash of a snapshot's body. -/
  hash : Snapshot F → String
  /-- `json.dumps(backend_state, sort_keys=True, indent=2) + "\n"`. -/
  stateText : Snapshot F → Bytes
  /-- `json.dumps(advice, sort_keys=True) + "\n"`. -/
  adviceLine : Advice → Bytes

/-- How writing the files went: the clock after it, or an error. `write_text` truncates the state file
when it opens it, and either file may be left with a part only of what was to be written. -/
inductive Saved (F : Type) where
  | ok (seconds : F)
  /-- `mkdir` has failed, or opening the state file. -/
  | notOpened (error : String)
  | stateFailed (written : Nat) (error : String)
  /-- Nothing is written if the log could not be opened. -/
  | adviceFailed (written : Nat) (error : String)

/-- A scrape: its error, or the metrics with the clock at the snapshot. An error is the text of a
traceback. -/
inductive Scrape (F : Type) where
  | failed (error : String)
  | collected (metrics : Metrics F) (millis : Int) (saved : Saved F)

namespace Settings

/-- The values of some metrics. -/
def derive (settings : Settings F) (metrics : Metrics F) : DerivedSnapshot F :=
  (computeDerived (settings.adapter.collect metrics) none).1

/-- The backend state of a scrape at a time. -/
def snapshot (settings : Settings F) (metrics : Metrics F) (millis : Int) : Snapshot F :=
  snapshotFromDerived (settings.derive metrics)
    { backendID := if settings.backendID = "" then none else some settings.backendID
      observedAtUnixMillis := none
      stale := false
      now := millis
      hash := settings.hash }

/-- The advice on a scrape. -/
def adviceOf [PyFixed F] (settings : Settings F) (metrics : Metrics F) (millis : Int) : Advice :=
  let snap := settings.derive metrics
  .given snap.backend snap.model snap.instanceName (settings.snapshot metrics millis).observedAtUnixMillis
    (buildAdvice snap false)

/-- `err[: settings.scrape_error_max_len]`. -/
def cut (settings : Settings F) (error : String) : String :=
  .ofList (error.toList.take settings.scrapeErrorMaxLen)

end Settings

namespace Scrape

/-- The error that ends the turn. -/
def error : Scrape F → Option String
  | failed error => some error
  | collected _ _ (.ok _) => none
  | collected _ _ (.notOpened error) => some error
  | collected _ _ (.stateFailed _ error) => some error
  | collected _ _ (.adviceFailed _ error) => some error

/-- The scrape failed. -/
def isFailed (scrape : Scrape F) : Bool := scrape.error.isSome

/-- The clock of a success. -/
def seconds : Scrape F → Option F
  | collected _ _ (.ok seconds) => some seconds
  | _ => none

/-- What is computed from a scrape that succeeded. -/
def derived (settings : Settings F) : Scrape F → Option (DerivedSnapshot F)
  | failed _ => none
  | collected metrics _ _ => some (settings.derive metrics)

/-- The backend state of a scrape that succeeded. -/
def snapshot (settings : Settings F) : Scrape F → Option (Snapshot F)
  | failed _ => none
  | collected metrics millis _ => some (settings.snapshot metrics millis)

/-- What is in `backend-state.json` after the turn, if it was opened. -/
def stored (settings : Settings F) : Scrape F → Option Bytes
  | collected metrics millis saved =>
    let text := settings.stateText (settings.snapshot metrics millis)
    match saved with
    | .ok _ => some text
    | .notOpened _ => none
    | .stateFailed written _ => some (text.take written)
    | .adviceFailed _ _ => some text
  | failed _ => none

/-- What is appended to `advice.jsonl`. -/
def logged [PyFixed F] (settings : Settings F) : Scrape F → Bytes
  | collected metrics millis saved =>
    let line := settings.adviceLine (settings.adviceOf metrics millis)
    match saved with
    | .ok _ => line
    | .notOpened _ => []
    | .stateFailed _ _ => []
    | .adviceFailed written _ => line.take written
  | failed _ => []

end Scrape

/-! ## The service -/

/-- `backend-state.json`, if it is there, and `advice.jsonl`, which is empty before it is there. -/
structure Files where
  backendState : Option Bytes
  advice : Bytes

/-- The exporter between two scrapes. -/
structure Service (F : Type) where
  writer : PromWriter F
  backendState : Option (Snapshot F)
  advice : Advice
  lastSuccess : Option F
  consecutiveFailures : Nat
  lastError : String
  files : Files

namespace Service

/-- `create_app`, with the files that an earlier process left. -/
def new (files : Files) : Service F where
  writer := .new
  backendState := none
  advice := .empty
  lastSuccess := none
  consecutiveFailures := 0
  lastError := ""
  files

/-- The `except` of `poll_loop`. -/
def fail (settings : Settings F) (s : Service F) (error : String) : Service F :=
  { s with
    writer :=
      s.writer.incScrapeFailure.setScrapeHealth s.lastSuccess (s.consecutiveFailures + 1)
    advice := .unavailable (settings.cut error)
    consecutiveFailures := s.consecutiveFailures + 1
    lastError := settings.cut error }

/-- A turn of `poll_loop`. -/
def poll [PyFixed F] (settings : Settings F) (s : Service F) : Scrape F → Service F
  | .failed error => s.fail settings error
  | .collected metrics millis saved =>
    let snapshot := settings.snapshot metrics millis
    let advice := settings.adviceOf metrics millis
    let s :=
      { s with
        writer := s.writer.write (settings.derive metrics)
        backendState := some snapshot
        advice }
    let text := settings.stateText snapshot
    let line := settings.adviceLine advice
    match saved with
    | .notOpened error => s.fail settings error
    | .stateFailed written error =>
      { s with files.backendState := some (text.take written) }.fail settings error
    | .adviceFailed written error =>
      { s with
        files :=
          { backendState := some text
            advice := s.files.advice ++ line.take written } }.fail settings error
    | .ok seconds =>
      { s with
        writer := s.writer.setScrapeHealth (some seconds) 0
        lastSuccess := some seconds
        consecutiveFailures := 0
        lastError := ""
        files := { backendState := some text, advice := s.files.advice ++ line } }

/-! ## The endpoints -/

/-- The answer of `/readyz`. -/
inductive Readiness (F : Type) where
  | ready (lastSuccess : Option F) (consecutiveFailures : Nat)
  | notReady (lastSuccess : Option F) (consecutiveFailures : Nat) (stale tooManyFailures : Bool)
    (lastError : String)

/-- `/readyz` at a time. -/
def readyz (settings : Settings F) (s : Service F) (now : F) : Readiness F :=
  let stale : Bool :=
    match s.lastSuccess with
    | none => true
    | some last => lt settings.scrapeStaleAfter (now - last)
  let tooManyFailures : Bool := settings.scrapeFailuresNotReady ≤ s.consecutiveFailures
  if stale || tooManyFailures then
    .notReady s.lastSuccess s.consecutiveFailures stale tooManyFailures s.lastError
  else .ready s.lastSuccess s.consecutiveFailures

/-- `/backend-state`; without a snapshot the answer has status 503. -/
def backendStateSnapshot (s : Service F) : Option (Snapshot F) := s.backendState

/-- `/advice`; without one the answer has status 503. -/
def tuningAdvice (s : Service F) : Option Advice := if s.advice = .empty then none else some s.advice

end Service

/-! ## What a service serves -/

section Serves

variable [PyFixed F] (settings : Settings F) (files : Files)

/-- What a service serves after some scrapes, the oldest first. A scrape whose files could not be
written counts as a failure, but its values are served. -/
structure Serves (history : List (Scrape F)) (s : Service F) : Prop where
  backendState : s.backendState = history.reverse.findSome? (·.snapshot settings)
  lastSuccess : s.lastSuccess = history.reverse.findSome? Scrape.seconds
  consecutiveFailures : s.consecutiveFailures =
    (history.reverse.takeWhile Scrape.isFailed).length
  scrapeFailures : s.writer.scrapeFailures = history.countP Scrape.isFailed
  lastError : s.lastError =
    ((history.getLast?.bind Scrape.error).map settings.cut).getD ""
  advice : s.advice =
    match history.getLast? with
    | none => .empty
    | some (.collected metrics millis (.ok _)) => settings.adviceOf metrics millis
    | some scrape => .unavailable (settings.cut (scrape.error.getD ""))
  gauges : ∀ snap, history.reverse.findSome? (·.derived settings) = some snap →
    s.writer.Shows snap
  lastSuccessGauge : s.writer.gauges.lookup PromWriter.lastSuccessName =
    some (s.lastSuccess.getD (ofInt 0))
  failuresGauge : s.writer.gauges.lookup PromWriter.failuresName =
    some (ofInt s.consecutiveFailures)
  /-- The last scrape that has opened the state file has replaced it. -/
  stateFile : s.files.backendState =
    (history.reverse.findSome? (·.stored settings) <|> files.backendState)
  adviceFile : s.files.advice = files.advice ++ history.flatMap (·.logged settings)

variable {settings files} {history : List (Scrape F)} {s : Service F}

omit [PyFixed F] in
theorem serves_new_gauges (name : String) (h : name ∈ PromWriter.requiredNames) :
    (PromWriter.new : PromWriter F).gauges.lookup name = some (ofInt 0) := by
  have hall : ∀ (names : List String) (gauges : Map String F),
      (name ∈ names ∨ gauges.lookup name = some (ofInt 0)) →
      (names.foldl (fun gauges name => gauges.insert name (ofInt 0)) gauges).lookup name =
        some (ofInt 0) := by
    intro names
    induction names with
    | nil => exact fun gauges h => h.resolve_left List.not_mem_nil
    | cons first names ih =>
      intro gauges h
      refine ih _ ?_
      by_cases hname : name = first
      · rw [hname]
        exact .inr (AList.lookup_insert gauges)
      · rcases h with h | h
        · exact .inl ((List.mem_cons.mp h).resolve_left hname)
        · exact .inr ((AList.lookup_insert_ne hname).trans h)
  exact hall _ _ (.inl h)

theorem Serves.new (settings : Settings F) (files : Files) :
    Serves settings files [] (.new files) where
  backendState := rfl
  lastSuccess := rfl
  consecutiveFailures := rfl
  scrapeFailures := rfl
  lastError := rfl
  advice := rfl
  gauges snap h := by cases h
  lastSuccessGauge := serves_new_gauges _ (by decide)
  failuresGauge := serves_new_gauges _ (by decide)
  stateFile := rfl
  adviceFile := (List.append_nil _).symm

omit [PyFixed F] in
/-- The end of a turn that fails. -/
theorem Serves.fail [PyFixed F] (h : Serves settings files history s) {scrape : Scrape F} {error : String}
    {collected : Service F} (herror : scrape.error = some error)
    (hstate : collected.backendState =
      (history ++ [scrape]).reverse.findSome? (·.snapshot settings))
    (hshows : ∀ snap, (history ++ [scrape]).reverse.findSome? (·.derived settings) = some snap →
      collected.writer.Shows snap)
    (hlast : collected.lastSuccess = s.lastSuccess)
    (hfailures : collected.consecutiveFailures = s.consecutiveFailures)
    (hcounter : collected.writer.scrapeFailures = s.writer.scrapeFailures)
    (hgauge : collected.writer.gauges.lookup PromWriter.lastSuccessName =
      s.writer.gauges.lookup PromWriter.lastSuccessName)
    (hstored : collected.files.backendState = (scrape.stored settings <|> s.files.backendState))
    (hlogged : collected.files.advice = s.files.advice ++ scrape.logged settings) :
    Serves settings files (history ++ [scrape]) (collected.fail settings error) := by
  have hreverse : (history ++ [scrape]).reverse = scrape :: history.reverse := by simp
  have hfailed : scrape.isFailed = true := by rw [Scrape.isFailed, herror]; rfl
  have hseconds : scrape.seconds = none := by
    cases scrape with
    | failed => rfl
    | collected _ _ saved =>
      cases saved with
      | ok => cases herror
      | notOpened | stateFailed | adviceFailed => rfl
  obtain ⟨hfailuresGauge, hlastGauge, hkept⟩ :=
    collected.writer.incScrapeFailure.setScrapeHealth_shows collected.lastSuccess
      (collected.consecutiveFailures + 1)
  constructor
  · exact hstate
  · rw [hreverse, List.findSome?_cons, hseconds, ← h.lastSuccess, ← hlast]
    rfl
  · rw [hreverse, List.takeWhile_cons_of_pos hfailed, List.length_cons, ← h.consecutiveFailures,
      ← hfailures]
    rfl
  · rw [List.countP_append, List.countP_singleton, if_pos hfailed, ← h.scrapeFailures, ← hcounter]
    rfl
  · simp [Service.fail, herror]
  · rw [List.getLast?_append, List.getLast?_singleton, Option.some_or]
    cases scrape with
    | failed => cases herror; rfl
    | collected _ _ saved =>
      cases saved with
      | ok => cases herror
      | notOpened | stateFailed | adviceFailed => cases herror; rfl
  · exact fun snap hsnap => hkept snap (hshows snap hsnap)
  · refine hlastGauge.trans ?_
    show (collected.lastSuccess <|> collected.writer.gauges.lookup _) = some (collected.lastSuccess.getD _)
    rw [hgauge, h.lastSuccessGauge, hlast]
    cases s.lastSuccess <;> rfl
  · exact hfailuresGauge
  · refine hstored.trans ?_
    rw [h.stateFile, hreverse, List.findSome?_cons]
    cases scrape.stored settings <;> rfl
  · refine hlogged.trans ?_
    rw [h.adviceFile, List.flatMap_append, List.flatMap_singleton, List.append_assoc]

/-- A turn of the loop. -/
theorem Serves.poll (h : Serves settings files history s) (scrape : Scrape F) :
    Serves settings files (history ++ [scrape]) (s.poll settings scrape) := by
  have hreverse : (history ++ [scrape]).reverse = scrape :: history.reverse := by simp
  cases scrape with
  | failed error =>
    refine h.fail rfl ?_ ?_ rfl rfl rfl rfl rfl (List.append_nil _).symm
    · rw [hreverse]
      exact h.backendState
    · rw [hreverse]
      exact h.gauges
  | collected metrics millis saved =>
    obtain ⟨hshows, hgauge⟩ := s.writer.write_shows (settings.derive metrics)
    have hcollected : ∀ snap, (history ++ [Scrape.collected metrics millis saved]).reverse.findSome?
        (·.derived settings) = some snap → (s.writer.write (settings.derive metrics)).Shows snap := by
      intro snap hsnap
      rw [hreverse] at hsnap
      cases hsnap
      exact hshows
    cases saved with
    | notOpened error =>
      refine h.fail rfl ?_ hcollected rfl rfl rfl hgauge rfl (List.append_nil _).symm
      rw [hreverse]
      rfl
    | stateFailed written error =>
      refine h.fail rfl ?_ hcollected rfl rfl rfl hgauge rfl (List.append_nil _).symm
      rw [hreverse]
      rfl
    | adviceFailed written error =>
      refine h.fail rfl ?_ hcollected rfl rfl rfl hgauge rfl rfl
      rw [hreverse]
      rfl
    | ok seconds =>
      obtain ⟨hfailuresGauge, hlastGauge, hkept⟩ :=
        (s.writer.write (settings.derive metrics)).setScrapeHealth_shows (some seconds) 0
      constructor
      · rw [hreverse]
        rfl
      · rw [hreverse]
        rfl
      · rw [hreverse]
        rfl
      · rw [List.countP_append, ← h.scrapeFailures]
        rfl
      · simp [Service.poll, Scrape.error]
      · simp [Service.poll]
      · exact fun snap hsnap => hkept snap (hcollected snap hsnap)
      · exact hlastGauge
      · exact hfailuresGauge
      · rw [hreverse]
        rfl
      · rw [List.flatMap_append, List.flatMap_singleton, ← List.append_assoc, ← h.adviceFile]
        rfl

/-- **What a service serves is what its scrapes have left.** -/
theorem serves (settings : Settings F) (files : Files) (history : List (Scrape F)) :
    Serves settings files history (history.foldl (Service.poll settings) (.new files)) := by
  induction history using List.reverseRecOn with
  | nil => exact .new settings files
  | append_singleton history scrape ih =>
    rw [List.foldl_concat]
    exact ih.poll scrape

end Serves

end Kavora.Exporter
