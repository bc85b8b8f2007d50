import Kavora.Exporter.Adapters
import Kavora.Lib.GoFloat

/-!
# Snapshots of the exporter (`exporter/derive/compute.py` and `exporter/backend_state.py`)

What the router reads of a backend: eleven signals that are computed from one scrape.

* `computeDerived`, `snapshotFromDerived`: from the scrape to the signals.
* `Adapter.sources`: the metrics that a signal is computed from.
* `Adapter.missing_never_zero_iff`: a signal has a value without any of these metrics unless the
  scrape has the block metrics.
-/

namespace Kavora.Exporter

open Lib.Go Lib.Go.Float64 BackendState

/-- A snapshot with what is computed from it. -/
structure DerivedSnapshot (F : Type) where
  backend : String
  model : String
  instanceName : String
  modelGroup : String
  totalBlocks : F
  activeBlocks : F
  reusableCachedBlocks : F
  freeUncachedBlocks : F
  duplicateCachedBlocks : F
  prefixBlocks : F
  hiddenReuseReadyPerc : F
  effectiveResidencyPerc : F
  coldFreePerc : F
  cacheHitRatio : Option F
  prefixHitsMetricName : String
  prefixQueriesMetricName : String
  prefixMetricSemantics : String
  prefixMetricComparability : String
  prefixMetricBasis : String
  prefixEvidenceQuality : EvidenceQuality
  blockEvidenceQuality : EvidenceQuality
  queueDepth : Option F
  runningRequests : Option F

/-- The hits of the scrape before. -/
structure DeriveState (F : Type) where
  lastPrefixHits : Option F

variable {F : Type} [Float64 F]

/-! ## Derived values -/

/-- `max(0.0, min(1.0, v))`; the first argument stays unless the other one is beyond it. -/
def clamp01 (v : F) : F :=
  let low := if lt v (ofInt 1) then v else ofInt 1
  if lt (ofInt 0) low then low else ofInt 0

/-- A usage as a ratio, whether it was one or a percentage. -/
def usageRatio (usagePerc : F) : F :=
  if le usagePerc (ofInt 0) then ofInt 0
  else if le usagePerc (ofInt 1) then clamp01 usagePerc
  else clamp01 (usagePerc / ofInt 100)

/-- `compute_derived` and the state that it leaves. -/
def computeDerived (native : NativeSnapshot F) (state : Option (DeriveState F)) :
    DerivedSnapshot F × Option (DeriveState F) :=
  let total := if lt native.totalBlocks (ofInt 0) then ofInt 0 else native.totalBlocks
  let active := native.activeBlocks
  let reusable := native.reusableCachedBlocks
  let freeUncached := native.freeUncachedBlocks
  let usageRatio := usageRatio native.usagePerc
  let hidden := if lt (ofInt 0) total then reusable / total else ofInt 0
  let effective := if lt (ofInt 0) total then (active + reusable) / total else usageRatio
  let cold := if lt (ofInt 0) total then freeUncached / total else ofInt 1 - usageRatio
  let cacheHitRatio :=
    if lt (ofInt 0) native.prefixQueries then some (native.prefixHits / native.prefixQueries)
    else none
  ({ backend := native.backend
     model := native.model
     instanceName := native.instanceName
     modelGroup := native.modelGroup
     totalBlocks := total
     activeBlocks := active
     reusableCachedBlocks := reusable
     freeUncachedBlocks := freeUncached
     duplicateCachedBlocks := native.duplicateCachedBlocks
     prefixBlocks := reusable
     hiddenReuseReadyPerc := clamp01 hidden
     effectiveResidencyPerc := clamp01 effective
     coldFreePerc := clamp01 cold
     cacheHitRatio := cacheHitRatio.map clamp01
     prefixHitsMetricName := native.prefixHitsMetricName
     prefixQueriesMetricName := native.prefixQueriesMetricName
     prefixMetricSemantics := native.prefixMetricSemantics
     prefixMetricComparability := native.prefixMetricComparability
     prefixMetricBasis := native.prefixMetricBasis
     prefixEvidenceQuality := native.prefixEvidenceQuality
     blockEvidenceQuality := native.blockEvidenceQuality
     queueDepth := native.queueDepth
     runningRequests := native.runningRequests },
    state.map fun _ => { lastPrefixHits := some native.prefixHits })

/-! ## Signals -/

/-- The quality of a value that may be missing. -/
def quality (value : Option F) (stale : Bool) : Quality :=
  match value with
  | none => .missing
  | some _ => if stale then .stale else .fresh

/-- `_signal`. -/
def signal (value : Option F) (source : String) (observed : Int) (semantics : String)
    (evidenceQuality : EvidenceQuality) (stale : Bool) : Signal F where
  value := value.getD (ofInt 0)
  hasValue := value.isSome
  quality := quality value stale
  source := if source = "" then "derived" else source
  observedAtUnixMillis := observed
  semantics
  evidenceQuality

/-- The arguments of `snapshot_from_derived` besides the values: an empty `backendID` and a zero
`observedAtUnixMillis` count as none; `now` is the clock and `hash` the hash of the body. -/
structure SnapshotArgs (F : Type) where
  backendID : Option String
  observedAtUnixMillis : Option Int
  stale : Bool
  now : Int
  hash : Snapshot F → String

/-- The signals of a snapshot. -/
def signals (snap : DerivedSnapshot F) (observed : Int) (stale : Bool) : Map String (Signal F) :=
  let block (value : F) (source semantics : String) : Signal F :=
    signal (some value) source observed semantics snap.blockEvidenceQuality stale
  let queue (value : Option F) (source : String) : Signal F :=
    signal value source observed "gauge" (if value.isSome then .strict else .missing) stale
  let prefixSource :=
    if snap.prefixHitsMetricName ≠ "" then snap.prefixHitsMetricName
    else if snap.prefixQueriesMetricName ≠ "" then snap.prefixQueriesMetricName
    else "derived"
  { entries :=
      [⟨"total_blocks", block snap.totalBlocks "derived.total_blocks" "gauge"⟩,
        ⟨"active_blocks", block snap.activeBlocks "derived.active_blocks" "gauge"⟩,
        ⟨"reusable_cached_blocks",
          block snap.reusableCachedBlocks "derived.reusable_cached_blocks" "gauge"⟩,
        ⟨"free_uncached_blocks",
          block snap.freeUncachedBlocks "derived.free_uncached_blocks" "gauge"⟩,
        ⟨"duplicate_cached_blocks",
          block snap.duplicateCachedBlocks "derived.duplicate_cached_blocks" "gauge"⟩,
        ⟨"hidden_reuse_ready_perc",
          block snap.hiddenReuseReadyPerc "derived.hidden_reuse_ready_perc" "ratio"⟩,
        ⟨"effective_residency_perc",
          block snap.effectiveResidencyPerc "derived.effective_residency_perc" "ratio"⟩,
        ⟨"cold_free_perc", block snap.coldFreePerc "derived.cold_free_perc" "ratio"⟩,
        ⟨"cache_hit_ratio",
          signal snap.cacheHitRatio prefixSource observed snap.prefixMetricSemantics
            snap.prefixEvidenceQuality stale⟩,
        ⟨"queue_depth", queue snap.queueDepth "backend.queue_depth"⟩,
        ⟨"running_requests", queue snap.runningRequests "backend.running_requests"⟩]
    nodupKeys := by simp [List.NodupKeys, List.keys] }

/-- `snapshot_from_derived`: the backend state of a snapshot. -/
def snapshotFromDerived (snap : DerivedSnapshot F) (args : SnapshotArgs F) : Snapshot F :=
  let observed :=
    match args.observedAtUnixMillis with
    | none => args.now
    | some millis => if millis = 0 then args.now else millis
  let body : Snapshot F :=
    { schemaVersion := "kavora.backend-state/v1"
      backendID :=
        match args.backendID with
        | none => snap.backend ++ ":" ++ snap.instanceName
        | some id => if id = "" then snap.backend ++ ":" ++ snap.instanceName else id
      backend := snap.backend
      model := snap.model
      instanceName := snap.instanceName
      modelGroup := snap.modelGroup
      observedAtUnixMillis := observed
      signals := signals snap observed args.stale
      snapshotHash := "" }
  { body with snapshotHash := args.hash body }

/-! ## What the signals are computed from -/

/-- The adapter of an engine. -/
inductive Adapter where
  | vllm (self : VllmAdapter)
  | sglang (self : SGLangAdapter)

namespace Adapter

/-- The snapshot of a scrape. -/
def collect (self : Adapter) (m : Metrics F) : NativeSnapshot F :=
  match self with
  | .vllm self => self.collect m
  | .sglang self => self.collect m

/-- The metrics of each number of blocks. -/
structure BlockSources where
  total : List String
  active : List String
  reusable : List String
  free : List String
  duplicate : List String
  usage : List String

/-- The metrics that the block counts come from. -/
def blockSources : Adapter → BlockSources
  | .vllm _ =>
    { total := ["vllm_obs:kv_total_blocks"]
      active := ["vllm_obs:kv_active_blocks"]
      reusable := ["vllm_obs:kv_reusable_cached_blocks"]
      free := ["vllm_obs:kv_free_uncached_blocks"]
      duplicate := ["vllm_obs:kv_duplicate_cached_blocks"]
      usage := ["vllm:kv_cache_usage_perc"] }
  | .sglang _ =>
    { total := SGLangAdapter.totalBlockNames ++ SGLangAdapter.totalTokenNames
      active := SGLangAdapter.activeBlockNames ++ SGLangAdapter.usedTokenNames
      reusable := SGLangAdapter.reusableBlockNames
      free := SGLangAdapter.freeBlockNames ++
        (SGLangAdapter.totalBlockNames ++ SGLangAdapter.totalTokenNames) ++
        (SGLangAdapter.activeBlockNames ++ SGLangAdapter.usedTokenNames)
      duplicate := SGLangAdapter.duplicateBlockNames
      usage := SGLangAdapter.usageNames }

/-- The metrics that the hit ratio comes from. -/
def cacheHitNames : Adapter → List String
  | .vllm _ => VllmAdapter.hitsNames ++ VllmAdapter.queriesNames
  | .sglang _ => SGLangAdapter.hitsNames ++ SGLangAdapter.queriesNames

/-- The metrics that the queue depth comes from. -/
def queueNames : Adapter → List String
  | .vllm _ => ["vllm:num_requests_waiting"]
  | .sglang _ => SGLangAdapter.queueNames

/-- The metrics that the running requests come from. -/
def runningNames : Adapter → List String
  | .vllm _ => ["vllm:num_requests_running"]
  | .sglang _ => SGLangAdapter.runningNames

/-- Every metric that the value of a signal depends on. -/
def sources (self : Adapter) (name : String) : List String :=
  let blocks := self.blockSources
  if name = "total_blocks" then blocks.total
  else if name = "active_blocks" then blocks.active
  else if name = "reusable_cached_blocks" then blocks.reusable
  else if name = "free_uncached_blocks" then blocks.free
  else if name = "duplicate_cached_blocks" then blocks.duplicate
  else if name = "hidden_reuse_ready_perc" then blocks.total ++ blocks.reusable
  else if name = "effective_residency_perc" then
    blocks.total ++ blocks.active ++ blocks.reusable ++ blocks.usage
  else if name = "cold_free_perc" then blocks.total ++ blocks.free ++ blocks.usage
  else if name = "cache_hit_ratio" then self.cacheHitNames
  else if name = "queue_depth" then self.queueNames
  else if name = "running_requests" then self.runningNames
  else []

/-- The snapshot of one scrape. -/
def snapshot (self : Adapter) (m : Metrics F) (state : Option (DeriveState F))
    (args : SnapshotArgs F) : Snapshot F :=
  snapshotFromDerived (computeDerived (self.collect m) state).1 args

/-- A signal has a value only if a metric of it was there, and is missing otherwise. -/
def MissingNeverZero (self : Adapter) (m : Metrics F) (snapshot : Snapshot F) : Prop :=
  ∀ name signal, snapshot.signals.lookup name = some signal →
    Reported m (self.sources name) ∨ signal.hasValue = false ∧ signal.quality = .missing

/-- The scrape has the block metrics: for SGLang the ones of the free blocks are not needed, and
tokens do as well as blocks for the total and the active ones. -/
def BlocksReported (self : Adapter) (m : Metrics F) : Prop :=
  Reported m self.blockSources.total ∧ Reported m self.blockSources.active ∧
    Reported m self.blockSources.reusable ∧ Reported m self.blockSources.free ∧
    Reported m self.blockSources.duplicate

instance (self : Adapter) (m : Metrics F) : Decidable (self.BlocksReported m) :=
  inferInstanceAs (Decidable (_ ∧ _ ∧ _ ∧ _ ∧ _))

end Adapter

/-! ## The signals of a snapshot -/

theorem signal_missing {value : Option F} {source semantics : String} {observed : Int}
    {evidenceQuality : EvidenceQuality} {stale : Bool} (h : value = none) :
    (signal value source observed semantics evidenceQuality stale).hasValue = false ∧
      (signal value source observed semantics evidenceQuality stale).quality = .missing := by
  subst h
  exact ⟨rfl, rfl⟩

theorem signal_some_hasValue {value : F} {source semantics : String} {observed : Int}
    {evidenceQuality : EvidenceQuality} {stale : Bool} :
    (signal (some value) source observed semantics evidenceQuality stale).hasValue = true := rfl

namespace Adapter

variable {self : Adapter} {m : Metrics F} {state : Option (DeriveState F)} {args : SnapshotArgs F}

/-- The hit ratio needs queries. -/
theorem cacheHitRatio_none [Irrefl F] (h : ¬ Reported m self.cacheHitNames) :
    (computeDerived (self.collect m) state).1.cacheHitRatio = none := by
  have hqueries : (self.collect m).prefixQueries = ofInt 0 := by
    cases self with
    | vllm self =>
      have hnot : ¬ Reported m VllmAdapter.queriesNames := fun ⟨name, hname, hmem⟩ =>
        h ⟨name, List.mem_append_right _ hname, hmem⟩
      exact congrArg Prod.fst (pickMetricWithName_of_not_reported hnot)
    | sglang self =>
      have hnot : ¬ Reported m SGLangAdapter.queriesNames := fun ⟨name, hname, hmem⟩ =>
        h ⟨name, List.mem_append_right _ hname, hmem⟩
      exact congrArg Prod.fst (pickMetricWithName_of_not_reported hnot)
  have hzero : lt (ofInt 0) (self.collect m).prefixQueries = false := by
    rw [hqueries]
    exact Irrefl.lt_irrefl _
  simp only [computeDerived, hzero]
  rfl

theorem queueDepth_none (h : ¬ Reported m self.queueNames) :
    (computeDerived (self.collect m) state).1.queueDepth = none := by
  cases hdepth : (computeDerived (self.collect m) state).1.queueDepth with
  | none => rfl
  | some depth =>
    cases self with
    | vllm self => exact absurd (reported_of_pickMetricOptional hdepth) h
    | sglang self => exact absurd (reported_of_pickMetricOptional hdepth) h

theorem runningRequests_none (h : ¬ Reported m self.runningNames) :
    (computeDerived (self.collect m) state).1.runningRequests = none := by
  cases hrunning : (computeDerived (self.collect m) state).1.runningRequests with
  | none => rfl
  | some running =>
    cases self with
    | vllm self => exact absurd (reported_of_pickMetricOptional hrunning) h
    | sglang self => exact absurd (reported_of_pickMetricOptional hrunning) h

/-- **Missing signals.** The signals of a snapshot are missing where their metrics are just if the
scrape has the block metrics: a block metric that is not there becomes a fresh zero. -/
theorem missing_never_zero_iff [Irrefl F] (self : Adapter) (m : Metrics F)
    (state : Option (DeriveState F)) (args : SnapshotArgs F) :
    self.MissingNeverZero m (self.snapshot m state args) ↔ self.BlocksReported m := by
  constructor
  · intro h
    -- the five numbers of blocks always have a value
    have hblock : ∀ name value source semantics observed evidenceQuality,
        (self.snapshot m state args).signals.lookup name =
          some (signal (some value) source observed semantics evidenceQuality args.stale) →
        Reported m (self.sources name) := by
      intro name value source semantics observed evidenceQuality hlookup
      rcases h name _ hlookup with hreported | ⟨hmissing, -⟩
      · exact hreported
      · rw [signal_some_hasValue] at hmissing
        cases hmissing
    exact ⟨hblock "total_blocks" _ _ _ _ _ rfl, hblock "active_blocks" _ _ _ _ _ rfl,
      hblock "reusable_cached_blocks" _ _ _ _ _ rfl, hblock "free_uncached_blocks" _ _ _ _ _ rfl,
      hblock "duplicate_cached_blocks" _ _ _ _ _ rfl⟩
  · rintro ⟨htotal, hactive, hreusable, hfree, hduplicate⟩ name signal hlookup
    have hmem := AList.mem_lookup_iff.mp hlookup
    simp only [snapshot, snapshotFromDerived, signals, List.mem_cons, Sigma.mk.injEq, heq_eq_eq,
      List.not_mem_nil, or_false] at hmem
    rcases hmem with ⟨rfl, rfl⟩ | ⟨rfl, rfl⟩ | ⟨rfl, rfl⟩ | ⟨rfl, rfl⟩ | ⟨rfl, rfl⟩ | ⟨rfl, rfl⟩ |
      ⟨rfl, rfl⟩ | ⟨rfl, rfl⟩ | ⟨rfl, rfl⟩ | ⟨rfl, rfl⟩ | ⟨rfl, rfl⟩
    · exact .inl htotal
    · exact .inl hactive
    · exact .inl hreusable
    · exact .inl hfree
    · exact .inl hduplicate
    · exact .inl htotal.append_left
    · exact .inl htotal.append_left.append_left.append_left
    · exact .inl htotal.append_left.append_left
    · by_cases hhits : Reported m self.cacheHitNames
      · exact .inl hhits
      · exact .inr (signal_missing (cacheHitRatio_none hhits))
    · by_cases hqueue : Reported m self.queueNames
      · exact .inl hqueue
      · exact .inr (signal_missing (queueDepth_none hqueue))
    · by_cases hrunning : Reported m self.runningNames
      · exact .inl hrunning
      · exact .inr (signal_missing (runningRequests_none hrunning))

end Adapter

namespace ScrapeSample

@[reducible]
def number : Float64 Rat := Float64.rational id

attribute [local instance] number

local instance : Irrefl Rat := rational_irrefl id

def adapter : Adapter := .vllm { modelName := "m", instanceName := "gpu-0", modelGroup := "" }

def args : SnapshotArgs Rat where
  backendID := none
  observedAtUnixMillis := none
  stale := false
  now := 1000
  hash _ := ""

/-- The block metrics without those of the prefix cache and of the queue. -/
def blocks : Metrics Rat where
  entries :=
    [⟨"vllm_obs:kv_total_blocks", 100⟩, ⟨"vllm_obs:kv_active_blocks", 0⟩,
      ⟨"vllm_obs:kv_reusable_cached_blocks", 10⟩, ⟨"vllm_obs:kv_free_uncached_blocks", 90⟩,
      ⟨"vllm_obs:kv_duplicate_cached_blocks", 1⟩]
  nodupKeys := by simp [List.NodupKeys, List.keys]

theorem missing_never_zero_blocks :
    adapter.MissingNeverZero blocks (adapter.snapshot blocks none args) :=
  (Adapter.missing_never_zero_iff adapter blocks none args).mpr (by decide +kernel)

/-- A scrape without any metric: the residency of the backend is a fresh zero. -/
theorem nothing_scraped_is_idle :
    ¬ adapter.MissingNeverZero (∅ : Metrics Rat) (adapter.snapshot ∅ none args) := by
  intro h
  rcases h "effective_residency_perc" _ rfl with ⟨name, -, hmem⟩ | ⟨hvalue, -⟩
  · exact absurd hmem (AList.notMem_empty name)
  · cases hvalue

end ScrapeSample

end Kavora.Exporter
