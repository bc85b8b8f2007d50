import Kavora.Lib.Go
import Kavora.Router.BackendState

/-!
# Scrapes of the exporter (`exporter/adapters/vllm.py` and `exporter/adapters/sglang.py`)

An adapter turns the metrics that a backend reported into a `NativeSnapshot`. A metric that is not
there counts as `0.0`, apart from the two queue metrics.
-/

namespace Kavora.Exporter

open Lib.Go Lib.Go.Float64 BackendState

/-- The values of one scrape by the names of their metrics. -/
abbrev Metrics (F : Type) := Map String F

/-- The metrics of an engine under common names. -/
structure NativeSnapshot (F : Type) where
  backend : String
  model : String
  instanceName : String
  modelGroup : String
  totalBlocks : F
  usagePerc : F
  activeBlocks : F
  reusableCachedBlocks : F
  freeUncachedBlocks : F
  duplicateCachedBlocks : F
  prefixHits : F
  prefixQueries : F
  prefixHitsMetricName : String
  prefixQueriesMetricName : String
  prefixMetricSemantics : String
  prefixMetricComparability : String
  prefixMetricBasis : String
  prefixEvidenceQuality : EvidenceQuality
  blockEvidenceQuality : EvidenceQuality
  queueDepth : Option F
  runningRequests : Option F

variable {F : Type}

/-! ## Picking a metric -/

/-- `_pick_metric_optional`: the first of some metrics that is there. -/
def pickMetricOptional (m : Metrics F) (names : List String) : Option F := names.findSome? m.lookup

/-- `_pick_metric` with the default `0.0`. -/
def pickMetric [Float64 F] (m : Metrics F) (names : List String) : F :=
  (pickMetricOptional m names).getD (ofInt 0)

/-- `_pick_metric_with_name`: the empty name stands for no metric. -/
def pickMetricWithName [Float64 F] (m : Metrics F) (names : List String) : F × String :=
  match names.find? (· ∈ m) with
  | some name => (m.index name (ofInt 0), name)
  | none => (ofInt 0, "")

/-- One of some metrics is there. -/
def Reported (m : Metrics F) (names : List String) : Prop := ∃ name ∈ names, name ∈ m

instance (m : Metrics F) (names : List String) : Decidable (Reported m names) :=
  inferInstanceAs (Decidable (∃ name ∈ names, name ∈ m))

theorem Reported.append_left {m : Metrics F} {names names' : List String} (h : Reported m names) :
    Reported m (names ++ names') := by
  obtain ⟨name, hname, hmem⟩ := h
  exact ⟨name, List.mem_append_left _ hname, hmem⟩

/-- An optional pick has a value just if one of the metrics is there. -/
theorem reported_of_pickMetricOptional {m : Metrics F} {names : List String} {value : F}
    (h : pickMetricOptional m names = some value) : Reported m names := by
  obtain ⟨name, hname, hvalue⟩ := List.exists_of_findSome?_eq_some h
  refine ⟨name, hname, ?_⟩
  rw [← AList.lookup_isSome, hvalue]
  rfl

/-- A pick with a name has the default where no metric is there. -/
theorem pickMetricWithName_of_not_reported [Float64 F] {m : Metrics F} {names : List String}
    (h : ¬ Reported m names) : pickMetricWithName m names = (ofInt 0, "") := by
  have hnone : names.find? (· ∈ m) = none := by
    refine List.find?_eq_none.mpr fun name hname hmem => h ⟨name, hname, ?_⟩
    simpa using hmem
  simp only [pickMetricWithName, hnone]

/-! ## vLLM -/

/-- What the names of the two prefix metrics say about them. -/
structure PrefixMetadata where
  semantics : String
  comparability : String
  basis : String
  evidenceQuality : EvidenceQuality

/-- The adapter of vLLM, with its labels. -/
structure VllmAdapter where
  modelName : String
  instanceName : String
  modelGroup : String

namespace VllmAdapter

/-- `_prefix_metric_metadata`. -/
def prefixMetricMetadata (hitsMetricName queriesMetricName : String) : PrefixMetadata :=
  if hitsMetricName ≠ "" ∧ queriesMetricName ≠ "" then
    { semantics := "prefix_query_counters", comparability := "strict", basis := "queries"
      evidenceQuality := .strict }
  else if hitsMetricName ≠ "" ∨ queriesMetricName ≠ "" then
    { semantics := "partial", comparability := "missing", basis := "mixed"
      evidenceQuality := .missing }
  else
    { semantics := "missing", comparability := "missing", basis := "missing"
      evidenceQuality := .missing }

/-- The counters of hits, the preferred one first. -/
def hitsNames : List String := ["vllm:prefix_cache_hits_total", "vllm:prefix_cache_hits"]

/-- The counters of queries. -/
def queriesNames : List String := ["vllm:prefix_cache_queries_total", "vllm:prefix_cache_queries"]

/-- The gauges of the blocks. -/
def blockMetricNames : List String :=
  ["vllm_obs:kv_total_blocks", "vllm_obs:kv_active_blocks", "vllm_obs:kv_reusable_cached_blocks",
    "vllm_obs:kv_free_uncached_blocks"]

/-- `collect`: the snapshot of a scrape. -/
def collect [Float64 F] (self : VllmAdapter) (m : Metrics F) : NativeSnapshot F :=
  let hits := pickMetricWithName m hitsNames
  let queries := pickMetricWithName m queriesNames
  let metadata := prefixMetricMetadata hits.2 queries.2
  { backend := "vllm"
    model := self.modelName
    instanceName := self.instanceName
    modelGroup := self.modelGroup
    totalBlocks := pickMetric m ["vllm_obs:kv_total_blocks"]
    usagePerc := pickMetric m ["vllm:kv_cache_usage_perc"]
    activeBlocks := pickMetric m ["vllm_obs:kv_active_blocks"]
    reusableCachedBlocks := pickMetric m ["vllm_obs:kv_reusable_cached_blocks"]
    freeUncachedBlocks := pickMetric m ["vllm_obs:kv_free_uncached_blocks"]
    duplicateCachedBlocks := pickMetric m ["vllm_obs:kv_duplicate_cached_blocks"]
    prefixHits := hits.1
    prefixQueries := queries.1
    prefixHitsMetricName := hits.2
    prefixQueriesMetricName := queries.2
    prefixMetricSemantics := metadata.semantics
    prefixMetricComparability := metadata.comparability
    prefixMetricBasis := metadata.basis
    prefixEvidenceQuality := metadata.evidenceQuality
    blockEvidenceQuality :=
      if ∀ name ∈ blockMetricNames, name ∈ m then .strict
      else if "vllm:kv_cache_usage_perc" ∈ m then .estimated
      else .missing
    queueDepth := pickMetricOptional m ["vllm:num_requests_waiting"]
    runningRequests := pickMetricOptional m ["vllm:num_requests_running"] }

end VllmAdapter

/-! ## SGLang -/

/-- The adapter of SGLang, with its labels. -/
structure SGLangAdapter where
  modelName : String
  instanceName : String
  modelGroup : String
  /-- At least one, as the constructor makes it. -/
  tokensPerBlock : Nat
  tokensPerBlock_pos : 0 < tokensPerBlock
  /-- The order in which `list` puts the names of a set. -/
  order : List String → List String
  order_perm : ∀ names, (order names).Perm names

namespace SGLangAdapter

/-- `_prefix_metric_metadata`, which knows the token counters. -/
def prefixMetricMetadata (hitsMetricName queriesMetricName : String) : PrefixMetadata :=
  if hitsMetricName ≠ "" ∧ queriesMetricName ≠ "" then
    if hitsMetricName ∈ ["sglang:cached_tokens_total", "sglang_cached_tokens_total"] ∧
        queriesMetricName ∈ ["sglang:prompt_tokens_total", "sglang_prompt_tokens_total"] then
      { semantics := "token_counter_fallback", comparability := "directional", basis := "tokens"
        evidenceQuality := .fallback }
    else
      { semantics := "prefix_query_counters", comparability := "strict", basis := "queries"
        evidenceQuality := .strict }
  else if hitsMetricName ≠ "" ∨ queriesMetricName ≠ "" then
    { semantics := "partial", comparability := "missing", basis := "mixed"
      evidenceQuality := .missing }
  else
    { semantics := "missing", comparability := "missing", basis := "missing"
      evidenceQuality := .missing }

/-- The gauges of all blocks, under either prefix. -/
def totalBlockNames : List String := ["sglang:kv_total_blocks", "sglang_kv_total_blocks"]

/-- The gauges of the blocks in use. -/
def activeBlockNames : List String := ["sglang_obs:kv_active_blocks", "sglang_kv_active_blocks"]

/-- The gauges of the cached blocks that can be reused. -/
def reusableBlockNames : List String :=
  ["sglang_obs:kv_reusable_cached_blocks", "sglang_kv_reusable_cached_blocks"]

/-- The gauges of the free blocks that hold nothing. -/
def freeBlockNames : List String :=
  ["sglang_obs:kv_free_uncached_blocks", "sglang_kv_free_uncached_blocks"]

/-- The gauges of the blocks that are cached twice. -/
def duplicateBlockNames : List String :=
  ["sglang_obs:kv_duplicate_cached_blocks", "sglang_kv_duplicate_cached_blocks"]

/-- The gauges of all tokens. -/
def totalTokenNames : List String := ["sglang:max_total_num_tokens", "sglang_max_total_num_tokens"]

/-- The gauges of the tokens in use. -/
def usedTokenNames : List String := ["sglang:num_used_tokens", "sglang_num_used_tokens"]

/-- The gauges of the usage. -/
def usageNames : List String :=
  ["sglang:kv_cache_usage_perc", "sglang_kv_cache_usage_perc", "sglang:token_usage",
    "sglang_token_usage"]

/-- The counters of hits; the last two count tokens. -/
def hitsNames : List String :=
  ["sglang:prefix_cache_hits_total", "sglang_prefix_cache_hits_total", "sglang:prefix_cache_hits",
    "sglang_prefix_cache_hits", "sglang:cached_tokens_total", "sglang_cached_tokens_total"]

/-- The counters of queries; the last two count tokens. -/
def queriesNames : List String :=
  ["sglang:prefix_cache_queries_total", "sglang_prefix_cache_queries_total",
    "sglang:prefix_cache_queries", "sglang_prefix_cache_queries", "sglang:prompt_tokens_total",
    "sglang_prompt_tokens_total"]

/-- The gauges of the waiting requests. -/
def queueNames : List String :=
  ["sglang:num_queue_reqs", "sglang_num_queue_reqs", "sglang:num_requests_waiting"]

/-- The gauges of the running requests. -/
def runningNames : List String :=
  ["sglang:num_running_reqs", "sglang_num_running_reqs", "sglang:num_requests_running"]

/-- A number of tokens as blocks. -/
def tokensToBlocks [Float64 F] (self : SGLangAdapter) (value : F) : F := value / ofInt self.tokensPerBlock

/-- A count of blocks, or of the blocks that hold some tokens where the count is zero. -/
def blocksOrTokens [Float64 F] (self : SGLangAdapter) (m : Metrics F)
    (blockNames tokenNames : List String) : F :=
  let blocks := pickMetric m blockNames
  if eq blocks (ofInt 0) then
    let tokens := pickMetric m tokenNames
    if lt (ofInt 0) tokens then self.tokensToBlocks tokens else blocks
  else blocks

/-- `collect`: the snapshot of a scrape. -/
def collect [Float64 F] (self : SGLangAdapter) (m : Metrics F) : NativeSnapshot F :=
  let totalBlocks := self.blocksOrTokens m (self.order totalBlockNames) totalTokenNames
  let usagePerc := pickMetric m usageNames
  let activeBlocks := self.blocksOrTokens m (self.order activeBlockNames) usedTokenNames
  let freeUncachedBlocks :=
    let free := pickMetric m freeBlockNames
    if eq free (ofInt 0) ∧ lt (ofInt 0) totalBlocks ∧ lt (ofInt 0) activeBlocks then
      -- `max(0.0, total_blocks - active_blocks)`
      if lt (ofInt 0) (totalBlocks - activeBlocks) then totalBlocks - activeBlocks else ofInt 0
    else free
  let hits := pickMetricWithName m hitsNames
  let queries := pickMetricWithName m queriesNames
  let metadata := prefixMetricMetadata hits.2 queries.2
  { backend := "sglang"
    model := self.modelName
    instanceName := self.instanceName
    modelGroup := self.modelGroup
    totalBlocks
    usagePerc
    activeBlocks
    reusableCachedBlocks := pickMetric m reusableBlockNames
    freeUncachedBlocks
    duplicateCachedBlocks := pickMetric m duplicateBlockNames
    prefixHits := hits.1
    prefixQueries := queries.1
    prefixHitsMetricName := hits.2
    prefixQueriesMetricName := queries.2
    prefixMetricSemantics := metadata.semantics
    prefixMetricComparability := metadata.comparability
    prefixMetricBasis := metadata.basis
    prefixEvidenceQuality := metadata.evidenceQuality
    blockEvidenceQuality :=
      if Reported m totalBlockNames ∧ Reported m activeBlockNames ∧
          Reported m reusableBlockNames ∧ Reported m freeBlockNames then .strict
      else if lt (ofInt 0) totalBlocks ∨ lt (ofInt 0) usagePerc then .estimated
      -- tokens were reported, but rounding left no blocks
      else if eq (pickMetric m (self.order totalBlockNames)) (ofInt 0) ∧
          lt (ofInt 0) (pickMetric m totalTokenNames) then .estimated
      else .missing
    queueDepth := pickMetricOptional m queueNames
    runningRequests := pickMetricOptional m runningNames }

end SGLangAdapter

end Kavora.Exporter
