import Kavora.Exporter.Adapters

/-!
# The metrics of a window (`benchmark/window_metrics.py`)

The counters of two snapshots give the cache hit ratio of the window between them. Each of the four
values is that of the first counter of a list that its snapshot has.

* `deriveWindowMetrics`: what is derived from two snapshots.
* `ratio_isSome_iff`: when there is a ratio.
* `evidenceQuality_eq`: the quality of the evidence by the names of the counters.
* `strict_unmixed_iff`: when strict evidence is that of one pair of counters, and the adapter judges
  the pair alike.
-/

namespace Kavora.Benchmark

open Lib.Go Lib.Go.Float64 BackendState Exporter

/-- The names under which engines report the hits. -/
def defaultPrefixHitsKeys : List String :=
  ["vllm:prefix_cache_hits_total", "vllm:prefix_cache_hits", "sglang:prefix_cache_hits_total",
    "sglang_prefix_cache_hits_total", "sglang:prefix_cache_hits", "sglang_prefix_cache_hits",
    "sglang:cached_tokens_total", "sglang_cached_tokens_total"]

/-- The names under which they report what the hits are counted against. -/
def defaultPrefixQueriesKeys : List String :=
  ["vllm:prefix_cache_queries_total", "vllm:prefix_cache_queries",
    "sglang:prefix_cache_queries_total", "sglang_prefix_cache_queries_total",
    "sglang:prefix_cache_queries", "sglang_prefix_cache_queries", "sglang:prompt_tokens_total",
    "sglang_prompt_tokens_total"]

/-- `token_fallback`. -/
def tokenFallback : List String :=
  ["sglang:cached_tokens_total", "sglang_cached_tokens_total", "sglang:prompt_tokens_total",
    "sglang_prompt_tokens_total"]

/-- A snapshot of the metrics, at one end of a window. -/
structure MetricSnapshot (F : Type) where
  /-- `none` if the value of the snapshot is not a mapping. -/
  metrics : Option (Metrics F)
  error : String

/-- What a window says of the cache. -/
structure DerivedWindowMetrics (F : Type) where
  prefixHitsDelta : Option F
  prefixQueriesDelta : Option F
  cacheHitRatioWindow : Option F
  metricsMissing : Bool
  metricsStale : Bool
  metricSource : String
  evidenceQuality : EvidenceQuality

section Model

variable {F : Type}

/-- `snapshot.get("metrics", {})`; a snapshot that is not there has no metrics. -/
def metricsOf : Option (MetricSnapshot F) → Option (Metrics F)
  | none => some ∅
  | some snapshot => snapshot.metrics

/-- `pick_metric_with_name`: the empty name stands for no metric. -/
def pickMetricWithName (metrics : Metrics F) (candidates : List String) : Option F × String :=
  match candidates.find? (· ∈ metrics) with
  | some name => (metrics.lookup name, name)
  | none => (none, "")

/-- The metric that is picked of a snapshot. -/
def pick (snapshot : Option (MetricSnapshot F)) (candidates : List String) : Option F × String :=
  match metricsOf snapshot with
  | some metrics => pickMetricWithName metrics candidates
  | none => (none, "")

/-- The snapshot was taken with an error. -/
def snapshotHasError : Option (MetricSnapshot F) → Bool
  | none => false
  | some snapshot => !snapshot.error.isEmpty

variable [Float64 F]

/-- The growth of a counter that has not been reset. -/
def computeCounterDelta : Option F → Option F → Option F
  | some before, some after => if lt after before then none else some (after - before)
  | _, _ => none

/-- `max(0.0, min(1.0, value))`, which is one for NaN. -/
def clampRatio (value : F) : F :=
  let capped := if lt value (ofInt 1) then value else ofInt 1
  if lt (ofInt 0) capped then capped else ofInt 0

/-- The ratio of the growths, where there were queries. -/
def computeHitRatioFromDeltas : Option F → Option F → Option F
  | some hits, some queries =>
    if le queries (ofInt 0) then none else some (clampRatio (hits / queries))
  | _, _ => none

/-- The value before the window: zero if the counter is new and the scrape had no error. -/
def valueBefore (before : Option (MetricSnapshot F)) (old new : Option F) : Option F :=
  if old.isNone && new.isSome && !snapshotHasError before then some (ofInt 0) else old

/-- `derive_window_metrics` with the default keys. -/
def deriveWindowMetrics (before after : Option (MetricSnapshot F)) (metricSource : String) :
    DerivedWindowMetrics F :=
  let (hitsBefore, hitsBeforeName) := pick before defaultPrefixHitsKeys
  let (hitsAfter, hitsAfterName) := pick after defaultPrefixHitsKeys
  let (queriesBefore, queriesBeforeName) := pick before defaultPrefixQueriesKeys
  let (queriesAfter, queriesAfterName) := pick after defaultPrefixQueriesKeys
  let hitsBefore := valueBefore before hitsBefore hitsAfter
  let queriesBefore := valueBefore before queriesBefore queriesAfter
  let hitsDelta := computeCounterDelta hitsBefore hitsAfter
  let queriesDelta := computeCounterDelta queriesBefore queriesAfter
  let ratio := computeHitRatioFromDeltas hitsDelta queriesDelta
  let selectedNames :=
    [hitsBeforeName, hitsAfterName, queriesBeforeName, queriesAfterName].filter (· ≠ "")
  { prefixHitsDelta := hitsDelta
    prefixQueriesDelta := queriesDelta
    cacheHitRatioWindow := ratio
    metricsMissing :=
      [hitsBefore, hitsAfter, queriesBefore, queriesAfter].any (·.isNone) || ratio.isNone
    metricsStale := false
    metricSource
    evidenceQuality :=
      if ratio.isSome ∧ selectedNames ≠ [] ∧ ∀ name ∈ selectedNames, name ∈ tokenFallback then
        .fallback
      else if ratio.isSome ∧ hitsAfterName ≠ "" ∧ queriesAfterName ≠ "" then .strict
      else .missing }

end Model

/-! ## The counters of a window -/

section

variable {F : Type}

/-- The counter of hits that a snapshot has. -/
def hitsName (snapshot : Option (MetricSnapshot F)) : String :=
  (pick snapshot defaultPrefixHitsKeys).2

/-- The counter of queries that a snapshot has. -/
def queriesName (snapshot : Option (MetricSnapshot F)) : String :=
  (pick snapshot defaultPrefixQueriesKeys).2

/-- The name of the metric that is picked is that of a candidate that is there, if any is. -/
theorem pick_name (snapshot : Option (MetricSnapshot F)) (candidates : List String)
    (hcandidates : "" ∉ candidates) :
    ((pick snapshot candidates).1 = none ∧ (pick snapshot candidates).2 = "") ∨
      ((pick snapshot candidates).1.isSome ∧ (pick snapshot candidates).2 ∈ candidates ∧
        (pick snapshot candidates).2 ≠ "") := by
  unfold pick
  split
  · rename_i metrics _
    unfold pickMetricWithName
    split
    · rename_i name hfind
      have hmem : name ∈ candidates := List.mem_of_find?_eq_some hfind
      have hthere : name ∈ metrics := by simpa using List.find?_some hfind
      refine .inr ⟨AList.lookup_isSome.mpr hthere, hmem, ?_⟩
      rintro rfl
      exact hcandidates hmem
    · exact .inl ⟨rfl, rfl⟩
  · exact .inl ⟨rfl, rfl⟩

variable [Float64 F]

/-- The delta of the counters that are picked of two snapshots: the first value is zero if there
is no counter before and no error. -/
def Counted (before after : Option (MetricSnapshot F)) (keys : List String) (delta : F) : Prop :=
  ∃ old new, (pick after keys).1 = some new ∧
    ((pick before keys).1 = some old ∨
      (pick before keys).1 = none ∧ snapshotHasError before = false ∧ old = ofInt 0) ∧
    lt new old = false ∧ delta = new - old

/-- Both deltas are there, and there were queries. -/
def Measured (before after : Option (MetricSnapshot F)) : Prop :=
  ∃ hits queries, Counted before after defaultPrefixHitsKeys hits ∧
    Counted before after defaultPrefixQueriesKeys queries ∧ le queries (ofInt 0) = false

theorem computeCounterDelta_eq_some_iff (before after : Option (MetricSnapshot F))
    (keys : List String) (delta : F) :
    computeCounterDelta (valueBefore before (pick before keys).1 (pick after keys).1)
      (pick after keys).1 = some delta ↔ Counted before after keys delta := by
  have hdelta : ∀ old new : F,
      computeCounterDelta (some old) (some new) = some delta ↔
        lt new old = false ∧ delta = new - old := by
    intro old new
    unfold computeCounterDelta
    cases hlt : lt new old with
    | true => simp [hlt]
    | false =>
      simp only [hlt, true_and]
      exact ⟨fun h => (Option.some.inj h).symm, fun h => congrArg some h.symm⟩
  unfold Counted valueBefore
  cases hafter : (pick after keys).1 with
  | none => cases (pick before keys).1 <;> simp [computeCounterDelta]
  | some new =>
    cases hbefore : (pick before keys).1 with
    | some old => simp [hdelta]
    | none =>
      cases snapshotHasError before with
      | true => simp [computeCounterDelta]
      | false => simp [hdelta]

theorem computeHitRatioFromDeltas_isSome_iff (hits queries : Option F) :
    (computeHitRatioFromDeltas hits queries).isSome ↔
      ∃ h q, hits = some h ∧ queries = some q ∧ le q (ofInt 0) = false := by
  unfold computeHitRatioFromDeltas
  split
  · rename_i h q
    cases hle : le q (ofInt 0) with
    | true => simp [hle]
    | false => simp [hle]
  · rename_i hnone
    constructor
    · exact fun h => absurd h (by simp)
    · rintro ⟨h, q, rfl, rfl, -⟩
      exact absurd rfl (hnone h q rfl)

theorem ratio_isSome_iff (before after : Option (MetricSnapshot F)) (source : String) :
    (deriveWindowMetrics before after source).cacheHitRatioWindow.isSome ↔
      Measured before after := by
  unfold deriveWindowMetrics Measured
  simp only [computeHitRatioFromDeltas_isSome_iff, computeCounterDelta_eq_some_iff]

/-- A ratio needs both counters after the window. -/
theorem Measured.names {before after : Option (MetricSnapshot F)} (h : Measured before after) :
    hitsName after ∈ defaultPrefixHitsKeys ∧ hitsName after ≠ "" ∧
      queriesName after ∈ defaultPrefixQueriesKeys ∧ queriesName after ≠ "" := by
  obtain ⟨_, _, ⟨_, _, hhits, -⟩, ⟨_, _, hqueries, -⟩, -⟩ := h
  have hhitsName := pick_name after defaultPrefixHitsKeys (by decide)
  have hqueriesName := pick_name after defaultPrefixQueriesKeys (by decide)
  rw [hhits] at hhitsName
  rw [hqueries] at hqueriesName
  rcases hhitsName with ⟨hnone, -⟩ | ⟨-, hhitsName⟩
  · cases hnone
  rcases hqueriesName with ⟨hnone, -⟩ | ⟨-, hqueriesName⟩
  · cases hnone
  exact ⟨hhitsName.1, hhitsName.2, hqueriesName.1, hqueriesName.2⟩

/-! ## The quality of the evidence -/

/-- Every counter of a window counts tokens. -/
def AllTokens (before after : Option (MetricSnapshot F)) : Prop :=
  ∀ name ∈ [hitsName before, hitsName after, queriesName before, queriesName after],
    name ≠ "" → name ∈ tokenFallback

instance (before after : Option (MetricSnapshot F)) : Decidable (AllTokens before after) :=
  inferInstanceAs (Decidable (∀ name ∈ _, name ≠ "" → name ∈ tokenFallback))

/-- The evidence of a window with a ratio is strict, unless all its counters count tokens. -/
theorem evidenceQuality_eq {before after : Option (MetricSnapshot F)}
    (h : Measured before after) (source : String) :
    (deriveWindowMetrics before after source).evidenceQuality =
      if AllTokens before after then .fallback else .strict := by
  have hratio := (ratio_isSome_iff before after source).mpr h
  obtain ⟨-, hhits, -, hqueries⟩ := h.names
  have hselected : [hitsName before, hitsName after, queriesName before,
      queriesName after].filter (· ≠ "") ≠ [] := by
    intro hnil
    have hmem : hitsName after ∈ [hitsName before, hitsName after, queriesName before,
        queriesName after].filter (· ≠ "") := by
      simp [hhits]
    rw [hnil] at hmem
    cases hmem
  have htokens : (∀ name ∈ [hitsName before, hitsName after, queriesName before,
      queriesName after].filter (· ≠ ""), name ∈ tokenFallback) ↔ AllTokens before after := by
    simp only [AllTokens, List.mem_filter, decide_eq_true_eq, and_imp]
  have hquality : (deriveWindowMetrics before after source).evidenceQuality =
      if (deriveWindowMetrics before after source).cacheHitRatioWindow.isSome ∧
          [hitsName before, hitsName after, queriesName before,
            queriesName after].filter (· ≠ "") ≠ [] ∧
          ∀ name ∈ [hitsName before, hitsName after, queriesName before,
            queriesName after].filter (· ≠ ""), name ∈ tokenFallback then .fallback
      else if (deriveWindowMetrics before after source).cacheHitRatioWindow.isSome ∧
          hitsName after ≠ "" ∧ queriesName after ≠ "" then .strict
      else .missing := rfl
  rw [hquality]
  by_cases hall : AllTokens before after
  · rw [if_pos hall, if_pos ⟨hratio, hselected, htokens.mpr hall⟩]
  · rw [if_neg hall, if_neg fun hboth => hall (htokens.mp hboth.2.2), if_pos ⟨hratio, hhits, hqueries⟩]

/-- Without a ratio there is no evidence. -/
theorem evidenceQuality_of_not_measured {before after : Option (MetricSnapshot F)}
    (h : ¬ Measured before after) (source : String) :
    (deriveWindowMetrics before after source).evidenceQuality = .missing := by
  have hratio := mt (ratio_isSome_iff before after source).mp h
  unfold deriveWindowMetrics at hratio ⊢
  simp only at hratio ⊢
  rw [if_neg fun hboth => hratio hboth.1, if_neg fun hboth => hratio hboth.1]

/-- The prefix-query counters of one backend. -/
inductive SameFamily (hits queries : String) : Prop
  | vllm (hhits : hits ∈ VllmAdapter.hitsNames) (hqueries : queries ∈ VllmAdapter.queriesNames)
  | sglang (hhits : hits ∈ SGLangAdapter.hitsNames) (hqueries : queries ∈ SGLangAdapter.queriesNames)
      (hnotTokens : hits ∉ tokenFallback ∧ queries ∉ tokenFallback)

/-- A delta is that of one counter, or that of a counter that is new after a scrape without an
error. -/
def OneCounter (before : Option (MetricSnapshot F)) (nameBefore nameAfter : String) : Prop :=
  nameBefore = nameAfter ∨ nameBefore = "" ∧ snapshotHasError before = false

/-- What the adapter makes of the names of the counters after a window. -/
def adapterQuality (after : Option (MetricSnapshot F)) : EvidenceQuality :=
  (SGLangAdapter.prefixMetricMetadata (hitsName after) (queriesName after)).evidenceQuality

/-- Strict evidence is that of one pair of prefix-query counters. The adapter holds the names after
every window to the same rule, and where the window has a ratio it judges them as the window does. -/
structure Unmixed (before after : Option (MetricSnapshot F)) (window : DerivedWindowMetrics F) :
    Prop where
  hits : window.evidenceQuality = .strict →
    OneCounter before (hitsName before) (hitsName after)
  queries : window.evidenceQuality = .strict →
    OneCounter before (queriesName before) (queriesName after)
  family : window.evidenceQuality = .strict → SameFamily (hitsName after) (queriesName after)
  tokens : (∃ name ∈ [hitsName before, hitsName after, queriesName before, queriesName after],
    name ∈ tokenFallback) → window.evidenceQuality ≠ .strict
  adapter_family : adapterQuality after = .strict → SameFamily (hitsName after) (queriesName after)
  adapter_tokens : hitsName after ∈ tokenFallback ∨ queriesName after ∈ tokenFallback →
    adapterQuality after ≠ .strict
  adapter : window.cacheHitRatioWindow.isSome → adapterQuality after = window.evidenceQuality

/-- The counters after a window are of one kind: one of them is not there, both count tokens, or
both are prefix-query counters of one backend. -/
def OneKind (after : Option (MetricSnapshot F)) : Prop :=
  (hitsName after = "" ∨ queriesName after = "") ∨
    (hitsName after ∈ tokenFallback ∧ queriesName after ∈ tokenFallback) ∨
    SameFamily (hitsName after) (queriesName after)

/-- The counters after the window are prefix-query counters of one backend, and those before it are
the same, if they are there. -/
structure SameCounters (before after : Option (MetricSnapshot F)) : Prop where
  family : SameFamily (hitsName after) (queriesName after)
  hits : hitsName before = "" ∨ hitsName before = hitsName after
  queries : queriesName before = "" ∨ queriesName before = queriesName after

theorem SameFamily.notTokens {hits queries : String} (h : SameFamily hits queries) :
    hits ∉ tokenFallback ∧ queries ∉ tokenFallback := by
  have hvllmHits : ∀ name ∈ VllmAdapter.hitsNames, name ∉ tokenFallback := by decide
  have hvllmQueries : ∀ name ∈ VllmAdapter.queriesNames, name ∉ tokenFallback := by decide
  cases h with
  | vllm hhits hqueries => exact ⟨hvllmHits _ hhits, hvllmQueries _ hqueries⟩
  | sglang _ _ hnotTokens => exact hnotTokens

omit [Float64 F] in
/-- The adapter tells tokens from queries by the pair of names alone. -/
theorem adapterQuality_eq (after : Option (MetricSnapshot F)) :
    adapterQuality after =
      if hitsName after = "" ∨ queriesName after = "" then .missing
      else if hitsName after ∈ tokenFallback ∧ queriesName after ∈ tokenFallback then .fallback
      else .strict := by
  have hhitsNames : ∀ name ∈ defaultPrefixHitsKeys,
      (name ∈ tokenFallback ↔ name ∈ ["sglang:cached_tokens_total", "sglang_cached_tokens_total"]) := by
    decide
  have hqueriesNames : ∀ name ∈ defaultPrefixQueriesKeys,
      (name ∈ tokenFallback ↔ name ∈ ["sglang:prompt_tokens_total", "sglang_prompt_tokens_total"]) := by
    decide
  unfold adapterQuality SGLangAdapter.prefixMetricMetadata
  by_cases hnone : hitsName after = "" ∨ queriesName after = ""
  · rw [if_pos hnone, if_neg (by tauto)]
    split <;> rfl
  obtain ⟨hhits, hqueries⟩ := not_or.mp hnone
  have hhitsKey : hitsName after ∈ defaultPrefixHitsKeys := by
    rcases pick_name after defaultPrefixHitsKeys (by decide) with ⟨-, h⟩ | ⟨-, h, -⟩
    · exact absurd h hhits
    · exact h
  have hqueriesKey : queriesName after ∈ defaultPrefixQueriesKeys := by
    rcases pick_name after defaultPrefixQueriesKeys (by decide) with ⟨-, h⟩ | ⟨-, h, -⟩
    · exact absurd h hqueries
    · exact h
  rw [if_neg hnone, if_pos ⟨hhits, hqueries⟩]
  simp only [hhitsNames _ hhitsKey, hqueriesNames _ hqueriesKey]
  split
  · rfl
  · rfl

omit [Float64 F] in
/-- The adapter obeys the rule for names just if they are of one kind. -/
theorem oneKind_iff (after : Option (MetricSnapshot F)) :
    OneKind after ↔
      (adapterQuality after = .strict → SameFamily (hitsName after) (queriesName after)) := by
  rw [adapterQuality_eq]
  unfold OneKind
  by_cases hnone : hitsName after = "" ∨ queriesName after = ""
  · rw [if_pos hnone]
    exact iff_of_true (.inl hnone) nofun
  rw [if_neg hnone]
  by_cases htokens : hitsName after ∈ tokenFallback ∧ queriesName after ∈ tokenFallback
  · rw [if_pos htokens]
    exact iff_of_true (.inr (.inl htokens)) nofun
  · rw [if_neg htokens]
    tauto

omit [Float64 F] in
theorem SameCounters.notTokens {before after : Option (MetricSnapshot F)}
    (h : SameCounters before after) :
    ∀ name ∈ [hitsName before, hitsName after, queriesName before, queriesName after],
      name ∉ tokenFallback := by
  obtain ⟨hhits, hqueries⟩ := h.family.notTokens
  have hempty : "" ∉ tokenFallback := by decide
  have hhitsBefore : hitsName before ∉ tokenFallback := by
    rcases h.hits with heq | heq
    · rwa [heq]
    · rwa [heq]
  have hqueriesBefore : queriesName before ∉ tokenFallback := by
    rcases h.queries with heq | heq
    · rwa [heq]
    · rwa [heq]
  simp only [List.forall_mem_cons, List.not_mem_nil, false_imp_iff, implies_true, and_true]
  exact ⟨hhitsBefore, hhits, hqueriesBefore, hqueries⟩

/-- A counter that is counted is the same before the window, or new after a scrape without an
error. -/
theorem Counted.oneCounter {before after : Option (MetricSnapshot F)} {keys : List String}
    {delta : F} (h : Counted before after keys delta) (hkeys : "" ∉ keys)
    (hname : (pick before keys).2 = "" ∨ (pick before keys).2 = (pick after keys).2) :
    OneCounter before (pick before keys).2 (pick after keys).2 := by
  rcases hname with hname | hname
  · obtain ⟨old, _, -, hold, -⟩ := h
    rcases pick_name before keys hkeys with hnone | hsome
    · rcases hold with hold | ⟨-, herror, -⟩
      · rw [hnone.1] at hold
        cases hold
      · exact .inr ⟨hname, herror⟩
    · exact absurd hname hsome.2.2
  · exact .inl hname

/-- What the window says of its counters is not mixed. -/
theorem window_unmixed_iff (before after : Option (MetricSnapshot F)) (source : String)
    (hkind : OneKind after) :
    Unmixed before after (deriveWindowMetrics before after source) ↔
      ¬ Measured before after ∨ AllTokens before after ∨ SameCounters before after := by
  have hfamily := (oneKind_iff after).mp hkind
  have htokensAfter : hitsName after ∈ tokenFallback ∨ queriesName after ∈ tokenFallback →
      adapterQuality after ≠ .strict := by
    intro htoken hstrict
    obtain ⟨hhits, hqueries⟩ := (hfamily hstrict).notTokens
    exact htoken.elim hhits hqueries
  by_cases hmeasured : Measured before after
  · have hquality := evidenceQuality_eq hmeasured source
    obtain ⟨-, hhits, -, hqueries⟩ := hmeasured.names
    have hnames : ¬ (hitsName after = "" ∨ queriesName after = "") := not_or.mpr ⟨hhits, hqueries⟩
    have hadapter := adapterQuality_eq after
    rw [if_neg hnames] at hadapter
    by_cases htokens : AllTokens before after
    · -- Nothing is promised of a fallback but that the adapter judges the names alike.
      rw [if_pos htokens] at hquality
      rw [if_pos ⟨htokens _ (by simp) hhits, htokens _ (by simp) hqueries⟩] at hadapter
      refine iff_of_true ?_ (.inr (.inl htokens))
      constructor
      case adapter => exact fun _ => hadapter.trans hquality.symm
      case adapter_family => exact hfamily
      case adapter_tokens => exact htokensAfter
      all_goals rw [hquality]
      all_goals nofun
    · rw [if_neg htokens] at hquality
      constructor
      · intro h
        refine .inr (.inr ⟨h.family hquality, ?_, ?_⟩)
        · exact (h.hits hquality).symm.imp_left And.left
        · exact (h.queries hquality).symm.imp_left And.left
      · rintro (hnot | hall | h)
        · exact absurd hmeasured hnot
        · exact absurd hall htokens
        · obtain ⟨_, _, hhitsCounted, hqueriesCounted, -⟩ := hmeasured
          rw [if_neg fun hboth => h.family.notTokens.1 hboth.1] at hadapter
          exact {
            hits _ := hhitsCounted.oneCounter (by decide) h.hits
            queries _ := hqueriesCounted.oneCounter (by decide) h.queries
            family _ := h.family
            tokens := fun ⟨name, hname, htoken⟩ => absurd htoken (h.notTokens name hname)
            adapter_family := hfamily
            adapter_tokens := htokensAfter
            adapter _ := hadapter.trans hquality.symm }
  · have hquality := evidenceQuality_of_not_measured hmeasured source
    refine iff_of_true ?_ (.inl hmeasured)
    constructor
    case adapter => exact fun hratio => absurd ((ratio_isSome_iff before after source).mp hratio) hmeasured
    case adapter_family => exact hfamily
    case adapter_tokens => exact htokensAfter
    all_goals rw [hquality]
    all_goals nofun

/-- **Strict evidence is not mixed** if and only if the counters after the window are of one kind,
and the window has no ratio, or every counter counts tokens, or both sides have the same
prefix-query counters of one backend. The adapter gives the very quality of the window just if there
is a ratio, and no counter before it keeps two token counters after it from being a fallback, or
there is none for want of a counter after it. -/
theorem strict_unmixed_iff (before after : Option (MetricSnapshot F)) (source : String) :
    (Unmixed before after (deriveWindowMetrics before after source) ↔
        OneKind after ∧
          (¬ Measured before after ∨ AllTokens before after ∨ SameCounters before after)) ∧
      (adapterQuality after = (deriveWindowMetrics before after source).evidenceQuality ↔
        (Measured before after ∧ (AllTokens before after ∨
            ¬ (hitsName after ∈ tokenFallback ∧ queriesName after ∈ tokenFallback))) ∨
          (¬ Measured before after ∧ (hitsName after = "" ∨ queriesName after = ""))) := by
  refine ⟨⟨fun h => ?_, fun ⟨hkind, h⟩ => (window_unmixed_iff before after source hkind).mpr h⟩, ?_⟩
  · have hkind := (oneKind_iff after).mpr h.adapter_family
    exact ⟨hkind, (window_unmixed_iff before after source hkind).mp h⟩
  rw [adapterQuality_eq]
  by_cases hmeasured : Measured before after
  · rw [evidenceQuality_eq hmeasured]
    obtain ⟨-, hhits, -, hqueries⟩ := hmeasured.names
    rw [if_neg (not_or.mpr ⟨hhits, hqueries⟩)]
    have hafter (hall : AllTokens before after) :
        hitsName after ∈ tokenFallback ∧ queriesName after ∈ tokenFallback :=
      ⟨hall _ (by simp) hhits, hall _ (by simp) hqueries⟩
    split <;> split <;> simp_all
  · rw [evidenceQuality_of_not_measured hmeasured]
    split
    · simp_all
    · split <;> simp_all

end

namespace WindowSample

local instance : Float64 Rat := .rational fun _ => 1

/-- SGLang counts its prefix hits and its prompt tokens. -/
def snapshot (hits tokens : Rat) : Option (MetricSnapshot Rat) :=
  some
    { metrics := some (((∅ : Metrics Rat).insert "sglang:prefix_cache_hits_total" hits).insert
        "sglang:prompt_tokens_total" tokens)
      error := "" }

def window : DerivedWindowMetrics Rat :=
  deriveWindowMetrics (snapshot 100 1000) (snapshot 180 2000) "backend"

/-- The hits over the tokens are strict evidence, for the window and for the adapter. -/
theorem strict_of_tokens :
    ¬ Unmixed (snapshot 100 1000) (snapshot 180 2000) window ∧
      adapterQuality (snapshot 180 2000) = .strict := by
  have hstrict : window.evidenceQuality = .strict := by decide +kernel
  have hname : queriesName (snapshot 180 2000) = "sglang:prompt_tokens_total" := by decide +kernel
  refine ⟨fun h => ?_, by decide +kernel⟩
  refine h.tokens ⟨queriesName (snapshot 180 2000), by simp, ?_⟩ hstrict
  rw [hname]
  decide

end WindowSample

end Kavora.Benchmark
