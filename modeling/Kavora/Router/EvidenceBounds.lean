import Kavora.Lib.GoFloat
import Kavora.Lib.System
import Kavora.Router.AffinityReference
import Kavora.Router.CacheMatch

/-!
# The bounds of cache evidence

A provider is configured, then takes the events that the `cache-events` handler of `handler.go`
admits, writes to the affinity tables, and matches, in any order (`cacheRuns`).

* `InBounds`: what the plan relies on in a piece of evidence.
* `CacheState.Countable`: the token count of the evidence neither wraps around nor is rounded up.
* `CacheState.Weighable`: the confidence of the evidence is not NaN.
* `evidence_inBounds_iff`: the evidence for a request is in bounds on every backend just if both
  hold.
-/

namespace Kavora.Router

open Lib BackendState
open Lib.Go (Float64 Time Duration Map wrap64)
open Lib.Go.Float64 (ofInt le lt isNaN IsFinite Bounding)

/-! ## The handler -/

namespace KVEvent

/-- What the handler for `/v1/admin/cache-events` rejects. -/
def Rejected (event : KVEvent) : Prop :=
  event.backendID = "" ∨ (event.effectiveOperation ≠ .clear ∧ event.cacheKey = "") ∨
    (event.effectiveOperation ≠ .store ∧ event.effectiveOperation ≠ .remove ∧
      event.effectiveOperation ≠ .clear) ∨
    event.matchedTokens < 0 ∨ event.totalTokens < 0 ∨
    (0 < event.totalTokens ∧ event.totalTokens < event.matchedTokens)

/-- The counts of a decoded event are of type `int`. -/
def Decoded (event : KVEvent) : Prop :=
  (-2 ^ 63 ≤ event.matchedTokens ∧ event.matchedTokens < 2 ^ 63) ∧
    -2 ^ 63 ≤ event.totalTokens ∧ event.totalTokens < 2 ^ 63

instance (event : KVEvent) : Decidable event.Rejected := inferInstanceAs (Decidable (_ ∨ _))

instance (event : KVEvent) : Decidable event.Decoded := inferInstanceAs (Decidable (_ ∧ _))

end KVEvent

/-! ## Providers and their runs -/

section Runs

variable {F : Type} [Float64 F]

/-- `NewAffinityProvider`. -/
def AffinityProvider.new (affinity : AffinityTable) (confidence : F) : AffinityProvider F where
  affinity := affinity
  confidence := clamp01 confidence

/-- `NewShadowIndexProvider`. -/
def ShadowIndexProvider.new (confidence : F) (maxAge : Duration) : ShadowIndexProvider F where
  confidence := clamp01 confidence
  maxAge := maxAge

/-- A nil pointer, or what a constructor returns. -/
inductive Configured : CacheStateProvider F → Prop
  | noCache : Configured .noCache
  | noAffinity : Configured (.affinity none)
  | shared (confidence : F) : Configured (.affinity (some (.new .shared confidence)))
  | ownNone (confidence : F) : Configured (.affinity (some (.new (.own none) confidence)))
  | own (confidence : F) (max : Int) (ttl : Duration) :
    Configured (.affinity (some (.new (.own (some (.new max ttl))) confidence)))
  | noShadow : Configured (.shadowIndex none)
  | shadow (confidence : F) (maxAge : Duration) :
    Configured (.shadowIndex (some (.new confidence maxAge)))
  | noEvents : Configured (.kvEvents none)
  | events (max : Int) (ttl : Duration) (lambda : F) :
    Configured (.kvEvents (some (.new max ttl lambda)))

namespace CacheState

/-- `ObserveKVEvent`. -/
def observe (s : CacheState F) (now : Time) (event : KVEvent) : CacheState F :=
  match s.provider with
  | .kvEvents (some provider) =>
    { s with provider := .kvEvents (some (provider.observe now event)) }
  | _ => s

/-- The table that an affinity provider reads. -/
def table (s : CacheState F) : Option Affinity :=
  match s.provider with
  | .affinity (some { affinity := .own table, .. }) => table
  | _ => s.affinity

/-- An operation on the table of the controller. -/
def updateShared (s : CacheState F) (op : AffinityOp) : CacheState F :=
  { s with affinity := s.affinity.map (·.apply op) }

/-- An operation on the table of the provider, if it has one of its own. -/
def updateOwn (s : CacheState F) (op : AffinityOp) : CacheState F :=
  match s.provider with
  | .affinity (some { affinity := .own table, confidence }) =>
    { s with
      provider := .affinity (some { affinity := .own (table.map (·.apply op)), confidence }) }
  | _ => s

end CacheState

/-- A `Put` of the table. -/
structure AffinityPut where
  tenant : String
  key : String
  backend : String
  now : Time

/-- The `Put` of an operation, if it is one. -/
def AffinityOp.puts : AffinityOp → List AffinityPut
  | .put tenant key backend now => [{ tenant, key, backend, now }]
  | _ => []

/-- The state of the cache, and what has been put into the tables so far. -/
structure CacheHistory (F : Type) where
  cache : CacheState F
  puts : List AffinityPut

/-- The operations of the provider and its tables. -/
inductive CacheOp (F : Type) where
  | observe (now : Time) (event : KVEvent)
  | query (now : Time) (request : CacheMatchRequest) (backend : CacheBackend F)
  | shared (op : AffinityOp)
  | own (op : AffinityOp)

/-- The handler admits the event of an operation. -/
def CacheOp.Admitted : CacheOp F → Prop
  | .observe _ event => ¬ event.Rejected ∧ event.Decoded
  | _ => True

/-- The history after an operation. -/
def CacheHistory.apply (s : CacheHistory F) : CacheOp F → CacheHistory F
  | .observe now event => { s with cache := s.cache.observe now event }
  | .query now request backend => { s with cache := (s.cache.matchCache now request backend).2 }
  | .shared op => { cache := s.cache.updateShared op, puts := op.puts ++ s.puts }
  | .own op => { cache := s.cache.updateOwn op, puts := op.puts ++ s.puts }

/-- A configured provider, with a controller that has an empty table or none. -/
def cacheRuns : System (CacheHistory F) (CacheOp F) where
  init s := Configured s.cache.provider ∧ s.puts = [] ∧
    (s.cache.affinity = none ∨ ∃ max ttl, s.cache.affinity = some (.new max ttl))
  step s op s' := op.Admitted ∧ s' = s.apply op

/-! ## Bounds -/

/-- A number in `[0, 1]`. -/
def InUnit (x : F) : Prop := le (ofInt 0) x = true ∧ le x (ofInt 1) = true

/-- What a plan relies on in the evidence for a request; `recent` says that it is not too old. -/
structure InBounds (promptTokens : Int) (recent : Prop) (evidence : CacheEvidence F) : Prop where
  matched_nonneg : 0 ≤ evidence.matchedTokens
  matched_le : 0 < promptTokens → evidence.matchedTokens ≤ promptTokens
  ratio : InUnit evidence.matchRatio
  confidence : InUnit evidence.confidence
  fresh : lt (ofInt 0) evidence.confidence = true → evidence.quality = .fresh ∧ recent

/-- The events that a match counts. -/
def KVEventProvider.counted (p : KVEventProvider F) (now : Time) (request : CacheMatchRequest)
    (backendID : String) : List KVEvent :=
  if request.externalCacheKeys ≠ [] then
    (KVEventProvider.usablePrefix p.ttl now (p.held backendID)
      request.externalCacheKeys).filterMap (p.held backendID)
  else (p.held backendID request.cacheKey).toList

/-- What the evidence of a match comes from is no older than the provider allows. A shadow index
without a maximal age allows any. -/
def CacheHistory.Recent (s : CacheHistory F) (now : Time) (request : CacheMatchRequest)
    (backend : CacheBackend F) : Prop :=
  match s.cache.provider with
  | .noCache => False
  | .affinity _ => ∃ table put, s.cache.table = some table ∧ put ∈ s.puts ∧
      Affinity.composite put.tenant put.key =
        Affinity.composite request.tenantID request.cacheKey ∧
      put.backend = backend.id ∧ now < put.now.add table.ttl
  | .shadowIndex none => False
  | .shadowIndex (some provider) => ∃ signal,
      backend.state.signals.lookup "effective_residency_perc" = some signal ∧
      (0 < provider.maxAge →
        now.sub (Time.unixMilli signal.observedAtUnixMillis) ≤ provider.maxAge)
  | .kvEvents none => False
  | .kvEvents (some provider) =>
    ∀ event ∈ provider.counted now request backend.id, now.sub event.observedAt ≤ provider.ttl

/-- The tokens of the keys that a match of many keys counts. -/
def KVEventProvider.prefixTokens (p : KVEventProvider F) (now : Time)
    (request : CacheMatchRequest) (backendID : String) : Int :=
  ((KVEventProvider.usablePrefix p.ttl now (p.held backendID) request.externalCacheKeys).map
    (KVEventProvider.heldTokens (p.held backendID))).sum

/-- The sum of the tokens of a match of many keys does not wrap around to a negative number, and
the number of prompt tokens is not rounded up on its way through a `float64`. -/
def CacheState.Countable (s : CacheState F) (now : Time) (request : CacheMatchRequest) : Prop :=
  match s.provider with
  | .kvEvents (some provider) => request.externalCacheKeys ≠ [] →
      ∀ backendID, provider.prefixTokens now request backendID % 2 ^ 64 < 2 ^ 63
  | .shadowIndex (some _) => 0 < request.promptTokens →
      0 ≤ Float64.round (ofInt request.promptTokens : F) ∧
        Float64.round (ofInt request.promptTokens : F) ≤ request.promptTokens
  | _ => True

/-- The confidence that `lambda` leaves at an age is a number: an infinite one needs some age. -/
def Decays (lambda : F) (age : Duration) : Prop :=
  isNaN lambda = false ∧ (IsFinite lambda ∨ age ≠ 0)

/-- What a match reports with a confidence is of an age at which that is a number. -/
def KVEventProvider.Weighable (p : KVEventProvider F) (now : Time) (request : CacheMatchRequest)
    (backendID : String) : Prop :=
  if request.externalCacheKeys ≠ [] then
    p.prefixTokens now request backendID % 2 ^ 64 ≠ 0 →
      Decays p.lambda (ageAt now (latestOf (p.held backendID)
        (usablePrefix p.ttl now (p.held backendID) request.externalCacheKeys) Time.zero))
  else
    request.cacheKey ≠ "" → ∀ event, p.held backendID request.cacheKey = some event →
      event.quality = .fresh → ageAt now event.observedAt ≤ p.ttl →
      Decays p.lambda (ageAt now event.observedAt)

/-- The confidence that a provider reports for a request is a number. Where the configured one is
not, an affinity provider may still map the request to no backend. -/
def CacheState.Weighable (s : CacheState F) (now : Time) (request : CacheMatchRequest) : Prop :=
  match s.provider with
  | .affinity (some provider) => isNaN provider.confidence = true → request.cacheKey ≠ "" →
      ∀ table, s.table = some table → (table.get request.tenantID request.cacheKey now).1 = none
  | .shadowIndex (some provider) => isNaN provider.confidence = false
  | .kvEvents (some provider) => ∀ backendID, provider.Weighable now request backendID
  | _ => True

/-- The values of the signals, which are read from JSON, are not NaN. -/
def CacheBackend.Numeric (backend : CacheBackend F) : Prop :=
  ∀ name signal, backend.state.signals.lookup name = some signal → isNaN signal.value = false

end Runs

/-! ## Numbers -/

section Numbers

variable {F : Type} [Float64 F] [Bounding F]

omit [Bounding F] in
theorem le_of_not_lt [Float64.Lawful F] {a b : F} (ha : isNaN a = false) (hb : isNaN b = false)
    (h : lt b a = false) : le a b = true := by
  by_contra hnot
  have hlt := Float64.Lawful.lt_of_not_le ha hb (Bool.eq_false_of_not_eq_true hnot)
  rw [h] at hlt
  cases hlt

theorem inUnit_zero : InUnit (ofInt 0 : F) := by
  have hzero : isNaN (ofInt 0 : F) = false := Float64.Lawful.ofInt_not_nan 0
  refine ⟨le_of_not_lt hzero hzero (Float64.Irrefl.lt_irrefl _), ?_⟩
  unfold le
  rw [Bounding.zero_lt_one]
  rfl

theorem inUnit_one : InUnit (ofInt 1 : F) := by
  refine ⟨?_, Float64.one_le_one⟩
  unfold le
  rw [Bounding.zero_lt_one]
  rfl

theorem InUnit.not_nan {x : F} (h : InUnit x) : isNaN x = false := by
  by_contra hnan
  have hnan : isNaN x = true := Bool.eq_true_of_not_eq_false hnan
  have hle := h.2
  unfold le at hle
  rw [Bounding.nan_lt hnan, Bounding.nan_eq hnan] at hle
  cases hle

theorem clamp01_nan {x : F} (hx : isNaN x = true) : clamp01 x = x := by
  unfold clamp01
  rw [Bounding.nan_lt hx, Float64.Lawful.not_lt_nan hx]
  rfl

/-- A clamped number is in the unit interval, unless it is NaN. -/
theorem clamp01_inUnit_iff {x : F} : InUnit (clamp01 x) ↔ isNaN x = false := by
  refine ⟨fun h => ?_, fun hx => ?_⟩
  · by_contra hnan
    have hnan : isNaN x = true := Bool.eq_true_of_not_eq_false hnan
    rw [clamp01_nan hnan] at h
    rw [h.not_nan] at hnan
    cases hnan
  unfold clamp01
  split
  · exact inUnit_zero
  · rename_i hlow
    split
    · exact inUnit_one
    · rename_i hhigh
      exact ⟨le_of_not_lt (Float64.Lawful.ofInt_not_nan 0) hx (Bool.eq_false_of_not_eq_true hlow),
        le_of_not_lt hx (Float64.Lawful.ofInt_not_nan 1) (Bool.eq_false_of_not_eq_true hhigh)⟩

theorem clamp01_one : clamp01 (ofInt 1 : F) = ofInt 1 := by
  unfold clamp01
  rw [Float64.lt_asymm Bounding.zero_lt_one, Float64.Irrefl.lt_irrefl]
  rfl

theorem ratioOf_inUnit (matched : Int) {total : Int} (htotal : 0 < total) :
    InUnit (ratioOf matched total : F) :=
  clamp01_inUnit_iff.mpr (Bounding.quot_not_nan htotal)

theorem maxInt_of_nonneg {n : Int} (h : 0 ≤ n) : maxInt n 0 = n := by
  unfold maxInt
  split <;> omega

theorem confidenceForAge_inUnit_iff {age : Duration} (hage : 0 ≤ age) {lambda : F} :
    InUnit (confidenceForAge age lambda) ↔ Decays lambda age := by
  unfold confidenceForAge
  rw [maxInt_of_nonneg hage, clamp01_inUnit_iff, ← Bool.not_eq_true, Bounding.exp_nan_iff hage]
  unfold Decays
  rw [not_or, not_and_or, not_not, Bool.not_eq_true]

/-! ## Evidence -/

theorem missing_inBounds (promptTokens : Int) (recent : Prop) (source : CacheSource) :
    InBounds promptTokens recent (missingCacheEvidence source : CacheEvidence F) where
  matched_nonneg := le_refl 0
  matched_le hpos := hpos.le
  ratio := inUnit_zero
  confidence := inUnit_zero
  fresh hpos := by
    rw [show (missingCacheEvidence source : CacheEvidence F).confidence = ofInt 0 from rfl,
      Float64.Irrefl.lt_irrefl] at hpos
    cases hpos

theorem maxInt_nonneg (n : Int) : 0 ≤ maxInt n 0 := by
  unfold maxInt
  split <;> omega

theorem le_maxInt (n : Int) : n ≤ maxInt n 0 := by
  unfold maxInt
  split <;> omega

/-- The evidence of an affinity table is in bounds on every backend, unless it maps the request to
one and the confidence is not a number. -/
theorem affinity_inBounds_iff {confidence : F}
    (hconfidence : isNaN confidence = false → InUnit confidence) {table : Option Affinity}
    {now : Time} {request : CacheMatchRequest} {recent : String → Prop}
    (hrecent : ∀ a backendID, table = some a →
      (a.get request.tenantID request.cacheKey now).1 = some backendID → recent backendID) :
    (∀ backendID, InBounds request.promptTokens (recent backendID)
        (affinityEvidence confidence table now request backendID).1) ↔
      (isNaN confidence = true → request.cacheKey ≠ "" → ∀ a, table = some a →
        (a.get request.tenantID request.cacheKey now).1 = none) := by
  unfold affinityEvidence
  cases table with
  | none => exact iff_of_true (fun _ => missing_inBounds _ _ _) fun _ _ _ h => by cases h
  | some a =>
    dsimp only
    by_cases hkey : request.cacheKey = ""
    · simp only [if_pos hkey]
      exact iff_of_true (fun _ => missing_inBounds _ _ _) fun _ hne => absurd hkey hne
    simp only [if_neg hkey]
    constructor
    · intro h hnan _ _ ha
      cases ha
      cases hget : (a.get request.tenantID request.cacheKey now).1 with
      | none => rfl
      | some backendID =>
        have hbounds := h backendID
        rw [if_pos hget] at hbounds
        rw [hbounds.confidence.not_nan] at hnan
        cases hnan
    · intro h backendID
      split
      · rename_i hmapped
        refine ⟨maxInt_nonneg _, fun hpos => (maxInt_of_nonneg hpos.le).le, inUnit_one,
          hconfidence (Bool.eq_false_of_not_eq_true fun hnan => ?_),
          fun _ => ⟨rfl, hrecent a backendID rfl hmapped⟩⟩
        rw [h hnan hkey a rfl] at hmapped
        cases hmapped
      · exact missing_inBounds _ _ _

namespace KVEventProvider

variable {p : KVEventProvider F}

/-- The evidence of one entry is in bounds if its confidence is a number. -/
theorem entry_inBounds_iff (now : Time) (request : CacheMatchRequest) (event : KVEvent)
    {recent : Prop} (hrecent : now.sub event.observedAt ≤ p.ttl → recent) :
    InBounds request.promptTokens recent (p.entryEvidence now request event) ↔
      (event.quality = .fresh → ageAt now event.observedAt ≤ p.ttl →
        Decays p.lambda (ageAt now event.observedAt)) := by
  have hmatched := maxInt_nonneg event.matchedTokens
  have hage : 0 ≤ ageAt now event.observedAt := maxInt_nonneg _
  unfold entryEvidence
  dsimp only
  generalize maxInt event.matchedTokens 0 = matched at hmatched
  generalize (if event.totalTokens ≤ 0 then request.promptTokens else event.totalTokens) = total
  have hcapped : 0 ≤ if total > 0 ∧ matched > total then total else matched := by
    split <;> omega
  generalize (if total > 0 ∧ matched > total then total else matched) = capped at hcapped
  -- the entry is reported with a confidence just if it is fresh and not too old
  have hfresh : (if ageAt now event.observedAt > p.ttl then Quality.stale else event.quality) =
      .fresh ↔ event.quality = .fresh ∧ ageAt now event.observedAt ≤ p.ttl := by
    split
    · rename_i hold
      exact iff_of_false (by decide) fun h => absurd h.2 (not_le.mpr hold)
    · rename_i hyoung
      exact ⟨fun h => ⟨h, not_lt.mp hyoung⟩, And.left⟩
  generalize (if ageAt now event.observedAt > p.ttl then Quality.stale
    else event.quality) = quality at hfresh
  constructor
  · intro h hevent hyoung
    have hconfidence := h.confidence
    dsimp only at hconfidence
    rw [if_pos (hfresh.mpr ⟨hevent, hyoung⟩)] at hconfidence
    exact (confidenceForAge_inUnit_iff hage).mp hconfidence
  intro h
  refine ⟨?_, ?_, ?_, ?_, ?_⟩
  · dsimp only
    split <;> omega
  · intro hpos
    dsimp only
    split <;> omega
  · dsimp only
    split
    · rename_i htotal
      exact ratioOf_inUnit _ htotal
    · exact inUnit_zero
  · dsimp only
    split
    · rename_i hquality
      obtain ⟨hevent, hyoung⟩ := hfresh.mp hquality
      exact (confidenceForAge_inUnit_iff hage).mpr (h hevent hyoung)
    · exact inUnit_zero
  · intro hpos
    dsimp only at hpos ⊢
    split at hpos
    · rename_i hquality
      exact ⟨hquality, hrecent ((le_maxInt _).trans (hfresh.mp hquality).2)⟩
    · rw [Float64.Irrefl.lt_irrefl] at hpos
      cases hpos

/-- The evidence of a match of many keys is in bounds if their sum is not negative and, where it is
not zero, the confidence is a number. -/
theorem counted_inBounds_iff {lambda : F} (now : Time) (request : CacheMatchRequest)
    (matched : Int) (latest : Time) {recent : Prop} (hrecent : recent) :
    InBounds request.promptTokens recent (countedEvidence lambda now request matched latest) ↔
      0 ≤ matched ∧ (matched ≠ 0 → Decays lambda (ageAt now latest)) := by
  have hage : 0 ≤ ageAt now latest := maxInt_nonneg _
  unfold countedEvidence
  by_cases hzero : matched = 0
  · rw [if_pos hzero, hzero]
    exact iff_of_true (missing_inBounds _ _ _) ⟨le_refl 0, fun hne => absurd rfl hne⟩
  rw [if_neg hzero]
  constructor
  · intro h
    have hnonneg := h.matched_nonneg
    dsimp only at hnonneg
    refine ⟨?_, fun _ => (confidenceForAge_inUnit_iff hage).mp h.confidence⟩
    split at hnonneg <;> omega
  · rintro ⟨h, hdecays⟩
    refine ⟨?_, ?_, ?_, (confidenceForAge_inUnit_iff hage).mpr (hdecays hzero),
      fun _ => ⟨rfl, hrecent⟩⟩
    · dsimp only
      split <;> omega
    · intro hpos
      dsimp only
      split <;> omega
    · dsimp only
      split
      · rename_i hpos
        exact ratioOf_inUnit _ hpos
      · exact inUnit_zero

end KVEventProvider

/-- The evidence of a shadow index is in bounds if the prompt tokens survive the conversion. -/
theorem shadow_inBounds {provider : ShadowIndexProvider F}
    (hconfidence : InUnit provider.confidence) (now : Time) {request : CacheMatchRequest}
    {backend : CacheBackend F} (hnumeric : backend.Numeric)
    (hcountable : 0 < request.promptTokens →
      0 ≤ Float64.round (ofInt request.promptTokens : F) ∧
        Float64.round (ofInt request.promptTokens : F) ≤ request.promptTokens)
    {recent : Prop}
    (hrecent : ∀ signal, backend.state.signals.lookup "effective_residency_perc" = some signal →
      (0 < provider.maxAge →
        now.sub (Time.unixMilli signal.observedAtUnixMillis) ≤ provider.maxAge) → recent) :
    InBounds request.promptTokens recent (shadowEvidence provider now request backend.state) := by
  unfold shadowEvidence
  cases hsignal : backend.state.signals.lookup "effective_residency_perc" with
  | none => exact missing_inBounds _ _ _
  | some signal =>
    dsimp only
    split
    · exact missing_inBounds _ _ _
    have hratio : InUnit (clamp01 signal.value) := clamp01_inUnit_iff.mpr (hnumeric _ _ hsignal)
    have hround : 0 ≤ Float64.round (ofInt (maxInt request.promptTokens 0) : F) := by
      by_cases hpos : 0 < request.promptTokens
      · rw [maxInt_of_nonneg hpos.le]
        exact (hcountable hpos).1
      · rw [show maxInt request.promptTokens 0 = 0 from if_neg hpos, Bounding.round_zero]
    obtain ⟨hnonneg, hle⟩ :=
      Bounding.round_mul (maxInt_nonneg request.promptTokens) hround hratio.1 hratio.2
    generalize hquality : (if signal.quality = Quality.fresh ∧ provider.maxAge > 0 ∧
      now.sub (Time.unixMilli signal.observedAtUnixMillis) > provider.maxAge then Quality.stale
      else signal.quality) = quality
    refine ⟨hnonneg, ?_, hratio, ?_, ?_⟩
    · intro hpos
      dsimp only
      rw [maxInt_of_nonneg hpos.le] at hle ⊢
      exact hle.trans (hcountable hpos).2
    · dsimp only
      split
      · exact hconfidence
      · exact inUnit_zero
    · intro hpos
      dsimp only at hpos ⊢
      split at hpos
      · rename_i hfresh
        refine ⟨hfresh, hrecent signal hsignal fun hage => ?_⟩
        rw [hfresh] at hquality
        split at hquality
        · cases hquality
        · rename_i hnot
          by_contra hold
          exact hnot ⟨hquality, hage, not_le.mp hold⟩
      · rw [Float64.Irrefl.lt_irrefl] at hpos
        cases hpos

/-- All tokens of a prompt are resident, as observed no earlier than `now`. -/
def residentSignal (F : Type) [Float64 F] (now : Time) : Signal F where
  value := ofInt 1
  hasValue := true
  quality := .fresh
  source := ""
  observedAtUnixMillis := now / 1000000 + 1
  semantics := ""
  evidenceQuality := .unset

/-- A backend that reports a residency. -/
def residentBackend (F : Type) [Float64 F] (now : Time) : CacheBackend F where
  id := ""
  state :=
    { (Snapshot.zero : Snapshot F) with
      signals :=
        (∅ : Map String (Signal F)).insert "effective_residency_perc" (residentSignal F now) }

omit [Bounding F] in
theorem residentBackend_lookup (now : Time) :
    (residentBackend F now).state.signals.lookup "effective_residency_perc" =
      some (residentSignal F now) :=
  AList.lookup_insert (∅ : Map String (Signal F))

theorem residentBackend_numeric (now : Time) : (residentBackend F now).Numeric := by
  intro name signal hsignal
  by_cases hname : name = "effective_residency_perc"
  · subst hname
    rw [residentBackend_lookup] at hsignal
    cases hsignal
    exact Float64.Lawful.ofInt_not_nan 1
  · have hnone : (residentBackend F now).state.signals.lookup name = none :=
      AList.lookup_insert_ne hname
    rw [hnone] at hsignal
    cases hsignal

omit [Float64 F] [Bounding F] in
theorem past_le (now : Int) : now - (now / 1000000 + 1) * 1000000 ≤ 0 := by omega

/-- The evidence of such a backend shows what the conversion makes of the prompt tokens, and the
confidence of the provider. -/
theorem shadow_resident (provider : ShadowIndexProvider F) (now : Time)
    (request : CacheMatchRequest) :
    (shadowEvidence provider now request (residentBackend F now).state).matchedTokens =
        Float64.round (ofInt (maxInt request.promptTokens 0) : F) ∧
      (shadowEvidence provider now request (residentBackend F now).state).confidence =
        provider.confidence := by
  have hsome : ¬ ((residentSignal F now).hasValue = false ∨
      (residentSignal F now).quality = .missing ∨ (residentSignal F now).quality = .invalid) := by
    unfold residentSignal
    simp
  have hyoung : ¬ ((residentSignal F now).quality = .fresh ∧ provider.maxAge > 0 ∧
      now.sub (Time.unixMilli (residentSignal F now).observedAtUnixMillis) > provider.maxAge) := by
    rintro ⟨-, hpos, hold⟩
    have hpast : now - (now / 1000000 + 1) * 1000000 ≤ 0 := past_le now
    have hsub : now.sub (Time.unixMilli (now / 1000000 + 1)) ≤ 0 :=
      max_le (by decide) ((min_le_right _ _).trans hpast)
    exact absurd (hpos.trans hold) (not_lt.mpr hsub)
  unfold shadowEvidence
  rw [residentBackend_lookup]
  dsimp only
  rw [if_neg hsome, if_neg hyoung]
  refine ⟨?_, rfl⟩
  show Float64.round (ofInt _ * clamp01 (ofInt 1 : F)) = _
  rw [clamp01_one, Bounding.round_mul_one]

end Numbers

/-! ## The entries of an affinity table -/

namespace Affinity

/-- The table is well formed, and all its entries have a property. -/
structure Keeps (a : Affinity) (P : AffinityEntry → Prop) : Prop where
  wf : LinkedMap.WF (·.key) a.table
  entries : ∀ entry ∈ a.table.view, P entry

variable {a : Affinity} {P Q : AffinityEntry → Prop}

theorem new_keeps (max : Int) (ttl : Duration) (P : AffinityEntry → Prop) : (new max ttl).Keeps P :=
  ⟨LinkedMap.empty_wf, fun _ h => absurd h List.not_mem_nil⟩

theorem Keeps.mono (h : a.Keeps P) (hle : ∀ entry, P entry → Q entry) : a.Keeps Q :=
  ⟨h.wf, fun entry hentry => hle entry (h.entries entry hentry)⟩

/-- A read returns the backend of an entry that has not expired. -/
theorem Keeps.get_fst (h : a.Keeps P) {tenant key backend : String} {now : Time}
    (hget : (a.get tenant key now).1 = some backend) :
    ∃ entry, P entry ∧ entry.key = composite tenant key ∧ entry.backend = backend ∧
      now < entry.expires := by
  unfold get at hget
  split at hget
  · cases hget
  · rename_i element entry hfind
    split at hget
    · rename_i hlive
      obtain ⟨hmem, hkey⟩ := h.wf.find_eq_some.mp hfind
      exact ⟨entry, h.entries entry (List.mem_map_of_mem hmem), hkey, Option.some.inj hget,
        of_decide_eq_true hlive⟩
    · cases hget

theorem Keeps.get (h : a.Keeps P) (tenant key : String) (now : Time) :
    (a.get tenant key now).2.Keeps P := by
  unfold Affinity.get
  split
  · exact h
  · rename_i element entry hfind
    obtain ⟨hmem, -⟩ := h.wf.find_eq_some.mp hfind
    split
    · refine ⟨h.wf.moveToFront hmem, fun entry' hentry' => h.entries entry' ?_⟩
      exact ((h.wf.touch_perm hmem).map Prod.snd).mem_iff.mp hentry'
    · refine ⟨h.wf.delete hmem, fun entry' hentry' => h.entries entry' ?_⟩
      rw [h.wf.view_delete hmem] at hentry'
      exact (Recency.mem_erase.mp hentry').1

theorem Keeps.put (h : a.Keeps P) {tenant key backend : String} {now : Time}
    (hnew : P ⟨composite tenant key, tenant, backend, now.add a.ttl⟩) :
    (a.put tenant key backend now).Keeps P := by
  have hput : ∀ entry ∈ Recency.put (·.key)
      (⟨composite tenant key, tenant, backend, now.add a.ttl⟩ : AffinityEntry) a.table.view,
      P entry := by
    intro entry hentry
    rcases List.mem_cons.mp hentry with rfl | hold
    · exact hnew
    · exact h.entries entry (Recency.mem_erase.mp hold).1
  unfold Affinity.put
  dsimp only
  split
  · rename_i element old hfind
    obtain ⟨hmem, hkey⟩ := h.wf.find_eq_some.mp hfind
    refine ⟨(h.wf.setValue hmem hkey.symm).moveToFront
      (List.mem_map.mpr ⟨_, hmem, if_pos rfl⟩), fun entry hentry => hput entry ?_⟩
    rwa [h.wf.view_setValue hmem hkey.symm] at hentry
  · rename_i hfind
    have hpush := h.wf.pushFront (v := ⟨composite tenant key, tenant, backend, now.add a.ttl⟩) hfind
    obtain ⟨hwf, hview⟩ := hpush.evict_spec a.max _ (Nat.le_add_left _ _)
    refine ⟨hwf, fun entry hentry => hput entry ?_⟩
    rw [hview, h.wf.view_pushFront hfind] at hentry
    exact List.mem_of_mem_take hentry

theorem Keeps.invalidateBackend (h : a.Keeps P) (backend : String) :
    (a.invalidateBackend backend).Keeps P := by
  obtain ⟨hwf, hview⟩ := h.wf.deleteWhere_spec fun _ entry => entry.backend = backend
  refine ⟨hwf, fun entry hentry => h.entries entry ?_⟩
  rw [Affinity.invalidateBackend, hview] at hentry
  exact List.mem_of_mem_filter hentry

/-- An entry comes from one of the writes. -/
def WrittenBy (puts : List AffinityPut) (ttl : Duration) (entry : AffinityEntry) : Prop :=
  ∃ put ∈ puts, entry.key = composite put.tenant put.key ∧ entry.backend = put.backend ∧
    entry.expires = put.now.add ttl

/-- All entries of a table come from the writes so far. -/
def Written (a : Affinity) (puts : List AffinityPut) : Prop := a.Keeps (WrittenBy puts a.ttl)

theorem Written.mono {puts : List AffinityPut} (h : a.Written puts) (more : List AffinityPut) :
    a.Written (more ++ puts) :=
  Keeps.mono h fun _ ⟨put, hput, hentry⟩ => ⟨put, List.mem_append_right _ hput, hentry⟩

theorem Written.get {puts : List AffinityPut} (h : a.Written puts) (tenant key : String)
    (now : Time) : (a.get tenant key now).2.Written puts := by
  have httl : (a.get tenant key now).2.ttl = a.ttl := (apply_max a (.get tenant key now)).2
  unfold Written
  rw [httl]
  exact Keeps.get h tenant key now

theorem Written.apply {puts : List AffinityPut} (h : a.Written puts) (op : AffinityOp) :
    (a.apply op).Written (op.puts ++ puts) := by
  unfold Written
  rw [(apply_max a op).2]
  have hmore : a.Keeps (WrittenBy (op.puts ++ puts) a.ttl) := h.mono op.puts
  cases op with
  | get tenant key now => exact hmore.get tenant key now
  | put tenant key backend now =>
    exact hmore.put ⟨_, List.mem_append_left _ List.mem_cons_self, rfl, rfl, rfl⟩
  | invalidateBackend backend => exact hmore.invalidateBackend backend

end Affinity

/-! ## Runs -/

section Invariant

variable {F : Type} [Float64 F]

/-- What is known of a provider after any run. -/
def ProviderInv (puts : List AffinityPut) : CacheStateProvider F → Prop
  | .affinity (some provider) => (isNaN provider.confidence = false → InUnit provider.confidence) ∧
      ∀ table, provider.affinity = .own (some table) → table.Written puts
  | .shadowIndex (some provider) => isNaN provider.confidence = false → InUnit provider.confidence
  | .kvEvents (some provider) => provider.Indexed
  | _ => True

/-- The tables hold nothing but what was put. -/
structure CacheInv (s : CacheHistory F) : Prop where
  shared : ∀ table, s.cache.affinity = some table → table.Written s.puts
  provider : ProviderInv s.puts s.cache.provider

/-- A clamped number is NaN or in the unit interval. -/
theorem clamp01_not_nan [Bounding F] {x : F} (h : isNaN (clamp01 x) = false) :
    InUnit (clamp01 x) := by
  refine clamp01_inUnit_iff.mpr (Bool.eq_false_of_not_eq_true fun hnan => ?_)
  rw [clamp01_nan hnan, hnan] at h
  cases h

theorem Configured.inv [Bounding F] {provider : CacheStateProvider F} (h : Configured provider) :
    ProviderInv [] provider := by
  cases h with
  | noCache | noAffinity | noShadow | noEvents => trivial
  | shared confidence => exact ⟨clamp01_not_nan, fun _ heq => by cases heq⟩
  | ownNone confidence => exact ⟨clamp01_not_nan, fun _ heq => by cases heq⟩
  | own confidence max ttl =>
    refine ⟨clamp01_not_nan, fun _ heq => ?_⟩
    cases heq
    exact Affinity.new_keeps max ttl _
  | shadow confidence maxAge => exact clamp01_not_nan
  | events max ttl lambda => exact ⟨LinkedMap.empty_wf, Nat.zero_le _⟩

theorem affinityEvidence_written {puts : List AffinityPut} {affinity : Option Affinity}
    (h : ∀ table, affinity = some table → table.Written puts) (confidence : F) (now : Time)
    (request : CacheMatchRequest) (backendID : String) :
    ∀ table, (affinityEvidence confidence affinity now request backendID).2 = some table →
      table.Written puts := by
  intro table htable
  rcases affinityEvidence_table confidence affinity now request backendID with
    heq | ⟨before, hbefore, heq⟩
  · rw [heq] at htable
    exact h table htable
  · rw [heq] at htable
    cases htable
    exact (h before hbefore).get _ _ _

theorem CacheInv.query {s : CacheHistory F} (h : CacheInv s) (now : Time)
    (request : CacheMatchRequest) (backend : CacheBackend F) :
    CacheInv (s.apply (.query now request backend)) := by
  obtain ⟨⟨affinity, provider⟩, puts⟩ := s
  obtain ⟨hshared, hprovider⟩ := h
  cases provider with
  | noCache => exact ⟨hshared, trivial⟩
  | affinity provider =>
    obtain _ | ⟨table, confidence⟩ := provider
    · exact ⟨hshared, trivial⟩
    · cases table with
      | shared =>
        exact ⟨affinityEvidence_written hshared confidence now request backend.id, hprovider⟩
      | own table =>
        refine ⟨hshared, hprovider.1, fun after hafter => ?_⟩
        refine affinityEvidence_written (fun before hbefore => ?_) confidence now request
          backend.id after (AffinityTable.own.inj hafter)
        exact hprovider.2 before (congrArg AffinityTable.own hbefore)
  | shadowIndex provider =>
    obtain _ | provider := provider
    · exact ⟨hshared, trivial⟩
    · exact ⟨hshared, hprovider⟩
  | kvEvents provider =>
    obtain _ | provider := provider
    · exact ⟨hshared, trivial⟩
    · obtain ⟨entries, hentries, hwf, hlength, -⟩ :=
        KVEventProvider.matchCache_spec hprovider now request backend.id
      have hafter : (provider.matchCache now request backend.id).2.Indexed := by
        rw [hentries]
        exact ⟨hwf, hlength.trans_le (KVEventProvider.Indexed.bound hprovider)⟩
      exact ⟨hshared, hafter⟩

theorem CacheInv.observe {s : CacheHistory F} (h : CacheInv s) (now : Time) (event : KVEvent) :
    CacheInv (s.apply (.observe now event)) := by
  obtain ⟨⟨affinity, provider⟩, puts⟩ := s
  obtain ⟨hshared, hprovider⟩ := h
  cases provider with
  | noCache => exact ⟨hshared, trivial⟩
  | affinity provider => exact ⟨hshared, hprovider⟩
  | shadowIndex provider => exact ⟨hshared, hprovider⟩
  | kvEvents provider =>
    obtain _ | provider := provider
    · exact ⟨hshared, trivial⟩
    · exact ⟨hshared, (KVEventProvider.observe_spec hprovider now event).1⟩

theorem ProviderInv.mono {puts : List AffinityPut} {provider : CacheStateProvider F}
    (h : ProviderInv puts provider) (more : List AffinityPut) :
    ProviderInv (more ++ puts) provider := by
  cases provider with
  | noCache => trivial
  | affinity provider =>
    obtain _ | provider := provider
    · trivial
    · exact ⟨h.1, fun table htable => (h.2 table htable).mono more⟩
  | shadowIndex provider => cases provider <;> exact h
  | kvEvents provider => cases provider <;> exact h

theorem CacheInv.shared_op {s : CacheHistory F} (h : CacheInv s) (op : AffinityOp) :
    CacheInv (s.apply (.shared op)) := by
  refine ⟨fun after hafter => ?_, h.provider.mono op.puts⟩
  obtain ⟨before, hbefore, rfl⟩ := Option.map_eq_some_iff.mp hafter
  exact (h.shared before hbefore).apply op

theorem CacheInv.own_op {s : CacheHistory F} (h : CacheInv s) (op : AffinityOp) :
    CacheInv (s.apply (.own op)) := by
  obtain ⟨⟨affinity, provider⟩, puts⟩ := s
  obtain ⟨hshared, hprovider⟩ := h
  have hshared' : ∀ table, affinity = some table → table.Written (op.puts ++ puts) :=
    fun table htable => (hshared table htable).mono op.puts
  cases provider with
  | noCache => exact ⟨hshared', trivial⟩
  | affinity provider =>
    obtain _ | ⟨table, confidence⟩ := provider
    · exact ⟨hshared', trivial⟩
    · cases table with
      | shared => exact ⟨hshared', ProviderInv.mono hprovider op.puts⟩
      | own table =>
        refine ⟨hshared', hprovider.1, fun after hafter => ?_⟩
        obtain ⟨before, hbefore, rfl⟩ := Option.map_eq_some_iff.mp (AffinityTable.own.inj hafter)
        exact (hprovider.2 before (congrArg AffinityTable.own hbefore)).apply op
  | shadowIndex provider => exact ⟨hshared', ProviderInv.mono hprovider op.puts⟩
  | kvEvents provider => exact ⟨hshared', ProviderInv.mono hprovider op.puts⟩

theorem cacheInv_inductive [Bounding F] : (cacheRuns (F := F)).Inductive CacheInv where
  init s hs := by
    obtain ⟨hconfigured, hputs, haffinity⟩ := hs
    refine ⟨fun table htable => ?_, hputs ▸ hconfigured.inv⟩
    rcases haffinity with hnone | ⟨max, ttl, hsome⟩
    · rw [hnone] at htable
      cases htable
    · rw [hsome] at htable
      cases htable
      exact Affinity.new_keeps max ttl _
  step s op s' h hstep := by
    obtain ⟨-, rfl⟩ := hstep
    cases op with
    | observe now event => exact h.observe now event
    | query now request backend => exact h.query now request backend
    | shared op => exact h.shared_op op
    | own op => exact h.own_op op

/-! ## The bounds after any run -/

variable [Bounding F]

omit [Float64 F] [Bounding F] in
/-- What an affinity provider reports has been put recently enough. -/
theorem affinity_recent {s : CacheHistory F} {provider : Option (AffinityProvider F)}
    (hprovider : s.cache.provider = .affinity provider) {table : Affinity}
    (htable : s.cache.table = some table) (hwritten : table.Written s.puts) {now : Time}
    {request : CacheMatchRequest} {backend : CacheBackend F}
    (hget : (table.get request.tenantID request.cacheKey now).1 = some backend.id) :
    s.Recent now request backend := by
  obtain ⟨entry, ⟨put, hput, hkey, hbackend, hexpires⟩, hentry, hsame, hlive⟩ :=
    Affinity.Keeps.get_fst hwritten hget
  unfold CacheHistory.Recent
  rw [hprovider]
  refine ⟨table, put, htable, hput, hkey.symm.trans hentry, hbackend.symm.trans hsame, ?_⟩
  rw [← hexpires]
  exact hlive

omit [Float64 F] [Bounding F] in
theorem counted_recent {provider : KVEventProvider F} {now : Time} {request : CacheMatchRequest}
    {backendID : String} (hkeys : request.externalCacheKeys ≠ []) :
    ∀ event ∈ provider.counted now request backendID,
      now.sub event.observedAt ≤ provider.ttl := by
  intro event hevent
  unfold KVEventProvider.counted at hevent
  rw [if_pos hkeys] at hevent
  obtain ⟨key, hkey, hheld⟩ := List.mem_filterMap.mp hevent
  have husable := List.mem_takeWhile_imp hkey
  rw [hheld, Option.any_some] at husable
  unfold KVEventProvider.Usable at husable
  rw [Bool.and_eq_true, decide_eq_true_eq, decide_eq_true_eq] at husable
  exact husable.2

/-- The KV index: only a sum that wraps around to a negative number and a confidence that is not a
number are out of bounds. -/
theorem kvEvents_inBounds_iff {s : CacheHistory F} {provider : KVEventProvider F}
    (hprovider : s.cache.provider = .kvEvents (some provider)) (h : provider.Indexed)
    (now : Time) (request : CacheMatchRequest) (backend : CacheBackend F) :
    InBounds request.promptTokens (s.Recent now request backend)
        (provider.matchCache now request backend.id).1 ↔
      (request.externalCacheKeys ≠ [] →
        provider.prefixTokens now request backend.id % 2 ^ 64 < 2 ^ 63) ∧
      provider.Weighable now request backend.id := by
  rw [KVEventProvider.matchCache_evidence h]
  unfold KVEventProvider.heldEvidence KVEventProvider.Weighable
  have hrecent : s.Recent now request backend ↔
      ∀ event ∈ provider.counted now request backend.id,
        now.sub event.observedAt ≤ provider.ttl := by
    unfold CacheHistory.Recent
    rw [hprovider]
  by_cases hkeys : request.externalCacheKeys ≠ []
  · rw [if_neg fun hempty => hkeys hempty.2, if_pos hkeys, if_pos hkeys]
    dsimp only
    rw [KVEventProvider.counted_inBounds_iff now request _ _
      (hrecent.mpr (counted_recent hkeys))]
    have hsum := KVEventProvider.foldl_wrap64_eq
      (KVEventProvider.heldTokens (provider.held backend.id))
      (KVEventProvider.usablePrefix provider.ttl now (provider.held backend.id)
        request.externalCacheKeys) 0
    rw [show wrap64 0 = 0 from rfl, zero_add] at hsum
    rw [hsum, KVEventProvider.wrap64_nonneg_iff, ne_eq, KVEventProvider.wrap64_eq_zero_iff]
    exact and_congr_left' ⟨fun hnonneg _ => hnonneg, fun himp => himp hkeys⟩
  rw [if_neg hkeys, if_neg hkeys]
  by_cases hempty : request.cacheKey = ""
  · rw [if_pos ⟨hempty, not_not.mp hkeys⟩]
    exact iff_of_true (missing_inBounds _ _ _)
      ⟨fun hne => absurd hne hkeys, fun hne => absurd hempty hne⟩
  rw [if_neg fun hboth => hempty hboth.1]
  cases hheld : provider.held backend.id request.cacheKey with
  | none =>
    exact iff_of_true (missing_inBounds _ _ _) ⟨fun hne => absurd hne hkeys, fun _ _ h => by cases h⟩
  | some event =>
    have hage : now.sub event.observedAt ≤ provider.ttl → s.Recent now request backend := by
      intro hage
      rw [hrecent]
      unfold KVEventProvider.counted
      rw [if_neg hkeys, hheld]
      simp only [Option.toList_some, List.mem_singleton, forall_eq]
      exact hage
    dsimp only
    rw [KVEventProvider.entry_inBounds_iff now request event hage]
    constructor
    · intro hdecays
      refine ⟨fun hne => absurd hne hkeys, fun _ _ hsame => ?_⟩
      cases hsame
      exact hdecays
    · rintro ⟨-, hdecays⟩
      exact hdecays hempty event rfl

/-- **Evidence in bounds.** After any run, the evidence for a request is in bounds on every backend
just if its token counts are countable and its confidences are numbers. -/
theorem evidence_inBounds_iff {s : CacheHistory F} (hs : cacheRuns.Reach s) (now : Time)
    (request : CacheMatchRequest) :
    (∀ backend : CacheBackend F, backend.Numeric →
      InBounds request.promptTokens (s.Recent now request backend)
        (s.cache.matchCache now request backend).1) ↔
      s.cache.Countable now request ∧ s.cache.Weighable now request := by
  have h := cacheInv_inductive.reach hs
  obtain ⟨⟨affinity, provider⟩, puts⟩ := s
  obtain ⟨hshared, hprovider⟩ := h
  cases provider with
  | noCache => exact iff_of_true (fun _ _ => missing_inBounds _ _ _) ⟨trivial, trivial⟩
  | affinity provider =>
    obtain _ | ⟨table, confidence⟩ := provider
    · exact iff_of_true (fun _ _ => missing_inBounds _ _ _) ⟨trivial, trivial⟩
    have hwritten : ∀ a,
        CacheState.table ⟨affinity, .affinity (some ⟨table, confidence⟩)⟩ = some a →
          a.Written puts := by
      cases table with
      | shared => exact hshared
      | own table => exact fun a ha => hprovider.2 a (congrArg AffinityTable.own ha)
    have hrecent : ∀ a backendID,
        CacheState.table ⟨affinity, .affinity (some ⟨table, confidence⟩)⟩ = some a →
        (a.get request.tenantID request.cacheKey now).1 = some backendID →
          CacheHistory.Recent ⟨⟨affinity, .affinity (some ⟨table, confidence⟩)⟩, puts⟩ now request
            ⟨backendID, Snapshot.zero⟩ :=
      fun a backendID ha hget => affinity_recent rfl ha (hwritten a ha) hget
    have hiff := affinity_inBounds_iff hprovider.1 hrecent
    have hmatch : ∀ backend : CacheBackend F,
        (CacheState.matchCache ⟨affinity, .affinity (some ⟨table, confidence⟩)⟩ now request
          backend).1 = (affinityEvidence confidence
            (CacheState.table ⟨affinity, .affinity (some ⟨table, confidence⟩)⟩) now request
            backend.id).1 := by
      intro backend
      cases table <;> rfl
    constructor
    · intro h
      refine ⟨trivial, hiff.mp fun backendID => ?_⟩
      have hbackend := h ⟨backendID, Snapshot.zero⟩ nofun
      rw [hmatch] at hbackend
      exact hbackend
    · rintro ⟨-, h⟩ backend -
      rw [hmatch]
      exact hiff.mpr h backend.id
  | shadowIndex provider =>
    obtain _ | provider := provider
    · exact iff_of_true (fun _ _ => missing_inBounds _ _ _) ⟨trivial, trivial⟩
    refine ⟨fun hbounds => ?_, fun ⟨hcountable, hnumber⟩ backend hnumeric => ?_⟩
    · have hresident := hbounds (residentBackend F now) (residentBackend_numeric now)
      obtain ⟨hmatched, hconfidence⟩ := shadow_resident provider now request
      refine ⟨fun hpos => ?_, ?_⟩
      · rw [maxInt_of_nonneg hpos.le] at hmatched
        exact ⟨hmatched ▸ hresident.matched_nonneg, hmatched ▸ hresident.matched_le hpos⟩
      · have hunit := hresident.confidence
        exact InUnit.not_nan (hconfidence ▸ hunit)
    · exact shadow_inBounds (hprovider hnumber) now hnumeric hcountable fun signal hsignal hage =>
        ⟨signal, hsignal, hage⟩
  | kvEvents provider =>
    obtain _ | provider := provider
    · exact iff_of_true (fun _ _ => missing_inBounds _ _ _) ⟨trivial, trivial⟩
    have hiff := fun backend : CacheBackend F =>
      kvEvents_inBounds_iff (s := ⟨⟨affinity, .kvEvents (some provider)⟩, puts⟩) rfl hprovider
        now request backend
    constructor
    · intro hbounds
      have hboth := fun backendID =>
        (hiff ⟨backendID, Snapshot.zero⟩).mp (hbounds ⟨backendID, Snapshot.zero⟩ nofun)
      exact ⟨fun hkeys backendID => (hboth backendID).1 hkeys, fun backendID => (hboth backendID).2⟩
    · rintro ⟨hcountable, hweighable⟩ backend -
      exact (hiff backend).mpr ⟨fun hkeys => hcountable hkeys backend.id, hweighable backend.id⟩

end Invariant

namespace EvidenceSample

local instance : Float64 Rat := .rational fun _ => 1

local instance : Bounding Rat := Float64.rational_bounding _

def start : CacheHistory Rat where
  cache := { affinity := none, provider := .kvEvents (some (.new 0 0 (1 / 10))) }
  puts := []

/-- A block of a backend, with a count that the handler admits. -/
def event (cacheKey : String) : KVEvent where
  operation := .store
  backendID := "a"
  cacheKey := cacheKey
  matchedTokens := 2 ^ 62
  totalTokens := 0
  sequence := 0
  hasSequence := false
  generation := ""
  engineEventID := ""
  observedAt := 1
  quality := .fresh

def filled : CacheHistory Rat :=
  (start.apply (.observe 1 (event "k"))).apply (.observe 1 (event "l"))

def request : CacheMatchRequest where
  requestID := "r"
  tenantID := "t"
  cacheKey := ""
  externalCacheKeys := ["k", "l"]
  promptTokens := 32

def backend : CacheBackend Rat := { id := "a", state := Snapshot.zero }

theorem reach_filled : cacheRuns.Reach filled := by
  have hstart : cacheRuns.Reach start := .init ⟨.events 0 0 (1 / 10), rfl, .inl rfl⟩
  have hstep : ∀ s : CacheHistory Rat, ∀ key ∈ ["k", "l"],
      cacheRuns.step s (.observe 1 (event key)) (s.apply (.observe 1 (event key))) := by
    intro s key hkey
    have hadmitted : ∀ key ∈ ["k", "l"], ¬ (event key).Rejected ∧ (event key).Decoded := by
      decide +kernel
    exact ⟨hadmitted key hkey, rfl⟩
  exact .step (.step hstart (hstep _ "k" (by decide))) (hstep _ "l" (by decide))

theorem backend_numeric : backend.Numeric := by
  intro name signal hsignal
  cases hsignal

theorem filled_matchedTokens :
    (filled.cache.matchCache 1 request backend).1.matchedTokens = -2 ^ 63 := by
  decide +kernel

/-- Two counts wrap around. -/
theorem negative_tokens :
    cacheRuns.Reach filled ∧ backend.Numeric ∧
      (filled.cache.matchCache 1 request backend).1.matchedTokens = -2 ^ 63 ∧
      ¬ InBounds request.promptTokens (filled.Recent 1 request backend)
        (filled.cache.matchCache 1 request backend).1 := by
  refine ⟨reach_filled, backend_numeric, filled_matchedTokens, fun hbounds => ?_⟩
  have hnonneg := hbounds.matched_nonneg
  rw [filled_matchedTokens] at hnonneg
  exact absurd hnonneg (by decide)

/-- The index after the two events. -/
def index : KVEventProvider Rat :=
  ((KVEventProvider.new 0 0 (1 / 10)).observe 1 (event "k")).observe 1 (event "l")

/-- All that the index holds are the two events. -/
theorem index_held {backendID cacheKey : String} {stored : KVEvent}
    (h : index.held backendID cacheKey = some stored) : stored.matchedTokens = 2 ^ 62 := by
  have hindexed : index.Indexed := (cacheInv_inductive.reach reach_filled).provider
  have hall : ∀ entry ∈ index.entries.view, entry.event.matchedTokens = 2 ^ 62 := by
    decide +kernel
  obtain ⟨⟨element, entry⟩, hfind, rfl⟩ := Option.map_eq_some_iff.mp h
  obtain ⟨hmem, -⟩ := hindexed.wf.find_eq_some.mp hfind
  exact hall entry (List.mem_map_of_mem hmem)

theorem index_tokens (backendID cacheKey : String) :
    KVEventProvider.heldTokens (index.held backendID) cacheKey ≤ 2 ^ 62 := by
  unfold KVEventProvider.heldTokens
  cases hheld : index.held backendID cacheKey with
  | none => decide
  | some stored =>
    rw [Option.elim_some, index_held hheld]
    decide

/-- A request for one of the two keys. -/
def single : CacheMatchRequest := { request with externalCacheKeys := ["k"] }

/-- The count of one key does not wrap around. -/
theorem single_tokens (backendID : String) :
    index.prefixTokens 1 single backendID % 2 ^ 64 < 2 ^ 63 := by
  have hkey := index_tokens backendID "k"
  have hnonneg := KVEventProvider.heldTokens_nonneg (index.held backendID) "k"
  have hsum : index.prefixTokens 1 single backendID = 0 ∨ index.prefixTokens 1 single backendID =
      KVEventProvider.heldTokens (index.held backendID) "k" := by
    unfold KVEventProvider.prefixTokens KVEventProvider.usablePrefix
    rw [show single.externalCacheKeys = ["k"] from rfl, List.takeWhile_cons]
    split
    · right
      simp
    · left
      rfl
  omega

/-- The evidence for one of the keys is in bounds on every backend, and capped on this one. -/
theorem evidence_inBounds_sample :
    (∀ backend : CacheBackend Rat, backend.Numeric →
      InBounds single.promptTokens (filled.Recent 1 single backend)
        (filled.cache.matchCache 1 single backend).1) ∧
      (filled.cache.matchCache 1 single backend).1.matchedTokens = 32 := by
  refine ⟨(evidence_inBounds_iff reach_filled 1 single).mpr ⟨fun _ => single_tokens, ?_⟩,
    by decide +kernel⟩
  intro backendID
  unfold KVEventProvider.Weighable
  rw [if_pos (by decide : single.externalCacheKeys ≠ [])]
  exact fun _ => ⟨Float64.rational_not_nan _ _, .inl (Float64.rational_not_nan _ _)⟩

end EvidenceSample

end Kavora.Router
