import Mathlib.Data.Finset.Insert
import Mathlib.Data.Finset.Erase
import Kavora.Router.Affinity
import Kavora.Router.BackendState

/-!
# Cache evidence (`gateway/internal/router/cache_provider.go`)

A provider says how many tokens of a prompt a backend has cached. There are four: none, the
affinity table, a residency signal of the backend, and the index of the engines' KV events.

* `KVEventProvider.observe`: one event into the index.
* `matchCache`: the evidence for a request on a backend, and the provider after it, since a match
  moves entries to the front and drops an expired affinity.

The clock is an argument: `now` is the time that the provider reads in a call.
-/

namespace Kavora.Router

open Lib Lib.Go BackendState

/-- Where evidence comes from. -/
inductive CacheSource where
  | none | affinity | shadowIndex | kvEvents
  deriving DecidableEq, Repr

/-- What a provider is asked. -/
structure CacheMatchRequest where
  requestID : String
  tenantID : String
  cacheKey : String
  externalCacheKeys : List String
  promptTokens : Int

/-- A backend with its state. -/
structure CacheBackend (F : Type) where
  id : String
  state : Snapshot F

/-- What a backend has of a request in its cache. -/
structure CacheEvidence (F : Type) where
  matchedTokens : Int
  matchRatio : F
  source : CacheSource
  observedAt : Time
  quality : Quality
  confidence : F
  evidenceQuality : EvidenceQuality

section Evidence

variable {F : Type} [Float64 F]

/-- No evidence. -/
def missingCacheEvidence (source : CacheSource) : CacheEvidence F where
  matchedTokens := 0
  matchRatio := Float64.ofInt 0
  source := source
  observedAt := Time.zero
  quality := .missing
  confidence := Float64.ofInt 0
  evidenceQuality := .missing

/-- A value between zero and one; NaN stays what it is. -/
def clamp01 (value : F) : F :=
  if Float64.lt value (Float64.ofInt 0) then Float64.ofInt 0
  else if Float64.lt (Float64.ofInt 1) value then Float64.ofInt 1
  else value

/-- The greater of two integers. -/
def maxInt (left right : Int) : Int := if left > right then left else right

/-- The time since `observedAt`, zero when that is in the future. -/
def ageAt (now observedAt : Time) : Duration := maxInt (now.sub observedAt) 0

/-- The confidence in what was seen that long ago. -/
def confidenceForAge (age : Duration) (lambda : F) : F :=
  clamp01 (Float64.exp (-lambda * Float64.seconds (maxInt age 0)))

/-- `clamp01(float64(matched) / float64(total))`. -/
def ratioOf (matched total : Int) : F := clamp01 (Float64.ofInt matched / Float64.ofInt total)

end Evidence

/-! ## KV events -/

/-- The operation of an event; `unset` is the empty text and `other` any other one. -/
inductive Operation where
  | unset | store | remove | clear
  | other (text : String)
  deriving DecidableEq, Repr

/-- A change of a backend's cache. -/
structure KVEvent where
  operation : Operation
  backendID : String
  cacheKey : String
  matchedTokens : Int
  totalTokens : Int
  sequence : Nat
  hasSequence : Bool
  generation : String
  engineEventID : String
  observedAt : Time
  quality : Quality
  deriving DecidableEq, Repr

/-- An event under its key. -/
structure KVEventEntry where
  key : String
  event : KVEvent
  deriving DecidableEq, Repr

/-- The index. A map from backends that is read with the zero value for a missing backend is a
function. -/
structure KVEventProvider (F : Type) where
  max : Nat
  ttl : Duration
  lambda : F
  entries : LinkedMap String KVEventEntry
  generation : String → String
  lastSequence : String → Nat
  hasSequence : String → Bool
  seenEvents : Finset String
  eventOrder : List String

/-- `key` of a backend: its ID, a NUL and the rest. -/
def backendKey (backendID rest : String) : String := backendID ++ "\x00" ++ rest

namespace KVEvent

/-- The operation, with its default. -/
def effectiveOperation (event : KVEvent) : Operation :=
  if event.operation = .unset then .store else event.operation

/-- The time and the quality, with their defaults. -/
def withDefaults (event : KVEvent) (now : Time) : KVEvent :=
  { event with
    observedAt := if event.observedAt.isZero then now else event.observedAt
    quality := if event.quality = .other "" then .fresh else event.quality }

/-- The event has a sequence. -/
def sequenced (event : KVEvent) : Bool := event.hasSequence || 0 < event.sequence

/-- The key under which the event is known. -/
def eventKey (event : KVEvent) : String := backendKey event.backendID event.engineEventID

/-- The key of its entry. -/
def entryKey (event : KVEvent) : String := backendKey event.backendID event.cacheKey

end KVEvent

/-- `for len(p.eventOrder) > limit`: forgets the oldest events. -/
def forget (limit : Nat) (seenEvents : Finset String) : List String → Finset String × List String
  | [] => (seenEvents, [])
  | eventKey :: eventOrder =>
    if limit < eventOrder.length + 1 then forget limit (seenEvents.erase eventKey) eventOrder
    else (seenEvents, eventKey :: eventOrder)

namespace KVEventProvider

variable {F : Type}

/-- `NewKVEventProvider`, with its defaults. -/
def new [Float64 F] (max : Int) (ttl : Duration) (lambda : F) : KVEventProvider F where
  max := if max ≤ 0 then 4096 else max.toNat
  ttl := if ttl ≤ 0 then 300000000000 else ttl
  lambda := if Float64.lt lambda (Float64.ofInt 0) then Float64.ofInt 0 else lambda
  entries := .empty
  generation _ := ""
  lastSequence _ := 0
  hasSequence _ := false
  seenEvents := ∅
  eventOrder := []

/-- The entries of a backend are dropped. -/
def clearBackend (p : KVEventProvider F) (backendID : String) : KVEventProvider F :=
  { p with entries := p.entries.deleteWhere fun key _ => hasPrefix key (backendKey backendID "") }

/-- A new generation of a backend drops what the old one left. -/
def enterGeneration (p : KVEventProvider F) (backendID generation : String) : KVEventProvider F :=
  let p :=
    if generation ≠ "" ∧ p.generation backendID ≠ "" ∧ p.generation backendID ≠ generation then
      { p.clearBackend backendID with
        lastSequence := Function.update p.lastSequence backendID 0
        hasSequence := Function.update p.hasSequence backendID false }
    else p
  if generation ≠ "" then { p with generation := Function.update p.generation backendID generation }
  else p

/-- The event is known from now on. -/
def remember (p : KVEventProvider F) (eventKey : String) : KVEventProvider F :=
  let kept := forget (p.max * 4) (insert eventKey p.seenEvents) (p.eventOrder ++ [eventKey])
  { p with seenEvents := kept.1, eventOrder := kept.2 }

/-- The checks for events seen before; `none` when the event is dropped. -/
def accept (p : KVEventProvider F) (event : KVEvent) : Option (KVEventProvider F) :=
  if event.engineEventID ≠ "" then
    if event.eventKey ∈ p.seenEvents then none
    else if event.sequenced ∧ p.hasSequence event.backendID ∧
        event.sequence < p.lastSequence event.backendID then none
    else some (p.remember event.eventKey)
  else if event.sequenced ∧ p.hasSequence event.backendID ∧
      event.sequence ≤ p.lastSequence event.backendID then none
  else some p

/-- The sequence of the backend is that of the event. -/
def advance (p : KVEventProvider F) (event : KVEvent) : KVEventProvider F :=
  if event.sequenced then
    { p with
      lastSequence := Function.update p.lastSequence event.backendID event.sequence
      hasSequence := Function.update p.hasSequence event.backendID true }
  else p

/-- The operation of an accepted event on the entries. -/
def apply (p : KVEventProvider F) (event : KVEvent) : KVEventProvider F :=
  match event.effectiveOperation with
  | .clear => p.clearBackend event.backendID
  | .remove =>
    match p.entries.find event.entryKey with
    | some (element, _) => { p with entries := p.entries.delete event.entryKey element }
    | none => p
  | _ =>
    let entry : KVEventEntry := { key := event.entryKey, event }
    match p.entries.find entry.key with
    | some (element, _) => { p with entries := (p.entries.setValue element entry).moveToFront element }
    | none =>
      let entries := p.entries.pushFront entry.key entry
      { p with entries := entries.evict (·.key) p.max entries.len }

/-- `Observe`: an event that is not known is applied. -/
def observe (p : KVEventProvider F) (now : Time) (event : KVEvent) : KVEventProvider F :=
  if event.backendID = "" then p
  else if event.effectiveOperation ≠ .clear ∧ event.cacheKey = "" then p
  else
    let event := event.withDefaults now
    let p := p.enterGeneration event.backendID event.generation
    match p.accept event with
    | none => p
    | some p => (p.advance event).apply event

/-! ## Matching -/

variable [Float64 F]

/-- The keys of a request that a backend holds, up to the first that it does not: their tokens and
the time of the last one. -/
def matchKeys (backendID : String) (now : Time) :
    List String → KVEventProvider F → Int → Time → Int × Time × KVEventProvider F
  | [], p, matched, latest => (matched, latest, p)
  | cacheKey :: keys, p, matched, latest =>
    match p.entries.find (backendKey backendID cacheKey) with
    | none => (matched, latest, p)
    | some (element, entry) =>
      if now.sub entry.event.observedAt > p.ttl ∨ entry.event.quality ≠ .fresh then
        (matched, latest, p)
      else
        matchKeys backendID now keys { p with entries := p.entries.moveToFront element }
          (wrap64 (matched + maxInt entry.event.matchedTokens 0)) entry.event.observedAt

/-- A match with many keys, which uses the entries that it finds. -/
def matchExternalPrefix (p : KVEventProvider F) (now : Time) (request : CacheMatchRequest)
    (backendID : String) : CacheEvidence F × KVEventProvider F :=
  let (matched, latest, p) := matchKeys backendID now request.externalCacheKeys p 0 Time.zero
  if matched = 0 then (missingCacheEvidence .kvEvents, p)
  else
    let matched :=
      if request.promptTokens > 0 ∧ matched > request.promptTokens then request.promptTokens
      else matched
    ({ matchedTokens := matched
       matchRatio :=
         if request.promptTokens > 0 then ratioOf matched request.promptTokens
         else Float64.ofInt 0
       source := .kvEvents
       observedAt := latest
       quality := .fresh
       confidence := confidenceForAge (ageAt now latest) p.lambda
       evidenceQuality := .strict }, p)

/-- The evidence of one entry. -/
def entryEvidence (p : KVEventProvider F) (now : Time) (request : CacheMatchRequest)
    (event : KVEvent) : CacheEvidence F :=
  let age := ageAt now event.observedAt
  let quality := if age > p.ttl then .stale else event.quality
  let total := if event.totalTokens ≤ 0 then request.promptTokens else event.totalTokens
  let matched := maxInt event.matchedTokens 0
  let matched := if total > 0 ∧ matched > total then total else matched
  let matched :=
    if request.promptTokens > 0 ∧ matched > request.promptTokens then request.promptTokens
    else matched
  { matchedTokens := matched
    matchRatio := if total > 0 then ratioOf matched total else Float64.ofInt 0
    source := .kvEvents
    observedAt := event.observedAt
    quality
    confidence := if quality = .fresh then confidenceForAge age p.lambda else Float64.ofInt 0
    evidenceQuality := .strict }

/-- `Match`: the evidence for a request. -/
def matchCache (p : KVEventProvider F) (now : Time) (request : CacheMatchRequest)
    (backendID : String) : CacheEvidence F × KVEventProvider F :=
  if request.cacheKey = "" ∧ request.externalCacheKeys = [] then
    (missingCacheEvidence .kvEvents, p)
  else if request.externalCacheKeys ≠ [] then p.matchExternalPrefix now request backendID
  else
    match p.entries.find (backendKey backendID request.cacheKey) with
    | none => (missingCacheEvidence .kvEvents, p)
    | some (element, entry) =>
      (p.entryEvidence now request entry.event,
        { p with entries := p.entries.moveToFront element })

end KVEventProvider

/-! ## The other providers -/

/-- The table of an affinity provider: the one of the controller, or one of its own. -/
inductive AffinityTable where
  | shared
  | own (affinity : Option Affinity)

/-- Evidence from an affinity table. -/
structure AffinityProvider (F : Type) where
  affinity : AffinityTable
  confidence : F

/-- Evidence from a backend's state. -/
structure ShadowIndexProvider (F : Type) where
  confidence : F
  maxAge : Duration

/-- A `CacheStateProvider`; `none` is a nil pointer. -/
inductive CacheStateProvider (F : Type) where
  | noCache
  | affinity (provider : Option (AffinityProvider F))
  | shadowIndex (provider : Option (ShadowIndexProvider F))
  | kvEvents (provider : Option (KVEventProvider F))

/-- The provider of a controller and the affinity table of the controller. -/
structure CacheState (F : Type) where
  affinity : Option Affinity
  provider : CacheStateProvider F

section Providers

variable {F : Type} [Float64 F]

/-- `AffinityProvider.Match` on its table. -/
def affinityEvidence (confidence : F) (affinity : Option Affinity) (now : Time)
    (request : CacheMatchRequest) (backendID : String) : CacheEvidence F × Option Affinity :=
  match affinity with
  | none => (missingCacheEvidence .affinity, none)
  | some table =>
    if request.cacheKey = "" then (missingCacheEvidence .affinity, some table)
    else
      let (mappedBackend, table) := table.get request.tenantID request.cacheKey now
      if mappedBackend = some backendID then
        ({ matchedTokens := maxInt request.promptTokens 0
           matchRatio := Float64.ofInt 1
           source := .affinity
           observedAt := now
           quality := .fresh
           confidence
           evidenceQuality := .estimated }, some table)
      else (missingCacheEvidence .affinity, some table)

/-- The evidence of the residency that a backend reports. -/
def shadowEvidence (provider : ShadowIndexProvider F) (now : Time) (request : CacheMatchRequest)
    (state : Snapshot F) : CacheEvidence F :=
  match state.signals.lookup "effective_residency_perc" with
  | none => missingCacheEvidence .shadowIndex
  | some signal =>
    if signal.hasValue = false ∨ signal.quality = .missing ∨ signal.quality = .invalid then
      missingCacheEvidence .shadowIndex
    else
      let observedAt := Time.unixMilli signal.observedAtUnixMillis
      let quality :=
        if signal.quality = .fresh ∧ provider.maxAge > 0 ∧ now.sub observedAt > provider.maxAge then
          .stale
        else signal.quality
      let ratio := clamp01 signal.value
      { matchedTokens := Float64.round (Float64.ofInt (maxInt request.promptTokens 0) * ratio)
        matchRatio := ratio
        source := .shadowIndex
        observedAt
        quality
        confidence := if quality = .fresh then provider.confidence else Float64.ofInt 0
        evidenceQuality := evidenceQualityOf signal }

/-- `provider.Match`. -/
def CacheState.matchCache (s : CacheState F) (now : Time) (request : CacheMatchRequest)
    (backend : CacheBackend F) : CacheEvidence F × CacheState F :=
  match s.provider with
  | .noCache => (missingCacheEvidence .none, s)
  | .affinity none => (missingCacheEvidence .affinity, s)
  | .affinity (some { affinity := .shared, confidence }) =>
    let (evidence, affinity) := affinityEvidence confidence s.affinity now request backend.id
    (evidence, { s with affinity })
  | .affinity (some { affinity := .own table, confidence }) =>
    let (evidence, table) := affinityEvidence confidence table now request backend.id
    (evidence, { s with provider := .affinity (some { affinity := .own table, confidence }) })
  | .shadowIndex none => (missingCacheEvidence .shadowIndex, s)
  | .shadowIndex (some provider) => (shadowEvidence provider now request backend.state, s)
  | .kvEvents none => (missingCacheEvidence .kvEvents, s)
  | .kvEvents (some provider) =>
    let (evidence, provider) := provider.matchCache now request backend.id
    (evidence, { s with provider := .kvEvents (some provider) })

/-- The backend that the controller's table holds for a tenant and a key. -/
def CacheState.mapping (s : CacheState F) (tenant key : String) : Option String :=
  s.affinity.bind (·.mapping tenant key)

/-- An affinity match leaves the table or reads it. -/
theorem affinityEvidence_table (confidence : F) (affinity : Option Affinity) (now : Time)
    (request : CacheMatchRequest) (backendID : String) :
    (affinityEvidence confidence affinity now request backendID).2 = affinity ∨
      ∃ table, affinity = some table ∧
        (affinityEvidence confidence affinity now request backendID).2 =
          some (table.get request.tenantID request.cacheKey now).2 := by
  unfold affinityEvidence
  cases affinity with
  | none => exact .inl rfl
  | some table =>
    dsimp only
    split
    · exact .inl rfl
    · refine .inr ⟨table, rfl, ?_⟩
      split
      · rfl
      · rfl

/-- A match adds and rebinds no mapping. -/
theorem CacheState.mapping_matchCache {s : CacheState F} {now : Time} {request : CacheMatchRequest}
    {backend : CacheBackend F} {tenant key mapped : String}
    (h : (s.matchCache now request backend).2.mapping tenant key = some mapped) :
    s.mapping tenant key = some mapped := by
  unfold matchCache at h
  split at h
  · exact h
  · exact h
  · rename_i confidence _
    dsimp only [mapping] at h ⊢
    rcases affinityEvidence_table confidence s.affinity now request backend.id with
      heq | ⟨table, htable, heq⟩
    · rwa [heq] at h
    · rw [heq] at h
      rw [htable]
      exact Affinity.mapping_get h
  · exact h
  · exact h
  · exact h
  · exact h
  · exact h

end Providers

end Kavora.Router
