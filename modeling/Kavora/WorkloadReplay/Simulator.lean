import Kavora.Lib.Lines
import Kavora.Lib.Statistics

/-!
# The simulator of workload replays (`simulator.go`)

A trace of anonymous requests is simulated under a policy. The variables of the loop of
`simulatePolicy` are the fields of `Simulation`, and one iteration is `Simulation.step`.

* `readTrace`: the requests of a file; each is checked (`Signature.check`).
* `validateConfig`, `ValidConfig`: what `Compare` and `EvaluatePolicies` accept.
* `Simulation.admission`: a request waits while `MaxConcurrency` requests are active.
* `Simulation.schedule`: when each request is admitted, and when its backend is available after it.
* `simulatePolicy`, `compareReplay`, `evaluatePolicies`: the metrics and the reports.
-/

namespace Kavora.WorkloadReplay

open Lib Lib.Go
open Lib.Go.Float64 (ofInt)

/-- A request of a trace. -/
structure Signature (F : Type) where
  promptTokens : Int64
  outputTokens : Int64
  sharedPrefixHash : String
  sharedPrefixTokens : Int64
  tenantClass : String
  arrivalDeltaMS : F
  streaming : Bool
  model : String
  deriving DecidableEq

/-- The settings of a simulation. -/
structure Config (F : Type) where
  backends : Int64
  minHitRatio : F
  maxConcurrency : Int64
  evidenceQuality : String
  ttftSLOMS : F
  prefillTokensPerSecond : F
  decodeTokensPerSecond : F

/-- What a policy makes of a trace. -/
structure Metrics (F : Type) where
  requests : Nat
  p95TTFTMS : F
  throughputReqS : F
  sloViolationRate : F
  cacheReuseRatio : F
  backendImbalance : F

variable {F : Type} [Float64 F]

/-! ## Traces -/

/-- The checks of `ReadTrace`; `none` if they pass. -/
def Signature.check (signature : Signature F) : Option String :=
  if signature.promptTokens ≤ 0 ∨ signature.outputTokens < 0 ∨ signature.sharedPrefixTokens < 0 ∨
      signature.promptTokens < signature.sharedPrefixTokens then
    some "invalid token counts"
  else if 0 < signature.sharedPrefixTokens ∧ signature.sharedPrefixHash = "" then
    some "shared_prefix_hash is required"
  else if signature.tenantClass = "" ∨ signature.model = "" ∨
      Float64.lt signature.arrivalDeltaMS (ofInt 0) then
    some "tenant_class, model, and non-negative arrival_delta_ms are required"
  else none

/-- The buffer of the scanner. -/
def maxLine : Nat := 2 * 1024 * 1024

/-- The loop of `ReadTrace` over what is left, from a line on. `decode` is `decoder.Decode`. -/
def readLines (decode : Bytes → Except String (Signature F)) :
    Nat → List Bytes → Except String (List (Signature F))
  | _, [] => .ok []
  | line, piece :: pieces =>
    if maxLine ≤ piece.length then .error "bufio.Scanner: token too long"
    else
      match decode ((stripSuffix cr piece).getD piece) with
      | .error err => .error ("trace line " ++ toString line ++ ": " ++ err)
      | .ok signature =>
        match signature.check with
        | some err => .error ("trace line " ++ toString line ++ ": " ++ err)
        | none => (readLines decode (line + 1) pieces).map fun trace => signature :: trace

/-- The trace of a file, which has at least one request. -/
def readTrace (decode : Bytes → Except String (Signature F)) (content : Bytes) :
    Except String (List (Signature F)) :=
  match readLines decode 1 ((splitInclusive content).map dropLineEnd) with
  | .error err => .error err
  | .ok trace => if trace.length = 0 then .error "trace is empty" else .ok trace

/-! ## Configurations -/

/-- The settings with their defaults. -/
def normalize (config : Config F) : Config F :=
  { backends := if config.backends = 0 then 2 else config.backends
    minHitRatio := config.minHitRatio
    maxConcurrency := if config.maxConcurrency = 0 then 16 else config.maxConcurrency
    evidenceQuality := if config.evidenceQuality = "" then "missing" else config.evidenceQuality
    ttftSLOMS := if Float64.eq config.ttftSLOMS (ofInt 0) then ofInt 500 else config.ttftSLOMS
    prefillTokensPerSecond :=
      if Float64.eq config.prefillTokensPerSecond (ofInt 0) then ofInt 8000
      else config.prefillTokensPerSecond
    decodeTokensPerSecond :=
      if Float64.eq config.decodeTokensPerSecond (ofInt 0) then ofInt 100
      else config.decodeTokensPerSecond }

/-- The settings can be simulated. -/
def validateConfig (config : Config F) : Except String Unit :=
  if config.backends < 1 ∨ config.maxConcurrency < 1 ∨ Float64.lt config.minHitRatio (ofInt 0) ∨
      Float64.lt (ofInt 1) config.minHitRatio ∨ Float64.le config.ttftSLOMS (ofInt 0) ∨
      Float64.le config.prefillTokensPerSecond (ofInt 0) ∨
      Float64.le config.decodeTokensPerSecond (ofInt 0) then
    .error "invalid replay policy configuration"
  else if config.evidenceQuality ≠ "strict" ∧ config.evidenceQuality ≠ "estimated" ∧
      config.evidenceQuality ≠ "fallback" ∧ config.evidenceQuality ≠ "missing" then
    .error "evidence_quality must be strict, estimated, fallback, or missing"
  else .ok ()

/-- Settings that can be simulated. -/
structure ValidConfig (F : Type) [Float64 F] extends Config F where
  valid : validateConfig toConfig = .ok ()

/-- The number of the backends. -/
def ValidConfig.fleet (config : ValidConfig F) : Nat := config.backends.toInt.toNat

theorem validateConfig_ok {config : Config F} (h : validateConfig config = .ok ()) :
    ¬ config.backends < 1 ∧ ¬ config.maxConcurrency < 1 ∧
      ¬ Float64.le config.prefillTokensPerSecond (ofInt 0) ∧
      ¬ Float64.le config.decodeTokensPerSecond (ofInt 0) := by
  unfold validateConfig at h
  split at h
  · cases h
  · rename_i hnot
    simp only [not_or] at hnot
    exact ⟨hnot.1, hnot.2.1, hnot.2.2.2.2.2.1, hnot.2.2.2.2.2.2⟩

theorem ValidConfig.fleet_pos (config : ValidConfig F) : 0 < config.fleet := by
  have hpos := (validateConfig_ok config.valid).1
  rw [Int64.lt_iff_toInt_lt, Int64.toInt_one] at hpos
  unfold ValidConfig.fleet
  omega

instance (config : ValidConfig F) : NeZero config.fleet := ⟨config.fleet_pos.ne'⟩

/-! ## Policies -/

/-- The policies. -/
inductive ReplayPolicy where
  | static
  | loadAware
  | kvV1
  | kvV2
  deriving DecidableEq, Repr

/-- The name of a policy. -/
def ReplayPolicy.name : ReplayPolicy → String
  | .static => "static"
  | .loadAware => "load-aware"
  | .kvV1 => "kv-v1"
  | .kvV2 => "kv-v2"

/-- Older names of policies. -/
def canonicalPolicy (policy : String) : String :=
  if policy = "baseline" then "static" else if policy = "candidate" then "kv-v1" else policy

/-- The policy of this name. -/
def validPolicy (policy : String) : Option ReplayPolicy :=
  [.static, .loadAware, .kvV1, .kvV2].find? fun valid => valid.name = policy

/-! ## The loop -/

/-- The finishes after a time. -/
def retainAfter (values : List F) (timestamp : F) : List F :=
  values.filter fun value => Float64.lt timestamp value

/-- The first backend that no other one is available before. -/
def leastAvailable {n : Nat} [NeZero n] (values : Vector F n) : Fin n :=
  (List.finRange n).tail.foldl (fun selected index =>
    if Float64.lt (values.get index) (values.get selected) then index else selected) (Fin.ofNat n 0)

/-- The state of a simulation with `n` backends. -/
structure Simulation (F : Type) (n : Nat) where
  /-- The number of the next request. -/
  index : Nat
  backendAvailable : Vector F n
  routeCounts : Vector F n
  prefixOwner : Map String (Fin n)
  ttfts : List F
  sourceArrival : F
  finish : F
  activeFinishes : List F
  sharedTokens : Int64
  reusedTokens : Int64
  violations : Int64

namespace Simulation

/-- No request has come. -/
def new (n : Nat) : Simulation F n where
  index := 0
  backendAvailable := .replicate n (ofInt 0)
  routeCounts := .replicate n (ofInt 0)
  prefixOwner := ∅
  ttfts := []
  sourceArrival := ofInt 0
  finish := ofInt 0
  activeFinishes := []
  sharedTokens := 0
  reusedTokens := 0
  violations := 0

variable {n : Nat} [NeZero n]

/-- `sourceArrival` of a request. -/
def arrival (s : Simulation F n) (signature : Signature F) : F :=
  s.sourceArrival + signature.arrivalDeltaMS

/-- The admission of a request, and the requests that are active then. -/
def admission (config : Config F) (s : Simulation F n) (signature : Signature F) : F × List F :=
  let admission := s.arrival signature
  let activeFinishes := retainAfter s.activeFinishes admission
  if config.maxConcurrency.toInt ≤ activeFinishes.length then
    let activeFinishes := sortFloat64s activeFinishes
    let admission := activeFinishes.headD (ofInt 0)
    (admission, retainAfter activeFinishes admission)
  else (admission, activeFinishes)

end Simulation

namespace Signature

/-- The request has a prefix that others may share. -/
def hasReusablePrefix (signature : Signature F) : Prop :=
  0 < signature.sharedPrefixTokens ∧ signature.sharedPrefixHash ≠ ""

instance (signature : Signature F) : Decidable signature.hasReusablePrefix :=
  inferInstanceAs (Decidable (_ ∧ _))

/-- The prefix, which is that of a model. -/
def prefixKey (signature : Signature F) : String :=
  signature.model ++ "\x00" ++ signature.sharedPrefixHash

end Signature

namespace Simulation

variable {n : Nat} [NeZero n]

/-- The backend that `prefixOwner` has for a reusable prefix. -/
def owner (s : Simulation F n) (signature : Signature F) : Option (Fin n) :=
  if signature.hasReusablePrefix then s.prefixOwner.lookup signature.prefixKey else none

/-- How long a request waits on a backend. -/
def queue (s : Simulation F n) (admission : F) (backend : Fin n) : F :=
  Float64.max (ofInt 0) (s.backendAvailable.get backend - admission)

/-- The backend of a request. -/
def route (config : Config F) (policy : ReplayPolicy) (s : Simulation F n)
    (signature : Signature F) (admission : F) : Fin n :=
  let ratio : F :=
    ofInt signature.sharedPrefixTokens.toInt / ofInt signature.promptTokens.toInt
  let least := leastAvailable s.backendAvailable
  let kv (crowded : Fin n → Bool) : Fin n :=
    match s.owner signature with
    | none => least
    | some owner =>
      if Float64.le config.minHitRatio ratio ∧ config.evidenceQuality ≠ "missing" then
        if crowded owner then least else owner
      else least
  match policy with
  | .static => Fin.ofNat n s.index
  | .loadAware => least
  | .kvV1 => kv fun _ => false
  | .kvV2 =>
    kv fun owner =>
      let cacheBenefit : F :=
        ofInt signature.sharedPrefixTokens.toInt / config.prefillTokensPerSecond * ofInt 1000
      Float64.lt (s.queue admission least + cacheBenefit) (s.queue admission owner)

/-- The tokens of a request that its backend has. -/
def cached (s : Simulation F n) (signature : Signature F) (backend : Fin n) : Int64 :=
  if s.owner signature = some backend then signature.sharedPrefixTokens else 0

/-- The time to the first token on a backend. -/
def ttft (config : Config F) (s : Simulation F n) (signature : Signature F) (admission : F)
    (backend : Fin n) : F :=
  let uncached := signature.promptTokens - s.cached signature backend
  s.queue admission backend + ofInt 8 +
    ofInt uncached.toInt / config.prefillTokensPerSecond * ofInt 1000

/-- One iteration. -/
def step (config : Config F) (policy : ReplayPolicy) (s : Simulation F n)
    (signature : Signature F) : Simulation F n :=
  let (admission, activeFinishes) := s.admission config signature
  let backend := s.route config policy signature admission
  let cached := s.cached signature backend
  let ttft := s.ttft config signature admission backend
  let completion :=
    ttft + ofInt signature.outputTokens.toInt / config.decodeTokensPerSecond * ofInt 1000
  let backendAvailable := s.backendAvailable.set backend (admission + completion)
  { index := s.index + 1
    backendAvailable
    routeCounts := s.routeCounts.set backend (s.routeCounts[backend] + ofInt 1)
    prefixOwner :=
      if signature.hasReusablePrefix then s.prefixOwner.insert signature.prefixKey backend
      else s.prefixOwner
    ttfts := s.ttfts ++ [ttft]
    sourceArrival := s.arrival signature
    finish :=
      if Float64.lt s.finish backendAvailable[backend] then backendAvailable[backend] else s.finish
    activeFinishes := activeFinishes ++ [backendAvailable[backend]]
    sharedTokens := s.sharedTokens + signature.sharedPrefixTokens
    reusedTokens := s.reusedTokens + cached
    violations :=
      if Float64.lt config.ttftSLOMS ttft then s.violations + 1 else s.violations }

/-- The simulation of some requests. -/
def run (config : Config F) (policy : ReplayPolicy) (s : Simulation F n)
    (trace : List (Signature F)) : Simulation F n :=
  trace.foldl (step config policy) s

/-- The admission of a request, and when its backend is available after it. -/
def span (config : Config F) (policy : ReplayPolicy) (s : Simulation F n)
    (signature : Signature F) : F × F :=
  let admission := (s.admission config signature).1
  (admission,
    (s.step config policy signature).backendAvailable[s.route config policy signature admission])

/-- The spans of the requests of a trace. -/
def schedule (config : Config F) (policy : ReplayPolicy) :
    Simulation F n → List (Signature F) → List (F × F)
  | _, [] => []
  | s, signature :: trace =>
    s.span config policy signature :: schedule config policy (s.step config policy signature) trace

end Simulation

/-! ## Reports -/

section Reports

variable [Rounding F]

/-- The interpolated percentile of some values. -/
def percentile (values : List F) (percentile : F) : F :=
  let ordered := sortFloat64s values
  let item (i : Int) : F := ordered.getD i.toNat (ofInt 0)
  if ordered.length = 1 then item 0
  else
    let position := percentile * ofInt (ordered.length - 1)
    let lower := Rounding.floor position
    let upper := Rounding.ceil position
    if lower = upper then item lower
    else item lower + (item upper - item lower) * (position - ofInt lower)

/-- The coefficient of variation, or zero. -/
def coefficientOfVariation (values : List F) : F :=
  let mean := values.foldl (· + ·) (ofInt 0) / ofInt values.length
  if Float64.eq mean (ofInt 0) then ofInt 0
  else
    let variance :=
      values.foldl (fun variance value => variance + (value - mean) * (value - mean)) (ofInt 0)
    Rounding.sqrt (variance / ofInt values.length) / mean

/-- A ratio, or zero. -/
def safeRatio (numerator denominator : F) : F :=
  if Float64.eq denominator (ofInt 0) then ofInt 0 else numerator / denominator

/-- The change from a baseline, in percent. -/
def percentChange (value baseline : F) : F :=
  if Float64.eq baseline (ofInt 0) then
    if Float64.eq value (ofInt 0) then ofInt 0 else ofInt 100
  else (value / baseline - ofInt 1) * ofInt 100

/-- A policy on a trace. -/
def simulatePolicy (trace : List (Signature F)) (config : ValidConfig F)
    (policy : ReplayPolicy) : Metrics F :=
  let s := (Simulation.new config.fleet).run config.toConfig policy trace
  let durationSeconds := Float64.max (s.finish / ofInt 1000) (ofInt 1 / ofInt 1000)
  { requests := trace.length
    p95TTFTMS := percentile s.ttfts (ofInt 95 / ofInt 100)
    throughputReqS := ofInt trace.length / durationSeconds
    sloViolationRate := ofInt s.violations.toInt / ofInt trace.length
    cacheReuseRatio := safeRatio (ofInt s.reusedTokens.toInt) (ofInt s.sharedTokens.toInt)
    backendImbalance := coefficientOfVariation s.routeCounts.toList }

/-- The changes from the baseline to the candidate. -/
structure Comparison (F : Type) where
  p95TTFTPercent : F
  throughputPercent : F
  sloViolationsPercent : F
  cacheReusePercent : F
  imbalancePercent : F

/-- The comparison of two policies. -/
structure Report (F : Type) where
  schemaVersion : String
  policy : String
  evidenceQuality : String
  baseline : Metrics F
  candidate : Metrics F
  comparison : Comparison F
  recommendation : String
  approvalStatus : String
  claimBoundary : String

/-- The metrics of one of the policies. -/
structure PolicyResult (F : Type) where
  policy : ReplayPolicy
  metrics : Metrics F

/-- The metrics of all policies. -/
structure LaboratoryReport (F : Type) where
  schemaVersion : String
  evidenceQuality : String
  policies : List (PolicyResult F)
  claimBoundary : String

/-- The version of the reports. -/
def schemaVersion : String := "kavora-workload-replay/v1"

/-- `Compare`. -/
def compareReplay (trace : List (Signature F)) (config : Config F) : Except String (Report F) :=
  let config := normalize config
  match h : validateConfig config with
  | .error err => .error err
  | .ok () =>
    let config : ValidConfig F := { toConfig := config, valid := h }
    let baseline := simulatePolicy trace config .static
    let candidate := simulatePolicy trace config .kvV1
    .ok
      { schemaVersion
        policy := "candidate"
        evidenceQuality := config.evidenceQuality
        baseline
        candidate
        comparison :=
          { p95TTFTPercent := percentChange candidate.p95TTFTMS baseline.p95TTFTMS
            throughputPercent := percentChange candidate.throughputReqS baseline.throughputReqS
            sloViolationsPercent :=
              percentChange candidate.sloViolationRate baseline.sloViolationRate
            cacheReusePercent := percentChange candidate.cacheReuseRatio baseline.cacheReuseRatio
            imbalancePercent :=
              percentChange candidate.backendImbalance baseline.backendImbalance }
        recommendation :=
          if config.evidenceQuality = "missing" ∨ config.evidenceQuality = "fallback" then
            "NEEDS_MORE_EVIDENCE"
          else if Float64.le candidate.p95TTFTMS (baseline.p95TTFTMS * (ofInt 103 / ofInt 100)) ∧
              Float64.le (baseline.throughputReqS * (ofInt 98 / ofInt 100))
                candidate.throughputReqS ∧
              Float64.le candidate.sloViolationRate baseline.sloViolationRate then
            "SAFE_FOR_CANARY"
          else "NOT_SAFE_FOR_CANARY"
        approvalStatus := "human_approval_required"
        claimBoundary :=
          "This is an offline deterministic simulation over anonymous workload signatures. " ++
            "It does not replay prompt content, mutate production configuration, or replace a " ++
            "real shadow/canary measurement." }

/-- `EvaluatePolicies`; `quote` is the format `%q`. -/
def evaluatePolicies (quote : String → String) (trace : List (Signature F)) (config : Config F)
    (policies : List String) : Except String (LaboratoryReport F) :=
  let config := normalize config
  match h : validateConfig config with
  | .error err => .error err
  | .ok () =>
    let config : ValidConfig F := { toConfig := config, valid := h }
    if policies.length = 0 then .error "at least one replay policy is required"
    else
      let results : Except String (List (PolicyResult F)) :=
        policies.mapM fun name =>
          match validPolicy (canonicalPolicy name) with
          | none => .error ("unsupported replay policy " ++ quote (canonicalPolicy name))
          | some policy => .ok { policy, metrics := simulatePolicy trace config policy }
      results.map fun policies =>
        { schemaVersion
          evidenceQuality := config.evidenceQuality
          policies
          claimBoundary :=
            "Policy laboratory results are deterministic simulations over anonymous workload " ++
              "signatures. They do not establish counterfactual production performance." }

end Reports

end Kavora.WorkloadReplay
