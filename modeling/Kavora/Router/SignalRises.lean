import Kavora.Router.Heavier

/-!
# A signal of a backend rises

Two plans for one request, before and after one measured signal of one backend rises.

* `Controller.plan_queue_raised`: a longer queue gains nothing for its backend.
* `Controller.plan_pressure_raised_iff`: when more pressure does not. A measured pressure of zero is
  read as a missing one, for which the free cold blocks stand in.
-/

namespace Kavora.Router

open Lib BackendState
open Lib.Go (Float64 Map Time)
open Lib.Go.Float64 (ofInt Exact)

variable {K : Type} [Field K] [LinearOrder K] [IsStrictOrderedRing K] [Exact K]

attribute [local instance] Exact.float64 Float64.exact_lawful Float64.exact_irrefl

namespace Controller

variable {c : Controller K}

theorem scored_penalty (hpredictor : c.predictor.Checked) (now : Time) (mode : Mode)
    (request : RoutingRequest K) (backend : BackendDescriptor) (state : Snapshot K)
    (evidence : CacheEvidence K) :
    0 ≤ (c.scored now mode request backend state evidence).queuePenaltyMS := by
  show 0 ≤ (if c.predictor.matches request.model backend.attributes then c.predictor
    else .default).queuePenaltyMS
  split
  · exact hpredictor.queuePenaltyMS
  · exact TTFTPredictor.default_checked.queuePenaltyMS

/-- What a state says of the load of its backend. -/
structure LoadLe (state state' : Snapshot K) : Prop where
  observedAt : state'.observedAtUnixMillis = state.observedAtUnixMillis
  queue : signalValue state "queue_depth" ≤ signalValue state' "queue_depth"
  pressure : Controller.pressure state ≤ Controller.pressure state'
  prefillRate : Controller.prefillRate state' = Controller.prefillRate state

theorem scored_heavier (hlogistic : LogisticMonotone K) (hpredictor : c.predictor.Checked)
    (now : Time) (mode : Mode) (request : RoutingRequest K) (backend : BackendDescriptor)
    {state state' : Snapshot K} {evidence : CacheEvidence K} (h : LoadLe state state')
    (hconfidence : 0 ≤ evidence.confidence) :
    Heavier backend.id (c.scored now mode request backend state evidence)
      (c.scored now mode request backend state' evidence) where
  backendID := rfl
  eligible := rfl
  matchedTokens := rfl
  recentPrefillRate := h.prefillRate
  queuePenaltyMS := rfl
  stateConfidence := by
    show c.stateConfidence now state' = c.stateConfidence now state
    unfold stateConfidence
    rw [h.observedAt]
  cacheConfidence := rfl
  penalty := scored_penalty hpredictor now mode request backend state evidence
  queue := h.queue
  score := by
    have hweight : c.weight now mode state' evidence = c.weight now mode state evidence := by
      unfold weight stateConfidence
      rw [h.observedAt]
    rw [scored_score, scored_score, hweight]
    exact mul_le_mul_of_nonneg_left
      (rawScore_le hlogistic hpredictor request backend evidence h.queue h.pressure h.prefillRate)
      (c.weight_nonneg now mode state hconfidence)
  same hne := absurd rfl hne

/-- The candidates of a plan when the load of one backend rises. -/
theorem planned_heavier (hlogistic : LogisticMonotone K) (hpredictor : c.predictor.Checked)
    (hcache : c.cache.NonNegative) (env : Externals K) (now : Time) (clock : Nat → Time)
    (request : RoutingRequest K) (backends : List BackendDescriptor) {id name : String}
    {state : Snapshot K} {signal : Signal K} (hstate : c.states.lookup id = some state)
    (hname : "effective_residency_perc" ≠ name) (hload : LoadLe state (setSignal state name signal)) :
    List.Forall₂ (Heavier id) (c.planned env now clock request backends)
      ((c.withSignal id state name signal).planned env now clock request backends) := by
  refine planCandidates_forall₂ (P := CacheState.NonNegative) ?_ ?_ ?_ 0 backends c.cache hcache ?_
  · exact fun cache now request backend h => (cache.matchCache_confidence h now request backend).2
  · exact fun cache _ id _ => cache.matchCache_congr _ _ id (withSignal_residency hstate hname id)
  · intro candidate _ hpenalty
    refine Heavier.refl id ?_
    rw [hpenalty]
    exact (show ((0 : Int) : K) = 0 from Int.cast_zero).ge
  · intro backend _ _ cache i h
    have hconfidence := (cache.matchCache_confidence h (clock i) request.matchRequest
      { id := backend.id, state := c.states.index backend.id .zero }).1
    dsimp only
    by_cases hsame : backend.id = id
    · subst hsame
      rw [withSignal_self, index_of_lookup hstate] at *
      exact scored_heavier hlogistic hpredictor now _ request backend hload hconfidence
    · rw [withSignal_ne hsame]
      exact Heavier.refl id (scored_penalty hpredictor now _ request backend _ _)

/-- A plan after the load of one backend rises. -/
theorem plan_heavier (hlogistic : LogisticMonotone K) (hpredictor : c.predictor.Checked)
    (hcache : c.cache.NonNegative) (env : Externals K) (now : Time) (clock : Nat → Time)
    (request : RoutingRequest K) {backends : List BackendDescriptor} {id name : String}
    {state : Snapshot K} {signal : Signal K} (hstate : c.states.lookup id = some state)
    (hname : "effective_residency_perc" ≠ name) (hload : LoadLe state (setSignal state name signal))
    (hids : (backends.map (·.id)).Nodup) (hmem : id ∈ backends.map (·.id)) :
    let decision := (c.plan env now clock request backends).1
    let decision' := ((c.withSignal id state name signal).plan env now clock request backends).1
    decision.rank id ≤ decision'.rank id ∧ (decision'.Selects id → decision.Selects id) ∧
      ∀ other ∈ backends, decision.rank other.id < decision.rank id →
        decision'.rank other.id < decision'.rank id := by
  have hplanned := c.planned_ids env now clock request backends
  obtain ⟨hranks, hselects, hbehind⟩ := planFrom_heavier env (c.rollout env request.requestID now)
    now request (by rw [hplanned]; exact hids)
    (planned_heavier hlogistic hpredictor hcache env now clock request backends hstate hname hload)
    (by rw [hplanned]; exact hmem)
  refine ⟨hranks, hselects, fun other hother => ?_⟩
  have hid : other.id ∈ (c.planned env now clock request backends).map (·.backendID) := by
    rw [hplanned]
    exact List.mem_map_of_mem hother
  obtain ⟨candidate, hcandidate, hsame⟩ := List.mem_map.mp hid
  rw [← hsame]
  exact hbehind candidate hcandidate

/-! ## The queue -/

/-- **A longer queue gains nothing**: the backend stays behind the backends that were ranked before
it, and is not selected instead of them. -/
theorem plan_queue_raised (hlogistic : LogisticMonotone K) (hpredictor : c.predictor.Checked)
    (hcache : c.cache.NonNegative) (env : Externals K) (now : Time) (clock : Nat → Time)
    (request : RoutingRequest K) {backends : List BackendDescriptor} {id : String}
    {state : Snapshot K} {signal : Signal K} (hstate : c.states.lookup id = some state)
    (hsignal : state.signals.lookup "queue_depth" = some signal) (hcounts : Signal.Counts signal)
    {value : K} (hraise : signal.value ≤ value) (hids : (backends.map (·.id)).Nodup)
    (hmem : id ∈ backends.map (·.id)) :
    let decision := (c.plan env now clock request backends).1
    let decision' := ((c.withSignal id state "queue_depth" { signal with value }).plan env now clock
      request backends).1
    decision.rank id ≤ decision'.rank id ∧ (decision'.Selects id → decision.Selects id) ∧
      ∀ other ∈ backends, decision.rank other.id < decision.rank id →
        decision'.rank other.id < decision'.rank id := by
  refine plan_heavier hlogistic hpredictor hcache env now clock request hstate (by decide) ?_ hids
    hmem
  have hkeeps : ∀ other, other ≠ "queue_depth" →
      BackendState.value (setSignal state "queue_depth" { signal with value }) other =
          BackendState.value state other ∧
        signalValue (setSignal state "queue_depth" { signal with value }) other =
          signalValue state other :=
    fun other hother => signalValue_congr (lookup_setSignal state _ hother)
  have hcounts' : Signal.Counts { signal with value } := ⟨hcounts.quality, hcounts.hasValue⟩
  refine ⟨rfl, ?_, ?_, ?_⟩
  · rw [(value_of_counts hsignal hcounts).2,
      (value_of_counts (lookup_setSignal_self state "queue_depth" _) hcounts').2]
    exact hraise
  · unfold Controller.pressure
    rw [(hkeeps "kv_pressure" (by decide)).2, (hkeeps "cold_free_perc" (by decide)).1]
  · unfold Controller.prefillRate
    rw [(hkeeps "recent_prefill_tokens_per_second" (by decide)).2,
      (hkeeps "prefill_tokens_per_second" (by decide)).2]

/-! ## The pressure -/

omit [IsStrictOrderedRing K] in
/-- A measured pressure that is not zero. -/
theorem pressure_of_ne {state : Snapshot K} {signal : Signal K}
    (hsignal : state.signals.lookup "kv_pressure" = some signal) (hcounts : Signal.Counts signal)
    (hne : signal.value ≠ 0) : pressure state = signal.value := by
  unfold pressure
  rw [(value_of_counts hsignal hcounts).2]
  exact if_neg fun heq => hne ((of_decide_eq_true heq).trans Int.cast_zero)

omit [IsStrictOrderedRing K] in
/-- A measured pressure of zero gives way to the free cold blocks. -/
theorem pressure_of_eq {state : Snapshot K} {signal : Signal K}
    (hsignal : state.signals.lookup "kv_pressure" = some signal) (hcounts : Signal.Counts signal)
    (hzero : signal.value = 0) :
    pressure state = match BackendState.value state "cold_free_perc" with
      | some coldFree => 1 - clamp01 coldFree
      | none => 0 := by
  unfold pressure
  rw [(value_of_counts hsignal hcounts).2, hzero]
  dsimp only
  rw [if_pos (show Float64.eq (0 : K) (ofInt 0) = true from decide_eq_true Int.cast_zero.symm)]
  cases BackendState.value state "cold_free_perc" with
  | none => rfl
  | some coldFree =>
    show ((1 : Int) : K) - clamp01 coldFree = 1 - clamp01 coldFree
    rw [Int.cast_one]

theorem clamp01_eq_one {x : K} : clamp01 x = 1 ↔ 1 ≤ x := by
  unfold clamp01
  show (if decide (x < ((0 : Int) : K)) = true then ((0 : Int) : K)
    else if decide (((1 : Int) : K) < x) = true then ((1 : Int) : K) else x) = 1 ↔ _
  simp only [Int.cast_zero, Int.cast_one, decide_eq_true_eq]
  have hone : (0 : K) < 1 := zero_lt_one
  grind

omit [IsStrictOrderedRing K] in
/-- A higher measured pressure is a higher pressure, when a measured zero is zero. -/
theorem pressure_le_raised {state : Snapshot K} {signal : Signal K} {value : K}
    (hsignal : state.signals.lookup "kv_pressure" = some signal) (hcounts : Signal.Counts signal)
    (hnonneg : 0 ≤ signal.value) (hraise : signal.value ≤ value)
    (hzero : signal.value = 0 → pressure state = 0) :
    pressure state ≤ pressure (setSignal state "kv_pressure" { signal with value }) := by
  have hcounts' : Signal.Counts { signal with value } := ⟨hcounts.quality, hcounts.hasValue⟩
  have hset := lookup_setSignal_self state "kv_pressure" { signal with value }
  have hcold : BackendState.value (setSignal state "kv_pressure" { signal with value })
      "cold_free_perc" = BackendState.value state "cold_free_perc" :=
    (signalValue_congr (lookup_setSignal state _ (by decide))).1
  by_cases hvalue : value = 0
  · have hold : signal.value = 0 := le_antisymm (hvalue ▸ hraise) hnonneg
    rw [pressure_of_eq hsignal hcounts hold, pressure_of_eq hset hcounts' hvalue, hcold]
  · rw [pressure_of_ne hset hcounts' hvalue]
    by_cases hold : signal.value = 0
    · rw [hzero hold]
      exact hnonneg.trans hraise
    · rw [pressure_of_ne hsignal hcounts hold]
      exact hraise

/-- **More pressure gains nothing, and a measured zero is zero**, exactly when the pressure is not
zero, or no cold block is known to be used. -/
theorem plan_pressure_raised_iff (hlogistic : LogisticMonotone K) (hpredictor : c.predictor.Checked)
    (hcache : c.cache.NonNegative) (env : Externals K) (now : Time) (clock : Nat → Time)
    (request : RoutingRequest K) {backends : List BackendDescriptor} {id : String}
    {state : Snapshot K} {signal : Signal K} (hstate : c.states.lookup id = some state)
    (hsignal : state.signals.lookup "kv_pressure" = some signal) (hcounts : Signal.Counts signal)
    {value : K} (hnonneg : 0 ≤ signal.value) (hraise : signal.value ≤ value)
    (hids : (backends.map (·.id)).Nodup) (hmem : id ∈ backends.map (·.id)) :
    let decision := (c.plan env now clock request backends).1
    let decision' := ((c.withSignal id state "kv_pressure" { signal with value }).plan env now clock
      request backends).1
    (decision.rank id ≤ decision'.rank id ∧ (decision'.Selects id → decision.Selects id)) ∧
        (signal.value = 0 → pressure state = 0) ↔
      (signal.value = 0 →
        ∀ coldFree, BackendState.value state "cold_free_perc" = some coldFree → 1 ≤ coldFree) := by
  intro decision decision'
  have hcold : signal.value = 0 → (pressure state = 0 ↔
      ∀ coldFree, BackendState.value state "cold_free_perc" = some coldFree → 1 ≤ coldFree) := by
    intro hzero
    rw [pressure_of_eq hsignal hcounts hzero]
    cases BackendState.value state "cold_free_perc" with
    | none => simp
    | some coldFree =>
      dsimp only
      have hone : (∀ x, some coldFree = some x → 1 ≤ x) ↔ clamp01 coldFree = 1 := by
        rw [clamp01_eq_one]
        simp
      rw [hone, eq_comm]
      exact eq_comm.trans (sub_eq_zero.trans eq_comm)
  constructor
  · rintro ⟨-, hzero⟩ h
    exact (hcold h).mp (hzero h)
  · intro hcondition
    have hzero : signal.value = 0 → pressure state = 0 := fun h => (hcold h).mpr (hcondition h)
    have hkeeps : ∀ other, other ≠ "kv_pressure" →
        BackendState.value (setSignal state "kv_pressure" { signal with value }) other =
            BackendState.value state other ∧
          signalValue (setSignal state "kv_pressure" { signal with value }) other =
            signalValue state other :=
      fun other hother => signalValue_congr (lookup_setSignal state _ hother)
    have hpressure := pressure_le_raised hsignal hcounts hnonneg hraise hzero
    have hload : LoadLe state (setSignal state "kv_pressure" { signal with value }) := by
      refine ⟨rfl, (hkeeps "queue_depth" (by decide)).2.ge, hpressure, ?_⟩
      unfold Controller.prefillRate
      rw [(hkeeps "recent_prefill_tokens_per_second" (by decide)).2,
        (hkeeps "prefill_tokens_per_second" (by decide)).2]
    obtain ⟨hranks, hselects, -⟩ := plan_heavier hlogistic hpredictor hcache env now clock request
      hstate (by decide) hload hids hmem
    exact ⟨⟨hranks, hselects⟩, hzero⟩

end Controller

namespace SignalSample

local instance : Exact Rat := ⟨fun _ => 1, fun x => (x + 1 / 2).floor⟩

attribute [local instance] Exact.float64

open SelectionSample (env request backends measured now)

def fresh (value : Rat) : Signal Rat where
  value
  hasValue := true
  quality := .fresh
  source := "vllm"
  observedAtUnixMillis := 1000
  semantics := ""
  evidenceQuality := .strict

/-- A backend with a pressure and free cold blocks. -/
def pressed (pressure coldFree : Rat) : Snapshot Rat :=
  { measured with
    signals := ((∅ : Map String (Signal Rat)).insert "kv_pressure" (fresh pressure)).insert
      "cold_free_perc" (fresh coldFree) }

def controller (state other : Snapshot Rat) : Controller Rat :=
  { SelectionSample.controller with
    states := ((∅ : Map String (Snapshot Rat)).insert "a" state).insert "b" other }

theorem logistic : LogisticMonotone Rat := fun _ _ _ => le_rfl

theorem checked (state other : Snapshot Rat) : (controller state other).predictor.Checked :=
  TTFTPredictor.default_checked

theorem plan_queue_raised_measured :
    let c := controller measured (pressed (3 / 5) 1)
    let raised := c.withSignal "a" measured "queue_depth" (fresh 2)
    (c.plan env now (fun _ => now) request backends).1.rank "a" ≤
      (raised.plan env now (fun _ => now) request backends).1.rank "a" := by
  have hsignal : measured.signals.lookup "queue_depth" = some (fresh 1) := rfl
  exact (Controller.plan_queue_raised logistic (checked _ _) trivial env now _ request rfl hsignal
    ⟨rfl, rfl⟩ (by decide +kernel) (by decide) (by decide)).1

theorem plan_pressure_raised_measured :
    let c := controller (pressed (1 / 5) (1 / 5)) (pressed (3 / 5) 1)
    let raised := c.withSignal "a" (pressed (1 / 5) (1 / 5)) "kv_pressure" (fresh (1 / 2))
    (c.plan env now (fun _ => now) request backends).1.rank "a" ≤
      (raised.plan env now (fun _ => now) request backends).1.rank "a" := by
  have hsignal : (pressed (1 / 5) (1 / 5)).signals.lookup "kv_pressure" =
      some (fresh (1 / 5)) := rfl
  exact ((Controller.plan_pressure_raised_iff logistic (checked _ _) trivial env now _ request rfl
    hsignal ⟨rfl, rfl⟩ (by decide +kernel) (by decide +kernel) (by decide) (by decide)).mpr
      (fun h => absurd h (by decide +kernel))).1.1

/-- A pressure of zero is read as `4 / 5`, and one of `1 / 2` is an improvement. -/
theorem plan_pressure_gains :
    let state := pressed 0 (1 / 5)
    let c := controller state (pressed (3 / 5) 1)
    let raised := c.withSignal "a" state "kv_pressure" (fresh (1 / 2))
    Controller.pressure state = 4 / 5 ∧
      ¬ ((c.plan env now (fun _ => now) request backends).1.rank "a" ≤
          (raised.plan env now (fun _ => now) request backends).1.rank "a" ∧
        ((raised.plan env now (fun _ => now) request backends).1.Selects "a" →
          (c.plan env now (fun _ => now) request backends).1.Selects "a")) := by
  refine ⟨by decide +kernel, fun h => absurd h.1 ?_⟩
  decide +kernel

end SignalSample

end Kavora.Router
