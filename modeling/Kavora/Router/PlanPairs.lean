import Mathlib.Algebra.Notation.Lemmas
import Kavora.Router.Score

/-!
# Two plans side by side

Two controllers that differ in their states only plan the same request. The providers read one
signal of a state, the residency, so as long as that agrees the two plans match the same evidence
and their candidates differ by what the states say.

* `CacheState.matchCache_congr`: a match reads the residency of a state only.
* `CacheState.Clamped`: the confidence that a provider is configured with is not negative;
  `matchCache_not_neg` says that neither is that of its evidence. `NonNegative` is the same in an
  ordered field.
* `Controller.planCandidates_forall₂`: the candidates of the two plans.
* `Controller.withSignal`: a controller with one signal of one backend set.
-/

namespace Kavora.Router

open Lib BackendState
open Lib.Go (Float64 Map Time)
open Lib.Go.Float64 (ofInt Exact)

section

variable {F : Type} [Float64 F]

/-- What a plan asks its provider. -/
def RoutingRequest.matchRequest (request : RoutingRequest F) : CacheMatchRequest where
  requestID := request.requestID
  tenantID := request.tenantID
  cacheKey := request.cacheKey
  externalCacheKeys := request.externalCacheKeys
  promptTokens := request.promptTokens

/-- The two states say the same of the residency. -/
def SameResidency (state state' : Snapshot F) : Prop :=
  state'.signals.lookup "effective_residency_perc" = state.signals.lookup "effective_residency_perc"

/-- A match reads the residency of a state only. -/
theorem CacheState.matchCache_congr (s : CacheState F) (now : Time) (request : CacheMatchRequest)
    (id : String) {state state' : Snapshot F} (h : SameResidency state state') :
    s.matchCache now request { id, state := state' } = s.matchCache now request { id, state } := by
  unfold matchCache
  split
  · rfl
  · rfl
  · rfl
  · rfl
  · rfl
  · unfold shadowEvidence
    rw [show state'.signals.lookup _ = _ from h]
  · rfl
  · rfl

namespace Controller

variable {c c' : Controller F} {now : Time} {clock : Nat → Time} {rollout : Rollout F}
  {request : RoutingRequest F}

/-- The candidates of two plans, as long as the matches find the same: `P` holds of the provider at
each match, and `R` relates the candidates of a backend. -/
theorem planCandidates_forall₂ {P : CacheState F → Prop} {R : Candidate F → Candidate F → Prop}
    (hP : ∀ cache now request backend, P cache → P (cache.matchCache now request backend).2)
    (hmatch : ∀ cache i id, P cache →
      cache.matchCache (clock i) request.matchRequest { id, state := c'.states.index id .zero } =
        cache.matchCache (clock i) request.matchRequest { id, state := c.states.index id .zero })
    (hexcluded : ∀ candidate, candidate.eligible = false → candidate.queuePenaltyMS = ofInt 0 →
      R candidate candidate) :
    ∀ (i : Nat) (backends : List BackendDescriptor) (cache : CacheState F), P cache →
      (∀ backend ∈ backends,
        exclusions rollout.assignment.backendPool request.requirements backend = [] →
        ∀ cache i, P cache →
          let evidence := (cache.matchCache (clock i) request.matchRequest
            { id := backend.id, state := c.states.index backend.id .zero }).1
          R (c.scored now rollout.mode request backend (c.states.index backend.id .zero) evidence)
            (c'.scored now rollout.mode request backend (c'.states.index backend.id .zero)
              evidence)) →
      List.Forall₂ R (c.planCandidates now clock rollout request i backends cache).1
        (c'.planCandidates now clock rollout request i backends cache).1
  | _, [], _, _, _ => .nil
  | i, backend :: backends, cache, hcache, hscored => by
    have hrest := fun other hother => hscored other (List.mem_cons_of_mem _ hother)
    have hsame := hmatch cache i backend.id hcache
    unfold RoutingRequest.matchRequest at hsame
    rw [planCandidates, planCandidates]
    dsimp only
    unfold planCandidate
    dsimp only
    split
    · exact .cons (hexcluded _ rfl rfl)
        (planCandidates_forall₂ hP hmatch hexcluded (i + 1) backends cache hcache hrest)
    · rename_i hnot
      have heligible := Lib.Go.sortStrings_eq_nil.mp (not_not.mp hnot)
      rw [hsame]
      exact .cons (hscored backend List.mem_cons_self heligible cache i hcache)
        (planCandidates_forall₂ hP hmatch hexcluded (i + 1) backends _ (hP _ _ _ _ hcache) hrest)

end Controller

/-! ## One signal of one backend -/

/-- The signal counts: it is fresh and has a value. -/
structure Signal.Counts (signal : Signal F) : Prop where
  quality : signal.quality = .fresh
  hasValue : signal.hasValue = true

/-- The snapshot with a signal set. -/
def setSignal (state : Snapshot F) (name : String) (signal : Signal F) : Snapshot F :=
  { state with signals := state.signals.insert name signal }

omit [Float64 F] in
theorem lookup_setSignal_self (state : Snapshot F) (name : String) (signal : Signal F) :
    (setSignal state name signal).signals.lookup name = some signal :=
  AList.lookup_insert _

omit [Float64 F] in
theorem lookup_setSignal (state : Snapshot F) {name other : String} (signal : Signal F)
    (h : other ≠ name) :
    (setSignal state name signal).signals.lookup other = state.signals.lookup other :=
  AList.lookup_insert_ne h

theorem value_of_counts {state : Snapshot F} {name : String} {signal : Signal F}
    (h : state.signals.lookup name = some signal) (hcounts : Signal.Counts signal) :
    value state name = some signal.value ∧ signalValue state name = signal.value := by
  have hvalue : value state name = some signal.value := by
    unfold value
    rw [h]
    dsimp only
    rw [if_neg]
    rw [hcounts.quality, hcounts.hasValue]
    simp
  refine ⟨hvalue, ?_⟩
  unfold signalValue
  rw [hvalue, h]
  exact if_neg (not_not.mpr (congrArg some hcounts.quality))

namespace Controller

/-- The controller with a signal of a backend set; `state` is the one of the backend. -/
def withSignal (c : Controller F) (id : String) (state : Snapshot F) (name : String)
    (signal : Signal F) : Controller F :=
  { c with states := c.states.insert id (setSignal state name signal) }

variable {c : Controller F} {id name : String} {state : Snapshot F} {signal : Signal F}

omit [Float64 F] in
theorem withSignal_self :
    (c.withSignal id state name signal).states.index id .zero = setSignal state name signal := by
  unfold withSignal Map.index
  dsimp only
  rw [AList.lookup_insert]
  rfl

omit [Float64 F] in
theorem withSignal_ne {other : String} (h : other ≠ id) :
    (c.withSignal id state name signal).states.index other .zero = c.states.index other .zero := by
  unfold withSignal Map.index
  dsimp only
  rw [AList.lookup_insert_ne h]

omit [Float64 F] in
theorem index_of_lookup (h : c.states.lookup id = some state) : c.states.index id .zero = state := by
  unfold Map.index
  rw [h]
  rfl

omit [Float64 F] in
/-- The other signals stay. -/
theorem withSignal_residency (h : c.states.lookup id = some state)
    (hname : "effective_residency_perc" ≠ name) (other : String) :
    SameResidency (c.states.index other .zero)
      ((c.withSignal id state name signal).states.index other .zero) := by
  unfold SameResidency
  by_cases hsame : other = id
  · subst hsame
    rw [withSignal_self, lookup_setSignal state signal hname, index_of_lookup h]
  · rw [withSignal_ne hsame]

end Controller

/-! ## Confidence -/

/-- The confidence that a provider is configured with is not negative; its constructor clamps it. -/
def CacheState.Clamped (s : CacheState F) : Prop :=
  match s.provider with
  | .affinity (some provider) => Float64.lt provider.confidence (ofInt 0) = false
  | .shadowIndex (some provider) => Float64.lt provider.confidence (ofInt 0) = false
  | _ => True

section Clamped

variable [Float64.Scaling F]

theorem clamp01_not_neg (x : F) : Float64.lt (clamp01 x) (ofInt 0) = false := by
  unfold clamp01
  split
  · exact Float64.Irrefl.lt_irrefl _
  · rename_i hneg
    split
    · exact Float64.lt_asymm Float64.Scaling.zero_lt_one
    · exact Bool.eq_false_of_not_eq_true hneg

theorem ite_not_neg {p : Prop} [Decidable p] {x : F} (h : Float64.lt x (ofInt 0) = false) :
    Float64.lt (if p then x else ofInt 0) (ofInt 0) = false := by
  split
  · exact h
  · exact Float64.Irrefl.lt_irrefl _

theorem missingCacheEvidence_not_neg (source : CacheSource) :
    Float64.lt (missingCacheEvidence source : CacheEvidence F).confidence (ofInt 0) = false :=
  Float64.Irrefl.lt_irrefl _

theorem affinityEvidence_not_neg {confidence : F} (h : Float64.lt confidence (ofInt 0) = false)
    (affinity : Option Affinity) (now : Time) (request : CacheMatchRequest) (backendID : String) :
    Float64.lt (affinityEvidence confidence affinity now request backendID).1.confidence
      (ofInt 0) = false := by
  unfold affinityEvidence
  cases affinity with
  | none => exact missingCacheEvidence_not_neg _
  | some table =>
    dsimp only
    split
    · exact missingCacheEvidence_not_neg _
    split
    · exact h
    · exact missingCacheEvidence_not_neg _

theorem shadowEvidence_not_neg {provider : ShadowIndexProvider F}
    (h : Float64.lt provider.confidence (ofInt 0) = false) (now : Time)
    (request : CacheMatchRequest) (state : Snapshot F) :
    Float64.lt (shadowEvidence provider now request state).confidence (ofInt 0) = false := by
  unfold shadowEvidence
  split
  · exact missingCacheEvidence_not_neg _
  split
  · exact missingCacheEvidence_not_neg _
  · exact ite_not_neg h

theorem kvEvidence_not_neg (provider : KVEventProvider F) (now : Time)
    (request : CacheMatchRequest) (backendID : String) :
    Float64.lt (provider.matchCache now request backendID).1.confidence (ofInt 0) = false := by
  unfold KVEventProvider.matchCache
  split
  · exact missingCacheEvidence_not_neg _
  split
  · unfold KVEventProvider.matchExternalPrefix
    dsimp only
    split
    · exact missingCacheEvidence_not_neg _
    · exact clamp01_not_neg _
  split
  · exact missingCacheEvidence_not_neg _
  · exact ite_not_neg (clamp01_not_neg _)

/-- Neither the evidence nor the provider after a match has a negative confidence. -/
theorem CacheState.matchCache_not_neg {s : CacheState F} (h : s.Clamped) (now : Time)
    (request : CacheMatchRequest) (backend : CacheBackend F) :
    Float64.lt (s.matchCache now request backend).1.confidence (ofInt 0) = false ∧
      (s.matchCache now request backend).2.Clamped := by
  obtain ⟨affinity, provider⟩ := s
  cases provider with
  | noCache => exact ⟨missingCacheEvidence_not_neg _, trivial⟩
  | affinity provider =>
    obtain _ | ⟨table, confidence⟩ := provider
    · exact ⟨missingCacheEvidence_not_neg _, trivial⟩
    · cases table with
      | shared => exact ⟨affinityEvidence_not_neg h _ now request _, h⟩
      | own table => exact ⟨affinityEvidence_not_neg h _ now request _, h⟩
  | shadowIndex provider =>
    obtain _ | provider := provider
    · exact ⟨missingCacheEvidence_not_neg _, trivial⟩
    · exact ⟨shadowEvidence_not_neg h now request _, h⟩
  | kvEvents provider =>
    obtain _ | provider := provider
    · exact ⟨missingCacheEvidence_not_neg _, trivial⟩
    · exact ⟨kvEvidence_not_neg provider now request _, trivial⟩

end Clamped

end

/-! ## Confidence in an ordered field -/

section Exact

variable {K : Type} [Field K] [LinearOrder K] [IsStrictOrderedRing K] [Exact K]

attribute [local instance] Exact.float64 Float64.exact_scaling

/-- The confidence that a provider is configured with, which its constructor clamps. -/
def CacheState.NonNegative (s : CacheState K) : Prop :=
  match s.provider with
  | .affinity (some provider) => 0 ≤ provider.confidence
  | .shadowIndex (some provider) => 0 ≤ provider.confidence
  | _ => True

omit [IsStrictOrderedRing K] in
theorem not_neg_iff {x : K} : Float64.lt x (ofInt 0) = false ↔ 0 ≤ x := by
  show decide (x < ((0 : Int) : K)) = false ↔ _
  rw [decide_eq_false_iff_not, not_lt, Int.cast_zero]

omit [IsStrictOrderedRing K] in
theorem CacheState.clamped_iff {s : CacheState K} : s.Clamped ↔ s.NonNegative := by
  unfold Clamped NonNegative
  split
  · exact not_neg_iff
  · exact not_neg_iff
  · exact Iff.rfl

/-- Neither the evidence nor the provider after a match has a negative confidence. -/
theorem CacheState.matchCache_confidence {s : CacheState K} (h : s.NonNegative) (now : Time)
    (request : CacheMatchRequest) (backend : CacheBackend K) :
    0 ≤ (s.matchCache now request backend).1.confidence ∧
      (s.matchCache now request backend).2.NonNegative := by
  have hclamped := s.matchCache_not_neg (clamped_iff.mpr h) now request backend
  exact ⟨not_neg_iff.mp hclamped.1, clamped_iff.mp hclamped.2⟩

end Exact

end Kavora.Router
