import Kavora.Router.PlanPairs
import Kavora.Router.Readings

/-!
# Backends without confidence

A plan is given the state and the evidence of every eligible backend. It weighs a sum of either sign
with a confidence: a backend without evidence scores zero, and in load-aware mode one without a
state scores a hundredth of its sum. A usable backend whose queue costs more than its cache saves
comes after these, and a plan that looks at the first candidate only falls back.

* `Controller.offers`: what a plan is given of the eligible backends.
* `Controller.Usable`: the state, or the evidence, of a backend gives confidence.
* `Controller.Overtakes`: a usable backend scores more than one that is not.
* `Controller.overtakes_iff`: in an ordered field the sign of its sum says so, in the modes that
  weigh the evidence.
* `Controller.plan_selects_confident_iff`: when a plan selects the best usable backend.
-/

namespace Kavora.Router

open Lib BackendState
open Lib.Go (Duration Float64 Map Time sortStrings_eq_nil)
open Lib.Go.Float64 (ofInt Exact)

/-- What a plan is given of an eligible backend. -/
structure Offer (F : Type) where
  backend : BackendDescriptor
  state : Snapshot F
  evidence : CacheEvidence F

section

variable {F : Type} [Float64 F]

/-- The queue of a backend, zero where it is not fresh. -/
def Offer.queue (offer : Offer F) : F := signalValue offer.state "queue_depth"

/-- The shortest queue of some backends; `none` is infinity. -/
def shortestQueue (offers : List (Offer F)) : Option F :=
  offers.foldl
    (fun least offer =>
      match least with
      | none => some offer.queue
      | some least => if Float64.lt offer.queue least then some offer.queue else some least)
    none

theorem leastQueue_eligible (candidates : List (Candidate F)) :
    leastQueue (candidates.filter (·.eligible)) = leastQueue candidates := by
  unfold leastQueue
  rw [List.foldl_filter]
  refine congrArg (fun f => candidates.foldl f none) (funext fun least => funext fun candidate => ?_)
  by_cases heligible : candidate.eligible = true
  · rw [if_pos heligible, if_pos heligible]
  · rw [if_neg heligible, if_neg heligible]

namespace Controller

variable {c : Controller F} {now : Time} {clock : Nat → Time} {rollout : Rollout F}
  {request : RoutingRequest F}

/-! ## What a plan is given -/

/-- The states of the eligible backends and the evidence that the provider has of them; `clock i` is
the time that it reads for the `i`-th. -/
def offersFrom (c : Controller F) (clock : Nat → Time) (rollout : Rollout F)
    (request : RoutingRequest F) :
    Nat → List BackendDescriptor → CacheState F → List (Offer F)
  | _, [], _ => []
  | i, backend :: backends, cache =>
    if exclusions rollout.assignment.backendPool request.requirements backend = [] then
      let state := c.states.index backend.id .zero
      let answer := cache.matchCache (clock i) request.matchRequest { id := backend.id, state }
      { backend, state, evidence := answer.1 } ::
        c.offersFrom clock rollout request (i + 1) backends answer.2
    else c.offersFrom clock rollout request (i + 1) backends cache

/-- What a plan is given of the eligible backends. -/
def offers (env : Externals F) (c : Controller F) (now : Time) (clock : Nat → Time)
    (request : RoutingRequest F) (backends : List BackendDescriptor) : List (Offer F) :=
  c.offersFrom clock (c.rollout env request.requestID now) request 0 backends c.cache

/-- The candidate of a backend. -/
def candidateOf (c : Controller F) (now : Time) (mode : Mode) (request : RoutingRequest F)
    (offer : Offer F) : Candidate F :=
  c.scored now mode request offer.backend offer.state offer.evidence

theorem planCandidates_offers (clock : Nat → Time) :
    ∀ (i : Nat) (backends : List BackendDescriptor) (cache : CacheState F),
      (c.planCandidates now clock rollout request i backends cache).1.filter (·.eligible) =
        (c.offersFrom clock rollout request i backends cache).map
          (c.candidateOf now rollout.mode request)
  | _, [], _ => rfl
  | i, backend :: backends, cache => by
    rw [planCandidates, offersFrom]
    dsimp only
    unfold planCandidate
    dsimp only
    by_cases hexcluded : exclusions rollout.assignment.backendPool request.requirements backend = []
    · rw [if_neg (not_not.mpr (sortStrings_eq_nil.mpr hexcluded)), if_pos hexcluded,
        List.filter_cons_of_pos rfl, planCandidates_offers, List.map_cons]
      rfl
    · rw [if_pos fun hnil => hexcluded (sortStrings_eq_nil.mp hnil), if_neg hexcluded,
        List.filter_cons_of_neg Bool.false_ne_true, planCandidates_offers]

/-- An excluded backend has no score. -/
theorem planCandidates_excluded (clock : Nat → Time) :
    ∀ (i : Nat) (backends : List BackendDescriptor) (cache : CacheState F),
      ∀ candidate ∈ (c.planCandidates now clock rollout request i backends cache).1,
        candidate.eligible = false → candidate.score = ofInt 0
  | _, [], _, _, hmem, _ => absurd hmem List.not_mem_nil
  | i, backend :: backends, cache, candidate, hmem, hexcluded => by
    rw [planCandidates] at hmem
    dsimp only at hmem
    obtain rfl | hmem := List.mem_cons.mp hmem
    · unfold planCandidate at hexcluded ⊢
      dsimp only at hexcluded ⊢
      split at hexcluded
      · rename_i hsome
        rw [if_pos hsome]
        rfl
      · cases hexcluded
    · exact planCandidates_excluded clock (i + 1) backends _ candidate hmem hexcluded

theorem offersFrom_not_neg [Float64.Scaling F] (clock : Nat → Time) :
    ∀ (i : Nat) (backends : List BackendDescriptor) (cache : CacheState F), cache.Clamped →
      ∀ offer ∈ c.offersFrom clock rollout request i backends cache,
        Float64.lt offer.evidence.confidence (ofInt 0) = false
  | _, [], _, _, _, hmem => absurd hmem List.not_mem_nil
  | i, backend :: backends, cache, hcache, offer, hmem => by
    rw [offersFrom] at hmem
    split at hmem
    · have hmatch := cache.matchCache_not_neg hcache (clock i) request.matchRequest
        { id := backend.id, state := c.states.index backend.id .zero }
      obtain rfl | hmem := List.mem_cons.mp hmem
      · exact hmatch.1
      · exact offersFrom_not_neg clock (i + 1) backends _ hmatch.2 offer hmem
    · exact offersFrom_not_neg clock (i + 1) backends cache hcache offer hmem

/-! ## Backends that a plan can use -/

/-- A backend gives confidence: in load-aware mode by a state inside the maximum age, in the other
modes by its evidence. -/
def Usable (c : Controller F) (now : Time) (mode : Mode) (offer : Offer F) : Prop :=
  if mode = .loadAware then
    0 < offer.state.observedAtUnixMillis ∧ ¬ c.OverAge now offer.state ∧
      Float64.le (confidenceForAge (ageAt now (Time.unixMilli offer.state.observedAtUnixMillis))
        c.stateLambda) (ofInt 0) = false
  else Float64.le offer.evidence.confidence (ofInt 0) = false

instance (c : Controller F) (now : Time) (mode : Mode) (offer : Offer F) :
    Decidable (c.Usable now mode offer) :=
  inferInstanceAs (Decidable (@ite Prop (mode = .loadAware) _ _ _))

/-- The queue of a backend costs more than its cache saves, and the policy has the veto. -/
def QueueCosts (c : Controller F) (rollout : Rollout F) (request : RoutingRequest F)
    (offers : List (Offer F)) (offer : Offer F) : Prop :=
  let predictor :=
    if c.predictor.matches request.model offer.backend.attributes then c.predictor else .default
  let rate := prefillRate offer.state
  rollout.assignment.assignedPolicy = "kv-v2" ∧ ∃ least ∈ shortestQueue offers,
    0 < offer.evidence.matchedTokens ∧ Float64.le offer.queue least = false ∧
      Float64.lt
        (ofInt offer.evidence.matchedTokens /
          (if Float64.le rate (ofInt 0) then ofInt 8000 else rate) * ofInt 1000)
        ((offer.queue - least) * predictor.queuePenaltyMS) = true

instance (c : Controller F) (rollout : Rollout F) (request : RoutingRequest F)
    (offers : List (Offer F)) (offer : Offer F) :
    Decidable (c.QueueCosts rollout request offers offer) :=
  inferInstanceAs (Decidable (_ ∧ _))

/-- A score after the veto. -/
def lessVeto (c : Controller F) (rollout : Rollout F) (request : RoutingRequest F)
    (offers : List (Offer F)) (offer : Offer F) (score : F) : F :=
  if c.QueueCosts rollout request offers offer then score - ofInt 1000000 else score

/-- What a backend scores: its confidence times its sum. -/
def offerScore (c : Controller F) (now : Time) (rollout : Rollout F) (request : RoutingRequest F)
    (offers : List (Offer F)) (offer : Offer F) : F :=
  c.lessVeto rollout request offers offer
    (c.weight now rollout.mode offer.state offer.evidence *
      c.rawScore request offer.backend offer.state offer.evidence)

/-- What a backend without confidence scores: a hundredth of its sum in load-aware mode, and nothing
in the other ones. -/
def idleScore (c : Controller F) (rollout : Rollout F) (request : RoutingRequest F)
    (offers : List (Offer F)) (offer : Offer F) : F :=
  c.lessVeto rollout request offers offer
    (if rollout.mode = .loadAware then
      ofInt 1 / ofInt 100 * c.rawScore request offer.backend offer.state offer.evidence
    else ofInt 0)

/-- A usable backend scores more than one without confidence, or the same with the smaller ID. -/
def Overtakes (c : Controller F) (now : Time) (rollout : Rollout F) (request : RoutingRequest F)
    (offers : List (Offer F)) (usable idle : Offer F) : Prop :=
  let score := c.offerScore now rollout request offers usable
  let bar := c.idleScore rollout request offers idle
  Float64.lt bar score = true ∨ Float64.eq score bar = true ∧ usable.backend.id < idle.backend.id

instance (c : Controller F) (now : Time) (rollout : Rollout F) (request : RoutingRequest F)
    (offers : List (Offer F)) (usable idle : Offer F) :
    Decidable (c.Overtakes now rollout request offers usable idle) :=
  inferInstanceAs (Decidable (_ ∨ _))

variable [Float64.Scaling F] {offers : List (Offer F)} {offer : Offer F}

omit [Float64.Scaling F] in
/-- When a state gives confidence. -/
theorem stateConfidence_usable_iff [Float64.Lawful F] :
    Float64.le (c.stateConfidence now offer.state) (ofInt 0) = false ↔
      c.Usable now .loadAware offer := by
  have hzero : Float64.le (ofInt 0 : F) (ofInt 0) = true :=
    Float64.le_self (Float64.Lawful.ofInt_not_nan 0)
  unfold Usable
  rw [if_pos rfl, stateConfidence_eq]
  unfold trusted
  by_cases htrusted : 0 < offer.state.observedAtUnixMillis ∧ ¬ c.OverAge now offer.state
  · rw [if_pos htrusted]
    exact ⟨fun hpos => ⟨htrusted.1, htrusted.2, hpos⟩, fun h => h.2.2⟩
  · rw [if_neg htrusted, hzero]
    exact ⟨fun h => absurd h.symm Bool.false_ne_true, fun h => absurd ⟨h.1, h.2.1⟩ htrusted⟩

theorem candidateOf_confident (mode : Mode) :
    (c.candidateOf now mode request offer).Confident mode ↔ c.Usable now mode offer := by
  by_cases hmode : mode = .loadAware
  · subst hmode
    exact stateConfidence_usable_iff
  · unfold Candidate.Confident Candidate.confidence Usable
    rw [if_neg hmode, if_neg hmode]
    rfl

/-- A state without confidence weighs a hundredth. -/
theorem weight_idle (hmode : rollout.mode = .loadAware)
    (hidle : ¬ c.Usable now rollout.mode offer) :
    c.weight now rollout.mode offer.state offer.evidence = ofInt 1 / ofInt 100 := by
  rw [hmode, ← stateConfidence_usable_iff, Bool.not_eq_false] at hidle
  have hhundredth : Float64.lt (ofInt 0) (ofInt 1 / ofInt 100 : F) = true :=
    Float64.Scaling.div_pos (by decide) (by decide) (by decide)
  have hless : Float64.lt (c.stateConfidence now offer.state) (ofInt 1 / ofInt 100) = true := by
    obtain hneg | hzero := Bool.or_eq_true_iff.mp hidle
    · exact Float64.Lawful.lt_trans hneg hhundredth
    · refine Float64.lt_of_eq_of_lt ?_ ?_ hzero hhundredth
      · refine Bool.eq_false_of_not_eq_true fun hnan => ?_
        have hne := Float64.Scaling.nan_eq hnan (b := ofInt 0)
        exact Bool.false_ne_true (hne.symm.trans hzero)
      · exact Float64.Lawful.div_not_nan (by decide) (by decide)
  unfold weight
  rw [if_pos hmode]
  exact Float64.Scaling.max_of_lt hless

/-- The veto keeps equal numbers equal. -/
theorem lessVeto_congr {a b : F} (h : Float64.eq a b = true) (ha : Float64.isNaN a = false)
    (hb : Float64.isNaN b = false) :
    Float64.eq (c.lessVeto rollout request offers offer a)
        (c.lessVeto rollout request offers offer b) = true ∧
      Float64.isNaN (c.lessVeto rollout request offers offer b) = false := by
  unfold lessVeto
  split
  · exact ⟨Float64.Scaling.sub_congr h (Float64.Scaling.sub_not_nan ha (by decide) (by decide)),
      Float64.Scaling.sub_not_nan hb (by decide) (by decide)⟩
  · exact ⟨h, hb⟩

omit [Float64.Scaling F] in
theorem eq_self {a : F} (h : Float64.isNaN a = false) : Float64.eq a a = true := by
  unfold Float64.isNaN at h
  rwa [Bool.not_eq_false'] at h

/-- What a backend without confidence scores. -/
theorem offerScore_idle (offers : List (Offer F)) (hidle : ¬ c.Usable now rollout.mode offer)
    (hconfidence : Float64.lt offer.evidence.confidence (ofInt 0) = false)
    (hnumber : Float64.isNaN (c.weight now rollout.mode offer.state offer.evidence *
      c.rawScore request offer.backend offer.state offer.evidence) = false) :
    Float64.eq (c.offerScore now rollout request offers offer)
        (c.idleScore rollout request offers offer) = true ∧
      Float64.isNaN (c.idleScore rollout request offers offer) = false := by
  unfold offerScore idleScore
  by_cases hmode : rollout.mode = .loadAware
  · rw [if_pos hmode, weight_idle hmode hidle] at *
    exact lessVeto_congr (eq_self hnumber) hnumber hnumber
  · rw [if_neg hmode]
    refine lessVeto_congr ?_ hnumber (Float64.Lawful.ofInt_not_nan 0)
    have hweight : c.weight now rollout.mode offer.state offer.evidence =
        offer.evidence.confidence := if_neg hmode
    unfold Usable at hidle
    rw [if_neg hmode, Bool.not_eq_false] at hidle
    refine Float64.Scaling.zero_mul ?_ hnumber
    rw [hweight]
    exact (Bool.or_eq_true_iff.mp hidle).resolve_left (by rw [hconfidence]; exact Bool.false_ne_true)

theorem offerScore_not_nan
    (hnumber : Float64.isNaN (c.weight now rollout.mode offer.state offer.evidence *
      c.rawScore request offer.backend offer.state offer.evidence) = false) :
    Float64.isNaN (c.offerScore now rollout request offers offer) = false := by
  unfold offerScore lessVeto
  split
  · exact Float64.Scaling.sub_not_nan hnumber (by decide) (by decide)
  · exact hnumber

/-! ## The selection -/

variable {env : Externals F} {backends : List BackendDescriptor}

omit [Float64.Scaling F] in
/-- The candidates of a plan that are eligible. -/
theorem planned_offers (env : Externals F) (c : Controller F) (now : Time) (clock : Nat → Time)
    (request : RoutingRequest F) (backends : List BackendDescriptor) :
    (c.planned env now clock request backends).filter (·.eligible) =
      (c.offers env now clock request backends).map
        (c.candidateOf now (c.rollout env request.requestID now).mode request) :=
  planCandidates_offers clock 0 backends c.cache

omit [Float64.Scaling F] in
theorem mem_planned_iff (env : Externals F) (c : Controller F) (now : Time) (clock : Nat → Time)
    (request : RoutingRequest F) (backends : List BackendDescriptor) {candidate : Candidate F} :
    candidate ∈ c.planned env now clock request backends ∧ candidate.eligible = true ↔
      ∃ offer ∈ c.offers env now clock request backends,
        c.candidateOf now (c.rollout env request.requestID now).mode request offer = candidate := by
  rw [← List.mem_map, ← planned_offers, List.mem_filter]

omit [Float64.Scaling F] in
/-- The veto on the candidates of a plan is that on what the plan is given. -/
theorem vetoOne_candidateOf (env : Externals F) (c : Controller F) (now : Time)
    (clock : Nat → Time) (request : RoutingRequest F) (backends : List BackendDescriptor)
    (offer : Offer F) :
    let rollout := c.rollout env request.requestID now
    (rollout.vetoOne (c.planned env now clock request backends)
        (c.candidateOf now rollout.mode request offer)).score =
      c.offerScore now rollout request (c.offers env now clock request backends) offer := by
  intro rollout
  have hleast : leastQueue (c.planned env now clock request backends) =
      shortestQueue (c.offers env now clock request backends) := by
    rw [← leastQueue_eligible, planned_offers]
    unfold leastQueue
    rw [List.foldl_map]
    rfl
  have hvetoes : rollout.Vetoes (c.planned env now clock request backends)
        (c.candidateOf now rollout.mode request offer) ↔
      c.QueueCosts rollout request (c.offers env now clock request backends) offer := by
    unfold Rollout.Vetoes Vetoed
    rw [hleast]
    exact ⟨fun ⟨hpolicy, least, hmem, _, hveto⟩ => ⟨hpolicy, least, hmem, hveto⟩,
      fun ⟨hpolicy, least, hmem, hveto⟩ => ⟨hpolicy, least, hmem, rfl, hveto⟩⟩
  rw [Rollout.vetoOne_eq]
  unfold offerScore lessVeto
  by_cases hveto : rollout.Vetoes (c.planned env now clock request backends)
      (c.candidateOf now rollout.mode request offer)
  · rw [if_pos hveto, if_pos (hvetoes.mp hveto)]
    rfl
  · rw [if_neg hveto, if_neg (mt hvetoes.mpr hveto)]
    rfl

omit [Float64.Scaling F] in
/-- The eligible candidates after the veto. -/
theorem mem_veto_planned_iff (env : Externals F) (c : Controller F) (now : Time)
    (clock : Nat → Time) (request : RoutingRequest F) (backends : List BackendDescriptor)
    (candidate : Candidate F) :
    let rollout := c.rollout env request.requestID now
    let veto := rollout.vetoOne (c.planned env now clock request backends)
    candidate ∈ rollout.veto (c.planned env now clock request backends) ∧
        candidate.eligible = true ↔
      ∃ offer ∈ c.offers env now clock request backends,
        veto (c.candidateOf now rollout.mode request offer) = candidate := by
  intro rollout veto
  rw [Rollout.veto_eq, List.mem_map]
  constructor
  · rintro ⟨⟨before, hmem, rfl⟩, heligible⟩
    rw [(rollout.vetoOne_fields _ before).2.1] at heligible
    obtain ⟨offer, hoffer, rfl⟩ :=
      (mem_planned_iff env c now clock request backends).mp ⟨hmem, heligible⟩
    exact ⟨offer, hoffer, rfl⟩
  · rintro ⟨offer, hoffer, rfl⟩
    obtain ⟨hmem, heligible⟩ :=
      (mem_planned_iff env c now clock request backends).mpr ⟨offer, hoffer, rfl⟩
    exact ⟨⟨_, hmem, rfl⟩, (rollout.vetoOne_fields _ _).2.1.trans heligible⟩

/-- The weighed sums of a plan are numbers: no confidence of zero meets an infinite sum. -/
def Numbers (env : Externals F) (c : Controller F) (now : Time) (clock : Nat → Time)
    (request : RoutingRequest F) (backends : List BackendDescriptor) : Prop :=
  ∀ offer ∈ c.offers env now clock request backends,
    Float64.isNaN (c.weight now (c.rollout env request.requestID now).mode offer.state
      offer.evidence * c.rawScore request offer.backend offer.state offer.evidence) = false

/-- The candidates of different backends can be compared. -/
theorem planned_comparable (hids : (backends.map (·.id)).Nodup)
    (hnumbers : c.Numbers env now clock request backends) :
    Comparable ((c.rollout env request.requestID now).veto
      (c.planned env now clock request backends)) where
  ids := by
    rw [Rollout.veto_ids, planned_ids]
    exact hids
  scores candidate hmem := by
    by_cases heligible : candidate.eligible = true
    · obtain ⟨offer, hoffer, rfl⟩ :=
        (mem_veto_planned_iff env c now clock request backends candidate).mp ⟨hmem, heligible⟩
      rw [vetoOne_candidateOf]
      exact offerScore_not_nan (hnumbers offer hoffer)
    · rw [Rollout.veto_eq, List.mem_map] at hmem
      obtain ⟨before, hbefore, rfl⟩ := hmem
      rw [(Rollout.vetoOne_fields _ _ before).2.1] at heligible
      rw [Rollout.vetoOne_eq, if_neg fun ⟨_, _, _, hsome, _⟩ => heligible hsome,
        planCandidates_excluded clock 0 backends c.cache before hbefore
          (Bool.eq_false_of_not_eq_true heligible)]
      exact Float64.Lawful.ofInt_not_nan 0

/-- A usable backend comes before one without confidence when it overtakes it. -/
theorem less_iff_overtakes (hcache : c.cache.Clamped)
    (hnumbers : c.Numbers env now clock request backends) {usable idle : Offer F}
    (husable : usable ∈ c.offers env now clock request backends)
    (hmem : idle ∈ c.offers env now clock request backends)
    (hidle : ¬ c.Usable now (c.rollout env request.requestID now).mode idle) :
    let rollout := c.rollout env request.requestID now
    let veto := rollout.vetoOne (c.planned env now clock request backends)
    (veto (c.candidateOf now rollout.mode request usable)).less
        (veto (c.candidateOf now rollout.mode request idle)) = true ↔
      c.Overtakes now rollout request (c.offers env now clock request backends) usable idle := by
  intro rollout veto
  obtain ⟨hid, heligible, -⟩ := rollout.vetoOne_fields (c.planned env now clock request backends)
    (c.candidateOf now rollout.mode request usable)
  obtain ⟨hid', heligible', -⟩ := rollout.vetoOne_fields
    (c.planned env now clock request backends) (c.candidateOf now rollout.mode request idle)
  obtain ⟨hscore, hbar⟩ := offerScore_idle (c.offers env now clock request backends) hidle
    (offersFrom_not_neg clock 0 backends c.cache hcache idle hmem) (hnumbers idle hmem)
  rw [Candidate.less_of_eq (heligible.trans heligible'.symm), vetoOne_candidateOf,
    vetoOne_candidateOf, hid, hid',
    Float64.lt_congr_left (offerScore_not_nan (hnumbers idle hmem)) hbar
      (offerScore_not_nan (hnumbers usable husable)) hscore,
    Float64.eq_congr_right (offerScore_not_nan (hnumbers idle hmem)) hbar
      (offerScore_not_nan (hnumbers usable husable)) hscore]
  rfl

/-- **A plan selects the best usable backend exactly when a usable one overtakes each that is not**:
its score is above the zero of a backend without evidence, or in load-aware mode above the hundredth
of the sum of a backend without a state. -/
theorem plan_selects_confident_iff (hids : (backends.map (·.id)).Nodup)
    (hmode : (c.rollout env request.requestID now).mode ≠ .static) (hcache : c.cache.Clamped)
    (hnumbers : c.Numbers env now clock request backends)
    (husable : ∃ offer ∈ c.offers env now clock request backends,
      c.Usable now (c.rollout env request.requestID now).mode offer) :
    let rollout := c.rollout env request.requestID now
    let offers := c.offers env now clock request backends
    (c.plan env now clock request backends).1.SelectsConfident rollout.mode ↔
      ∀ idle ∈ offers, ¬ c.Usable now rollout.mode idle →
        ∃ usable ∈ offers, c.Usable now rollout.mode usable ∧
          c.Overtakes now rollout request offers usable idle := by
  intro rollout offers
  let veto := rollout.vetoOne (c.planned env now clock request backends)
  have hmem := mem_veto_planned_iff env c now clock request backends
  have hsure (offer : Offer F) :
      (veto (c.candidateOf now rollout.mode request offer)).Confident rollout.mode ↔
        c.Usable now rollout.mode offer :=
    (rollout.vetoOne_confident _ _ _).trans (candidateOf_confident rollout.mode)
  rw [plan_eq_planFrom]
  refine (planFrom_selects_confident_iff env now request hmode
    (planned_comparable hids hnumbers) ?_).trans ?_
  · obtain ⟨offer, hoffer, hsome⟩ := husable
    obtain ⟨hveto, heligible⟩ := (hmem _).mpr ⟨offer, hoffer, rfl⟩
    exact ⟨_, hveto, heligible, (hsure offer).mpr hsome⟩
  constructor
  · intro hfirst idle hoffer hidle
    obtain ⟨hveto, heligible⟩ := (hmem _).mpr ⟨idle, hoffer, rfl⟩
    obtain ⟨other, hother, heligible', hconfident, hless⟩ :=
      hfirst _ hveto heligible (mt (hsure idle).mp hidle)
    obtain ⟨usable, husable, rfl⟩ := (hmem _).mp ⟨hother, heligible'⟩
    exact ⟨usable, husable, (hsure usable).mp hconfident,
      (less_iff_overtakes hcache hnumbers husable hoffer hidle).mp hless⟩
  · intro hovertaken candidate hcandidate heligible hunsure
    obtain ⟨idle, hoffer, rfl⟩ := (hmem _).mp ⟨hcandidate, heligible⟩
    have hidle := mt (hsure idle).mpr hunsure
    obtain ⟨usable, husable, hsome, hovertakes⟩ := hovertaken idle hoffer hidle
    obtain ⟨hveto, heligible'⟩ := (hmem _).mpr ⟨usable, husable, rfl⟩
    exact ⟨_, hveto, heligible', (hsure usable).mpr hsome,
      (less_iff_overtakes hcache hnumbers husable hoffer hidle).mpr hovertakes⟩

end Controller

end

/-! ## The sign of a sum -/

section Exact

variable {K : Type} [Field K] [LinearOrder K] [IsStrictOrderedRing K] [Exact K]

attribute [local instance] Exact.float64

/-- Where the evidence is weighed and nothing is vetoed, a usable backend overtakes one without
confidence by the sign of its sum: the cache has to save more than the queue, the pressure and the
missed deadline cost. -/
theorem Controller.overtakes_iff {c : Controller K} {now : Time} {rollout : Rollout K}
    {request : RoutingRequest K} {offers : List (Offer K)} {usable idle : Offer K}
    (hmode : rollout.mode ≠ .loadAware) (hpolicy : rollout.assignment.assignedPolicy ≠ "kv-v2")
    (husable : c.Usable now rollout.mode usable) :
    let sum := c.rawScore request usable.backend usable.state usable.evidence
    c.Overtakes now rollout request offers usable idle ↔
      0 < sum ∨ sum = 0 ∧ usable.backend.id < idle.backend.id := by
  intro sum
  have hsame (offer : Offer K) (score : K) :
      c.lessVeto rollout request offers offer score = score := if_neg fun h => hpolicy h.1
  unfold Usable at husable
  rw [if_neg hmode, Bool.eq_false_iff, Ne, Float64.ordered_le, not_le] at husable
  have hpos : 0 < usable.evidence.confidence := by
    rw [← Int.cast_zero]
    exact husable
  have hscore : c.offerScore now rollout request offers usable =
      usable.evidence.confidence * sum := by
    unfold offerScore weight
    rw [hsame, if_neg hmode]
  have hbar : c.idleScore rollout request offers idle = 0 := by
    unfold idleScore
    rw [hsame, if_neg hmode]
    exact Int.cast_zero
  unfold Overtakes
  rw [hscore, hbar]
  show decide (0 < _) = true ∨ decide (_ = 0) = true ∧ _ ↔ _
  rw [decide_eq_true_iff, decide_eq_true_iff, mul_pos_iff_of_pos_left hpos, mul_eq_zero,
    or_iff_right hpos.ne']

end Exact

namespace OfferSample

local instance : Exact Rat := ⟨fun _ => 1, fun x => (x + 1 / 2).floor⟩

attribute [local instance] Exact.float64

open SelectionSample (env request measured)

def now : Time := Time.unixMilli 5000

/-- A backend with a queue at a time. -/
def waiting (queue : Rat) (millis : Int) : Snapshot Rat :=
  { measured with
    observedAtUnixMillis := millis
    signals := (∅ : Map String (Signal Rat)).insert "queue_depth"
      { value := queue
        hasValue := true
        quality := .fresh
        source := "vllm"
        observedAtUnixMillis := millis
        semantics := ""
        evidenceQuality := .strict } }

/-- Some of the eight tokens of a prefix are stored. -/
def stored (backendID : String) (matchedTokens : Int) : KVEvent where
  operation := .store
  backendID
  cacheKey := "k"
  matchedTokens
  totalTokens := 8
  sequence := 0
  hasSequence := false
  generation := ""
  engineEventID := ""
  observedAt := now
  quality := .fresh

/-- A maximum age of one second. The prefix is on `a` and one token of it on `c`; the state of `b`
is four seconds old, and nothing is known of `d`. -/
def controller (mode : Mode) : Controller Rat :=
  { SelectionSample.controller with
    mode
    states := (((∅ : Map String (Snapshot Rat)).insert "a" (waiting 1 5000)).insert "b"
      (waiting 101 1000)).insert "c" (waiting 5 5000)
    cache :=
      { affinity := none
        provider := .kvEvents (some
          (((KVEventProvider.new 0 0 (1 / 10)).observe now (stored "a" 8)).observe now
            (stored "c" 1))) }
    maxStateAge := 1000000000 }

def backends : List BackendDescriptor := [⟨"d", ∅⟩, ⟨"c", ∅⟩, ⟨"b", ∅⟩, ⟨"a", ∅⟩]

/-- The scores are 92, a negative one of `c` and, of `b` and `d`, zeros or hundredths. -/
theorem plan_selects_confident_mixed :
    ((controller .enforced).plan env now (fun _ => now) { request with cacheKey := "k" }
      backends).1.SelectsConfident .enforced ∧
    ((controller .loadAware).plan env now (fun _ => now) { request with cacheKey := "k" }
      backends).1.SelectsConfident .loadAware := by
  have := Float64.exact_scaling (K := Rat)
  have hnumbers (mode : Mode) : (controller mode).Numbers env now (fun _ => now)
      { request with cacheKey := "k" } backends :=
    fun _ _ => Float64.ordered_not_nan _ _ _
  have hcache (mode : Mode) : (controller mode).cache.Clamped := trivial
  exact ⟨(Controller.plan_selects_confident_iff (by decide) (by decide) (hcache .enforced)
      (hnumbers .enforced) (by decide +kernel)).mpr (by decide +kernel),
    (Controller.plan_selects_confident_iff (by decide) (by decide) (hcache .loadAware)
      (hnumbers .loadAware) (by decide +kernel)).mpr (by decide +kernel)⟩

/-- The queue of `b` is not known; its score is zero and comes before the one of `-8`. -/
theorem plan_falls_back :
    (∃ candidate ∈ (SelectionSample.controller.plan env SelectionSample.now
        (fun _ => SelectionSample.now) request SelectionSample.backends).1.candidates,
      candidate.eligible = true ∧ candidate.Confident .loadAware) ∧
    ¬ (SelectionSample.controller.plan env SelectionSample.now (fun _ => SelectionSample.now)
      request SelectionSample.backends).1.SelectsConfident .loadAware := by
  refine ⟨by decide +kernel, fun h => ?_⟩
  have hfallback : (SelectionSample.controller.plan env SelectionSample.now
      (fun _ => SelectionSample.now) request SelectionSample.backends).1.fallback = true := by
    decide +kernel
  rw [h.1] at hfallback
  cases hfallback

end OfferSample

end Kavora.Router
