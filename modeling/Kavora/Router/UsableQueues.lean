import Kavora.Router.Readings

/-!
# Queues that are not known

In load-aware mode `Plan` uses a backend whose state is inside the maximum age, and the evaluator
one whose queue depth is then fresh. A queue depth that is not fresh is a zero in the score.

* `Controller.QueueKnown`: the queue depth of a backend is known.
* `Controller.planFrom_routes`: what a plan selects, whatever the order of the candidates.
* `Controller.plan_queues_iff`: when a plan respects the queues that it does not know.
* `Controller.planFrom_selects_known_iff`: when it selects no backend with such a queue.
-/

namespace Kavora.Router

open Lib Lib.Go BackendState
open Float64 (ofInt)

variable {F : Type} [Float64 F]

namespace Controller

/-- The queue depth of a backend is known: its state is inside the maximum age and has a fresh
one. -/
def QueueKnown (c : Controller F) (now : Time) (id : String) : Prop :=
  ∃ state signal, c.states.lookup id = some state ∧ ¬ c.OverAge now state ∧
    state.signals.lookup "queue_depth" = some signal ∧ signal.quality = .fresh

/-- When the state of a backend gives confidence. -/
theorem stateConfidence_pos_iff [Float64.Lawful F] (c : Controller F) (hvalid : c.Validated)
    (now : Time) (id : String) :
    Float64.le (c.stateConfidence now (c.states.index id .zero)) (ofInt 0) = false ↔
      ∃ state, c.states.lookup id = some state ∧ ¬ c.OverAge now state ∧
        Float64.le (confidenceForAge (ageAt now (Time.unixMilli state.observedAtUnixMillis))
          c.stateLambda) (ofInt 0) = false := by
  have hzero : Float64.le (ofInt 0 : F) (ofInt 0) = true := by
    have hnan : Float64.isNaN (ofInt 0 : F) = false := Float64.Lawful.ofInt_not_nan 0
    unfold Float64.isNaN at hnan
    rw [Bool.not_eq_false'] at hnan
    unfold Float64.le
    rw [hnan, Bool.or_true]
  unfold Map.index stateConfidence
  cases hlookup : c.states.lookup id with
  | none =>
    rw [Option.getD_none, if_neg (by simp [Snapshot.zero]), hzero]
    simp
  | some state =>
    have hobserved := (hvalid id state hlookup).observedAt
    rw [Option.getD_some, if_pos hobserved]
    dsimp only
    by_cases hover : c.OverAge now state
    · rw [if_neg (by rw [not_overAge_iff]; exact not_not.mpr hover), hzero]
      simp [hover]
    · rw [if_pos ((not_overAge_iff c now state).mpr hover)]
      simp [hover]

/-! ## What is selected -/

/-- A plan that does not fall back selects an eligible candidate with confidence. -/
theorem planFrom_routes (env : Externals F) {rollout : Rollout F} (hmode : rollout.mode ≠ .static)
    (now : Time) (request : RoutingRequest F) (candidates : List (Candidate F)) :
    ((planFrom env rollout now request candidates).selected = "" ∧
      (planFrom env rollout now request candidates).fallback = true) ∨
    ∃ candidate ∈ (planFrom env rollout now request candidates).candidates,
      candidate.eligible = true ∧ candidate.Confident rollout.mode ∧
        (planFrom env rollout now request candidates).selected = candidate.backendID ∧
        (planFrom env rollout now request candidates).fallback = false := by
  rw [planFrom_candidates]
  unfold planFrom
  dsimp only
  rw [select_first]
  cases hfind : (sortCandidates env.sorting (rollout.veto candidates)).find? (·.eligible) with
  | none => exact .inl ⟨rfl, rfl⟩
  | some candidate =>
    have heligible := List.find?_some hfind
    obtain ⟨hconfident, hnot⟩ := select_singleton env hmode
      { newDecision rollout now request with
        candidates := sortCandidates env.sorting (rollout.veto candidates)
        predictorVersion :=
          predictorVersions (sortCandidates env.sorting (rollout.veto candidates)) } heligible
    by_cases hsure : candidate.Confident rollout.mode
    · exact .inr ⟨candidate, List.mem_of_find?_eq_some hfind, heligible, hsure, hconfident hsure⟩
    · exact .inl (hnot hsure)

end Controller

/-- What a plan in load-aware mode owes to the queues: it selects no backend whose queue depth is
not known, falls back where no eligible one is known, and uses the backends that the evaluator
does. -/
structure RespectsQueues (c : Controller F) (now : Time) (decision evaluated : Decision F) :
    Prop where
  selected : ∀ id, decision.Selects id → c.QueueKnown now id
  fallback : (∀ candidate ∈ decision.candidates, candidate.eligible = true →
    ¬ c.QueueKnown now candidate.backendID) → decision.fallback = true
  usable : ∀ candidate ∈ decision.candidates, candidate.eligible = true →
    (candidate.Confident .loadAware ↔ evaluated.Usable candidate.backendID)

namespace Controller

/-- The evaluator uses the backends whose queue depth is known. -/
theorem loadAware_usable_iff (sorting : SortSlice) (c : Controller F) (hvalid : c.Validated)
    (now clock : Time) (requestID tenantID id : String) :
    (Evaluator.loadAware sorting clock requestID tenantID (c.agedStates now)).Usable id ↔
      c.QueueKnown now id := by
  unfold Evaluator.loadAware QueueKnown agedStates
  rw [evaluate_usable_iff]
  constructor
  · rintro ⟨state, hlookup, husable⟩
    rw [Map.lookup_mapValues] at hlookup
    obtain ⟨stored, hstored, rfl⟩ := Option.map_eq_some_iff.mp hlookup
    obtain ⟨hage, signal, hsignal, hfresh⟩ :=
      (usableValue_aged c now (hvalid id stored hstored) _).mp husable
    exact ⟨stored, signal, hstored, hage, hsignal, hfresh⟩
  · rintro ⟨stored, signal, hstored, hage, hsignal, hfresh⟩
    refine ⟨c.aged now stored, ?_,
      (usableValue_aged c now (hvalid id stored hstored) _).mpr ⟨hage, signal, hsignal, hfresh⟩⟩
    rw [Map.lookup_mapValues, hstored]
    rfl

variable {c : Controller F} {now : Time} {clock : Nat → Time} {request : RoutingRequest F}
  {backends : List BackendDescriptor}

/-- The confidence of an eligible candidate is that of the state inside the maximum age. -/
theorem plan_confident_iff [Float64.Lawful F] (env : Externals F) (hvalid : c.Validated)
    {candidate : Candidate F}
    (hmem : candidate ∈ (c.plan env now clock request backends).1.candidates)
    (heligible : candidate.eligible = true) :
    candidate.Confident .loadAware ↔
      ∃ state, c.states.lookup candidate.backendID = some state ∧ ¬ c.OverAge now state ∧
        Float64.le (confidenceForAge (ageAt now (Time.unixMilli state.observedAtUnixMillis))
          c.stateLambda) (ofInt 0) = false := by
  unfold Candidate.Confident Candidate.confidence
  rw [if_pos rfl, (plan_reads env clock backends hmem heligible).stateConfidence]
  exact c.stateConfidence_pos_iff hvalid now _

/-- A plan whose confident candidates are those with a known queue respects the queues. -/
theorem plan_respects (env : Externals F) (hvalid : c.Validated)
    (hmode : (c.rollout env request.requestID now).mode = .loadAware) (evaluatedAt : Time)
    (husable : ∀ candidate ∈ (c.plan env now clock request backends).1.candidates,
      candidate.eligible = true →
        (candidate.Confident .loadAware ↔ c.QueueKnown now candidate.backendID)) :
    RespectsQueues c now (c.plan env now clock request backends).1
      (Evaluator.loadAware env.sorting evaluatedAt request.requestID request.tenantID
        (c.agedStates now)) := by
  have hroutes := planFrom_routes env
    (show (c.rollout env request.requestID now).mode ≠ .static by rw [hmode]; nofun) now request
    (c.planned env now clock request backends)
  rw [← plan_eq_planFrom, hmode] at hroutes
  refine ⟨fun id hid => ?_, fun hnone => ?_, fun candidate hmem heligible => ?_⟩
  · obtain ⟨hempty, -⟩ | ⟨candidate, hmem, heligible, hsure, hselected, -⟩ := hroutes
    · exact absurd (hid.1.symm.trans hempty) hid.2
    · rw [← hid.1, hselected]
      exact (husable candidate hmem heligible).mp hsure
  · obtain ⟨-, hfallback⟩ | ⟨candidate, hmem, heligible, hsure, -⟩ := hroutes
    · exact hfallback
    · exact absurd ((husable candidate hmem heligible).mp hsure) (hnone candidate hmem heligible)
  · rw [husable candidate hmem heligible, c.loadAware_usable_iff _ hvalid]

/-- **A plan in load-aware mode respects the queues that it does not know exactly when every
eligible backend with a state inside the maximum age has a fresh queue depth**, or none and a
confidence that has run out. -/
theorem plan_queues_iff [Float64.Lawful F] (env : Externals F) (hvalid : c.Validated)
    (hmode : (c.rollout env request.requestID now).mode = .loadAware) (evaluatedAt : Time) :
    RespectsQueues c now (c.plan env now clock request backends).1
        (Evaluator.loadAware env.sorting evaluatedAt request.requestID request.tenantID
          (c.agedStates now)) ↔
      ∀ backend ∈ backends,
        exclusions (c.rollout env request.requestID now).assignment.backendPool
          request.requirements backend = [] →
        ∀ state, c.states.lookup backend.id = some state → ¬ c.OverAge now state →
          (Float64.le (confidenceForAge (ageAt now (Time.unixMilli state.observedAtUnixMillis))
              c.stateLambda) (ofInt 0) = false ↔
            ∃ signal, state.signals.lookup "queue_depth" = some signal ∧
              signal.quality = .fresh) := by
  constructor
  · intro h backend hbackend hexcluded state hstate hage
    obtain ⟨candidate, hmem, hid, heligible⟩ :=
      (c.plan_eligible_iff env now clock request backends backend.id).mpr
        ⟨backend, hbackend, rfl, hexcluded⟩
    have husable := h.usable candidate hmem heligible
    rw [plan_confident_iff env hvalid hmem heligible, c.loadAware_usable_iff _ hvalid, hid]
      at husable
    unfold QueueKnown at husable
    simpa [hstate, hage] using husable
  · intro h
    refine plan_respects env hvalid hmode evaluatedAt fun candidate hmem heligible => ?_
    obtain ⟨backend, hbackend, hid, hexcluded⟩ :=
      (c.plan_eligible_iff env now clock request backends candidate.backendID).mp
        ⟨candidate, hmem, rfl, heligible⟩
    have hqueue := h backend hbackend hexcluded
    rw [plan_confident_iff env hvalid hmem heligible, ← hid]
    unfold QueueKnown
    constructor
    · rintro ⟨state, hstate, hage, hpos⟩
      obtain ⟨signal, hsignal, hfresh⟩ := (hqueue state hstate hage).mp hpos
      exact ⟨state, signal, hstate, hage, hsignal, hfresh⟩
    · rintro ⟨state, signal, hstate, hage, hsignal, hfresh⟩
      exact ⟨state, hstate, hage, (hqueue state hstate hage).mpr ⟨signal, hsignal, hfresh⟩⟩

/-- A plan selects no backend with a queue that is not known exactly when another eligible candidate
comes before each that has confidence. -/
theorem planFrom_selects_known_iff [Float64.Lawful F] [Float64.Irrefl F] (env : Externals F)
    {rollout : Rollout F} (hmode : rollout.mode ≠ .static) (known : String → Prop)
    {candidates : List (Candidate F)} (h : Comparable (rollout.veto candidates)) :
    (∀ id, (planFrom env rollout now request candidates).Selects id → known id) ↔
      ∀ candidate ∈ rollout.veto candidates, candidate.eligible = true →
        candidate.Confident rollout.mode → candidate.backendID ≠ "" → ¬ known candidate.backendID →
        ∃ other ∈ rollout.veto candidates, other.eligible = true ∧ other.less candidate = true := by
  constructor
  · intro hknown candidate hmem heligible hsure hnamed hunknown
    by_contra hnone
    push Not at hnone
    refine hunknown (hknown _ ((planFrom_selects_mem h hmem).mpr
      ⟨hnamed, hmode, ⟨hmem, heligible, fun other hother heligible' => ?_⟩, hsure⟩))
    by_cases hsame : other = candidate
    · exact .inl hsame
    · exact .inr (((Candidate.ranks h).less_or_less hother hmem hsame).resolve_left
        (hnone other hother heligible'))
  · intro hbeaten id hselects
    obtain ⟨hnamed, -, best, hbest, hsure, rfl⟩ := (planFrom_selects_iff h).mp hselects
    by_contra hunknown
    obtain ⟨other, hother, heligible, hless⟩ :=
      hbeaten best hbest.mem hbest.eligible hsure hnamed hunknown
    obtain rfl | hless' := hbest.least other hother heligible
    · rw [(Candidate.ranks h).irrefl hother] at hless
      cases hless
    · rw [Candidate.less_asymm hless] at hless'
      cases hless'

end Controller

namespace QueueSample

local instance : Float64 Rat := .rational fun _ => 1

open SelectionSample (env request measured now)

/-- A backend whose queue depth of 1 has a quality. -/
def snapshot (quality : Quality) : Snapshot Rat :=
  { measured with
    schemaVersion := schemaVersion
    backend := "vllm"
    model := "m"
    signals := (∅ : Map String (Signal Rat)).insert "queue_depth"
      { value := 1
        hasValue := true
        quality
        source := "vllm"
        observedAtUnixMillis := 1000
        semantics := ""
        evidenceQuality := .strict } }

/-- A controller with a maximum age of one second and no state. -/
def empty : Controller Rat :=
  { SelectionSample.controller with states := ∅, maxStateAge := 1000000000 }

def controller (quality : Quality) : Controller Rat :=
  { empty with states := (∅ : Map String (Snapshot Rat)).insert "a" (snapshot quality) }

theorem empty_validated : empty.Validated := fun _ _ h => nomatch h

/-- A backend with a fresh queue depth, observed at a time. -/
def observed (backendID : String) (observedAtUnixMillis : Int) : Snapshot Rat :=
  { snapshot .fresh with backendID, observedAtUnixMillis }

/-- The queue of one backend is known; the snapshot of another one is too old at `later`. -/
def mixed : Controller Rat :=
  { empty with
    states := ((∅ : Map String (Snapshot Rat)).insert "a" (observed "a" 2000)).insert "b"
      (observed "b" 1000) }

def later : Time := Time.unixMilli 2500

/-- The last one has no snapshot. -/
def three : List BackendDescriptor := [⟨"a", ∅⟩, ⟨"b", ∅⟩, ⟨"c", ∅⟩]

theorem mixed_validated : mixed.Validated := by
  have hfirst : empty.setState id (observed "a" 2000) =
      .ok { empty with states := (∅ : Map String (Snapshot Rat)).insert "a" (observed "a" 2000) } :=
    rfl
  exact Controller.setState_validated (Controller.setState_validated empty_validated hfirst)
    (rfl : Controller.setState id _ (observed "b" 1000) = .ok mixed)

theorem plan_queues_of_mixed :
    RespectsQueues mixed later (mixed.plan env later (fun _ => later) request three).1
      (Evaluator.loadAware env.sorting later "r1" "" (mixed.agedStates later)) := by
  have := Float64.rational_lawful fun _ => 1
  refine (Controller.plan_queues_iff env mixed_validated (by decide) later).mpr ?_
  intro backend hbackend _ state hstate hage
  simp only [three, List.mem_cons, List.not_mem_nil, or_false] at hbackend
  obtain rfl | rfl | rfl := hbackend
  · obtain rfl : observed "a" 2000 = state := Option.some.inj hstate
    exact iff_of_true (by decide +kernel) ⟨_, rfl, rfl⟩
  · obtain rfl : observed "b" 1000 = state := Option.some.inj hstate
    exact absurd (by decide) hage
  · cases hstate

/-- The only backend is selected by a queue depth of zero, which is not the stale one. -/
theorem plan_selects_stale_queue :
    empty.setState id (snapshot .stale) = .ok (controller .stale) ∧
    ((controller .stale).plan env now (fun _ => now) request [⟨"a", ∅⟩]).1.Selects "a" ∧
    ¬ RespectsQueues (controller .stale) now
      ((controller .stale).plan env now (fun _ => now) request [⟨"a", ∅⟩]).1
      (Evaluator.loadAware env.sorting now "r1" "" ((controller .stale).agedStates now)) := by
  have hselects : ((controller .stale).plan env now (fun _ => now) request [⟨"a", ∅⟩]).1.Selects
      "a" := ⟨by decide +kernel, by decide⟩
  refine ⟨rfl, hselects, fun h => ?_⟩
  obtain ⟨state, signal, hstate, -, hsignal, hfresh⟩ := h.selected "a" hselects
  obtain rfl : snapshot .stale = state := Option.some.inj hstate
  obtain rfl := Option.some.inj hsignal
  cases hfresh

end QueueSample

end Kavora.Router
