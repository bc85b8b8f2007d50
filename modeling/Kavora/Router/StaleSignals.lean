import Mathlib.Data.List.Forall2
import Kavora.Router.PlanPairs
import Kavora.Router.Readings

/-!
# Signals that should not count

Two state maps with the same fresh signals inside the maximum age, and anything else in their stale
signals and their old snapshots. A plan reads the fresh signals of an old snapshot all the same, and
for a pressure of zero any cold blocks that have a value.

* `Controller.SameTrusted`, `Controller.SameEvidence`: the two maps and the provider.
* `Controller.SameUntrusted`: what a plan reads of two states beyond their trusted part.
* `Controller.plan_untrusted_iff`: when the two plans agree.
-/

namespace Kavora.Router

open Lib Lib.Go BackendState
open Float64 (ofInt)

variable {F : Type} [Float64 F]

/-! ## Evidence -/

/-- The provider after a match does not depend on the state. -/
theorem CacheState.matchCache_snd (s : CacheState F) (now : Time) (request : CacheMatchRequest)
    (id : String) (state state' : Snapshot F) :
    (s.matchCache now request { id, state := state' }).2 =
      (s.matchCache now request { id, state }).2 := by
  unfold matchCache
  split <;> rfl

namespace Controller

/-- The provider has the same evidence for a request under both state maps. -/
def SameEvidence (clock : Nat → Time) (request : RoutingRequest F)
    (states states' : Map String (Snapshot F)) (cache : CacheState F) : Prop :=
  ∀ i id,
    (cache.matchCache (clock i) request.matchRequest { id, state := states'.index id .zero }).1 =
      (cache.matchCache (clock i) request.matchRequest { id, state := states.index id .zero }).1

variable {clock : Nat → Time} {request : RoutingRequest F} {states states' : Map String (Snapshot F)}

/-- A match keeps the same evidence: the provider that reads the states does not change. -/
theorem SameEvidence.matchCache {cache : CacheState F}
    (h : SameEvidence clock request states states' cache) (now : Time) (asked : CacheMatchRequest)
    (backend : CacheBackend F) :
    SameEvidence clock request states states' (cache.matchCache now asked backend).2 := by
  obtain ⟨affinity, provider⟩ := cache
  cases provider with
  | noCache => exact fun _ _ => rfl
  | affinity provider =>
    obtain _ | ⟨table, confidence⟩ := provider
    · exact fun _ _ => rfl
    · cases table with
      | shared => exact fun _ _ => rfl
      | own table => exact fun _ _ => rfl
  | shadowIndex provider =>
    obtain _ | provider := provider
    · exact fun _ _ => rfl
    · exact h
  | kvEvents provider =>
    obtain _ | provider := provider
    · exact fun _ _ => rfl
    · exact fun _ _ => rfl

/-! ## States -/

/-- The two state maps have the same trusted part. -/
def SameTrusted (c : Controller F) (now : Time) (states' : Map String (Snapshot F)) : Prop :=
  ∀ id, c.trusted now (states'.index id .zero) = c.trusted now (c.states.index id .zero)

/-- A plan reads the same of two states beyond their trusted part: the signals of a state that is
not trusted, and what stands in for a pressure of zero. -/
structure SameUntrusted (c : Controller F) (now : Time) (state state' : Snapshot F) : Prop where
  queue : c.trusted now state = none →
    signalValue state' "queue_depth" = signalValue state "queue_depth"
  prefillRate : c.trusted now state = none → prefillRate state' = prefillRate state
  pressure : c.trusted now state = none ∨
      Float64.eq (signalValue state "kv_pressure") (ofInt 0) = true →
    pressure state' = pressure state

/-- A plan reads the same of two states. -/
structure SameReadings (c : Controller F) (now : Time) (state state' : Snapshot F) : Prop where
  stateConfidence : c.stateConfidence now state' = c.stateConfidence now state
  queue : signalValue state' "queue_depth" = signalValue state "queue_depth"
  prefillRate : prefillRate state' = prefillRate state
  pressure : pressure state' = pressure state

variable {c : Controller F} {now : Time} {state state' : Snapshot F}

/-- Of states with the same trusted part a plan reads the same exactly when it does beyond that
part. -/
theorem sameReadings_iff (h : c.trusted now state' = c.trusted now state) :
    c.SameReadings now state state' ↔ c.SameUntrusted now state state' := by
  constructor
  · exact fun h => ⟨fun _ => h.queue, fun _ => h.prefillRate, fun _ => h.pressure⟩
  · intro huntrusted
    have hconfidence : c.stateConfidence now state' = c.stateConfidence now state := by
      rw [stateConfidence_eq, stateConfidence_eq, h]
    cases htrusted : c.trusted now state with
    | none =>
      exact ⟨hconfidence, huntrusted.queue htrusted, huntrusted.prefillRate htrusted,
        huntrusted.pressure (.inl htrusted)⟩
    | some part =>
      -- the fresh signals of a trusted state are the same in both
      have hfresh : freshSignals state' = freshSignals state := by
        rw [htrusted] at h
        unfold trusted at h htrusted
        split at h
        · split at htrusted
          · have hpart := h.trans htrusted.symm
            exact (Prod.mk.inj (Option.some.inj hpart)).2
          · cases htrusted
        · cases h
      have hsignal : ∀ name, signalValue state' name = signalValue state name :=
        fun name => signalValue_congr_fresh (congrFun hfresh name)
      refine ⟨hconfidence, hsignal _, ?_, ?_⟩
      · unfold Controller.prefillRate
        rw [hsignal, hsignal]
      · by_cases hzero : Float64.eq (signalValue state "kv_pressure") (ofInt 0) = true
        · exact huntrusted.pressure (.inr hzero)
        · unfold Controller.pressure
          rw [hsignal]
          dsimp only
          rw [if_neg hzero, if_neg hzero]

/-- The score of a backend depends on what a plan reads of its state. -/
theorem SameReadings.scored (h : c.SameReadings now state state')
    (states' : Map String (Snapshot F)) (mode : Mode) (request : RoutingRequest F)
    (backend : BackendDescriptor) (evidence : CacheEvidence F) :
    ({ c with states := states' } : Controller F).scored now mode request backend state' evidence =
      c.scored now mode request backend state evidence := by
  have hconfidence : ({ c with states := states' } : Controller F).stateConfidence now state' =
      c.stateConfidence now state := h.stateConfidence
  unfold Controller.scored
  rw [hconfidence, h.queue, h.prefillRate, h.pressure]

/-! ## Plans -/

variable {backends : List BackendDescriptor}

/-- **Plans under two state maps with the same trusted part agree exactly when they read the same
beyond it**: their candidates with all scores and their order, the selection and the fallback. -/
theorem plan_untrusted_iff (env : Externals F) (htrusted : c.SameTrusted now states')
    (hevidence : SameEvidence clock request c.states states' c.cache) :
    let decision := (c.plan env now clock request backends).1
    let decision' :=
      (({ c with states := states' } : Controller F).plan env now clock request backends).1
    (decision'.candidates = decision.candidates ∧ decision'.selected = decision.selected ∧
        decision'.fallback = decision.fallback) ↔
      ∀ backend ∈ backends,
        exclusions (c.rollout env request.requestID now).assignment.backendPool
          request.requirements backend = [] →
        c.SameUntrusted now (c.states.index backend.id .zero) (states'.index backend.id .zero) := by
  intro decision decision'
  constructor
  · rintro ⟨hcandidates, -⟩ backend hbackend hexcluded
    obtain ⟨candidate, hmem, hid, heligible⟩ :=
      (c.plan_eligible_iff env now clock request backends backend.id).mpr
        ⟨backend, hbackend, rfl, hexcluded⟩
    have hreads := plan_reads env clock backends hmem heligible
    have hmem' : candidate ∈ decision'.candidates := hcandidates ▸ hmem
    have hreads' := plan_reads env clock backends hmem' heligible
    rw [hid] at hreads hreads'
    exact ⟨fun _ => hreads'.queueDepth.symm.trans hreads.queueDepth,
      fun _ => hreads'.recentPrefillRate.symm.trans hreads.recentPrefillRate,
      fun _ => hreads'.kvPressure.symm.trans hreads.kvPressure⟩
  · intro h
    have hpairs : List.Forall₂ Eq (c.planned env now clock request backends)
        (({ c with states := states' } : Controller F).planned env now clock request backends) := by
      refine planCandidates_forall₂ (P := SameEvidence clock request c.states states') ?_ ?_ ?_ 0
        backends c.cache hevidence ?_
      · exact fun _ now asked backend hcache => hcache.matchCache now asked backend
      · exact fun cache i id hcache => Prod.ext (hcache i id) (cache.matchCache_snd _ _ _ _ _)
      · exact fun _ _ _ => rfl
      · intro backend hbackend hexcluded _ _ _
        have hreadings := (sameReadings_iff (htrusted backend.id)).mpr (h backend hbackend hexcluded)
        exact (hreadings.scored states' _ request backend _).symm
    rw [List.forall₂_eq_eq_eq] at hpairs
    have hdecision : decision' = decision := by
      show (Controller.plan _ _ _ _ _ _).1 = (Controller.plan _ _ _ _ _ _).1
      rw [plan_eq_planFrom, plan_eq_planFrom, ← hpairs]
      rfl
    rw [hdecision]
    exact ⟨rfl, rfl, rfl⟩

end Controller

omit [Float64 F] in
/-- A signal that is not fresh in the place of none, or of another one, is not trusted. -/
theorem freshSignals_setSignal {state : Snapshot F} {name : String} {signal : Signal F}
    (hsignal : signal.quality ≠ .fresh)
    (hnone : ∀ old, state.signals.lookup name = some old → old.quality ≠ .fresh) :
    Controller.freshSignals (setSignal state name signal) = Controller.freshSignals state := by
  funext other
  unfold Controller.freshSignals
  by_cases hname : other = name
  · subst hname
    rw [lookup_setSignal_self]
    cases hold : state.signals.lookup other with
    | none => simp [Option.filter, hsignal]
    | some old => simp [Option.filter, hsignal, hnone old hold]
  · rw [lookup_setSignal state signal hname]

namespace StaleSample

local instance : Float64 Rat := .rational fun _ => 1

open SelectionSample (env request backends measured now)

/-- A signal of a quality. -/
def signal (value : Rat) (quality : Quality) : Signal Rat where
  value
  hasValue := true
  quality
  source := "vllm"
  observedAtUnixMillis := 1000
  semantics := ""
  evidenceQuality := .strict

/-- A backend with a pressure of `3 / 5` and one that nothing is known of. -/
def pressed : Snapshot Rat :=
  { measured with
    signals := (∅ : Map String (Signal Rat)).insert "kv_pressure" (signal (3 / 5) .fresh) }

def silent : Snapshot Rat := { measured with signals := ∅ }

/-- The states of two backends, with stale free cold blocks of the first one. -/
def states (state : Snapshot Rat) (coldFree : Rat) : Map String (Snapshot Rat) :=
  ((∅ : Map String (Snapshot Rat)).insert "b" pressed).insert "a"
    (setSignal state "cold_free_perc" (signal coldFree .stale))

/-- A controller with a maximum age of one second. -/
def controller (state : Snapshot Rat) (coldFree : Rat) : Controller Rat :=
  { SelectionSample.controller with states := states state coldFree, maxStateAge := 1000000000 }

theorem sameTrusted {state : Snapshot Rat}
    (hstate : state.signals.lookup "cold_free_perc" = none) (coldFree coldFree' : Rat) :
    (controller state coldFree).SameTrusted now (states state coldFree') := by
  intro id
  show Controller.trusted _ _ ((states state coldFree').index id .zero) =
    Controller.trusted _ _ ((states state coldFree).index id .zero)
  have hfresh : ∀ value, Controller.freshSignals
      (setSignal state "cold_free_perc" (signal value .stale)) = Controller.freshSignals state :=
    fun value => freshSignals_setSignal nofun fun old hold => by rw [hstate] at hold; cases hold
  unfold states Map.index
  by_cases hid : id = "a"
  · subst hid
    rw [AList.lookup_insert, AList.lookup_insert, Option.getD_some, Option.getD_some]
    unfold Controller.trusted
    rw [hfresh, hfresh]
    rfl
  · rw [AList.lookup_insert_ne hid, AList.lookup_insert_ne hid]

/-- A known pressure leaves the stale signal without effect. -/
theorem plan_of_pressed :
    ((controller pressed 1).plan env now (fun _ => now) request backends).1.selected =
      ((controller pressed (1 / 5)).plan env now (fun _ => now) request backends).1.selected := by
  refine ((Controller.plan_untrusted_iff (c := controller pressed (1 / 5)) env
    (sameTrusted rfl (1 / 5) 1) fun _ _ => rfl).mpr ?_).2.1
  intro backend hbackend _
  obtain rfl | hbackend := List.mem_cons.mp hbackend
  · exact ⟨fun _ => by decide +kernel, fun _ => by decide +kernel, fun _ => by decide +kernel⟩
  · obtain rfl := List.mem_singleton.mp hbackend
    exact ⟨fun _ => by decide +kernel, fun _ => by decide +kernel, fun _ => by decide +kernel⟩

/-- Without a pressure the stale free blocks decide. -/
theorem plan_of_silent :
    (controller silent 1).SameTrusted now (states silent (1 / 5)) ∧
    Controller.SameEvidence (fun _ => now) request (controller silent 1).states
      (states silent (1 / 5)) (controller silent 1).cache ∧
    ((controller silent 1).plan env now (fun _ => now) request backends).1.selected = "a" ∧
    (({ controller silent 1 with states := states silent (1 / 5) } : Controller Rat).plan env now
      (fun _ => now) request backends).1.selected = "b" :=
  ⟨sameTrusted rfl 1 (1 / 5), fun _ _ => rfl, by decide +kernel, by decide +kernel⟩

end StaleSample

end Kavora.Router
