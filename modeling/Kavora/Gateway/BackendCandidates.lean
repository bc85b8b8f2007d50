import Kavora.Backend.Registry
import Kavora.Gateway.ParseRequest
import Kavora.Router.PlanLemmas

/-!
# The backends that a request is sent to (`Server.backendCandidates` in `server.go`)

The registry offers a rotation, the router plans the request, the ineligible backends are dropped,
and a preferred one comes first.

* `MeetsConstraints`: the hard constraints of a request.
* `dispatch_constraints`: what the list holds: each backend that the registry offers and that meets
  the constraints, once.
* `shadow_non_interference`: where the decision is not enforced or is a fallback, the list is the
  rotation under the hard constraints, whatever the signals say.
-/

namespace Kavora.Gateway

open Lib Lib.Go Router Backends

/-- The part of a server that chooses backends. -/
structure Server (F : Type) where
  backends : Option Registry
  router : Option (Controller F)
  backendURL : Url

/-- The arguments of `backendCandidates`, the time of the decision, and the times that the provider
reads. -/
structure Call (F : Type) where
  now : Time
  clock : Nat → Time
  requestID : String
  activeTenant : Tenant F
  cacheKey : String
  externalCacheKeys : List String
  promptTokens : Int
  model : String

section Dispatch

variable {F : Type} [Float64 F]

/-- The candidates for a model: the registry's, or the one backend without a registry. -/
def Server.registryCandidates (server : Server F) (model : String) :
    List Backend × Server F :=
  match server.backends with
  | some registry =>
    let (candidates, registry) := registry.candidates model
    (candidates, { server with backends := some registry })
  | none =>
    ([{ id := "default", url := server.backendURL, weight := 0, models := ∅, healthPath := ""
        attributes := ∅ }], server)

/-- What the router sees of a call. -/
def Call.routingRequest (call : Call F) : RoutingRequest F where
  requestID := call.requestID
  tenantID := call.activeTenant.id
  model := call.model
  cacheKey := call.cacheKey
  externalCacheKeys := call.externalCacheKeys
  promptTokens := call.promptTokens
  requirements := call.activeTenant.routingRequirements
  ttftSloMS := call.activeTenant.ttftSloMs

/-- What the router sees of a backend. -/
def descriptor (backend : Backend) : BackendDescriptor where
  id := backend.id
  attributes := backend.attributes

/-- The preferred backends first, then the others. -/
def reorder (preferred : List String) (candidates : List Backend) : List Backend :=
  let used := preferred.filter fun id => candidates.any fun candidate => candidate.id = id
  preferred.flatMap (fun id => candidates.filter fun candidate => candidate.id = id) ++
    candidates.filter fun candidate => candidate.id ∉ used

/-- The plan of a call for the candidates of the registry. -/
def planFor (env : Router.Externals F) (c : Controller F) (call : Call F)
    (candidates : List Backend) : Decision F × Controller F :=
  c.plan env call.now call.clock call.routingRequest (candidates.map descriptor)

/-- The backends that a decision leaves eligible. -/
def eligibleIDs (decision : Decision F) : List String :=
  (decision.candidates.filter (·.eligible)).map (·.backendID)

/-- The part of `backendCandidates` after the registry: the list, the decision and the router. -/
def dispatch (env : Router.Externals F) (c : Controller F) (call : Call F)
    (candidates : List Backend) : List Backend × Decision F × Controller F :=
  let (decision, c) := planFor env c call candidates
  let candidates := candidates.filter fun candidate => candidate.id ∈ eligibleIDs decision
  let (preferred, c) := c.preferredIDsForDecision decision call.cacheKey
  if preferred.length = 0 then (candidates, decision, c)
  else (reorder preferred candidates, decision, c)

/-- The backends to call, in their order, with the decision on them. -/
def backendCandidates (env : Router.Externals F) (server : Server F) (call : Call F) :
    List Backend × Decision F × Server F :=
  let (candidates, server) := server.registryCandidates call.model
  match server.router with
  | none =>
    (candidates,
      { (Decision.zero : Decision F) with
        requestID := call.requestID
        tenantID := call.activeTenant.id
        mode := .static
        reason := "static_round_robin" }, server)
  | some c =>
    let (ordered, decision, c) := dispatch env c call candidates
    (ordered, decision, { server with router := some c })

/-! ## Constraints -/

/-- The hard constraints: the tenant's requirements, and the pool of an experiment's arm. -/
def MeetsConstraints (requirements : Map String String) (backendPool : List String)
    (backend : Backend) : Prop :=
  (∀ requirement ∈ requirements.entries,
    backend.attributes.index requirement.1 "" = requirement.2) ∧
    (backendPool ≠ [] → backend.id ∈ backendPool)

instance (requirements : Map String String) (backendPool : List String) (backend : Backend) :
    Decidable (MeetsConstraints requirements backendPool backend) :=
  inferInstanceAs (Decidable (_ ∧ _))

theorem exclusions_eq_nil {backendPool : List String} {requirements : Map String String}
    {backend : Backend} :
    exclusions backendPool requirements (descriptor backend) = [] ↔
      MeetsConstraints requirements backendPool backend := by
  unfold exclusions MeetsConstraints
  rw [List.append_eq_nil_iff, List.filterMap_eq_nil_iff, and_comm]
  refine and_congr (forall₂_congr fun requirement _ => ?_) ?_
  · by_cases h : backend.attributes.index requirement.1 "" = requirement.2
    · simp [descriptor, h]
    · simp [descriptor, h]
  · by_cases hpool : backendPool = []
    · simp [hpool]
    · by_cases hid : backend.id ∈ backendPool
      · simp [descriptor, hid]
      · simp [descriptor, hpool, hid]

/-! ## The list -/

/-- The pool of the arm that a request is assigned to; empty without one. -/
def assignedPool (env : Router.Externals F) (c : Controller F) (call : Call F) : List String :=
  (c.rollout env call.requestID call.now).assignment.backendPool

/-- The candidates under the hard constraints of a call. -/
def constrained (env : Router.Externals F) (c : Controller F) (call : Call F)
    (candidates : List Backend) : List Backend :=
  candidates.filter fun candidate =>
    MeetsConstraints call.activeTenant.routingRequirements (assignedPool env c call) candidate

omit [Float64 F] in
theorem mem_eligibleIDs_iff {decision : Decision F} {id : String} :
    id ∈ eligibleIDs decision ↔ (id, true) ∈ verdicts decision.candidates := by
  unfold eligibleIDs verdicts
  rw [List.mem_map, List.mem_map]
  constructor
  · rintro ⟨candidate, hcandidate, rfl⟩
    obtain ⟨hcandidate, heligible⟩ := List.mem_filter.mp hcandidate
    exact ⟨candidate, hcandidate, by rw [heligible]⟩
  · rintro ⟨candidate, hcandidate, heq⟩
    rw [Prod.mk.injEq] at heq
    exact ⟨candidate, List.mem_filter.mpr ⟨hcandidate, heq.2⟩, heq.1⟩

/-- The IDs that a plan finds eligible. -/
theorem mem_eligibleIDs {env : Router.Externals F} {c : Controller F} {call : Call F}
    {candidates : List Backend} {id : String} :
    id ∈ eligibleIDs (planFor env c call candidates).1 ↔
      ∃ b ∈ candidates, b.id = id ∧
        MeetsConstraints call.activeTenant.routingRequirements (assignedPool env c call) b := by
  have hperm := c.plan_verdicts env call.now call.clock call.routingRequest
    (candidates.map descriptor)
  rw [mem_eligibleIDs_iff, planFor, hperm.mem_iff, List.map_map, List.mem_map]
  constructor
  · rintro ⟨b, hb, heq⟩
    rw [Function.comp_apply, Router.verdict, Prod.mk.injEq, decide_eq_true_eq,
      exclusions_eq_nil] at heq
    exact ⟨b, hb, heq⟩
  · rintro ⟨b, hb, rfl, hmeets⟩
    exact ⟨b, hb, Prod.ext rfl (decide_eq_true (exclusions_eq_nil.mpr hmeets))⟩

/-- The eligible candidates are those that meet the constraints. -/
theorem filter_eligible (env : Router.Externals F) (c : Controller F) (call : Call F)
    {candidates : List Backend} (hnodup : (candidates.map (·.id)).Nodup) :
    (candidates.filter fun candidate =>
        candidate.id ∈ eligibleIDs (planFor env c call candidates).1) =
      constrained env c call candidates := by
  refine List.filter_congr fun b hb => ?_
  rw [decide_eq_decide, mem_eligibleIDs]
  constructor
  · rintro ⟨b', hb', heq, hmeets⟩
    rwa [← List.inj_on_of_nodup_map hnodup hb' hb heq]
  · intro hmeets
    exact ⟨b, hb, rfl, hmeets⟩

/-- Preferring one backend reorders the list. -/
theorem reorder_perm (id : String) (candidates : List Backend) :
    (reorder [id] candidates).Perm candidates := by
  unfold reorder
  dsimp only
  rw [List.flatMap_singleton]
  have hsplit : candidates.filter (fun candidate => candidate.id ∉
        [id].filter fun id => candidates.any fun candidate => candidate.id = id) =
      candidates.filter fun candidate => !decide (candidate.id = id) := by
    refine List.filter_congr fun b hb => ?_
    by_cases hid : b.id = id
    · have hany : (candidates.any fun candidate => candidate.id = id) = true :=
        List.any_eq_true.mpr ⟨b, hb, by simpa using hid⟩
      simp [hid, hany]
    · simp [hid]
  rw [hsplit]
  exact List.filter_append_perm (fun candidate : Backend => decide (candidate.id = id)) candidates

/-- The list of a dispatch: the candidates that meet the constraints, perhaps reordered. -/
theorem dispatch_perm (env : Router.Externals F) (c : Controller F) (call : Call F)
    {candidates : List Backend} (hnodup : (candidates.map (·.id)).Nodup) :
    (dispatch env c call candidates).1.Perm (constrained env c call candidates) := by
  rw [← filter_eligible env c call hnodup]
  unfold dispatch
  dsimp only
  split
  · exact List.Perm.refl _
  · rename_i hne
    rcases (planFor env c call candidates).2.preferredIDs_cases (planFor env c call candidates).1
        call.cacheKey with hnone | ⟨-, -, hone⟩
    · rw [hnone] at hne
      exact absurd rfl hne
    · dsimp only
      rw [hone]
      exact reorder_perm _ _

theorem dispatch_decision (env : Router.Externals F) (c : Controller F) (call : Call F)
    (candidates : List Backend) :
    (dispatch env c call candidates).2.1 = (planFor env c call candidates).1 := by
  unfold dispatch
  dsimp only
  split
  · rfl
  · rfl

/-- A decision that is not enforced, or is a fallback, leaves the order and the table. -/
theorem dispatch_quiet (env : Router.Externals F) (c : Controller F) (call : Call F)
    {candidates : List Backend} (hnodup : (candidates.map (·.id)).Nodup)
    (h : (dispatch env c call candidates).2.1.enforced = false ∨
      (dispatch env c call candidates).2.1.fallback = true) :
    (dispatch env c call candidates).1 = constrained env c call candidates ∧
      (dispatch env c call candidates).2.2 = (planFor env c call candidates).2 := by
  rw [dispatch_decision] at h
  rw [← filter_eligible env c call hnodup]
  rcases (planFor env c call candidates).2.preferredIDs_cases (planFor env c call candidates).1
      call.cacheKey with hnone | ⟨henforced, hfallback, -⟩
  · unfold dispatch
    dsimp only
    rw [hnone]
    exact ⟨rfl, rfl⟩
  · rw [henforced, hfallback] at h
    rcases h with h | h <;> cases h

/-! ## The list of the server -/

/-- The list of a server with a registry and a router. -/
def dispatched (env : Router.Externals F) (registry : Registry) (c : Controller F) (url : Url)
    (call : Call F) : List Backend :=
  (backendCandidates env { backends := some registry, router := some c, backendURL := url } call).1

theorem dispatched_perm (env : Router.Externals F) (registry : Registry) (c : Controller F)
    (url : Url) (call : Call F) :
    (dispatched env registry c url call).Perm
      (constrained env c call (registry.candidates call.model).1) :=
  dispatch_perm env c call (registry.candidates_spec call.model).1

theorem mem_dispatched {env : Router.Externals F} {registry : Registry} {c : Controller F}
    {url : Url} {call : Call F} {backend : Backend} :
    backend ∈ dispatched env registry c url call ↔
      registry.Offers call.model backend ∧
        MeetsConstraints call.activeTenant.routingRequirements (assignedPool env c call)
          backend := by
  rw [(dispatched_perm env registry c url call).mem_iff, constrained, List.mem_filter,
    (registry.candidates_spec call.model).2, decide_eq_true_eq]

/-- A request is sent to backends that the registry offers and that meet its hard constraints: the
list holds each of them once and no other one. Requests in different arms of an isolated-pool
experiment share no backend. -/
theorem dispatch_constraints (env : Router.Externals F) (registry : Registry) (c : Controller F)
    (url : Url) (call : Call F) :
    ((dispatched env registry c url call).map (·.id)).Nodup ∧
      (∀ backend, backend ∈ dispatched env registry c url call ↔
        registry.Offers call.model backend ∧
          (∀ key required, call.activeTenant.routingRequirements.lookup key = some required →
            backend.attributes.index key "" = required) ∧
          (assignedPool env c call ≠ [] → backend.id ∈ assignedPool env c call)) ∧
      ∀ experiment, c.experiment = some experiment →
        experiment.config.design.type = "isolated-pool" →
        assignedPool env c call ≠ [] ∧
          ∀ (registry' : Registry) (c' : Controller F) (url' : Url) (call' : Call F),
            c'.experiment = some experiment →
            assignedPool env c' call' ≠ assignedPool env c call →
            ∀ backend ∈ dispatched env registry c url call,
              ∀ backend' ∈ dispatched env registry' c' url' call', backend.id ≠ backend'.id := by
  refine ⟨?_, fun backend => ?_, fun experiment hexperiment htype => ?_⟩
  · have hnodup := (registry.candidates_spec call.model).1
    refine ((dispatched_perm env registry c url call).map _).nodup_iff.mpr ?_
    exact hnodup.sublist (List.filter_sublist.map _)
  · rw [mem_dispatched]
    refine and_congr_right fun _ => and_congr_left fun _ => ?_
    constructor
    · intro hmeets key required hrequired
      exact hmeets ⟨key, required⟩ (AList.mem_lookup_iff.mp hrequired)
    · intro hmeets requirement hrequirement
      exact hmeets _ _ (AList.mem_lookup_iff.mpr hrequirement)
  · have hpool := c.rollout_backendPool env call.requestID call.now hexperiment
    obtain ⟨hcontrol, htreatment, hdisjoint⟩ := experiment.isolated htype
    have hne : ∀ (c' : Controller F) (call' : Call F), c'.experiment = some experiment →
        assignedPool env c' call' ≠ [] := by
      intro c' call' hexperiment'
      unfold assignedPool
      rcases c'.rollout_backendPool env call'.requestID call'.now hexperiment' with heq | heq
      · rwa [heq]
      · rwa [heq]
    refine ⟨hne c call hexperiment, ?_⟩
    intro registry' c' url' call' hexperiment' hother backend hb backend' hb' heq
    have hpool' := c'.rollout_backendPool env call'.requestID call'.now hexperiment'
    have hmem := (mem_dispatched.mp hb).2.2 (hne c call hexperiment)
    have hmem' := (mem_dispatched.mp hb').2.2 (hne c' call' hexperiment')
    unfold assignedPool at hmem hmem' hother
    rw [← heq] at hmem'
    rcases hpool with h | h <;> rcases hpool' with h' | h' <;> rw [h] at hmem hother <;>
      rw [h'] at hmem' hother
    · exact hother rfl
    · exact hdisjoint _ hmem hmem'
    · exact hdisjoint _ hmem' hmem
    · exact hother rfl

/-- The state of the router that a plan reads or changes apart from its configuration. -/
structure Signals (F : Type) where
  states : Map String (BackendState.Snapshot F)
  cache : CacheState F
  predictor : TTFTPredictor F

/-- A controller that reads other signals. -/
def withSignals (c : Controller F) (signals : Signals F) : Controller F :=
  { c with
    states := signals.states
    cache := signals.cache
    predictor := signals.predictor }

/-- The decision of a server with a registry and a router. -/
def decided (env : Router.Externals F) (registry : Registry) (c : Controller F) (url : Url)
    (call : Call F) : Decision F :=
  (backendCandidates env
    { backends := some registry, router := some c, backendURL := url } call).2.1

/-- The mappings of a server's router after a request. -/
def mappingAfter (env : Router.Externals F) (registry : Registry) (c : Controller F) (url : Url)
    (call : Call F) (tenant key : String) : Option String :=
  (backendCandidates env
    { backends := some registry, router := some c, backendURL := url } call).2.2.router.bind
      fun c => c.cache.mapping tenant key

theorem dispatched_quiet {env : Router.Externals F} {registry : Registry} {c : Controller F}
    {url : Url} {call : Call F}
    (h : (decided env registry c url call).enforced = false ∨
      (decided env registry c url call).fallback = true) :
    dispatched env registry c url call =
        constrained env c call (registry.candidates call.model).1 ∧
      ∀ tenant key backend, mappingAfter env registry c url call tenant key = some backend →
        c.cache.mapping tenant key = some backend := by
  obtain ⟨hlist, hrouter⟩ := dispatch_quiet env c call (registry.candidates_spec call.model).1 h
  refine ⟨hlist, fun tenant key backend hmapping => ?_⟩
  have hafter : mappingAfter env registry c url call tenant key =
    (dispatch env c call (registry.candidates call.model).1).2.2.cache.mapping tenant key := rfl
  rw [hafter, hrouter] at hmapping
  exact Controller.plan_mapping hmapping

/-- Shadow non-interference: two routers that differ in their signals only and whose decisions are
both not enforced, or both fallbacks, send a request to the same list: the rotation of the
registry under the hard constraints. Neither adds or rebinds an affinity mapping. -/
theorem shadow_non_interference (env : Router.Externals F) (registry : Registry)
    (c : Controller F) (signals signals' : Signals F) (url : Url) (call : Call F)
    (h : (decided env registry (withSignals c signals) url call).enforced = false ∧
          (decided env registry (withSignals c signals') url call).enforced = false ∨
        (decided env registry (withSignals c signals) url call).fallback = true ∧
          (decided env registry (withSignals c signals') url call).fallback = true) :
    dispatched env registry (withSignals c signals) url call =
        dispatched env registry (withSignals c signals') url call ∧
      dispatched env registry (withSignals c signals) url call =
        constrained env c call (registry.candidates call.model).1 ∧
      (∀ tenant key backend,
        mappingAfter env registry (withSignals c signals) url call tenant key = some backend →
          signals.cache.mapping tenant key = some backend) ∧
      ∀ tenant key backend,
        mappingAfter env registry (withSignals c signals') url call tenant key = some backend →
          signals'.cache.mapping tenant key = some backend := by
  have hquiet : (decided env registry (withSignals c signals) url call).enforced = false ∨
      (decided env registry (withSignals c signals) url call).fallback = true :=
    h.imp And.left And.left
  have hquiet' : (decided env registry (withSignals c signals') url call).enforced = false ∨
      (decided env registry (withSignals c signals') url call).fallback = true :=
    h.imp And.right And.right
  obtain ⟨hlist, hmapping⟩ := dispatched_quiet hquiet
  obtain ⟨hlist', hmapping'⟩ := dispatched_quiet hquiet'
  exact ⟨hlist.trans hlist'.symm, hlist, hmapping, hmapping'⟩

end Dispatch

/-! ## Two routers in shadow mode -/

namespace ShadowSample

local instance : Float64 Rat := .rational fun _ => 1

/-- `%.nf` of a rational that is not negative. -/
def fixed (n : Nat) (x : Rat) : String :=
  let digits := toString (Float64.round (x * 10 ^ n) % 10 ^ n)
  toString (Float64.round (x * 10 ^ n) / 10 ^ n) ++ "." ++
    .ofList (List.replicate (n - digits.length) '0') ++ digits

def env : Router.Externals Rat where
  sorting := .insertion
  sha64 _ := 0
  fixed := fixed

def url : Url where
  scheme := "http"
  host := "backend"
  text := "http://backend"

def backend (id : String) : Backend where
  id := id
  url := url
  weight := 1
  models := ∅
  healthPath := "/healthz"
  attributes := ∅

def registry : Registry :=
  (({ Registry.empty with cursor := 1 } : Registry).insertEntry
    { backend := backend "a", enabled := true, healthy := true } Nat.one_pos).insertEntry
    { backend := backend "b", enabled := true, healthy := true } Nat.one_pos

/-- The table of `affine` maps the request to `a`. -/
def affine : Signals Rat where
  states := ∅
  cache :=
    { affinity := some ((Affinity.new 0 0).put "t" "k" "a" 0)
      provider := .affinity (some { affinity := .shared, confidence := 65 / 100 }) }
  predictor := .default

def blind : Signals Rat where
  states := ∅
  cache := { affinity := none, provider := .noCache }
  predictor := .default

def controller : Controller Rat where
  mode := .shadow
  states := ∅
  cache := blind.cache
  predictor := .default
  lifecycle := none
  experiment := none
  maxStateAge := 0
  stateLambda := 1 / 10

def call : Call Rat where
  now := 1
  clock _ := 1
  requestID := "r"
  activeTenant :=
    { id := "t", tokenBudget := 0, policyFailMode := .closed, routingRequirements := ∅
      ttftSloMs := 0 }
  cacheKey := "k"
  externalCacheKeys := []
  promptTokens := 10
  model := "m"

/-- The affinity selects a backend for the record only. -/
example : (decided env registry (withSignals controller affine) url call).selected = "a" ∧
    (dispatched env registry (withSignals controller affine) url call).map (·.id) =
      ["b", "a"] := by
  decide +kernel

theorem shadow_non_interference_sample :
    dispatched env registry (withSignals controller affine) url call =
        dispatched env registry (withSignals controller blind) url call ∧
      dispatched env registry (withSignals controller affine) url call =
        constrained env controller call (registry.candidates "m").1 := by
  have h := shadow_non_interference env registry controller affine blind url call
    (.inl ⟨by decide +kernel, by decide +kernel⟩)
  exact ⟨h.1, h.2.1⟩

end ShadowSample

end Kavora.Gateway
