import Kavora.Gateway.Forward
import Kavora.Ledger.Outcomes
import Kavora.Ledger.Planned
import Kavora.Lib.System
import Kavora.Router.AffinityReference

/-!
# What the affinity table remembers of served requests

The steps of the requests of a gateway (`ServeHTTP`, `forward` and `backendCandidates` in
`server.go`) with the places of `controller.go` that write the table: `PreferredIDsForDecision`
before a backend is called, `RecordActual` when one has answered, and `RecordOutcome` at the end.
A request that is rejected before it is routed has no step. The journal of the ledger is not part of
this model.

* `gatewayRuns`: the steps of any requests in any order, with any other change of the router and of
  the registry between them.
* `Settles`: a request ends with a 2xx and its decision is still in the ledger, or it ends without
  one and has written nothing.
* `affinity_remembers_service`: in the runs whose requests settle, the table maps to the backend
  that served last.
-/

namespace Kavora.Ledger.DecisionLedger

variable {F : Type}

/-- `Record` without the journal. -/
def recordEntry (ledger : DecisionLedger F) (decision : Decision F) : DecisionLedger F :=
  if decision.requestID = "" then ledger else ledger.recordLocked decision

variable [Lib.Go.Float64 F]

/-- `RecordOutcome` without the journal. -/
def recordOutcomeEntry (ledger : DecisionLedger F) (outcome : DecisionOutcome F) :
    DecisionLedger F :=
  if outcome.requestID = "" then ledger else (ledger.recordOutcomeLocked outcome).getD ledger

end Kavora.Ledger.DecisionLedger

namespace Kavora.Router.Controller

open Lib Lib.Go
open Ledger (DecisionLedger)

variable {F : Type}

/-- `affinity.Put`, if there is a table. -/
def remember (c : Controller F) (tenant key backend : String) (now : Time) : Controller F :=
  { c with
    cache :=
      { c.cache with
        affinity := c.cache.affinity.map fun affinity => affinity.put tenant key backend now } }

/-- `RecordActual`: the backend that answers is remembered under the key of the decision. -/
def recordActual (c : Controller F) (ledger : DecisionLedger F) (requestID backendID : String) :
    Controller F × DecisionLedger F :=
  let c :=
    match ledger.entries requestID with
    | none => c
    | some decision =>
      if decision.cacheKey ≠ "" then
        c.remember decision.tenantID decision.cacheKey backendID decision.occurredAt
      else c
  (c, ledger.updateActual requestID backendID)

variable [Float64 F]

/-- `RecordOutcome`: so is the backend of the outcome, whether it succeeded or not. -/
def recordOutcome (c : Controller F) (ledger : DecisionLedger F)
    (outcome : Ledger.DecisionOutcome F) : Controller F × DecisionLedger F :=
  if outcome.requestID = "" then (c, ledger)
  else
    let c :=
      match ledger.entries outcome.requestID with
      | none => c
      | some decision =>
        if decision.cacheKey ≠ "" ∧ outcome.actualBackend ≠ "" then
          c.remember decision.tenantID decision.cacheKey outcome.actualBackend outcome.completedAt
        else c
    (c, ledger.recordOutcomeEntry outcome)

end Kavora.Router.Controller

namespace Kavora.Gateway

open Lib Lib.Go Router Backends
open Ledger (DecisionLedger)

/-! ## States and steps -/

/-- Where a routed request stands. -/
inductive Stage (F : Type) where
  /-- The router has decided; these backends are eligible. -/
  | planned (decision : Decision F) (candidates : List Backend)
  /-- These backends are left to call. -/
  | calling (candidates : List Backend)
  /-- A backend has answered 2xx. -/
  | answered
  /-- Its answer is passed on. -/
  | recorded

/-- A request between its plan and its end. -/
structure Flight (F : Type) where
  tenantID : String
  cacheKey : String
  stage : Stage F
  /-- The backend that was called last; empty before the first call. -/
  actualBackend : String
  /-- A step of the request has written the table. -/
  wrote : Bool

/-- What is known of a request that has ended. -/
structure Completed where
  tenantID : String
  cacheKey : String
  actualBackend : String
  statusCode : Int64

/-- The request was answered with a 2xx. -/
def Completed.success (request : Completed) : Bool :=
  200 ≤ request.statusCode && request.statusCode < 300

/-- A gateway with the requests that it serves and has served. -/
structure GatewayState (F : Type) where
  server : Server F
  ledger : DecisionLedger F
  flights : String → Option (Flight F)
  /-- The requests that are finished, the last one first. -/
  completed : List Completed

section Runs

variable {F : Type} [Float64 F]

namespace GatewayState

/-- The backend that the table of the router holds. -/
def mapping (s : GatewayState F) (tenant key : String) : Option String :=
  s.server.router.bind fun c => c.cache.mapping tenant key

/-- The backend of the last request of a tenant and a key that was answered with a 2xx. -/
def lastServed (s : GatewayState F) (tenant key : String) : Option String :=
  (s.completed.find? fun request =>
    request.tenantID = tenant && request.cacheKey = key && request.success).map (·.actualBackend)

/-- The request is routed: the ledger has its decision. -/
def plan (env : Router.Externals F) (s : GatewayState F) (c : Controller F) (call : Call F) :
    GatewayState F :=
  let (candidates, server) := s.server.registryCandidates call.model
  let (decision, c) := planFor env c call candidates
  { s with
    server := { server with router := some c }
    ledger := s.ledger.recordEntry (.ofPlan decision)
    flights :=
      Function.update s.flights call.requestID
        (some
          { tenantID := call.activeTenant.id
            cacheKey := call.cacheKey
            stage :=
              .planned decision
                (candidates.filter fun candidate => candidate.id ∈ eligibleIDs decision)
            actualBackend := ""
            wrote := false }) }

/-- The preferred backend comes first. -/
def prefer (s : GatewayState F) (c : Controller F) (requestID : String) (flight : Flight F)
    (decision : Decision F) (candidates : List Backend) : GatewayState F :=
  let (preferred, c) := c.preferredIDsForDecision decision flight.cacheKey
  { s with
    server := { s.server with router := some c }
    flights :=
      Function.update s.flights requestID
        (some
          { flight with
            stage :=
              .calling (if preferred.length = 0 then candidates else reorder preferred candidates)
            wrote := preferred.length ≠ 0 }) }

/-- The next backend is called. -/
def attempt (s : GatewayState F) (requestID : String) (flight : Flight F) (candidate : Backend)
    (candidates : List Backend) (attempt : Attempt) : GatewayState F :=
  { s with
    server := s.server.mark (·.setHealthy candidate.id attempt.success)
    flights :=
      Function.update s.flights requestID
        (some
          { flight with
            stage := if attempt.success then .answered else .calling candidates
            actualBackend := candidate.id }) }

/-- The backend has answered with a 2xx, and the router is told. -/
def recordActual (s : GatewayState F) (c : Controller F) (requestID : String)
    (flight : Flight F) : GatewayState F :=
  let (c, ledger) := c.recordActual s.ledger requestID flight.actualBackend
  { s with
    server := { s.server with router := some c }
    ledger
    flights :=
      Function.update s.flights requestID
        (some
          { flight with
            stage := .recorded
            wrote := flight.wrote || (s.ledger.entries requestID).isSome }) }

/-- The request ends; `observed` has what else its outcome says. -/
def finish (s : GatewayState F) (c : Controller F) (flight : Flight F)
    (observed : Ledger.DecisionOutcome F) : GatewayState F :=
  let completed : Completed :=
    { tenantID := flight.tenantID
      cacheKey := flight.cacheKey
      actualBackend := flight.actualBackend
      statusCode := observed.statusCode }
  let (c, ledger) :=
    c.recordOutcome s.ledger
      { observed with actualBackend := flight.actualBackend, success := completed.success }
  { s with
    server := { s.server with router := some c }
    ledger
    flights := Function.update s.flights observed.requestID none
    completed := completed :: s.completed }

/-- Anything else that changes the registry and the router; only requests write the table. -/
def other (s : GatewayState F) (c : Controller F) (registry : Option Registry)
    (router : Controller F) : GatewayState F :=
  { s with
    server :=
      { s.server with
        backends := registry
        router :=
          some { router with cache := { router.cache with affinity := c.cache.affinity } } } }

end GatewayState

/-- The statuses that a request can end with at a stage. -/
def Flight.Ends (flight : Flight F) (statusCode : Int64) : Prop :=
  match flight.stage with
  | .calling [] => statusCode = if flight.actualBackend = "" then 503 else 502
  | .recorded => True
  | _ => False

/-- The steps of requests, and any other change. -/
inductive GatewayEvent (F : Type) where
  | plan (call : Call F)
  | prefer (requestID : String)
  | attempt (requestID : String) (attempt : Attempt)
  | recordActual (requestID : String)
  | finish (observed : Ledger.DecisionOutcome F)
  | other (registry : Option Registry) (router : Controller F)

/-- One step. Requests in flight have different IDs that are not empty, and a cache key is not empty
either: it is the model or a digest. -/
inductive GatewayStep (env : Router.Externals F) (s : GatewayState F) :
    GatewayEvent F → GatewayState F → Prop
  | plan {c : Controller F} {call : Call F} (hrouter : s.server.router = some c)
    (hid : call.requestID ≠ "") (hnew : s.flights call.requestID = none)
    (hkey : call.cacheKey ≠ "") :
    GatewayStep env s (.plan call) (s.plan env c call)
  | prefer {c : Controller F} {requestID : String} {flight : Flight F} {decision : Decision F}
    {candidates : List Backend} (hrouter : s.server.router = some c)
    (hflight : s.flights requestID = some flight)
    (hstage : flight.stage = .planned decision candidates) :
    GatewayStep env s (.prefer requestID) (s.prefer c requestID flight decision candidates)
  | attempt {requestID : String} {flight : Flight F} {candidate : Backend}
    {candidates : List Backend} {attempt : Attempt}
    (hflight : s.flights requestID = some flight)
    (hstage : flight.stage = .calling (candidate :: candidates)) :
    GatewayStep env s (.attempt requestID attempt)
      (s.attempt requestID flight candidate candidates attempt)
  | recordActual {c : Controller F} {requestID : String} {flight : Flight F}
    (hrouter : s.server.router = some c) (hflight : s.flights requestID = some flight)
    (hstage : flight.stage = .answered) :
    GatewayStep env s (.recordActual requestID) (s.recordActual c requestID flight)
  | finish {c : Controller F} {observed : Ledger.DecisionOutcome F} {flight : Flight F}
    (hrouter : s.server.router = some c)
    (hflight : s.flights observed.requestID = some flight)
    (hends : flight.Ends observed.statusCode) :
    GatewayStep env s (.finish observed) (s.finish c flight observed)
  | other {c : Controller F} (hrouter : s.server.router = some c) (registry : Option Registry)
    (router : Controller F) :
    GatewayStep env s (.other registry router) (s.other c registry router)

/-- A gateway whose router has an affinity table starts with it empty, and with any ledger. -/
def gatewayRuns (env : Router.Externals F) : System (GatewayState F) (GatewayEvent F) where
  init s :=
    (∃ c max ttl, s.server.router = some c ∧ c.cache.affinity = some (.new max ttl)) ∧
      (∀ id, s.flights id = none) ∧ s.completed = []
  step := GatewayStep env

/-- No request is in flight. -/
def GatewayState.Idle (s : GatewayState F) : Prop := ∀ id, s.flights id = none

/-- The table maps to the backend that served last. -/
def GatewayState.Remembers (s : GatewayState F) : Prop :=
  ∀ tenant key backend, Plain tenant → s.mapping tenant key = some backend →
    s.lastServed tenant key = some backend

/-! ## The condition -/

/-- A finished request has been answered 2xx by a backend, and its decision is still in the ledger;
or it has not been answered 2xx and writes nothing. -/
def Settles (s : GatewayState F) : GatewayEvent F → Prop
  | .plan call => Plain call.activeTenant.id
  | .finish observed =>
    ∀ flight, s.flights observed.requestID = some flight →
      if 200 ≤ observed.statusCode ∧ observed.statusCode < 300 then
        flight.actualBackend ≠ "" ∧ (s.ledger.entries observed.requestID).isSome
      else
        flight.wrote = false ∧
          (flight.actualBackend = "" ∨ s.ledger.entries observed.requestID = none)
  | _ => True

/-! ## The ledger -/

/-- An entry of a ledger has the tenant and the key of the entry that another one has. -/
def SameKeys (ledger ledger' : DecisionLedger F) (id : String) : Prop :=
  ∀ decision', ledger'.entries id = some decision' → ∃ decision,
    ledger.entries id = some decision ∧ decision'.tenantID = decision.tenantID ∧
      decision'.cacheKey = decision.cacheKey

omit [Float64 F] in
theorem SameKeys.refl (ledger : DecisionLedger F) (id : String) : SameKeys ledger ledger id :=
  fun decision h => ⟨decision, h, rfl, rfl⟩

omit [Float64 F] in
theorem SameKeys.update {ledger : DecisionLedger F} {id : String}
    {decision decision' : Ledger.Decision F} (hdecision : ledger.entries id = some decision)
    (htenant : decision'.tenantID = decision.tenantID)
    (hkey : decision'.cacheKey = decision.cacheKey) (id' : String) :
    SameKeys ledger
      { ledger with entries := Function.update ledger.entries id (some decision') } id' := by
  intro entry hentry
  dsimp only at hentry
  rw [Function.update_apply] at hentry
  split at hentry
  · rename_i hid
    cases hentry
    exact ⟨decision, by rw [hid]; exact hdecision, htenant, hkey⟩
  · exact ⟨entry, hentry, rfl, rfl⟩

omit [Float64 F] in
theorem updateActual_sameKeys (ledger : DecisionLedger F) (requestID backendID id : String) :
    SameKeys ledger (ledger.updateActual requestID backendID) id := by
  unfold DecisionLedger.updateActual
  split
  · exact .refl ledger id
  · rename_i decision hdecision
    refine .update hdecision ?_ ?_ id
    · rfl
    · rfl

theorem withOutcome_keys (decision : Ledger.Decision F) (outcome : Ledger.DecisionOutcome F) :
    (decision.withOutcome outcome).tenantID = decision.tenantID ∧
      (decision.withOutcome outcome).cacheKey = decision.cacheKey := by
  unfold Ledger.Decision.withOutcome
  dsimp only
  split
  · exact ⟨rfl, rfl⟩
  split
  · exact ⟨rfl, rfl⟩
  split
  · exact ⟨rfl, rfl⟩
  · exact ⟨rfl, rfl⟩

theorem recordOutcomeEntry_sameKeys (ledger : DecisionLedger F)
    (outcome : Ledger.DecisionOutcome F) (id : String) :
    SameKeys ledger (ledger.recordOutcomeEntry outcome) id := by
  unfold DecisionLedger.recordOutcomeEntry DecisionLedger.recordOutcomeLocked
  split
  · exact .refl ledger id
  cases hdecision : ledger.entries outcome.requestID with
  | none => exact .refl ledger id
  | some decision =>
    obtain ⟨htenant, hkey⟩ := withOutcome_keys decision outcome
    exact .update hdecision htenant hkey id

omit [Float64 F] in
/-- A recorded decision replaces the entry of its request; the others are kept or forgotten. -/
theorem recordEntry_entries {ledger : DecisionLedger F} {decision entry : Ledger.Decision F}
    (hne : decision.requestID ≠ "") {id : String}
    (h : (ledger.recordEntry decision).entries id = some entry) :
    (id = decision.requestID ∧ entry = decision) ∨
      (id ≠ decision.requestID ∧ ledger.entries id = some entry) := by
  unfold DecisionLedger.recordEntry at h
  rw [if_neg hne] at h
  have hkept := DecisionLedger.entries_of_evict h
  rw [Function.update_apply] at hkept
  split at hkept
  · rename_i hid
    cases hkept
    exact .inl ⟨hid, rfl⟩
  · rename_i hid
    exact .inr ⟨hid, hkept⟩

/-! ## The table -/

/-- The router has a well-kept table. -/
def Tabled (c : Controller F) : Prop := ∃ a, c.cache.affinity = some a ∧ a.WellKept

omit [Float64 F] in
theorem Tabled.remember {c : Controller F} (h : Tabled c) {tenant : String} (hplain : Plain tenant)
    (key backend : String) (now : Time) :
    Tabled (c.remember tenant key backend now) ∧
      (c.remember tenant key backend now).cache.mapping tenant key = some backend ∧
      ∀ tenant' key' mapped, Plain tenant' → (tenant', key') ≠ (tenant, key) →
        (c.remember tenant key backend now).cache.mapping tenant' key' = some mapped →
        c.cache.mapping tenant' key' = some mapped := by
  obtain ⟨a, ha, hkept⟩ := h
  have hafter : (c.remember tenant key backend now).cache.affinity =
      some (a.put tenant key backend now) := by
    show c.cache.affinity.map _ = _
    rw [ha]
    rfl
  have hmapping : ∀ tenant' key', (c.remember tenant key backend now).cache.mapping tenant' key' =
      (a.put tenant key backend now).mapping tenant' key' := by
    intro tenant' key'
    unfold CacheState.mapping
    rw [hafter, Option.bind_some]
  refine ⟨⟨_, hafter, hkept.apply (.put tenant key backend now) hplain⟩, ?_, ?_⟩
  · rw [hmapping]
    exact hkept.mapping_put_self hplain key backend now
  · intro tenant' key' mapped hplain' hne hmapped
    rw [hmapping] at hmapped
    unfold CacheState.mapping
    rw [ha, Option.bind_some]
    exact hkept.mapping_put_ne hplain hplain' hne hmapped

omit [Float64 F] in
/-- A preference is written. -/
theorem preferredIDs_remember (c : Controller F) (decision : Decision F) {cacheKey : String}
    (hkey : cacheKey ≠ "") :
    c.preferredIDsForDecision decision cacheKey = ([], c) ∨
      c.preferredIDsForDecision decision cacheKey =
        ([decision.selected],
          c.remember decision.tenantID cacheKey decision.selected decision.occurredAt) := by
  unfold Controller.preferredIDsForDecision
  by_cases hnone : decision.enforced = false ∨ decision.fallback ∨ decision.selected = ""
  · rw [if_pos hnone]
    exact .inl rfl
  · rw [if_neg hnone, if_pos hkey]
    exact .inr rfl

/-- A match reads the table. -/
theorem matchCache_tabled {cache : CacheState F} {a : Affinity} (ha : cache.affinity = some a)
    (h : a.WellKept) {request : CacheMatchRequest} (hplain : Plain request.tenantID) (now : Time)
    (backend : CacheBackend F) :
    ∃ a', (cache.matchCache now request backend).2.affinity = some a' ∧ a'.WellKept := by
  unfold CacheState.matchCache
  split
  · exact ⟨a, ha, h⟩
  · exact ⟨a, ha, h⟩
  · rename_i confidence _
    dsimp only
    rcases affinityEvidence_table confidence cache.affinity now request backend.id with
      heq | ⟨table, htable, heq⟩
    · rw [heq]
      exact ⟨a, ha, h⟩
    · obtain rfl : a = table := Option.some.inj (ha.symm.trans htable)
      exact ⟨_, heq, h.apply (.get request.tenantID request.cacheKey now) hplain⟩
  · exact ⟨a, ha, h⟩
  · exact ⟨a, ha, h⟩
  · exact ⟨a, ha, h⟩
  · exact ⟨a, ha, h⟩
  · exact ⟨a, ha, h⟩

theorem planCandidates_tabled {c : Controller F} {now : Time} {clock : Nat → Time}
    {rollout : Rollout F} {request : RoutingRequest F} (hplain : Plain request.tenantID)
    {backends : List BackendDescriptor} {i : Nat} {cache : CacheState F} {a : Affinity}
    (ha : cache.affinity = some a) (h : a.WellKept) :
    ∃ a', (c.planCandidates now clock rollout request i backends cache).2.affinity = some a' ∧
      a'.WellKept := by
  induction backends generalizing i cache a with
  | nil => exact ⟨a, ha, h⟩
  | cons backend backends ih =>
    have hnext : ∃ a', (c.planCandidate now (clock i) rollout request cache backend).2.affinity =
        some a' ∧ a'.WellKept := by
      unfold Controller.planCandidate
      dsimp only
      split
      · exact ⟨a, ha, h⟩
      · exact matchCache_tabled ha h hplain _ _
    obtain ⟨a', ha', h'⟩ := hnext
    rw [Controller.planCandidates]
    exact ih ha' h'

theorem planFor_tabled (env : Router.Externals F) {c : Controller F} (h : Tabled c) {call : Call F}
    (hplain : Plain call.activeTenant.id) (candidates : List Backend) :
    Tabled (planFor env c call candidates).2 := by
  obtain ⟨a, ha, hkept⟩ := h
  exact planCandidates_tabled hplain ha hkept

theorem planFor_keys (env : Router.Externals F) (c : Controller F) (call : Call F)
    (candidates : List Backend) :
    (planFor env c call candidates).1.tenantID = call.activeTenant.id ∧
      (planFor env c call candidates).1.cacheKey = call.cacheKey ∧
      (planFor env c call candidates).1.requestID = call.requestID := by
  unfold planFor
  rw [Controller.plan_eq]
  obtain ⟨_, _, _, _, _, _, hdecision⟩ := c.planWith_fields env
    (c.readNow call.routingRequest.requestID) call.now call.clock call.routingRequest
    (candidates.map descriptor)
  rw [hdecision]
  exact ⟨rfl, rfl, rfl⟩

/-! ## The invariant -/

/-- The entry and the decision of a request in flight have its tenant and its key. -/
structure Flight.Sound (flight : Flight F) (ledger : DecisionLedger F) (id : String) : Prop where
  id_ne : id ≠ ""
  plain : Plain flight.tenantID
  key : flight.cacheKey ≠ ""
  entry : ∀ entry, ledger.entries id = some entry →
    entry.tenantID = flight.tenantID ∧ entry.cacheKey = flight.cacheKey
  planned : ∀ decision candidates, flight.stage = .planned decision candidates →
    decision.tenantID = flight.tenantID ∧ flight.wrote = false

/-- A mapping is that of the last served request, or a request in flight has written it. -/
def GatewayState.Justified (s : GatewayState F) : Prop :=
  ∀ tenant key backend, Plain tenant → s.mapping tenant key = some backend →
    s.lastServed tenant key = some backend ∨
      ∃ id flight, s.flights id = some flight ∧ flight.wrote = true ∧
        flight.tenantID = tenant ∧ flight.cacheKey = key

/-- Every mapping of the table is justified by a request that is finished or in flight. -/
structure GatewayInv (s : GatewayState F) : Prop where
  router : ∃ c, s.server.router = some c ∧ Tabled c
  sound : ∀ id flight, s.flights id = some flight → flight.Sound s.ledger id
  justified : s.Justified

omit [Float64 F] in
theorem GatewayState.mapping_eq {s : GatewayState F} {c : Controller F}
    (hrouter : s.server.router = some c) (tenant key : String) :
    s.mapping tenant key = c.cache.mapping tenant key := by
  unfold GatewayState.mapping
  rw [hrouter, Option.bind_some]

omit [Float64 F] in
theorem GatewayInv.tabled {s : GatewayState F} (h : GatewayInv s) {c : Controller F}
    (hrouter : s.server.router = some c) : Tabled c := by
  obtain ⟨c', hrouter', htabled⟩ := h.router
  obtain rfl := Option.some.inj (hrouter.symm.trans hrouter')
  exact htabled

section Update

variable {s s' : GatewayState F} {id : String} {flight flight' : Flight F}

omit [Float64 F] in
theorem Flight.Sound.congr {ledger ledger' : DecisionLedger F} (h : flight.Sound ledger id)
    (hkeys : SameKeys ledger ledger' id) : flight.Sound ledger' id where
  id_ne := h.id_ne
  plain := h.plain
  key := h.key
  entry entry' hentry' := by
    obtain ⟨entry, hentry, htenant, hkey⟩ := hkeys entry' hentry'
    obtain ⟨htenant', hkey'⟩ := h.entry entry hentry
    exact ⟨htenant.trans htenant', hkey.trans hkey'⟩
  planned := h.planned

omit [Float64 F] in
variable (id) in
/-- A step of one request that writes no key but its own. -/
theorem GatewayInv.update (h : GatewayInv s) {c' : Controller F}
    (hrouter : s'.server.router = some c') (htabled : Tabled c')
    (hflights : s'.flights = Function.update s.flights id (some flight'))
    (hcompleted : s'.completed = s.completed)
    (hkeys : ∀ id', id' ≠ id → SameKeys s.ledger s'.ledger id')
    (hsound : flight'.Sound s'.ledger id)
    (hwrote : ∀ flight, s.flights id = some flight → flight.wrote = true →
      flight'.wrote = true ∧ flight'.tenantID = flight.tenantID ∧
        flight'.cacheKey = flight.cacheKey)
    (hmapping : ∀ tenant key backend, Plain tenant → s'.mapping tenant key = some backend →
      s.mapping tenant key = some backend ∨
        flight'.wrote = true ∧ flight'.tenantID = tenant ∧ flight'.cacheKey = key) :
    GatewayInv s' where
  router := ⟨c', hrouter, htabled⟩
  sound := by
    intro id' other hother
    rw [hflights, Function.update_apply] at hother
    split at hother
    · rename_i hid
      cases hother
      rw [hid]
      exact hsound
    · rename_i hid
      exact (h.sound id' other hother).congr (hkeys id' hid)
  justified := by
    intro tenant key backend hplain hmapped
    have hself : s'.flights id = some flight' := by rw [hflights, Function.update_self]
    rcases hmapping tenant key backend hplain hmapped with hold | ⟨hwritten, htenant, hkey⟩
    · rcases h.justified tenant key backend hplain hold with
        hserved | ⟨id', other, hother, hwritten, htenant, hkey⟩
      · unfold GatewayState.lastServed at hserved ⊢
        rw [hcompleted]
        exact .inl hserved
      · refine .inr ?_
        by_cases hid : id' = id
        · subst hid
          obtain ⟨hwritten', htenant', hkey'⟩ := hwrote other hother hwritten
          exact ⟨id', flight', hself, hwritten', htenant'.trans htenant, hkey'.trans hkey⟩
        · refine ⟨id', other, ?_, hwritten, htenant, hkey⟩
          rw [hflights, Function.update_of_ne hid]
          exact hother
    · exact .inr ⟨id, flight', hself, hwritten, htenant, hkey⟩

end Update

/-! ## Each step -/

section Steps

variable {s : GatewayState F} {c : Controller F} (h : GatewayInv s)
  (hrouter : s.server.router = some c)
include h hrouter

theorem GatewayInv.plan (env : Router.Externals F) {call : Call F} (hid : call.requestID ≠ "")
    (hnew : s.flights call.requestID = none) (hkey : call.cacheKey ≠ "")
    (hplain : Plain call.activeTenant.id) : GatewayInv (s.plan env c call) := by
  have htabled := h.tabled hrouter
  obtain ⟨htenant, hcacheKey, hrequest⟩ :=
    planFor_keys env c call (s.server.registryCandidates call.model).1
  have hne : (Ledger.Decision.ofPlan
      (planFor env c call (s.server.registryCandidates call.model).1).1).requestID ≠ "" := by
    show (planFor env c call (s.server.registryCandidates call.model).1).1.requestID ≠ ""
    rw [hrequest]
    exact hid
  refine h.update call.requestID rfl (planFor_tabled env htabled hplain _) rfl rfl ?_ ?_ ?_ ?_
  · intro id' hid' entry' hentry'
    rcases recordEntry_entries hne hentry' with ⟨hrecorded, -⟩ | ⟨-, hentry⟩
    · exact absurd (hrecorded.trans hrequest) hid'
    · exact ⟨entry', hentry, rfl, rfl⟩
  · refine ⟨hid, hplain, hkey, ?_, ?_⟩
    · intro entry hentry
      rcases recordEntry_entries hne hentry with ⟨-, rfl⟩ | ⟨hother, -⟩
      · exact ⟨htenant, hcacheKey⟩
      · exact absurd hrequest.symm hother
    · intro decision candidates hstage
      cases hstage
      exact ⟨htenant, rfl⟩
  · intro flight hflight
    rw [hnew] at hflight
    cases hflight
  · intro tenant key backend _ hmapped
    rw [GatewayState.mapping_eq hrouter]
    exact .inl (Controller.plan_mapping hmapped)

omit [Float64 F] in
theorem GatewayInv.prefer {requestID : String} {flight : Flight F} {decision : Decision F}
    {candidates : List Backend} (hflight : s.flights requestID = some flight)
    (hstage : flight.stage = .planned decision candidates) :
    GatewayInv (s.prefer c requestID flight decision candidates) := by
  have htabled := h.tabled hrouter
  have hsound := h.sound requestID flight hflight
  obtain ⟨htenant, hfalse⟩ := hsound.planned decision candidates hstage
  have hplain : Plain decision.tenantID := by
    rw [htenant]
    exact hsound.plain
  obtain ⟨hremembers, -, hothers⟩ := htabled.remember hplain flight.cacheKey decision.selected
    decision.occurredAt
  have hwrote : ∀ old, s.flights requestID = some old → old.wrote = false := by
    intro old hold
    obtain rfl := Option.some.inj (hflight.symm.trans hold)
    exact hfalse
  have hcalling : ∀ candidates wrote, ({ flight with stage := .calling candidates, wrote } :
      Flight F).Sound s.ledger requestID := fun _ _ =>
    ⟨hsound.id_ne, hsound.plain, hsound.key, hsound.entry, fun _ _ hstage => by cases hstage⟩
  unfold GatewayState.prefer
  rcases preferredIDs_remember c decision hsound.key with heq | heq
  · rw [heq]
    refine h.update requestID rfl htabled rfl rfl (fun id' _ => .refl _ id') (hcalling _ _)
      ?_ ?_
    · intro old hold hwritten
      rw [hwrote old hold] at hwritten
      cases hwritten
    · intro tenant key backend _ hmapped
      rw [GatewayState.mapping_eq hrouter]
      exact .inl hmapped
  · rw [heq]
    refine h.update requestID rfl hremembers rfl rfl (fun id' _ => .refl _ id') (hcalling _ _)
      ?_ ?_
    · intro old hold hwritten
      rw [hwrote old hold] at hwritten
      cases hwritten
    · intro tenant key backend hplain' hmapped
      rw [GatewayState.mapping_eq hrouter]
      by_cases hsame : (tenant, key) = (decision.tenantID, flight.cacheKey)
      · obtain ⟨rfl, rfl⟩ := Prod.mk.inj hsame
        exact .inr ⟨rfl, htenant.symm, rfl⟩
      · exact .inl (hothers tenant key backend hplain' hsame hmapped)

omit [Float64 F] hrouter in
theorem GatewayInv.attempt {requestID : String} {flight : Flight F} {candidate : Backend}
    {candidates : List Backend} (hflight : s.flights requestID = some flight)
    (attempt : Attempt) :
    GatewayInv (s.attempt requestID flight candidate candidates attempt) := by
  obtain ⟨c, hrouter, htabled⟩ := h.router
  have hsound := h.sound requestID flight hflight
  refine h.update requestID hrouter htabled rfl rfl (fun id' _ => .refl _ id') ?_ ?_ ?_
  · refine ⟨hsound.id_ne, hsound.plain, hsound.key, hsound.entry, ?_⟩
    intro decision candidates' hstage
    dsimp only at hstage
    split at hstage <;> cases hstage
  · intro old hold hwritten
    obtain rfl := Option.some.inj (hflight.symm.trans hold)
    exact ⟨hwritten, rfl, rfl⟩
  · exact fun _ _ _ _ hmapped => .inl hmapped

omit [Float64 F] h hrouter in
/-- `RecordActual` writes the key of the decision, if the ledger has it. -/
theorem recordActual_cases (c : Controller F) (ledger : DecisionLedger F)
    (requestID backendID : String)
    (hkey : ∀ entry, ledger.entries requestID = some entry → entry.cacheKey ≠ "") :
    (ledger.entries requestID = none ∧ (c.recordActual ledger requestID backendID).1 = c) ∨
      ∃ entry, ledger.entries requestID = some entry ∧
        (c.recordActual ledger requestID backendID).1 =
          c.remember entry.tenantID entry.cacheKey backendID entry.occurredAt := by
  unfold Controller.recordActual
  cases hentry : ledger.entries requestID with
  | none => exact .inl ⟨rfl, rfl⟩
  | some entry => exact .inr ⟨entry, rfl, if_pos (hkey entry hentry)⟩

omit [Float64 F] in
theorem GatewayInv.recordActual {requestID : String} {flight : Flight F}
    (hflight : s.flights requestID = some flight) :
    GatewayInv (s.recordActual c requestID flight) := by
  have htabled := h.tabled hrouter
  have hsound := h.sound requestID flight hflight
  have hkeys : ∀ id', SameKeys s.ledger (s.recordActual c requestID flight).ledger id' :=
    updateActual_sameKeys s.ledger requestID flight.actualBackend
  have hstill : ({ flight with stage := .recorded, wrote := flight.wrote ||
      (s.ledger.entries requestID).isSome } : Flight F).Sound
        (s.recordActual c requestID flight).ledger requestID := by
    have hentry := (hsound.congr (hkeys requestID)).entry
    exact ⟨hsound.id_ne, hsound.plain, hsound.key, hentry, fun _ _ hstage => by cases hstage⟩
  have hold : ∀ old, s.flights requestID = some old → old.wrote = true →
      (flight.wrote || (s.ledger.entries requestID).isSome) = true ∧
        flight.tenantID = old.tenantID ∧ flight.cacheKey = old.cacheKey := by
    intro old hold hwritten
    obtain rfl := Option.some.inj (hflight.symm.trans hold)
    exact ⟨by rw [hwritten, Bool.true_or], rfl, rfl⟩
  have hcases := recordActual_cases c s.ledger requestID flight.actualBackend
    fun entry hentry => by
      rw [(hsound.entry entry hentry).2]
      exact hsound.key
  have hafter : ∀ tenant key, (s.recordActual c requestID flight).mapping tenant key =
      (c.recordActual s.ledger requestID flight.actualBackend).1.cache.mapping tenant key :=
    fun _ _ => rfl
  rcases hcases with ⟨hnone, heq⟩ | ⟨entry, hentry, heq⟩
  · have hafterTabled : Tabled (c.recordActual s.ledger requestID flight.actualBackend).1 := by
      rw [heq]
      exact htabled
    refine h.update requestID rfl hafterTabled rfl rfl (fun id' _ => hkeys id') hstill hold
      ?_
    intro tenant key backend _ hmapped
    rw [hafter, heq] at hmapped
    rw [GatewayState.mapping_eq hrouter]
    exact .inl hmapped
  · obtain ⟨htenant, hkey⟩ := hsound.entry entry hentry
    have hplain : Plain entry.tenantID := by
      rw [htenant]
      exact hsound.plain
    obtain ⟨hremembers, -, hothers⟩ := htabled.remember hplain entry.cacheKey
      flight.actualBackend entry.occurredAt
    have hafterTabled : Tabled (c.recordActual s.ledger requestID flight.actualBackend).1 := by
      rw [heq]
      exact hremembers
    refine h.update requestID rfl hafterTabled rfl rfl (fun id' _ => hkeys id') hstill hold
      ?_
    intro tenant key backend hplain' hmapped
    rw [hafter, heq] at hmapped
    rw [GatewayState.mapping_eq hrouter]
    by_cases hsame : (tenant, key) = (entry.tenantID, entry.cacheKey)
    · obtain ⟨rfl, rfl⟩ := Prod.mk.inj hsame
      exact .inr ⟨by rw [hentry]; exact Bool.or_true _, htenant.symm, hkey.symm⟩
    · exact .inl (hothers tenant key backend hplain' hsame hmapped)

omit [Float64 F] in
theorem GatewayInv.other (registry : Option Registry) (router : Controller F) :
    GatewayInv (s.other c registry router) where
  router := by
    obtain ⟨a, ha, hkept⟩ := h.tabled hrouter
    exact ⟨_, rfl, a, ha, hkept⟩
  sound := h.sound
  justified := by
    intro tenant key backend hplain hmapped
    refine h.justified tenant key backend hplain ?_
    rw [GatewayState.mapping_eq hrouter]
    exact hmapped

omit h hrouter in
/-- `RecordOutcome` writes the key of a decision that the ledger has, if a backend was called. -/
theorem recordOutcome_cases (c : Controller F) (ledger : DecisionLedger F)
    (outcome : Ledger.DecisionOutcome F) (hid : outcome.requestID ≠ "")
    (hkey : ∀ entry, ledger.entries outcome.requestID = some entry → entry.cacheKey ≠ "") :
    ((outcome.actualBackend = "" ∨ ledger.entries outcome.requestID = none) ∧
        (c.recordOutcome ledger outcome).1 = c) ∨
      ∃ entry, ledger.entries outcome.requestID = some entry ∧ outcome.actualBackend ≠ "" ∧
        (c.recordOutcome ledger outcome).1 =
          c.remember entry.tenantID entry.cacheKey outcome.actualBackend outcome.completedAt := by
  unfold Controller.recordOutcome
  rw [if_neg hid]
  cases hentry : ledger.entries outcome.requestID with
  | none => exact .inl ⟨.inr rfl, rfl⟩
  | some entry =>
    by_cases hbackend : outcome.actualBackend = ""
    · exact .inl ⟨.inl hbackend, if_neg fun hboth => hboth.2 hbackend⟩
    · exact .inr ⟨entry, rfl, hbackend, if_pos ⟨hkey entry hentry, hbackend⟩⟩

omit [Float64 F] h hrouter in
theorem lastServed_cons (s' : GatewayState F) (request : Completed)
    (hcompleted : s'.completed = request :: s.completed) (tenant key : String) :
    s'.lastServed tenant key =
      if (tenant, key) = (request.tenantID, request.cacheKey) ∧ request.success = true then
        some request.actualBackend
      else s.lastServed tenant key := by
  unfold GatewayState.lastServed
  rw [hcompleted, List.find?_cons]
  by_cases hmatch : (tenant, key) = (request.tenantID, request.cacheKey) ∧ request.success = true
  · obtain ⟨hsame, hsuccess⟩ := hmatch
    obtain ⟨rfl, rfl⟩ := Prod.mk.inj hsame
    simp [hsuccess]
  · rw [if_neg hmatch]
    have hfalse : (request.tenantID = tenant && request.cacheKey = key && request.success) =
        false := by
      rw [← Bool.not_eq_true]
      intro htrue
      simp only [Bool.and_eq_true, decide_eq_true_eq] at htrue
      exact hmatch ⟨by rw [htrue.1.1, htrue.1.2], htrue.2⟩
    rw [hfalse]

omit [Float64 F] h hrouter in
theorem completed_success (request : Completed) :
    request.success = true ↔ 200 ≤ request.statusCode ∧ request.statusCode < 300 := by
  unfold Completed.success
  rw [Bool.and_eq_true, decide_eq_true_eq, decide_eq_true_eq]

section Finish

variable {observed : Ledger.DecisionOutcome F} {flight : Flight F}

/-- The request that ends. -/
def completedOf (observed : Ledger.DecisionOutcome F) (flight : Flight F) : Completed where
  tenantID := flight.tenantID
  cacheKey := flight.cacheKey
  actualBackend := flight.actualBackend
  statusCode := observed.statusCode

/-- The outcome that it records. -/
def outcomeOf (observed : Ledger.DecisionOutcome F) (flight : Flight F) :
    Ledger.DecisionOutcome F :=
  { observed with
    actualBackend := flight.actualBackend
    success := (completedOf observed flight).success }

omit h hrouter in
/-- The other requests stay in flight. -/
theorem finish_flights (s : GatewayState F) (c : Controller F)
    (observed : Ledger.DecisionOutcome F) (flight : Flight F) {id : String} {other : Flight F} :
    (s.finish c flight observed).flights id = some other ↔
      id ≠ observed.requestID ∧ s.flights id = some other := by
  show Function.update s.flights observed.requestID none id = some other ↔ _
  rw [Function.update_apply]
  split
  · rename_i hid
    exact iff_of_false nofun fun hboth => hboth.1 hid
  · rename_i hid
    exact ⟨fun hother => ⟨hid, hother⟩, fun hboth => hboth.2⟩

omit h hrouter in
/-- A request in flight with other keys than the one that ends, or with a write that it has not
made, is another one. -/
theorem finish_stays (hflight : s.flights observed.requestID = some flight)
    {tenant key : String}
    (hexists : ∃ id other, s.flights id = some other ∧ other.wrote = true ∧
      other.tenantID = tenant ∧ other.cacheKey = key)
    (hdifferent : (tenant, key) ≠ (flight.tenantID, flight.cacheKey) ∨ flight.wrote = false) :
    ∃ id other, (s.finish c flight observed).flights id = some other ∧ other.wrote = true ∧
      other.tenantID = tenant ∧ other.cacheKey = key := by
  obtain ⟨id, other, hother, hwritten, rfl, rfl⟩ := hexists
  have hid : id ≠ observed.requestID := by
    rintro rfl
    obtain rfl := Option.some.inj (hflight.symm.trans hother)
    rcases hdifferent with hne | hfalse
    · exact hne rfl
    · rw [hfalse] at hwritten
      cases hwritten
  exact ⟨id, other, (finish_flights s c observed flight).mpr ⟨hid, hother⟩, hwritten, rfl, rfl⟩

omit hrouter in
theorem GatewayInv.finish_sound (hflight : s.flights observed.requestID = some flight) :
    ∀ id other, (s.finish c flight observed).flights id = some other →
      other.Sound (s.finish c flight observed).ledger id := by
  intro id other hother
  have hid := (h.sound observed.requestID flight hflight).id_ne
  have hledger : (s.finish c flight observed).ledger =
      s.ledger.recordOutcomeEntry (outcomeOf observed flight) := by
    show (c.recordOutcome s.ledger (outcomeOf observed flight)).2 = _
    unfold Controller.recordOutcome
    exact congrArg Prod.snd (if_neg hid)
  rw [hledger]
  exact (h.sound id other ((finish_flights s c observed flight).mp hother).2).congr
    (recordOutcomeEntry_sameKeys s.ledger (outcomeOf observed flight) id)

omit hrouter in
theorem GatewayInv.finish_cases (hflight : s.flights observed.requestID = some flight) :
    ((flight.actualBackend = "" ∨ s.ledger.entries observed.requestID = none) ∧
        (c.recordOutcome s.ledger (outcomeOf observed flight)).1 = c) ∨
      ∃ entry, s.ledger.entries observed.requestID = some entry ∧ flight.actualBackend ≠ "" ∧
        (c.recordOutcome s.ledger (outcomeOf observed flight)).1 =
          c.remember flight.tenantID flight.cacheKey flight.actualBackend observed.completedAt := by
  have hsound := h.sound observed.requestID flight hflight
  rcases recordOutcome_cases c s.ledger (outcomeOf observed flight) hsound.id_ne
    fun entry hentry => by
      rw [(hsound.entry entry hentry).2]
      exact hsound.key with hsame | ⟨entry, hentry, hbackend, heq⟩
  · exact .inl hsame
  · obtain ⟨htenant, hkey⟩ := hsound.entry entry hentry
    rw [htenant, hkey] at heq
    exact .inr ⟨entry, hentry, hbackend, heq⟩

/-- A request that is answered 2xx is remembered. -/
theorem GatewayInv.finish_served (hflight : s.flights observed.requestID = some flight)
    (hok : 200 ≤ observed.statusCode ∧ observed.statusCode < 300)
    (hbackend : flight.actualBackend ≠ "")
    (hsome : (s.ledger.entries observed.requestID).isSome) :
    GatewayInv (s.finish c flight observed) := by
  have htabled := h.tabled hrouter
  have hserved := lastServed_cons (s.finish c flight observed) (completedOf observed flight) rfl
  rcases h.finish_cases (c := c) hflight with ⟨hgone | hgone, -⟩ | ⟨entry, hentry, -, heq⟩
  · exact absurd hgone hbackend
  · rw [hgone] at hsome
    cases hsome
  obtain ⟨hremembers, hself, hother⟩ := htabled.remember
    (h.sound observed.requestID flight hflight).plain flight.cacheKey flight.actualBackend
    observed.completedAt
  have hafter : Tabled (c.recordOutcome s.ledger (outcomeOf observed flight)).1 := by
    rw [heq]
    exact hremembers
  refine ⟨⟨_, rfl, hafter⟩, h.finish_sound hflight, ?_⟩
  intro tenant key backend hplain hmapped
  have hmapped : (c.recordOutcome s.ledger (outcomeOf observed flight)).1.cache.mapping tenant key =
      some backend := hmapped
  rw [heq] at hmapped
  rw [hserved]
  by_cases hsame : (tenant, key) = (flight.tenantID, flight.cacheKey)
  · rw [if_pos ⟨hsame, (completed_success _).mpr hok⟩]
    obtain ⟨rfl, rfl⟩ := Prod.mk.inj hsame
    exact .inl (hself.symm.trans hmapped)
  · rw [if_neg fun hboth => hsame hboth.1]
    have hbefore := hother tenant key backend hplain hsame hmapped
    rw [← GatewayState.mapping_eq hrouter] at hbefore
    exact (h.justified tenant key backend hplain hbefore).imp_right fun hflights =>
      finish_stays hflight hflights (.inl hsame)

/-- A request that is not answered 2xx and has written nothing leaves the table as it was. -/
theorem GatewayInv.finish_failed (hflight : s.flights observed.requestID = some flight)
    (hnot : ¬ (200 ≤ observed.statusCode ∧ observed.statusCode < 300))
    (hwrote : flight.wrote = false)
    (hgone : flight.actualBackend = "" ∨ s.ledger.entries observed.requestID = none) :
    GatewayInv (s.finish c flight observed) ∧
      ∀ tenant key, (s.finish c flight observed).mapping tenant key = s.mapping tenant key := by
  have hserved := lastServed_cons (s.finish c flight observed) (completedOf observed flight) rfl
  have heq : (c.recordOutcome s.ledger (outcomeOf observed flight)).1 = c := by
    rcases h.finish_cases (c := c) hflight with ⟨-, heq⟩ | ⟨entry, hentry, hbackend, -⟩
    · exact heq
    · rcases hgone with hgone | hgone
      · exact absurd hgone hbackend
      · rw [hgone] at hentry
        cases hentry
  have hrouter' : (s.finish c flight observed).server.router = some c := congrArg some heq
  have hsame : ∀ tenant key,
      (s.finish c flight observed).mapping tenant key = s.mapping tenant key := by
    intro tenant key
    rw [GatewayState.mapping_eq hrouter', GatewayState.mapping_eq hrouter]
  refine ⟨⟨⟨c, hrouter', h.tabled hrouter⟩, h.finish_sound hflight, ?_⟩, hsame⟩
  intro tenant key backend hplain hmapped
  rw [hsame] at hmapped
  have hfailed : ¬ (completedOf observed flight).success = true := fun hsuccess =>
    hnot ((completed_success (completedOf observed flight)).mp hsuccess)
  rw [hserved, if_neg fun hboth => hfailed hboth.2]
  exact (h.justified tenant key backend hplain hmapped).imp_right fun hflights =>
    finish_stays hflight hflights (.inr hwrote)

theorem GatewayInv.finish (hflight : s.flights observed.requestID = some flight)
    (hsettles : Settles s (.finish observed)) :
    GatewayInv (s.finish c flight observed) ∧
      (¬ (200 ≤ observed.statusCode ∧ observed.statusCode < 300) →
        ∀ tenant key, (s.finish c flight observed).mapping tenant key = s.mapping tenant key) := by
  have hsettles := hsettles flight hflight
  split at hsettles
  · rename_i hok
    exact ⟨h.finish_served hrouter hflight hok hsettles.1 hsettles.2,
      fun hnot => absurd hok hnot⟩
  · rename_i hnot
    obtain ⟨hinv, hsame⟩ := h.finish_failed hrouter hflight hnot hsettles.1 hsettles.2
    exact ⟨hinv, fun _ => hsame⟩

end Finish

end Steps

/-! ## Runs -/

theorem step_gatewayInv (env : Router.Externals F) {s s' : GatewayState F}
    {event : GatewayEvent F} (h : GatewayInv s) (hstep : GatewayStep env s event s')
    (hsettles : Settles s event) : GatewayInv s' := by
  cases hstep with
  | plan hrouter hid hnew hkey => exact h.plan hrouter env hid hnew hkey hsettles
  | prefer hrouter hflight hstage => exact h.prefer hrouter hflight hstage
  | attempt hflight hstage => exact h.attempt hflight _
  | recordActual hrouter hflight hstage => exact h.recordActual hrouter hflight
  | finish hrouter hflight hends => exact (h.finish hrouter hflight hsettles).1
  | other hrouter registry router => exact h.other hrouter registry router

theorem reach_gatewayInv (env : Router.Externals F) {s : GatewayState F}
    (hs : ((gatewayRuns env).restrict Settles).Reach s) : GatewayInv s := by
  induction hs with
  | init hinit =>
    obtain ⟨⟨c, max, ttl, hrouter, htable⟩, hidle, -⟩ := hinit
    refine ⟨⟨c, hrouter, _, htable, Affinity.new_wellKept max ttl⟩, ?_, ?_⟩
    · intro id flight hflight
      rw [hidle] at hflight
      cases hflight
    · intro tenant key backend _ hmapped
      rw [GatewayState.mapping_eq hrouter] at hmapped
      unfold CacheState.mapping at hmapped
      rw [htable] at hmapped
      cases hmapped
  | step _ hstep ih => exact step_gatewayInv env ih hstep.1 hstep.2

/-- **The table remembers service** in every run whose requests settle: with no request in flight
it maps to the backend that served last, and a request that is not answered 2xx has left it as it
was. -/
theorem affinity_remembers_service (env : Router.Externals F) :
    (∀ s : GatewayState F, ((gatewayRuns env).restrict Settles).Reach s → s.Idle →
      s.Remembers) ∧
    (∀ (s s' : GatewayState F) observed, ((gatewayRuns env).restrict Settles).Reach s →
      ((gatewayRuns env).restrict Settles).step s (.finish observed) s' →
      ¬ (200 ≤ observed.statusCode ∧ observed.statusCode < 300) →
      (∀ flight, s.flights observed.requestID = some flight → flight.wrote = false) ∧
        ∀ tenant key, s'.mapping tenant key = s.mapping tenant key) := by
  constructor
  · intro s hs hidle tenant key backend hplain hmapped
    rcases (reach_gatewayInv env hs).justified tenant key backend hplain hmapped with
      hserved | ⟨id, flight, hflight, -⟩
    · exact hserved
    · rw [hidle] at hflight
      cases hflight
  · rintro s s' observed hs ⟨hstep, hsettles⟩ hnot
    have h := reach_gatewayInv env hs
    cases hstep with
    | finish hrouter hflight hends =>
      refine ⟨fun flight hflight => ?_, (h.finish hrouter hflight hsettles).2 hnot⟩
      have hsettled := hsettles flight hflight
      rw [if_neg hnot] at hsettled
      exact hsettled.1

/-- The flight of a request that has not written the table. -/
def Flight.of (call : Call F) (stage : Stage F) (actualBackend : String) : Flight F where
  tenantID := call.activeTenant.id
  cacheKey := call.cacheKey
  stage
  actualBackend
  wrote := false

/-- A request has been routed to some backends and is preferred nowhere. -/
def GatewayState.routed (s : GatewayState F) (call : Call F) (decision : Decision F)
    (c : Controller F) (stage : Stage F) : GatewayState F :=
  { s with
    server := { (s.server.registryCandidates call.model).2 with router := some c }
    ledger := s.ledger.recordEntry (.ofPlan decision)
    flights := Function.update s.flights call.requestID (some (.of call stage "")) }

section Routed

variable (env : Router.Externals F) {s : GatewayState F} {c : Controller F} {call : Call F}
  (hrouter : s.server.router = some c) (hid : call.requestID ≠ "")
  (hnew : s.flights call.requestID = none) (hkey : call.cacheKey ≠ "")
  {decision : Decision F} {c' : Controller F}
  (hplan : planFor env c call (s.server.registryCandidates call.model).1 = (decision, c'))
  {candidates : List Backend}
  (hcandidates : ((s.server.registryCandidates call.model).1.filter fun candidate =>
    candidate.id ∈ eligibleIDs decision) = candidates)
include hrouter hid hnew hkey hplan hcandidates

/-- The steps of a request up to its first call. -/
theorem routed_steps (hquiet : c'.preferredIDsForDecision decision call.cacheKey = ([], c')) :
    GatewayStep env s (.plan call) (s.routed call decision c' (.planned decision candidates)) ∧
      GatewayStep env (s.routed call decision c' (.planned decision candidates))
        (.prefer call.requestID) (s.routed call decision c' (.calling candidates)) := by
  have hplanned : s.plan env c call = s.routed call decision c' (.planned decision candidates) := by
    unfold GatewayState.plan
    dsimp only
    rw [hplan]
    dsimp only
    rw [hcandidates]
    rfl
  have hself : (s.routed call decision c' (.planned decision candidates)).flights call.requestID =
      some (.of call (.planned decision candidates) "") := Function.update_self ..
  have hpreferred : (s.routed call decision c' (.planned decision candidates)).prefer c'
      call.requestID (.of call (.planned decision candidates) "") decision candidates =
        s.routed call decision c' (.calling candidates) := by
    unfold GatewayState.prefer
    rw [show (Flight.of call (.planned decision candidates) "").cacheKey = call.cacheKey from rfl,
      hquiet]
    simp only [GatewayState.routed, Function.update_idem]
    rfl
  constructor
  · rw [← hplanned]
    exact .plan hrouter hid hnew hkey
  · rw [← hpreferred]
    exact .prefer rfl hself rfl

/-- A request that is not preferred anywhere and whose only backend fails. -/
theorem reach_failed (observed : Ledger.DecisionOutcome F) (hs : (gatewayRuns env).Reach s)
    {backend : Backend} (honly : candidates = [backend])
    (hquiet : c'.preferredIDsForDecision decision call.cacheKey = ([], c'))
    (hbackend : backend.id ≠ "")
    (hobserved : observed.requestID = call.requestID) (hstatus : observed.statusCode = 502) :
    ∃ s', (gatewayRuns env).Reach s' ∧
      s'.flights = Function.update s.flights call.requestID none ∧
      s'.completed =
        { tenantID := call.activeTenant.id, cacheKey := call.cacheKey, actualBackend := backend.id
          statusCode := 502 } :: s.completed ∧
      s'.server.router = some (c'.recordOutcome (s.ledger.recordEntry (.ofPlan decision))
        { observed with actualBackend := backend.id, success := false }).1 := by
  subst honly
  obtain ⟨hstep₁, hstep₂⟩ := routed_steps env hrouter hid hnew hkey hplan hcandidates hquiet
  let s₂ := s.routed call decision c' (.calling [backend])
  let s₃ := s₂.attempt call.requestID (.of call (.calling [backend]) "") backend [] (.answered 503)
  have hself₂ : s₂.flights call.requestID = some (.of call (.calling [backend]) "") :=
    Function.update_self ..
  have hself₃ : s₃.flights observed.requestID = some (.of call (.calling []) backend.id) := by
    rw [hobserved]
    exact Function.update_self call.requestID _ s₂.flights
  have hends : (Flight.of call (.calling []) backend.id).Ends observed.statusCode := by
    show observed.statusCode = if backend.id = "" then 503 else 502
    rw [if_neg hbackend, hstatus]
  have hstep₃ : GatewayStep env s₂ (.attempt call.requestID (.answered 503)) s₃ :=
    .attempt hself₂ rfl
  have hstep₄ : GatewayStep env s₃ (.finish observed)
      (s₃.finish c' (.of call (.calling []) backend.id) observed) := .finish rfl hself₃ hends
  refine ⟨_, .step (.step (.step (.step hs hstep₁) hstep₂) hstep₃) hstep₄, ?_, ?_, ?_⟩
  · show Function.update s₃.flights observed.requestID none = _
    rw [hobserved]
    show Function.update (Function.update (Function.update s.flights call.requestID _)
      call.requestID _) call.requestID none = _
    rw [Function.update_idem, Function.update_idem]
  · show ({ tenantID := _, cacheKey := _, actualBackend := _
            statusCode := observed.statusCode } : Completed) :: s.completed = _
    rw [hstatus]
    rfl
  · show some (c'.recordOutcome (s.ledger.recordEntry (.ofPlan decision))
      { observed with
        actualBackend := backend.id
        success := 200 ≤ observed.statusCode && observed.statusCode < 300 }).1 = _
    rw [hstatus]
    rfl

/-- A request that its only backend answers while the ledger has its decision. -/
theorem reach_served (observed : Ledger.DecisionOutcome F)
    (hs : ((gatewayRuns env).restrict Settles).Reach s) (hplain : Plain call.activeTenant.id)
    {backend : Backend} (honly : candidates = [backend])
    (hquiet : c'.preferredIDsForDecision decision call.cacheKey = ([], c'))
    (hbackend : backend.id ≠ "")
    (hentry : (((s.ledger.recordEntry (.ofPlan decision)).updateActual call.requestID
      backend.id).entries call.requestID).isSome)
    (hobserved : observed.requestID = call.requestID) (hstatus : observed.statusCode = 200) :
    let actual := c'.recordActual (s.ledger.recordEntry (.ofPlan decision)) call.requestID backend.id
    ∃ s', ((gatewayRuns env).restrict Settles).Reach s' ∧
      s'.flights = Function.update s.flights call.requestID none ∧
      s'.server.router = some (actual.1.recordOutcome actual.2
        { observed with actualBackend := backend.id, success := true }).1 := by
  intro actual
  subst honly
  obtain ⟨hstep₁, hstep₂⟩ := routed_steps env hrouter hid hnew hkey hplan hcandidates hquiet
  let s₂ := s.routed call decision c' (.calling [backend])
  let s₃ := s₂.attempt call.requestID (.of call (.calling [backend]) "") backend [] (.answered 200)
  let s₄ := s₃.recordActual c' call.requestID (.of call .answered backend.id)
  let recorded : Flight F :=
    { Flight.of call .recorded backend.id with
      wrote := false || (s₃.ledger.entries call.requestID).isSome }
  have hself₂ : s₂.flights call.requestID = some (.of call (.calling [backend]) "") :=
    Function.update_self ..
  have hself₃ : s₃.flights call.requestID = some (.of call .answered backend.id) :=
    Function.update_self call.requestID _ s₂.flights
  have hself₄ : s₄.flights observed.requestID = some recorded := by
    rw [hobserved]
    exact Function.update_self call.requestID _ s₃.flights
  have hstep₃ : GatewayStep env s₂ (.attempt call.requestID (.answered 200)) s₃ :=
    .attempt hself₂ rfl
  have hstep₄ : GatewayStep env s₃ (.recordActual call.requestID) s₄ :=
    .recordActual rfl hself₃ rfl
  have hstep₅ : GatewayStep env s₄ (.finish observed) (s₄.finish actual.1 recorded observed) :=
    .finish rfl hself₄ trivial
  have hsettles : Settles s₄ (.finish observed) := by
    intro flight hflight
    rw [hself₄] at hflight
    obtain rfl := Option.some.inj hflight
    rw [hstatus, hobserved, if_pos ⟨by decide, by decide⟩]
    exact ⟨hbackend, hentry⟩
  have hreach : ((gatewayRuns env).restrict Settles).Reach s₄ :=
    .step (.step (.step (.step hs ⟨hstep₁, hplain⟩) ⟨hstep₂, trivial⟩) ⟨hstep₃, trivial⟩)
      ⟨hstep₄, trivial⟩
  refine ⟨_, .step hreach ⟨hstep₅, hsettles⟩, ?_, ?_⟩
  · show Function.update s₄.flights observed.requestID none = _
    rw [hobserved]
    show Function.update (Function.update (Function.update (Function.update s.flights
      call.requestID _) call.requestID _) call.requestID _) call.requestID none = _
    rw [Function.update_idem, Function.update_idem, Function.update_idem]
  · show some (actual.1.recordOutcome actual.2
      { observed with
        actualBackend := backend.id
        success := 200 ≤ observed.statusCode && observed.statusCode < 300 }).1 = _
    rw [hstatus]
    rfl

end Routed

end Runs

namespace AffinityRunSample

local instance : Float64 Rat := .rational fun _ => 1

attribute [local instance] integerText

/-- A registry with one backend. -/
def registry : Registry :=
  Registry.empty.insertEntry
    { backend := ShadowSample.backend "a", enabled := true, healthy := true } Nat.one_pos

def controller : Controller Rat :=
  withSignals ShadowSample.controller
    { states := ∅
      cache :=
        { affinity := some (.new 0 0)
          provider := .affinity (some { affinity := .shared, confidence := 65 / 100 }) }
      predictor := .default }

def start : GatewayState Rat where
  server := { backends := some registry, router := some controller, backendURL := ShadowSample.url }
  ledger := .new 0 false
  flights _ := none
  completed := []

/-- The plan of the request. -/
def decided : Decision Rat × Controller Rat :=
  planFor ShadowSample.env controller ShadowSample.call
    (start.server.registryCandidates ShadowSample.call.model).1

theorem router_start : start.server.router = some controller := rfl

theorem plan_decided : planFor ShadowSample.env controller ShadowSample.call
    (start.server.registryCandidates ShadowSample.call.model).1 = (decided.1, decided.2) := rfl

/-- The backends to call. -/
def candidates : List Backend :=
  (start.server.registryCandidates ShadowSample.call.model).1.filter fun candidate =>
    candidate.id ∈ eligibleIDs decided.1

theorem one_candidate : ∃ backend, candidates = [backend] ∧ backend.id = "a" := by
  have hids : candidates.map (·.id) = ["a"] := by decide +kernel
  obtain ⟨backend, rest, hcandidates, hid, hrest⟩ := List.map_eq_cons_iff.mp hids
  rw [List.map_eq_nil_iff] at hrest
  exact ⟨backend, hrest ▸ hcandidates, hid⟩

/-- In shadow mode no backend is preferred. -/
theorem not_preferred : decided.2.preferredIDsForDecision decided.1 ShadowSample.call.cacheKey =
    ([], decided.2) := by
  have hnone : (decided.2.preferredIDsForDecision decided.1 ShadowSample.call.cacheKey).1 = [] := by
    decide +kernel
  rcases preferredIDs_remember decided.2 decided.1 (show ShadowSample.call.cacheKey ≠ "" by
    decide) with heq | heq
  · exact heq
  · rw [heq] at hnone
    cases hnone

theorem init_start : (gatewayRuns ShadowSample.env).init start :=
  ⟨⟨controller, 0, 0, rfl, rfl⟩, fun _ => rfl, rfl⟩

/-- The outcome of a request whose only backend answers 200. -/
def served : Ledger.DecisionOutcome Rat :=
  { Ledger.DecisionOutcome.zero with requestID := "r", statusCode := 200, completedAt := 2 }

/-- A request is answered, and the table maps to the backend that served it. -/
theorem served_backend_remembered :
    ∃ s, ((gatewayRuns ShadowSample.env).restrict Settles).Reach s ∧ s.Idle ∧
      s.mapping "t" "k" = some "a" ∧ s.lastServed "t" "k" = some "a" := by
  obtain ⟨backend, hcandidates, hid⟩ := one_candidate
  obtain ⟨s, hs, hflights, hrouter⟩ := reach_served ShadowSample.env router_start (by decide) rfl
    (by decide) plan_decided hcandidates served (.init init_start) (by decide) rfl not_preferred
    (by rw [hid]; decide) (by rw [hid]; decide +kernel) rfl rfl
  have hidle : s.Idle := by
    intro id
    rw [hflights]
    exact congrFun (Function.update_eq_self _ _) id
  have hmapping : s.mapping "t" "k" = some "a" := by
    rw [GatewayState.mapping_eq hrouter, hid]
    decide +kernel
  exact ⟨s, hs, hidle, hmapping,
    (affinity_remembers_service ShadowSample.env).1 s hs hidle "t" "k" "a" (by decide) hmapping⟩

/-- The outcome of a request whose only backend answers 503. -/
def observed : Ledger.DecisionOutcome Rat :=
  { Ledger.DecisionOutcome.zero with requestID := "r", statusCode := 502, completedAt := 2 }

/-- A request that no backend has served is remembered as served. -/
theorem failed_backend_remembered :
    ∃ s, (gatewayRuns ShadowSample.env).Reach s ∧ s.Idle ∧
      s.mapping "t" "k" = some "a" ∧ s.lastServed "t" "k" = none ∧ ¬ s.Remembers := by
  obtain ⟨backend, hcandidates, hid⟩ := one_candidate
  obtain ⟨s, hs, hflights, hcompleted, hrouter⟩ := reach_failed ShadowSample.env
    router_start (by decide) rfl (by decide) plan_decided hcandidates observed (.init init_start) rfl
    not_preferred (by rw [hid]; decide) rfl rfl
  have hmapping : s.mapping "t" "k" = some "a" := by
    rw [GatewayState.mapping_eq hrouter, hid]
    decide +kernel
  have hserved : s.lastServed "t" "k" = none := by
    unfold GatewayState.lastServed
    rw [hcompleted, hid]
    decide +kernel
  refine ⟨s, hs, ?_, hmapping, hserved, ?_⟩
  · intro id
    rw [hflights]
    exact congrFun (Function.update_eq_self _ _) id
  · intro hremembers
    have hnone := hremembers "t" "k" "a" (by decide) hmapping
    rw [hserved] at hnone
    cases hnone

end AffinityRunSample

end Kavora.Gateway
