import Kavora.EngineEvents.VLLM
import Kavora.Ledger.PredictionQuality
import Kavora.Lib.JsonStream
import Kavora.Router.Controller
import Kavora.Router.LifecycleRuns
import Kavora.Router.SnapshotHash

/-!
# The admin API of the gateway (`gateway/internal/webui/handler.go`)

The endpoints under `/v1/admin` show the decisions, the experiment and the lifecycle, and take the
observations and approvals of a rollout and the cache events of an engine.

* `ControlPlane.serve`: a request to one of them.
* `Request.change`: what a request asks to be changed. `ControlPlane.serve_changes` says that
  nothing else is.
* `ControlPlane.exposure_approved`: over any requests, no rollout leaves shadow without an approval
  that came with the token.
-/

namespace Kavora.Webui

open Lib Lib.Go Lib.Json Router Ledger EngineEvents BackendState
open Float64 (ofInt)

/-! ## Requests -/

/-- The parts of a request that the handler reads. -/
structure Request where
  method : String
  path : String
  /-- The first value of `Authorization`, empty without one. -/
  authorization : String
  /-- `URL.Query().Get`. -/
  query : String → String
  body : Bytes

/-- The number that `strconv.ParseFloat` returns, also with an error. -/
class QueryFloat (F : Type) where
  parseFloat : String → F

/-- The number that `strconv.Atoi` returns, also with an error. -/
def atoi (text : String) : Int :=
  match text.toList with
  | '-' :: digits =>
    match parseDigits digits with
    | none => 0
    | some n => max (-2 ^ 63) (-n)
  | '+' :: digits =>
    match parseDigits digits with
    | none => 0
    | some n => min (2 ^ 63 - 1) n
  | digits =>
    match parseDigits digits with
    | none => 0
    | some n => min (2 ^ 63 - 1) n

/-- The paths of the API. -/
inductive Route where
  | decisions
  | decision (requestID : String)
  | predictionQuality
  | experiment
  | lifecycle
  | approve
  | cacheEvents
  deriving DecidableEq, Repr

/-- The pattern of the mux that a path matches. -/
def route (path : String) : Option Route :=
  if path = "/v1/admin/decisions" then some .decisions
  else if "/v1/admin/decisions/".toList <+: path.toList then
    some (.decision (.ofList (path.toList.drop "/v1/admin/decisions/".toList.length)))
  else if path = "/v1/admin/prediction-quality" then some .predictionQuality
  else if path = "/v1/admin/experiment" then some .experiment
  else if path = "/v1/admin/lifecycle" then some .lifecycle
  else if path = "/v1/admin/lifecycle/approve" then some .approve
  else if path = "/v1/admin/cache-events" then some .cacheEvents
  else none

theorem route_approve {path : String} (h : route path = some .approve) :
    path = "/v1/admin/lifecycle/approve" := by
  unfold route at h
  split at h
  · cases h
  split at h
  · cases h
  split at h
  · cases h
  split at h
  · cases h
  split at h
  · cases h
  split at h
  · assumption
  split at h <;> cases h

/-! ## Bodies -/

section

variable {F : Type} [Float64 F] [FloatText F]

/-- The fields of its JSON object. -/
def LifecycleObservation.fields : List (Go.Field (LifecycleObservation F)) :=
  [ int64Field "requests" LifecycleObservation.requests fun a s => { s with requests := a },
    field "p95_regression_percent" LifecycleObservation.p95RegressionPercent
      fun a s => { s with p95RegressionPercent := a },
    field "error_delta" LifecycleObservation.errorDelta fun a s => { s with errorDelta := a },
    field "fallback_rate" LifecycleObservation.fallbackRate fun a s => { s with fallbackRate := a },
    field "slo_violation_rate" LifecycleObservation.sloViolationRate
      fun a s => { s with sloViolationRate := a },
    field "state_healthy" LifecycleObservation.stateHealthy fun a s => { s with stateHealthy := a },
    field "policy_healthy" LifecycleObservation.policyHealthy
      fun a s => { s with policyHealthy := a },
    field "prediction_mae_ms" LifecycleObservation.predictionMAEMS
      fun a s => { s with predictionMAEMS := a },
    field "evidence_error_rate" LifecycleObservation.evidenceErrorRate
      fun a s => { s with evidenceErrorRate := a },
    field "experiment_promotion_eligible" LifecycleObservation.experimentPromotionEligible
      fun a s => { s with experimentPromotionEligible := a },
    field "experiment_integrity_healthy" LifecycleObservation.experimentIntegrityHealthy
      fun a s => { s with experimentIntegrityHealthy := a } ]

instance : Marshal (LifecycleObservation F) where
  zero :=
    { requests := 0, p95RegressionPercent := ofInt 0, errorDelta := ofInt 0
      fallbackRate := ofInt 0, sloViolationRate := ofInt 0, stateHealthy := false
      policyHealthy := false, predictionMAEMS := ofInt 0, evidenceErrorRate := ofInt 0
      experimentPromotionEligible := false, experimentIntegrityHealthy := false }
  marshal := marshalStruct LifecycleObservation.fields
  unmarshal := unmarshalStruct LifecycleObservation.fields

end

/-- The body of an approval. -/
structure LifecycleApproval where
  approvedBy : String
  deriving DecidableEq, Repr

/-- The fields of its JSON object. -/
def LifecycleApproval.fields : List (Go.Field LifecycleApproval) :=
  [field "approved_by" approvedBy fun a s => { s with approvedBy := a }]

instance : Marshal LifecycleApproval where
  zero := { approvedBy := "" }
  marshal := marshalStruct LifecycleApproval.fields
  unmarshal := unmarshalStruct LifecycleApproval.fields

/-- The text of an operation. -/
def Operation.text : Operation → String
  | .unset => ""
  | .store => "store"
  | .remove => "remove"
  | .clear => "clear"
  | .other text => text

/-- The operation of a text. -/
def Operation.ofText : String → Operation
  | "" => .unset
  | "store" => .store
  | "remove" => .remove
  | "clear" => .clear
  | text => .other text

instance : Marshal Operation where
  zero := .unset
  marshal operation := some (ofString (Operation.text operation))
  unmarshal doc operation :=
    match doc with
    | .string t => some (Operation.ofText t.text)
    | .null => some operation
    | _ => none

/-- A field of type `uint64` with `omitempty`. -/
def uint64Field {S : Type} (name : String) (get : S → Nat) (set : Nat → S → S) : Go.Field S where
  name
  member s :=
    if get s = 0 then some none
    else some (some (.number (.ofList (Nat.toDigits 10 (get s)))))
  assign doc s :=
    match doc with
    | .number text => ((parseDigits text.toList).filter (· < 2 ^ 64)).map fun n => set n s
    | .null => some s
    | _ => none

/-- The fields of its JSON object. -/
def KVEvent.fields : List (Go.Field KVEvent) :=
  [ omitempty "operation" (· = Operation.unset) KVEvent.operation
      fun a s => { s with operation := a },
    field "backend_id" KVEvent.backendID fun a s => { s with backendID := a },
    field "cache_key" KVEvent.cacheKey fun a s => { s with cacheKey := a },
    int64Field "matched_tokens" KVEvent.matchedTokens fun a s => { s with matchedTokens := a },
    int64Field "total_tokens" KVEvent.totalTokens fun a s => { s with totalTokens := a },
    uint64Field "sequence" KVEvent.sequence fun a s => { s with sequence := a },
    omitempty "has_sequence" (!·) KVEvent.hasSequence fun a s => { s with hasSequence := a },
    omitempty "generation" (· = "") KVEvent.generation fun a s => { s with generation := a },
    omitempty "engine_event_id" (· = "") KVEvent.engineEventID
      fun a s => { s with engineEventID := a },
    field "observed_at" KVEvent.observedAt fun a s => { s with observedAt := a },
    field "quality" KVEvent.quality fun a s => { s with quality := a } ]

instance : Marshal KVEvent where
  zero :=
    { operation := .unset, backendID := "", cacheKey := "", matchedTokens := 0, totalTokens := 0
      sequence := 0, hasSequence := false, generation := "", engineEventID := ""
      observedAt := Time.zero, quality := .other "" }
  marshal := marshalStruct KVEvent.fields
  unmarshal := unmarshalStruct KVEvent.fields

/-- `decodeJSON`. -/
def decodeJSON (α : Type) [Marshal α] (request : Request) : Option α :=
  decodeBytes α (request.body.take (2 ^ 20))

/-! ## Answers -/

/-- What `writeJSON` writes. -/
inductive Value (F : Type) where
  | decisions (decisions : List (Ledger.Decision F))
  | decision (decision : Ledger.Decision F)
  | predictionQuality (quality : Option (PredictionQuality F))
  | experiment (config : Experiment.Config F)
  | lifecycle (snapshot : LifecycleSnapshot F)
  | accepted

/-- What the handler answers. -/
inductive Response (F : Type) where
  | error (statusCode : Nat) (text : String)
  /-- Status 400 with the text of the decoder's error. -/
  | undecodable
  | json (statusCode : Nat) (value : Value F)

/-- The status of the answer. -/
def Response.statusCode {F : Type} : Response F → Nat
  | error statusCode _ => statusCode
  | undecodable => 400
  | json statusCode _ => statusCode

/-! ## The endpoints -/

/-- The controller with its ledger. -/
structure ControlPlane (F : Type) where
  controller : Controller F
  ledger : DecisionLedger F

section

variable {F : Type} [Float64 F] [FloatText F] [Rounding F] [QueryFloat F]

/-- `ObserveKVEvent`; `none` is false. -/
def observeKVEvent (c : Controller F) (now : Time) (event : KVEvent) : Option (Controller F) :=
  match c.cache.provider with
  | .kvEvents none => some c
  | .kvEvents (some provider) =>
    some { c with cache := { c.cache with provider := .kvEvents (some (provider.observe now event)) } }
  | _ => none

namespace ControlPlane

/-- The answer to another method. -/
def methodNotAllowed : Response F := .error 405 "method not allowed"

/-- The controller with another lifecycle. -/
def setLifecycle (cp : ControlPlane F) (lifecycle : Lifecycle F) : ControlPlane F :=
  { cp with controller := { cp.controller with lifecycle := some lifecycle } }

/-- An observation is posted. -/
def postLifecycle (cp : ControlPlane F) (lifecycle : Lifecycle F) (request : Request) :
    Response F × ControlPlane F :=
  match decodeJSON (LifecycleObservation F) request with
  | none => (.undecodable, cp)
  | some observation =>
    let lifecycle := lifecycle.observe observation
    (.json 200 (.lifecycle lifecycle.snapshot), cp.setLifecycle lifecycle)

/-- An approval is posted. -/
def postApproval (cp : ControlPlane F) (lifecycle : Lifecycle F) (request : Request) :
    Response F × ControlPlane F :=
  match (decodeJSON LifecycleApproval request).filter (trimSpace ·.approvedBy ≠ "") with
  | none => (.error 400 "approved_by is required", cp)
  | some approval =>
    let lifecycle := lifecycle.approve approval.approvedBy
    (.json 200 (.lifecycle lifecycle.snapshot), cp.setLifecycle lifecycle)

/-- A cache event is posted. -/
def postCacheEvent (cp : ControlPlane F) (now : Time) (request : Request) :
    Response F × ControlPlane F :=
  match decodeJSON KVEvent request with
  | none => (.undecodable, cp)
  | some event =>
    if validEvent event = false then (.error 400 "invalid cache event", cp)
    else
      match observeKVEvent cp.controller now event with
      | none => (.error 409 "kv event provider is not active", cp)
      | some controller => (.json 202 .accepted, { cp with controller })

/-- The handler of a route. -/
def handle (cp : ControlPlane F) (now : Time) (request : Request) :
    Route → Response F × ControlPlane F
  | .decisions =>
    if request.method ≠ "GET" then (methodNotAllowed, cp)
    else (.json 200 (.decisions (cp.ledger.recent (atoi (request.query "limit")))), cp)
  | .decision requestID =>
    if request.method ≠ "GET" then (methodNotAllowed, cp)
    else
      match cp.ledger.entries requestID with
      | none => (.error 404 "decision not found", cp)
      | some decision => (.json 200 (.decision decision), cp)
  | .predictionQuality =>
    if request.method ≠ "GET" then (methodNotAllowed, cp)
    else
      let sloMS : F := QueryFloat.parseFloat (request.query "slo_ms")
      let sloMS := if Float64.le sloMS (ofInt 0) then ofInt 500 else sloMS
      (.json 200 (.predictionQuality
        (cp.ledger.predictionQuality (atoi (request.query "limit")) sloMS)), cp)
  | .experiment =>
    if request.method ≠ "GET" then (methodNotAllowed, cp)
    else
      match cp.controller.experiment with
      | none => (.error 501 "experiment unavailable", cp)
      | some experiment => (.json 200 (.experiment experiment.config), cp)
  | .lifecycle =>
    match cp.controller.lifecycle with
    | none => (.error 501 "lifecycle unavailable", cp)
    | some lifecycle =>
      if request.method = "GET" then (.json 200 (.lifecycle lifecycle.snapshot), cp)
      else if request.method = "POST" then cp.postLifecycle lifecycle request
      else (methodNotAllowed, cp)
  | .approve =>
    if request.method ≠ "POST" then (methodNotAllowed, cp)
    else
      match cp.controller.lifecycle with
      | none => (.error 501 "lifecycle unavailable", cp)
      | some lifecycle => cp.postApproval lifecycle request
  | .cacheEvents =>
    if request.method ≠ "POST" then (methodNotAllowed, cp) else cp.postCacheEvent now request

/-- `admin`. -/
def authorized (adminToken : String) (request : Request) : Bool :=
  adminToken = "" || request.authorization = "Bearer " ++ adminToken

/-- A request to the mux; `none` for a path outside of the API. -/
def serve (adminToken : String) (cp : ControlPlane F) (now : Time) (request : Request) :
    Option (Response F × ControlPlane F) :=
  (route request.path).map fun route =>
    if authorized adminToken request = false then (.error 401 "unauthorized", cp)
    else cp.handle now request route

end ControlPlane

/-! ## What a request changes -/

/-- What a request may change. -/
inductive Change (F : Type) where
  | observe (observation : LifecycleObservation F)
  | approve (approvedBy : String)
  | cacheEvent (event : KVEvent)

/-- What a `POST` to a route asks to be changed. -/
def Request.asks (F : Type) [Float64 F] [FloatText F] (request : Request) :
    Route → Option (Change F)
  | .lifecycle => (decodeJSON (LifecycleObservation F) request).map .observe
  | .approve =>
    ((decodeJSON LifecycleApproval request).filter (trimSpace ·.approvedBy ≠ "")).map
      fun approval => .approve approval.approvedBy
  | .cacheEvents => ((decodeJSON KVEvent request).filter fun event => validEvent event).map .cacheEvent
  | _ => none

/-- What an authorized request asks to be changed. -/
def Request.change (F : Type) [Float64 F] [FloatText F] (adminToken : String) (request : Request) :
    Option (Change F) :=
  if ControlPlane.authorized adminToken request = false ∨ request.method ≠ "POST" then none
  else (route request.path).bind (request.asks F)

namespace ControlPlane

/-- A change; without a lifecycle or an index there is nothing to change. -/
def apply (cp : ControlPlane F) (now : Time) : Change F → ControlPlane F
  | .observe observation =>
    match cp.controller.lifecycle with
    | none => cp
    | some lifecycle => cp.setLifecycle (lifecycle.observe observation)
  | .approve approvedBy =>
    match cp.controller.lifecycle with
    | none => cp
    | some lifecycle => cp.setLifecycle (lifecycle.approve approvedBy)
  | .cacheEvent event =>
    match observeKVEvent cp.controller now event with
    | none => cp
    | some controller => { cp with controller }

/-- The control plane after a request. -/
def after (adminToken : String) (cp : ControlPlane F) (now : Time) (request : Request) :
    ControlPlane F :=
  match cp.serve adminToken now request with
  | none => cp
  | some (_, cp) => cp

omit [Rounding F] [QueryFloat F] in
theorem postLifecycle_changes {cp : ControlPlane F} {lifecycle : Lifecycle F} (now : Time)
    (request : Request) (h : cp.controller.lifecycle = some lifecycle) :
    (cp.postLifecycle lifecycle request).2 = (request.asks F .lifecycle).elim cp (cp.apply now) := by
  unfold postLifecycle Request.asks
  cases decodeJSON (LifecycleObservation F) request with
  | none => rfl
  | some observation =>
    rw [Option.map_some, Option.elim_some, apply]
    rw [h]

omit [Rounding F] [QueryFloat F] in
theorem postApproval_changes {cp : ControlPlane F} {lifecycle : Lifecycle F} (now : Time)
    (request : Request) (h : cp.controller.lifecycle = some lifecycle) :
    (cp.postApproval lifecycle request).2 = (request.asks F .approve).elim cp (cp.apply now) := by
  unfold postApproval Request.asks
  cases (decodeJSON LifecycleApproval request).filter (trimSpace ·.approvedBy ≠ "") with
  | none => rfl
  | some approval =>
    rw [Option.map_some, Option.elim_some, apply]
    rw [h]

omit [Rounding F] [QueryFloat F] in
theorem postCacheEvent_changes (cp : ControlPlane F) (now : Time) (request : Request) :
    (cp.postCacheEvent now request).2 = (request.asks F .cacheEvents).elim cp (cp.apply now) := by
  unfold postCacheEvent Request.asks
  cases decodeJSON KVEvent request with
  | none => rfl
  | some event =>
    dsimp only
    cases hvalid : validEvent event with
    | false =>
      rw [if_pos rfl, Option.filter_some, if_neg (by rw [hvalid]; exact Bool.false_ne_true)]
      rfl
    | true =>
      rw [if_neg Bool.noConfusion, Option.filter_some, if_pos hvalid, Option.map_some,
        Option.elim_some, apply]
      cases observeKVEvent cp.controller now event <;> rfl

omit [Rounding F] [QueryFloat F] in
/-- A change without a lifecycle to change. -/
theorem elim_apply_none {cp : ControlPlane F} (now : Time) (request : Request)
    (h : cp.controller.lifecycle = none) (route : Route) (hroute : route = .lifecycle ∨ route = .approve) :
    (request.asks F route).elim cp (cp.apply now) = cp := by
  cases hasks : request.asks F route with
  | none => rfl
  | some change =>
    rw [Option.elim_some]
    rcases hroute with rfl | rfl
    · obtain ⟨observation, -, rfl⟩ := Option.map_eq_some_iff.mp hasks
      rw [apply, h]
    · obtain ⟨approval, -, rfl⟩ := Option.map_eq_some_iff.mp hasks
      rw [apply, h]

/-- The routes that show something. -/
theorem handle_shows (cp : ControlPlane F) (now : Time) (request : Request) {route : Route}
    (hasks : request.asks F route = none) (hshows : route ≠ .lifecycle) (hpost : route ≠ .approve)
    (hevent : route ≠ .cacheEvents) : (cp.handle now request route).2 = cp := by
  cases route with
  | decisions =>
    rw [handle]
    split <;> rfl
  | decision requestID =>
    rw [handle]
    split
    · rfl
    · split <;> rfl
  | predictionQuality =>
    rw [handle]
    split <;> rfl
  | experiment =>
    rw [handle]
    split
    · rfl
    · split <;> rfl
  | lifecycle => exact absurd rfl hshows
  | approve => exact absurd rfl hpost
  | cacheEvents => exact absurd rfl hevent

theorem handle_changes (cp : ControlPlane F) (now : Time) (request : Request) (route : Route) :
    (cp.handle now request route).2 =
      if request.method = "POST" then (request.asks F route).elim cp (cp.apply now) else cp := by
  cases route with
  | decisions | decision | predictionQuality | experiment =>
    refine (handle_shows cp now request rfl Route.noConfusion Route.noConfusion
      Route.noConfusion).trans ?_
    exact (ite_self _).symm
  | lifecycle =>
    rw [handle]
    cases hlifecycle : cp.controller.lifecycle with
    | none =>
      rw [elim_apply_none now request hlifecycle .lifecycle (.inl rfl)]
      exact (ite_self _).symm
    | some lifecycle =>
      dsimp only
      by_cases hget : request.method = "GET"
      · rw [if_pos hget, if_neg (by rw [hget]; decide)]
      · rw [if_neg hget]
        by_cases hpost : request.method = "POST"
        · rw [if_pos hpost, if_pos hpost]
          exact postLifecycle_changes now request hlifecycle
        · rw [if_neg hpost, if_neg hpost]
  | approve =>
    rw [handle]
    by_cases hpost : request.method = "POST"
    · rw [if_neg (not_not.mpr hpost), if_pos hpost]
      cases hlifecycle : cp.controller.lifecycle with
      | none => exact (elim_apply_none now request hlifecycle .approve (.inr rfl)).symm
      | some lifecycle => exact postApproval_changes now request hlifecycle
    · rw [if_pos hpost, if_neg hpost]
  | cacheEvents =>
    rw [handle]
    by_cases hpost : request.method = "POST"
    · rw [if_neg (not_not.mpr hpost), if_pos hpost]
      exact cp.postCacheEvent_changes now request
    · rw [if_pos hpost, if_neg hpost]

/-- A request changes what it asks to be changed. -/
theorem after_eq (adminToken : String) (cp : ControlPlane F) (now : Time) (request : Request) :
    cp.after adminToken now request = (request.change F adminToken).elim cp (cp.apply now) := by
  unfold after serve Request.change
  cases hroute : route request.path with
  | none =>
    rw [Option.bind_none, ite_self]
    rfl
  | some route =>
    rw [Option.map_some, Option.bind_some]
    dsimp only
    cases hauthorized : authorized adminToken request with
    | false =>
      rw [if_pos rfl, if_pos (.inl rfl)]
      rfl
    | true =>
      rw [if_neg Bool.noConfusion]
      refine (handle_changes cp now request route).trans ?_
      by_cases hpost : request.method = "POST"
      · rw [if_pos hpost, if_neg (not_or.mpr ⟨Bool.noConfusion, not_not.mpr hpost⟩)]
      · rw [if_neg hpost, if_pos (.inr hpost)]
        rfl

/-! ## Runs -/

/-- A request to the API, or the gateway at work, which leaves the lifecycle alone. -/
inductive Step (F : Type) where
  | request (now : Time) (request : Request)
  | work (controller : Controller F) (ledger : DecisionLedger F)

/-- A request, or the gateway's own work, which leaves the lifecycle to the API. -/
def next (adminToken : String) (cp : ControlPlane F) : Step F → ControlPlane F
  | .request now request => cp.after adminToken now request
  | .work controller ledger =>
    { controller := { controller with lifecycle := cp.controller.lifecycle }, ledger }

/-- The control plane after some steps. -/
def run (adminToken : String) (cp : ControlPlane F) (steps : List (Step F)) : ControlPlane F :=
  steps.foldl (next adminToken) cp

/-- The call of the lifecycle that a step makes. -/
def Step.call (adminToken : String) : Step F → Option (Lifecycle.Call F)
  | .request _ sent =>
    (sent.change F adminToken).bind fun change =>
      match change with
      | .observe observation => some (.observe observation)
      | .approve approvedBy => some (.approve approvedBy)
      | .cacheEvent _ => none
  | .work _ _ => none

omit [Float64 F] [FloatText F] [Rounding F] [QueryFloat F] in
theorem observeKVEvent_lifecycle {c c' : Controller F} {now : Time} {event : KVEvent}
    (h : observeKVEvent c now event = some c') : c'.lifecycle = c.lifecycle := by
  unfold observeKVEvent at h
  split at h
  · cases h
    rfl
  · cases h
    rfl
  · cases h

theorem next_lifecycle (adminToken : String) (cp : ControlPlane F) (step : Step F) :
    (cp.next adminToken step).controller.lifecycle =
      cp.controller.lifecycle.map fun lifecycle =>
        (step.call adminToken).elim lifecycle lifecycle.call := by
  cases step with
  | work controller ledger => exact Option.map_id'.symm
  | request now request =>
    unfold next Step.call
    dsimp only
    rw [after_eq]
    cases request.change F adminToken with
    | none => exact Option.map_id'.symm
    | some change =>
      rw [Option.elim_some, Option.bind_some]
      cases hlifecycle : cp.controller.lifecycle with
      | none =>
        cases change with
        | observe | approve =>
          rw [apply, hlifecycle]
          exact hlifecycle
        | cacheEvent event =>
          rw [apply]
          split
          · exact hlifecycle
          · rename_i hobserve
            exact (observeKVEvent_lifecycle hobserve).trans hlifecycle
      | some lifecycle =>
        cases change with
        | observe | approve =>
          rw [apply, hlifecycle]
          rfl
        | cacheEvent event =>
          rw [apply]
          split
          · exact hlifecycle
          · rename_i hobserve
            exact (observeKVEvent_lifecycle hobserve).trans hlifecycle

/-- The lifecycle makes the calls of the run. -/
theorem run_lifecycle (adminToken : String) (cp : ControlPlane F) (steps : List (Step F)) :
    (cp.run adminToken steps).controller.lifecycle =
      cp.controller.lifecycle.map (·.run (steps.filterMap (Step.call adminToken))) := by
  induction steps generalizing cp with
  | nil => exact Option.map_id'.symm
  | cons step steps ih =>
    have hrun : cp.run adminToken (step :: steps) = (cp.next adminToken step).run adminToken steps := rfl
    rw [hrun, ih, next_lifecycle, Option.map_map, List.filterMap_cons]
    congr 1
    funext lifecycle
    cases step.call adminToken <;> rfl

/-- A request with the token that approves in somebody's name. -/
structure Approves (adminToken : String) (request : Request) (approvedBy : String) : Prop where
  authorized : adminToken = "" ∨ request.authorization = "Bearer " ++ adminToken
  method : request.method = "POST"
  path : request.path = "/v1/admin/lifecycle/approve"
  body : decodeJSON LifecycleApproval request = some { approvedBy }
  named : trimSpace approvedBy ≠ ""

omit [Rounding F] [QueryFloat F] in
theorem approves_of_call {adminToken approvedBy : String} {step : Step F}
    (h : step.call adminToken = some (.approve approvedBy)) :
    ∃ now request, step = .request now request ∧ Approves adminToken request approvedBy := by
  cases step with
  | work => cases h
  | request now request =>
    obtain ⟨change, hasked, hcall⟩ := Option.bind_eq_some_iff.mp h
    have hchange : change = .approve approvedBy := by
      cases change with
      | approve => cases hcall; rfl
      | observe => cases hcall
      | cacheEvent => cases hcall
    subst hchange
    unfold Request.change at hasked
    split at hasked
    · cases hasked
    rename_i hposted
    obtain ⟨hauthorized, hmethod⟩ := not_or.mp hposted
    obtain ⟨route', hroute, hasks⟩ := Option.bind_eq_some_iff.mp hasked
    cases route' with
    | approve =>
      obtain ⟨approval, happroval, hname⟩ := Option.map_eq_some_iff.mp hasks
      cases hname
      obtain ⟨hbody, hnamed⟩ := Option.filter_eq_some_iff.mp happroval
      refine ⟨now, request, rfl, ?_, not_not.mp hmethod, ?_, hbody, of_decide_eq_true hnamed⟩
      · rw [Bool.not_eq_false] at hauthorized
        simpa [authorized] using hauthorized
      · exact route_approve hroute
    | decisions | decision | predictionQuality | experiment => cases hasks
    | lifecycle =>
      obtain ⟨_, -, hother⟩ := Option.map_eq_some_iff.mp hasks
      cases hother
    | cacheEvents =>
      obtain ⟨_, -, hother⟩ := Option.map_eq_some_iff.mp hasks
      cases hother

/-- **No rollout is exposed without an approval** that came with the token while it was in shadow. -/
theorem exposure_approved (adminToken : String) {config : LifecycleConfig F}
    {started : Lifecycle F} (hnew : Lifecycle.new config = .ok started)
    (hrequired : config.requireHumanApproval = true) {cp : ControlPlane F}
    (hcp : cp.controller.lifecycle = some started) (steps : List (Step F)) :
    ∃ lifecycle, (cp.run adminToken steps).controller.lifecycle = some lifecycle ∧
      (lifecycle.stage = .canary ∨ lifecycle.stage = .enforced →
        ∃ before now request after, steps = before ++ .request now request :: after ∧
          Approves adminToken request lifecycle.approvedBy ∧
          ∃ shadow, (cp.run adminToken before).controller.lifecycle = some shadow ∧
            shadow.stage = .shadow) := by
  have hrun : ∀ steps, (cp.run adminToken steps).controller.lifecycle =
      some (started.run (steps.filterMap (Step.call adminToken))) := by
    intro steps
    rw [run_lifecycle, hcp]
    rfl
  refine ⟨_, hrun steps, fun hexposed => ?_⟩
  have hinv := (Lifecycle.Inv.new hnew).run (steps.filterMap (Step.call adminToken))
  obtain ⟨calls, approvedBy, more, hcalls, -, hshadow, -, -, hby⟩ :=
    Lifecycle.approvedSince_run hnew _ (hinv.exposed hrequired hexposed)
  obtain ⟨before, rest, hsplit, hbefore, hrest⟩ := List.filterMap_eq_append_iff.mp hcalls
  obtain ⟨quiet, step, after, rfl, hquiet, hcall, -⟩ := List.filterMap_eq_cons_iff.mp hrest
  obtain ⟨now, request, rfl, happroves⟩ := approves_of_call hcall
  refine ⟨before ++ quiet, now, request, after, ?_, ?_, _, hrun _, ?_⟩
  · rw [hsplit, List.append_assoc]
  · rw [hby]
    exact happroves
  · have hnone : quiet.filterMap (Step.call adminToken) = [] :=
      List.filterMap_eq_nil_iff.mpr hquiet
    rw [List.filterMap_append, hbefore, hnone, List.append_nil]
    exact hshadow

end ControlPlane

end

namespace HandlerSample

local instance : Float64 Rat := .rational fun _ => 1
local instance : FloatText Rat := integerText
local instance : QueryFloat Rat := ⟨fun _ => 0⟩
local instance : Rounding Rat := ⟨Rat.floor, Rat.ceil, fun x => x⟩

def config : LifecycleConfig Rat where
  enabled := true
  requireHumanApproval := true
  policyVersion := ""
  minRequests := 10
  canarySteps := [1]
  gates :=
    { maxP95RegressionPercent := 0, maxErrorDelta := 0, maxFallbackRate := 0
      maxSLOViolationRate := 0, maxPredictionMAEMS := 0, maxEvidenceErrorRate := 0
      requireExperimentPromotion := false }

def started : Lifecycle Rat where
  config := { config with policyVersion := "routing-v1" }
  stage := .shadow
  step := 0
  lastReason := "initialized"
  approved := false
  approvedBy := ""

def initial : ControlPlane Rat where
  controller :=
    { mode := .shadow, states := ∅, cache := { affinity := none, provider := .noCache }
      predictor := .default, lifecycle := some started, experiment := none, maxStateAge := 0
      stateLambda := 1 / 10 }
  ledger := .new 16 false

def post (path body : String) : ControlPlane.Step Rat :=
  .request 0
    { method := "POST", path, authorization := "Bearer secret", query := fun _ => ""
      body := utf8 body }

/-- An approval and a good observation. -/
def steps : List (ControlPlane.Step Rat) :=
  [post "/v1/admin/lifecycle/approve" "\x7b\"approved_by\":\"operator\"\x7d",
    post "/v1/admin/lifecycle"
      "\x7b\"requests\":10,\"state_healthy\":true,\"policy_healthy\":true\x7d"]

theorem exposure_approved_operator :
    ∃ before now request after, steps = before ++ .request now request :: after ∧
      ControlPlane.Approves "secret" request "operator" := by
  obtain ⟨lifecycle, hlifecycle, happroved⟩ :=
    ControlPlane.exposure_approved "secret" (show Lifecycle.new config = .ok started from rfl) rfl
      (show initial.controller.lifecycle = some started from rfl) steps
  have hstage : ((initial.run "secret" steps).controller.lifecycle.map (·.stage)) =
      some .canary := by decide +kernel
  have hname : ((initial.run "secret" steps).controller.lifecycle.map (·.approvedBy)) =
      some "operator" := by decide +kernel
  rw [hlifecycle] at hstage hname
  obtain ⟨before, now, request, after, hsplit, happroves, -⟩ :=
    happroved (.inl (Option.some.inj hstage))
  have hoperator : lifecycle.approvedBy = "operator" := Option.some.inj hname
  rw [hoperator] at happroves
  exact ⟨before, now, request, after, hsplit, happroves⟩

end HandlerSample

end Kavora.Webui
