import Kavora.Gateway.FailOpen
import Kavora.Gateway.Forward
import Kavora.Gateway.ParseRequest
import Kavora.Telemetry.Metrics

/-!
# A request and its telemetry (`Server.ServeHTTP` and `forward` in `gateway/internal/gateway/server.go`)

A `Visit` is a request with what it meets on its way: the answers of the tenant registry, the limiter,
the policy engine, the stream policy and the backends, and how an answer was passed on. `Visit.handle`
is the way through the handler, and `Visit.trace` the updates of the telemetry in their order. What is
kept for the router and the times of the writes are left out.

* `callBackends`: the loop of `forward` over the candidates.
* `callBackends_eq`: it calls the backends that `tryBackends` calls.
-/

namespace Kavora.Gateway

open Lib Policy Telemetry Backends

/-- The name of a decision in the protocol. -/
def decisionName : Decision → String
  | .unspecified => "DECISION_UNSPECIFIED"
  | .allow => "DECISION_ALLOW"
  | .block => "DECISION_BLOCK"
  | .terminate => "DECISION_TERMINATE"
  | .retryableFailure => "DECISION_RETRYABLE_FAILURE"

/-- What comes of authentication and `TryAcquire`. -/
inductive Access where
  /-- There are no tenants. -/
  | open
  | refused
  | limited (tenantID : String)
  | acquired (tenantID : String) (failMode : FailMode)

/-- A request and what it meets. -/
structure Visit where
  method : String
  path : String
  /-- The ID that was drawn, if it could be drawn. -/
  requestID : Option String
  access : Access
  /-- What `parseRequest` returns: whether a stream is asked for. -/
  parsed : Except String Bool
  /-- What the policy engine returns, and whether it is an error. -/
  result : Option PolicyResult
  err : Bool
  /-- The response writer can flush. -/
  flusher : Bool
  opening : Opening
  candidates : List Backend
  attempts : String → Attempt
  /-- The status that `forwardStream` or `forwardBuffered` sends for an answer, if it sends one. -/
  sent : Nat → Option Nat
  /-- In nanoseconds, when the request is observed. -/
  duration : Int
  /-- In milliseconds, when it is logged. -/
  durationMS : Int

/-- What a handler comes to: the variables of the deferred function, and the updates before it. -/
structure Handled where
  status : Option Nat
  requestID : String
  tenantID : String
  policyDecision : String
  isStream : Bool
  routed : Bool
  actualBackend : String
  effects : List Effect

/-- The loop over the candidates: the updates, the backend called last and the status of the answer that
is passed on. -/
def callBackends (attempts : String → Attempt) :
    List Backend → String → List Effect × String × Option Nat
  | [], actualBackend => ([], actualBackend, none)
  | candidate :: candidates, _ =>
    let failed :=
      let (effects, rest) := callBackends attempts candidates candidate.id
      (.backend candidate.id "attempt" :: .backend candidate.id "failure" :: effects, rest)
    match attempts candidate.id with
    | .unbuilt => failed
    | .failed _ => failed
    | .answered statusCode =>
      if statusCode < 200 ∨ statusCode ≥ 300 then failed
      else
        ([.backend candidate.id "attempt", .backend candidate.id "success"], candidate.id,
          some statusCode)

section

variable (attempts : String → Attempt) (candidate : Backend) (candidates : List Backend)
  (actualBackend : String)

/-- A candidate answers, or the loop goes on. -/
theorem callBackends_cons :
    (∃ statusCode, attempts candidate.id = .answered statusCode ∧
      (200 ≤ statusCode ∧ statusCode < 300) ∧
      callBackends attempts (candidate :: candidates) actualBackend =
        ([.backend candidate.id "attempt", .backend candidate.id "success"], candidate.id,
          some statusCode)) ∨
      (attempts candidate.id).success = false ∧
      callBackends attempts (candidate :: candidates) actualBackend =
        (.backend candidate.id "attempt" :: .backend candidate.id "failure" ::
          (callBackends attempts candidates candidate.id).1,
          (callBackends attempts candidates candidate.id).2) := by
  cases h : attempts candidate.id with
  | unbuilt => exact .inr ⟨rfl, by rw [callBackends, h]⟩
  | failed ended => exact .inr ⟨rfl, by rw [callBackends, h]⟩
  | answered statusCode =>
    by_cases hcode : statusCode < 200 ∨ statusCode ≥ 300
    · refine .inr ⟨?_, by rw [callBackends, h]; exact if_pos hcode⟩
      simp only [Attempt.success, Bool.and_eq_false_iff, decide_eq_false_iff_not]
      omega
    · exact .inl ⟨statusCode, rfl, by omega, by rw [callBackends, h]; exact if_neg hcode⟩

/-- The loop and the loop over the registry end with the same backend. -/
theorem callBackends_eq {F : Type} (server : Server F) :
    (server.tryBackends attempts candidates actualBackend).1 =
      { actualBackend := (callBackends attempts candidates actualBackend).2.1
        served := (callBackends attempts candidates actualBackend).2.2.isSome } := by
  induction candidates generalizing actualBackend server with
  | nil => rfl
  | cons candidate candidates ih =>
    rw [Server.tryBackends_cons]
    rcases callBackends_cons attempts candidate candidates actualBackend with
      ⟨statusCode, hattempt, hcode, heq⟩ | ⟨hfailed, heq⟩
    · have hsuccess : (attempts candidate.id).success = true := by
        rw [hattempt]
        simpa [Attempt.success] using hcode
      rw [if_pos hsuccess, heq]
      rfl
    · rw [if_neg (by simp [hfailed]), heq, ih]

end

namespace Visit

/-- `forward` -/
def forward (visit : Visit) (failMode : FailMode) (handled : Handled) : Handled :=
  let opened : Except Nat Unit :=
    if handled.isStream then
      if visit.flusher then
        match openStreamPolicy failMode visit.opening with
        | .error err => .error err.status
        | .ok _ => .ok ()
      else .error 500
    else .ok ()
  match opened with
  | .error status => { handled with status := some status }
  | .ok _ =>
    let handled := { handled with routed := true }
    if visit.candidates = [] then { handled with status := some 503 }
    else
      let (effects, actualBackend, answer) := callBackends visit.attempts visit.candidates ""
      let handled := { handled with actualBackend, effects := handled.effects ++ effects }
      match answer with
      | none => { handled with status := some 502 }
      | some statusCode => { handled with status := visit.sent statusCode }

/-- What follows the limiter. -/
def admitted (visit : Visit) (failMode : FailMode) (handled : Handled) : Handled :=
  match visit.parsed with
  | .error _ => { handled with status := some 400 }
  | .ok stream =>
    let handled := { handled with isStream := stream }
    let handled :=
      match visit.result with
      | none => handled
      | some result =>
        { handled with
          policyDecision := decisionName result.decision
          effects := handled.effects ++ [.policy (decisionName result.decision)] }
    match admission failMode visit.result visit.err .null with
    | .error (status, _) => { handled with status := some status }
    | .ok _ => visit.forward failMode handled

/-- The body of `ServeHTTP`. -/
def handle (visit : Visit) : Handled :=
  let handled : Handled :=
    { status := none, requestID := "", tenantID := "", policyDecision := "", isStream := false
      routed := false, actualBackend := "", effects := [] }
  if visit.method ≠ "POST" ∨ visit.path ≠ "/v1/chat/completions" then
    { handled with status := some 404 }
  else
    match visit.requestID with
    | none => { handled with status := some 500 }
    | some requestID =>
      let handled := { handled with requestID }
      match visit.access with
      | .refused => { handled with status := some 401 }
      | .limited tenantID => { handled with tenantID, status := some 429 }
      | .open => visit.admitted .closed handled
      | .acquired tenantID failMode => visit.admitted failMode { handled with tenantID }

/-- The status that the client gets. -/
def status (visit : Visit) : Nat := visit.handle.status.getD 200

/-- The outcome of a request in the telemetry. -/
def outcome (visit : Visit) : String :=
  if visit.status ≥ 500 then "error" else if visit.status ≥ 400 then "rejected" else "success"

/-- The line of the audit log. -/
def auditEvent (visit : Visit) : AuditEvent where
  event := "request_completed"
  requestID := visit.handle.requestID
  tenantID := visit.handle.tenantID
  policy := visit.handle.policyDecision
  outcome := visit.outcome
  stream := visit.handle.isStream
  durationMS := visit.durationMS

/-- The updates of the deferred function. -/
def completed (visit : Visit) : List Effect :=
  .inflight (-1) :: .request visit.path visit.outcome ::
    (observe visit.path visit.outcome visit.duration ++ [.audit visit.auditEvent])

/-- The updates of a request, in order. -/
def trace (visit : Visit) : List Effect := .inflight 1 :: (visit.handle.effects ++ visit.completed)

end Visit

end Kavora.Gateway
