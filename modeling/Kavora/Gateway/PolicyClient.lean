import Kavora.Policy.Service

/-!
# The policy client (`gateway/internal/policyclient/client.go`)

A `StreamSession` is the gateway's end of a policy stream. The other end is the `CheckStream` loop
of the policy service: `roundTrip` sends one message to it and waits for its answer. A `Fault` is
what the environment may do to one call: the request context is done, or the gRPC stream fails.
-/

namespace Kavora.Gateway

open Lib Policy

/-- What fails in a policy call. -/
inductive Fault where
  | none
  /-- `ctx.Err()` is not nil. -/
  | ctxDone
  /-- `Send` fails. -/
  | sendFailed
  /-- `Recv` fails after the service has answered. -/
  | recvFailed
  /-- `CloseSend` fails. -/
  | closeSendFailed
  deriving DecidableEq, Repr

/-- The client's side of a check of a stream. -/
structure StreamSession where
  requestId : String
  sequence : Nat
  closed : Bool
  deriving DecidableEq, Repr

/-- A response belongs to the request that was sent. -/
def validateStreamResponse (response : StreamCheckResponse) (requestId : String) (sequence : Nat) :
    Except String Unit :=
  if response.result = none then .error "policy stream returned an empty result"
  else if response.requestId ≠ requestId ∨ response.sequence ≠ sequence then
    .error "policy stream returned a mismatched request ID or sequence"
  else .ok ()

namespace StreamSession

variable {J : Type} (lib : Externals)

/-- The request with the next chunk. -/
def checkRequest (session : StreamSession) (chunk : Bytes) : StreamCheckRequest J where
  requestId := session.requestId
  sequence := session.sequence
  payload := some (.chunk chunk)

/-- The request that ends the stream. -/
def closeRequest (session : StreamSession) : StreamCheckRequest J where
  requestId := session.requestId
  sequence := session.sequence
  payload := some .close

/-- A request is sent and its response received. -/
def roundTrip (session : StreamSession) (server : CheckStream) (request : StreamCheckRequest J)
    (fault : Fault) : Except String StreamCheckResponse × CheckStream :=
  if fault = .sendFailed then (.error "send", server)
  else if server.running = false then (.error "EOF", server)
  else
    match server.step lib (.message request) with
    | (.error status, server) => (.error status, server)
    | (.ok response, server) =>
      if fault = .recvFailed then (.error "recv", server)
      else match validateStreamResponse response session.requestId session.sequence with
      | .error err => (.error err, server)
      | .ok () => (.ok response, server)

/-- `Check`: sends a chunk and advances the sequence. -/
def check (J : Type) (session : StreamSession) (server : CheckStream) (chunk : Bytes)
    (fault : Fault) : Except String StreamCheckResponse × StreamSession × CheckStream :=
  if session.closed then (.error "policy stream is closed", session, server)
  else if fault = .ctxDone then (.error "context", session, server)
  else
    match session.roundTrip lib server (session.checkRequest chunk : StreamCheckRequest J) fault with
    | (.error err, server) => (.error err, session, server)
    | (.ok response, server) =>
      (.ok response, { session with sequence := (session.sequence + 1) % 2 ^ 64 }, server)

/-- `Close`: ends the stream once. -/
def close (J : Type) (session : StreamSession) (server : CheckStream) (fault : Fault) :
    Except String StreamCheckResponse × StreamSession × CheckStream :=
  if session.closed then (.error "policy stream is already closed", session, server)
  else if fault = .ctxDone then (.error "context", session, server)
  else
    let (response, server) :=
      session.roundTrip lib server (session.closeRequest : StreamCheckRequest J) fault
    let session := { session with closed := true }
    match response with
    | .error err => (.error err, session, server)
    | .ok response =>
      if fault = .closeSendFailed then (.error "close send", session, server)
      else (.ok response, session, server)

/-! ## Calls -/

variable {lib} {session session' : StreamSession} {server server' : CheckStream} {chunk : Bytes}
  {fault : Fault} {response : StreamCheckResponse}

theorem roundTrip_ok {request : StreamCheckRequest J}
    (h : session.roundTrip lib server request fault = (.ok response, server')) :
    server.running = true ∧ server.step lib (.message request) = (.ok response, server') ∧
      validateStreamResponse response session.requestId session.sequence = .ok () := by
  unfold roundTrip at h
  split at h
  · cases h
  split at h
  · cases h
  rename_i hrun
  split at h
  · cases h
  rename_i hstep
  split at h
  · cases h
  split at h
  · cases h
  rename_i hvalid
  cases h
  exact ⟨by simpa using hrun, hstep, hvalid⟩

/-- What a call of `Check` that returns no error did. -/
theorem check_ok (h : session.check lib J server chunk fault = (.ok response, session', server')) :
    server.running = true ∧
      server.step lib (.message (session.checkRequest chunk : StreamCheckRequest J)) =
        (.ok response, server') ∧
      session' = { session with sequence := (session.sequence + 1) % 2 ^ 64 } := by
  unfold check at h
  split at h
  · cases h
  split at h
  · cases h
  split at h
  · cases h
  rename_i hround
  obtain ⟨hrun, hstep, _⟩ := roundTrip_ok hround
  cases h
  exact ⟨hrun, hstep, rfl⟩

theorem close_ok (h : session.close lib J server fault = (.ok response, session', server')) :
    server.running = true ∧
      server.step lib (.message (session.closeRequest : StreamCheckRequest J)) =
        (.ok response, server') ∧
      session' = { session with closed := true } := by
  unfold close at h
  split at h
  · cases h
  split at h
  · cases h
  rcases hround : session.roundTrip lib server (session.closeRequest : StreamCheckRequest J) fault
    with ⟨_ | r, server₁⟩
  · rw [hround] at h
    cases h
  · simp only [hround] at h
    split at h
    · cases h
    obtain ⟨hrun, hstep, _⟩ := roundTrip_ok hround
    cases h
    exact ⟨hrun, hstep, rfl⟩

/-- A call without a fault on a running loop whose answer is valid. -/
theorem check_no_fault (hclosed : session.closed = false) (hrun : server.running = true)
    (hstep : (server.step lib
      (.message (session.checkRequest chunk : StreamCheckRequest J))).1 = .ok response)
    (hvalid : validateStreamResponse response session.requestId session.sequence = .ok ()) :
    (session.check lib J server chunk .none).1 = .ok response := by
  rcases hout : server.step lib (.message (session.checkRequest chunk : StreamCheckRequest J))
    with ⟨reply, server₁⟩
  rw [hout] at hstep
  cases hstep
  simp [check, roundTrip, hclosed, hrun, hout, hvalid]

theorem close_no_fault (hclosed : session.closed = false) (hrun : server.running = true)
    (hstep : (server.step lib
      (.message (session.closeRequest : StreamCheckRequest J))).1 = .ok response)
    (hvalid : validateStreamResponse response session.requestId session.sequence = .ok ()) :
    (session.close lib J server .none).1 = .ok response := by
  rcases hout : server.step lib (.message (session.closeRequest : StreamCheckRequest J))
    with ⟨reply, server₁⟩
  rw [hout] at hstep
  cases hstep
  simp [close, roundTrip, hclosed, hrun, hout, hvalid]

end StreamSession

/-- `OpenStream`: no session if the request is not allowed. -/
def openStream {J : Type} (field : JsonField J) (lib : Externals) (service : PolicyGrpcService)
    (supportsStream : Bool) (request : EvaluateRequestRequest J) (fault : Fault) :
    Except String (Option (StreamSession × CheckStream) × PolicyResult) := do
  if ¬ supportsStream then
    throw "policy service does not support stream policy"
  let some context := request.context
    | throw "stream policy requires request context and model request"
  if request.request.isNone ∨ context.requestId = "" then
    throw "stream policy requires request context and model request"
  if fault ≠ .none then
    throw "stream"
  let requestId := context.requestId
  let (response, server) ← service.checkStream field lib (some
    { requestId
      sequence := 0
      payload := some (.open request.context request.request) })
  validateStreamResponse response requestId 0
  let some result := response.result | throw "policy stream returned an empty result"
  if result.decision ≠ .allow then
    return (none, result)
  return (server.map fun server => ({ requestId, sequence := 1, closed := false }, server), result)

/-- The two ends of a stream that `OpenStream` returns. -/
theorem openStream_ok {J : Type} {field : JsonField J} {lib : Externals}
    {service : PolicyGrpcService} {supportsStream : Bool} {context : RequestContext}
    {request : ModelRequest J} {fault : Fault} {session : StreamSession} {server : CheckStream}
    {result : PolicyResult}
    (h : openStream field lib service supportsStream
      { context := some context, request := some request } fault =
        .ok (some (session, server), result)) :
    result = service.engine.evaluate field lib { context := some context, request := some request } ∧
      result.decision = .allow ∧
      session = { requestId := context.requestId, sequence := 1, closed := false } ∧
      server =
        { requestId := context.requestId
          expectedSequence := 1
          inspector := service.inspector lib context result
          policyVersion := service.engine.config.policyVersion
          running := true } := by
  simp only [openStream, bind, Except.bind] at h
  split at h
  · cases h
  split at h
  · cases h
  split at h
  · cases h
  split at h
  · cases h
  rename_i opened hopened
  split at h
  · cases h
  split at h
  · split at h
    · cases h
    rename_i hresult hallow
    obtain ⟨response, _ | server₁⟩ := opened
    · cases h
    obtain ⟨hr, hserver⟩ := PolicyGrpcService.checkStream_open hopened
    cases h
    rw [hr] at hresult
    cases hresult
    exact ⟨rfl, by simpa using hallow, rfl, hserver⟩
  · cases h

end Kavora.Gateway
