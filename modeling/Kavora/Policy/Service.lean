import Kavora.Policy.Stream

/-!
# The policy service (`policy-engine/src/service.rs`)

`checkStream` answers the opening message of a stream and starts the loop that answers the others.
The loop is a step function: one inbound item, one outbound item, and `running := false` where the
source leaves the loop. A consumer that disconnects is the client's error, and the audit record is
left out.
-/

namespace Kavora.Policy

open Lib

/-- The service. -/
structure PolicyGrpcService where
  engine : PolicyEngine

/-- What `inbound.message().await` returns. -/
inductive Inbound (J : Type) where
  | message (message : StreamCheckRequest J)
  | ended
  | failed (status : String)

/-- The response with an inspection. -/
def streamResponse (requestId : String) (sequence : Nat) (inspection : StreamInspection) :
    StreamCheckResponse where
  requestId := requestId
  sequence := sequence
  result := some inspection.result
  inspectedBytes := inspection.inspectedBytes
  consumedTokens := inspection.consumedTokens
  releaseBytes := inspection.releaseBytes

/-- The response that ends a check for a violation of the protocol. -/
def protocolViolation (requestId : String) (sequence : Nat) (policyVersion reason : String) :
    StreamCheckResponse where
  requestId := requestId
  sequence := sequence
  result := some
    { decision := .terminate
      errorCode := .protocolViolation
      reason
      matchedRuleIds := []
      cacheKey := []
      estimatedTokens := 0
      policyVersion }
  inspectedBytes := 0
  consumedTokens := 0
  releaseBytes := 0

/-- The spawned task of `check_stream`. -/
structure CheckStream where
  requestId : String
  expectedSequence : Nat
  inspector : StreamInspector
  policyVersion : String
  running : Bool

namespace CheckStream

variable {J : Type}

/-- The test of the loop on the next message. -/
def mismatch (self : CheckStream) (message : StreamCheckRequest J) : Prop :=
  message.requestId ≠ self.requestId ∨ message.sequence ≠ self.expectedSequence

instance (self : CheckStream) (message : StreamCheckRequest J) :
    Decidable (self.mismatch message) :=
  inferInstanceAs (Decidable (_ ∨ _))

/-- The end of a round: the answer, and whether the loop goes on. -/
def answer (self : CheckStream) (shouldClose : Bool)
    (inspected : StreamInspection × StreamInspector) :
    Except String StreamCheckResponse × CheckStream :=
  let self := { self with inspector := inspected.2 }
  let response := streamResponse self.requestId self.expectedSequence inspected.1
  if shouldClose ∨ inspected.1.result.decision ≠ .allow then
    (.ok response, { self with running := false })
  else (.ok response, { self with expectedSequence := saturatingAdd self.expectedSequence 1 })

/-- One message of the client and the response to it. -/
def step (lib : Externals) (self : CheckStream) (inbound : Inbound J) :
    Except String StreamCheckResponse × CheckStream :=
  match inbound with
  | .ended => self.answer true self.inspector.finish
  | .failed status => (.error status, { self with running := false })
  | .message message =>
    if self.mismatch message then
      (.ok (protocolViolation self.requestId self.expectedSequence self.policyVersion
        "stream request ID or sequence mismatch"), { self with running := false })
    else match message.payload with
    | some (.chunk data) => self.answer false (self.inspector.inspect lib data)
    | some .close => self.answer true self.inspector.finish
    | _ =>
      (.ok (protocolViolation self.requestId self.expectedSequence self.policyVersion
        "stream payload must be chunk or close"), { self with running := false })

/-! ## Rounds -/

variable {lib : Externals} {self : CheckStream} {message : StreamCheckRequest J}

theorem step_chunk {data : Bytes} (h : ¬ self.mismatch message)
    (hp : message.payload = some (.chunk data)) :
    self.step lib (.message message) = self.answer false (self.inspector.inspect lib data) := by
  simp [step, h, hp]

theorem step_close (h : ¬ self.mismatch message) (hp : message.payload = some .close) :
    self.step lib (.message message) = self.answer true self.inspector.finish := by
  simp [step, h, hp]

/-- The response to an inspected message. -/
theorem answer_response (shouldClose : Bool) (inspected : StreamInspection × StreamInspector) :
    (self.answer shouldClose inspected).1 =
      .ok (streamResponse self.requestId self.expectedSequence inspected.1) := by
  unfold answer
  dsimp only
  split <;> rfl

theorem answer_continue {inspected : StreamInspection × StreamInspector}
    (h : inspected.1.result.decision = .allow) :
    (self.answer false inspected).2 =
      { self with
        inspector := inspected.2
        expectedSequence := saturatingAdd self.expectedSequence 1 } := by
  simp [answer, h]

theorem answer_close (inspected : StreamInspection × StreamInspector) :
    (self.answer true inspected).2 = { self with inspector := inspected.2, running := false } := by
  simp [answer]

end CheckStream

namespace PolicyGrpcService

variable {J : Type} (field : JsonField J) (lib : Externals)

/-- The budget that a request leaves for its response. -/
def responseTokenBudget (context : RequestContext) (openResult : PolicyResult) : Nat :=
  -- `saturating_sub`
  if context.tokenBudget = 0 then 0 else context.tokenBudget - openResult.estimatedTokens

/-- The limit of the response, with its default. -/
def maxResponseBytes (self : PolicyGrpcService) (context : RequestContext) : Nat :=
  if context.maxResponseBytes = 0 then self.engine.config.maxRequestBytes
  else context.maxResponseBytes

/-- The inspector of a stream whose request was allowed. -/
def inspector (self : PolicyGrpcService) (context : RequestContext) (openResult : PolicyResult) :
    StreamInspector :=
  .new lib self.engine.config (responseTokenBudget context openResult)
    (self.maxResponseBytes context)

/-- `check_stream` up to its loop: the first answer, and the loop if the request is allowed. -/
def checkStream (self : PolicyGrpcService) (inbound : Option (StreamCheckRequest J)) :
    Except String (StreamCheckResponse × Option CheckStream) := do
  let some openMessage := inbound | throw "stream must start with open"
  let requestId := openMessage.requestId
  if requestId = "" ∨ openMessage.sequence ≠ 0 then
    throw "stream open requires request_id and sequence zero"
  let some payload := openMessage.payload | throw "stream open payload is required"
  let .open context request := payload | throw "first stream payload must be open"
  let some context := context | throw "stream context is required"
  let some modelRequest := request | throw "stream model request is required"
  if context.requestId ≠ requestId then
    throw "stream request IDs do not match"
  let openResult := self.engine.evaluate field lib
    { context := some context, request := some modelRequest }
  let response : StreamCheckResponse :=
    { requestId
      sequence := 0
      result := some openResult
      inspectedBytes := 0
      consumedTokens := openResult.estimatedTokens
      releaseBytes := 0 }
  if openResult.decision ≠ .allow then
    return (response, none)
  return (response, some
    { requestId
      expectedSequence := 1
      inspector := self.inspector lib context openResult
      policyVersion := self.engine.config.policyVersion
      running := true })

/-- The loop starts after an allowed request, with a fresh inspector. -/
theorem checkStream_open {service : PolicyGrpcService} {field : JsonField J} {lib : Externals}
    {requestId : String} {context : RequestContext} {request : ModelRequest J}
    {response : StreamCheckResponse} {server : CheckStream}
    (h : service.checkStream field lib (some
      { requestId
        sequence := 0
        payload := some (.open (some context) (some request)) }) = .ok (response, some server)) :
    response.result = some (service.engine.evaluate field lib
        { context := some context, request := some request }) ∧
      server =
        { requestId
          expectedSequence := 1
          inspector := service.inspector lib context (service.engine.evaluate field lib
            { context := some context, request := some request })
          policyVersion := service.engine.config.policyVersion
          running := true } := by
  simp only [checkStream] at h
  split at h
  · cases h
  split at h
  · cases h
  split at h
  · cases h
  cases h
  exact ⟨rfl, rfl⟩

end PolicyGrpcService

end Kavora.Policy
