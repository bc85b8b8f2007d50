import Kavora.Policy.Proto

/-!
# Forwarding a stream (`Server.forwardStream` in `gateway/internal/gateway/server.go`)

The handler reads the response of the backend piece by piece, has each piece checked by the stream
policy and writes the bytes that the policy releases. It is a step function here: `read` is one
round of the read loop and `close` is what follows the loop. A policy call answers with a `Reply`,
and the environment says whether a write to the client fails.

`Writer.body` is what the handler handed to `Write`, in order. The headers are left out.
-/

namespace Kavora.Gateway

open Lib Policy

/-- The settings of a server with a stream policy that `New` accepts. -/
structure StreamConfig where
  maxResponseBytes : Nat
  streamChunkBytes : Nat
  streamBufferBytes : Nat
  maxResponseBytes_pos : 0 < maxResponseBytes
  /-- An `int64`. -/
  maxResponseBytes_lt : maxResponseBytes < 2 ^ 63
  streamChunkBytes_pos : 0 < streamChunkBytes
  streamBufferBytes_pos : 0 < streamBufferBytes

/-- An error that the gateway answers with. -/
structure GatewayError where
  status : Nat
  code : String
  message : String
  deriving DecidableEq, Repr

/-- The client's side: the status that was sent, the backend's bytes and a gateway error. -/
structure Writer where
  status : Option Nat
  body : Bytes
  error : Option GatewayError
  deriving DecidableEq, Repr

namespace Writer

/-- `WriteHeader` of `observedWriter`: the first status stays. -/
def writeHeader (writer : Writer) (status : Nat) : Writer :=
  { writer with status := some (writer.status.getD status) }

/-- `Write`, which sends the status 200 if none was sent. -/
def write (writer : Writer) (data : Bytes) : Writer :=
  { writer.writeHeader 200 with body := writer.body ++ data }

/-- Answers with an error. -/
def writeGatewayError (writer : Writer) (status : Nat) (code message : String) : Writer :=
  { writer.writeHeader status with error := some { status, code, message } }

end Writer

/-- The answer of a policy call: `none` for an error or a nil response. -/
abbrev Reply := Option StreamCheckResponse

/-- The verdict of a reply that is no failure of the policy. -/
def verdict (reply : Reply) : Option (StreamCheckResponse × PolicyResult) :=
  match reply with
  | none => none
  | some response =>
    match response.result with
    | none => none
    | some result =>
      if result.decision = .retryableFailure then none else some (response, result)

/-- Where the handler returns. -/
inductive Exit where
  | finished | copied
  | policyUnavailable | incomplete
  | terminated | closeTerminated
  | invalidRelease | invalidCloseRelease | unreleased
  | bufferFull | writeError
  deriving DecidableEq, Repr

/-- Where the loop of `forwardStream` stands. -/
inductive Phase where
  | reading
  | closing
  /-- `io.Copy` of the rest of the body, without the policy. -/
  | copying
  | done (exit : Exit)
  deriving DecidableEq, Repr

/-- The variables of `forwardStream`. -/
structure ForwardStream where
  phase : Phase
  pending : Bytes
  responseStarted : Bool
  writer : Writer
  deriving DecidableEq, Repr

namespace ForwardStream

/-- The start of the handler: without a session the body is copied. -/
def init (session : Bool) (status : Nat) : ForwardStream :=
  let writer : Writer := { status := none, body := [], error := none }
  if session then { phase := .reading, pending := [], responseStarted := false, writer }
  else
    { phase := .copying, pending := [], responseStarted := false
      writer := writer.writeHeader status }

/-- A return that reports an error unless the response has started. -/
def fail (self : ForwardStream) (exit : Exit) (status : Nat) (code message : String) :
    ForwardStream :=
  if self.responseStarted then { self with phase := .done exit }
  else { self with phase := .done exit, writer := self.writer.writeGatewayError status code message }

/-- The headers are sent once. -/
def startResponse (self : ForwardStream) (status : Nat) : ForwardStream :=
  if self.responseStarted then self
  else { self with responseStarted := true, writer := self.writer.writeHeader status }

/-- Write the first `n` pending bytes to the client. -/
def release (self : ForwardStream) (status n : Nat) : ForwardStream :=
  if n > 0 then
    let self := self.startResponse status
    { self with writer := self.writer.write (self.pending.take n), pending := self.pending.drop n }
  else self

/-- The end of a round of the read loop. -/
def next (self : ForwardStream) (readErr : Bool) : ForwardStream :=
  { self with phase := if readErr then .closing else .reading }

/-- The name of an error code in the error body. -/
def errorCodeName : PolicyErrorCode → String
  | .unspecified => "POLICY_ERROR_CODE_UNSPECIFIED"
  | .invalidArgument => "POLICY_ERROR_CODE_INVALID_ARGUMENT"
  | .requestTooLarge => "POLICY_ERROR_CODE_REQUEST_TOO_LARGE"
  | .piiDetected => "POLICY_ERROR_CODE_PII_DETECTED"
  | .contentBlocked => "POLICY_ERROR_CODE_CONTENT_BLOCKED"
  | .tokenBudgetExceeded => "POLICY_ERROR_CODE_TOKEN_BUDGET_EXCEEDED"
  | .policyUnavailable => "POLICY_ERROR_CODE_POLICY_UNAVAILABLE"
  | .policyTimeout => "POLICY_ERROR_CODE_POLICY_TIMEOUT"
  | .internal => "POLICY_ERROR_CODE_INTERNAL"
  | .protocolViolation => "POLICY_ERROR_CODE_PROTOCOL_VIOLATION"

/-- One round of the read loop: `data` and `readErr` are what `Read` returned, and `reply` is what
`Check` returns on `data`. -/
def read (config : StreamConfig) (failMode : FailMode) (status : Nat) (self : ForwardStream)
    (data : Bytes) (readErr : Bool) (reply : Reply) (writeErr : Bool) : ForwardStream :=
  if data = [] then self.next readErr
  else
    let self := { self with pending := self.pending ++ data }
    match verdict reply with
    | none =>
      if failMode = .open then
        let writer := if self.responseStarted then self.writer else self.writer.writeHeader status
        { self with phase := .copying, writer := writer.write self.pending }
      else self.fail .policyUnavailable 503 "STREAM_POLICY_UNAVAILABLE" "stream policy failed"
    | some (response, result) =>
      if result.decision ≠ .allow then
        self.fail .terminated 403 (errorCodeName result.errorCode) "stream terminated by policy"
      else if response.releaseBytes > self.pending.length then
        self.fail .invalidRelease 502 "STREAM_POLICY_PROTOCOL_ERROR" "invalid stream release count"
      else
        let self := self.release status response.releaseBytes
        if response.releaseBytes > 0 ∧ writeErr then { self with phase := .done .writeError }
        else if self.pending.length > config.streamBufferBytes then
          self.fail .bufferFull 502 "STREAM_POLICY_BUFFER_FULL"
            "stream policy buffer limit exceeded"
        else self.next readErr

/-- What follows the read loop: `reply` is what `Close` returns. -/
def close (failMode : FailMode) (status : Nat) (self : ForwardStream) (reply : Reply) :
    ForwardStream :=
  match verdict reply with
  | none =>
    if failMode = .open then
      let writer := if self.responseStarted then self.writer else self.writer.writeHeader status
      { self with phase := .done .copied, writer := writer.write self.pending }
    else self.fail .incomplete 502 "STREAM_POLICY_INCOMPLETE" "stream did not close cleanly"
  | some (response, result) =>
    if result.decision ≠ .allow then
      self.fail .closeTerminated 403 (errorCodeName result.errorCode) "stream terminated by policy"
    else if response.releaseBytes > self.pending.length then
      self.fail .invalidCloseRelease 502 "STREAM_POLICY_PROTOCOL_ERROR"
        "invalid close release count"
    else
      let self := self.release status response.releaseBytes
      if self.pending ≠ [] then
        self.fail .unreleased 502 "STREAM_POLICY_PROTOCOL_ERROR"
          "policy closed with unreleased bytes"
      else { self.startResponse status with phase := .done .finished }

/-- One round of `io.Copy`. -/
def copy (self : ForwardStream) (data : Bytes) (readErr writeErr : Bool) : ForwardStream :=
  if data = [] then { self with phase := if readErr then .done .copied else .copying }
  else
    { self with
      writer := self.writer.write data
      phase := if readErr ∨ writeErr then .done .copied else .copying }

/-! ## What a round does -/

variable {status : Nat} {self : ForwardStream} {data : Bytes} {reply : Reply}
  {response : StreamCheckResponse} {result : PolicyResult}

@[simp] theorem fail_phase (exit : Exit) (code message : String) :
    (self.fail exit status code message).phase = .done exit := by
  unfold fail
  split <;> rfl

@[simp] theorem fail_pending (exit : Exit) (code message : String) :
    (self.fail exit status code message).pending = self.pending := by
  unfold fail
  split <;> rfl

@[simp] theorem fail_body (exit : Exit) (code message : String) :
    (self.fail exit status code message).writer.body = self.writer.body := by
  unfold fail
  split <;> rfl

@[simp] theorem startResponse_pending : (self.startResponse status).pending = self.pending := by
  unfold startResponse
  split <;> rfl

@[simp] theorem startResponse_body :
    (self.startResponse status).writer.body = self.writer.body := by
  unfold startResponse
  split <;> rfl

@[simp] theorem release_pending (n : Nat) :
    (self.release status n).pending = self.pending.drop n := by
  unfold release
  split
  · simp
  · rw [show n = 0 by omega, List.drop_zero]

@[simp] theorem release_body (n : Nat) :
    (self.release status n).writer.body = self.writer.body ++ self.pending.take n := by
  unfold release
  split
  · simp [Writer.write, Writer.writeHeader]
  · rw [show n = 0 by omega, List.take_zero, List.append_nil]

theorem verdict_some (hr : response.result = some result)
    (hd : result.decision ≠ .retryableFailure) :
    verdict (some response) = some (response, result) := by
  simp [verdict, hr, hd]

/-- A refused piece: nothing is written. -/
theorem read_refused (config : StreamConfig) (failMode : FailMode) (status : Nat)
    (readErr writeErr : Bool) (hdata : data ≠ []) (hv : verdict reply = some (response, result))
    (hd : result.decision ≠ .allow) :
    let s := self.read config failMode status data readErr reply writeErr
    s.phase = .done .terminated ∧ s.writer.body = self.writer.body := by
  simp [read, hdata, hv, hd]

/-- An allowed piece with a valid release count: the released bytes are written and leave the
buffer. The handler goes on, or it returns because of a failed write or a full buffer. -/
theorem read_allowed (config : StreamConfig) (failMode : FailMode) (status : Nat)
    (readErr writeErr : Bool) (hdata : data ≠ []) (hv : verdict reply = some (response, result))
    (hd : result.decision = .allow) (hle : response.releaseBytes ≤ (self.pending ++ data).length) :
    let s := self.read config failMode status data readErr reply writeErr
    s.writer.body = self.writer.body ++ (self.pending ++ data).take response.releaseBytes ∧
      s.pending = (self.pending ++ data).drop response.releaseBytes ∧
      (s.phase = .done .writeError ∨ s.phase = .done .bufferFull ∨
        s.phase = if readErr then .closing else .reading) := by
  have hgt : ¬ response.releaseBytes > (self.pending ++ data).length := by omega
  simp only [read, if_neg hdata, hv, hd, ne_eq, not_true_eq_false, if_false, if_neg hgt]
  split
  · simp
  · split <;> simp [next]

theorem close_refused (failMode : FailMode) (status : Nat) (hv : verdict reply = some (response, result))
    (hd : result.decision ≠ .allow) :
    let s := self.close failMode status reply
    s.phase = .done .closeTerminated ∧ s.writer.body = self.writer.body := by
  simp [close, hv, hd]

/-- A close that releases the whole buffer. -/
theorem close_allowed (failMode : FailMode) (status : Nat)
    (hv : verdict reply = some (response, result)) (hd : result.decision = .allow) (hall : response.releaseBytes = self.pending.length) :
    let s := self.close failMode status reply
    s.phase = .done .finished ∧ s.writer.body = self.writer.body ++ self.pending ∧
      s.pending = [] := by
  simp [close, hv, hd, hall]

end ForwardStream

end Kavora.Gateway
