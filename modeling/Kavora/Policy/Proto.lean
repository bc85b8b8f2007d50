import Kavora.Lib.Bytes

/-!
# Messages of `kavora.policy.v1`

The protobuf messages that the gateway and the policy engine exchange, with the fields that either
side reads or writes. `uint64` fields are natural numbers.
-/

namespace Kavora.Policy

open Lib

/-- What the gateway does when the policy fails. -/
inductive FailMode where
  | unspecified | «open» | closed
  deriving DecidableEq, Repr

/-- The decisions of the protocol. -/
inductive Decision where
  | unspecified | allow | block | terminate | retryableFailure
  deriving DecidableEq, Repr

/-- The error codes of the protocol. -/
inductive PolicyErrorCode where
  | unspecified | invalidArgument | requestTooLarge | piiDetected | contentBlocked
  | tokenBudgetExceeded | policyUnavailable | policyTimeout | internal | protocolViolation
  deriving DecidableEq, Repr

/-- The tenant's side of a request. -/
structure RequestContext where
  requestId : String
  tenantId : String
  policyVersion : String
  failMode : FailMode
  deadlineUnixMillis : Nat
  maxRequestBytes : Nat
  maxResponseBytes : Nat
  tokenBudget : Nat
  deriving DecidableEq, Repr

/-- `ChatMessage`; `J` holds one JSON value as bytes. -/
structure ChatMessage (J : Type) where
  role : String
  contentJson : J
  name : Option String
  deriving DecidableEq, Repr

/-- A request to a model; its JSON fields are encoded. -/
structure ModelRequest (J : Type) where
  model : String
  messages : List (ChatMessage J)
  toolsJson : J
  generationParametersJson : J
  deriving DecidableEq, Repr

/-- A decision with its reasons. -/
structure PolicyResult where
  decision : Decision
  errorCode : PolicyErrorCode
  reason : String
  matchedRuleIds : List String
  cacheKey : Bytes
  estimatedTokens : Nat
  policyVersion : String
  deriving DecidableEq, Repr

/-- The message that asks for a decision. -/
structure EvaluateRequestRequest (J : Type) where
  context : Option RequestContext
  request : Option (ModelRequest J)
  deriving DecidableEq, Repr

/-- The `oneof payload` of a `StreamCheckRequest`. -/
inductive Payload (J : Type) where
  | «open» (context : Option RequestContext) (request : Option (ModelRequest J))
  | chunk (data : Bytes)
  | close

/-- A message of the client in a check of a stream. -/
structure StreamCheckRequest (J : Type) where
  requestId : String
  sequence : Nat
  payload : Option (Payload J)

/-- A message of the service in it. -/
structure StreamCheckResponse where
  requestId : String
  sequence : Nat
  result : Option PolicyResult
  inspectedBytes : Nat
  consumedTokens : Nat
  releaseBytes : Nat
  deriving DecidableEq, Repr

end Kavora.Policy
