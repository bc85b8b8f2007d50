import Kavora.Lib.Go
import Kavora.Policy.SerdeJson
import Kavora.Gateway.ForwardStream

/-!
# Parsing a chat request (`Server.parseRequest` in `gateway/internal/gateway/server.go`)

The gateway reads the body with `encoding/json`: the members of the top-level object by name, each
message as a struct whose fields match without regard to case. It hands a projection of the body to
the policy engine and forwards the body itself.

* `parseRequest`: the projection.
* `serve`: what is forwarded after the policy call.
-/

namespace Kavora.Gateway

open Lib Policy

/-- The part of a tenant that a request is served by. -/
structure Tenant (F : Type) where
  id : String
  tokenBudget : Nat
  policyFailMode : FailMode
  routingRequirements : Go.Map String String
  ttftSloMs : F

/-- The settings of the server that `parseRequest` reads. -/
structure ServerLimits where
  maxRequestBytes : Nat
  maxResponseBytes : Nat

/-! ## `json.Unmarshal` -/

/-- Into a `map[string]json.RawMessage`. -/
def unmarshalMap : Json → Option (List (String × Json))
  | .object members => some (lastWins (members.map fun m => (m.1.text, m.2)))
  | .null => some []
  | _ => none

/-- The map of a body; `encoding/json` nests at most 10000 deep. -/
def unmarshalFields (body : Json) : Option (List (String × Json)) :=
  if body.nesting > 10000 then none else unmarshalMap body

/-- Into a `string` variable: `null` leaves it as it is. -/
def unmarshalString (current : String) : Json → Option String
  | .string s => some s.text
  | .null => some current
  | _ => none

/-- `json.Unmarshal` into a boolean. -/
def unmarshalBool (current : Bool) : Json → Option Bool
  | .bool b => some b
  | .null => some current
  | _ => none

/-- The struct of one message. -/
structure RawMessage where
  role : String
  content : Option Json
  name : Option String

namespace RawMessage

/-- One member of the object, into the field that its name folds to. -/
def setField (message : RawMessage) (member : JsonText × Json) : Option RawMessage :=
  if foldName member.1.text = "role" then
    (unmarshalString message.role member.2).map fun role => { message with role }
  else if foldName member.1.text = "content" then
    some { message with content := some member.2 }
  else if foldName member.1.text = "name" then
    match member.2 with
    | .string s => some { message with name := some s.text }
    | .null => some { message with name := none }
    | _ => none
  else some message

/-- `json.Unmarshal` into a message. -/
def unmarshal : Json → Option RawMessage
  | .object members => members.foldlM setField { role := "", content := none, name := none }
  | .null => some { role := "", content := none, name := none }
  | _ => none

/-- The message of the policy request. -/
def toChatMessage (message : RawMessage) : Except String (ChatMessage Json) :=
  match message.content with
  | some content =>
    if message.role = "" then .error "each message requires role and content"
    else .ok { role := message.role, contentJson := content, name := message.name }
  | none => .error "each message requires role and content"

end RawMessage

/-- `json.Unmarshal` into messages. -/
def unmarshalMessages : Json → Option (List RawMessage)
  | .array values => values.mapM RawMessage.unmarshal
  | .null => some []
  | _ => none

/-! ## `parseRequest` -/

/-- The names that are not generation parameters. -/
def reservedFields : List String := ["model", "messages", "tools", "stream"]

/-- The model of a request. -/
def model (rawFields : List (String × Json)) : Except String String :=
  match (rawFields.lookup "model").bind (unmarshalString "") with
  | some model => if model = "" then .error "model is required" else .ok model
  | none => .error "model is required"

/-- Its messages, of which there is at least one. -/
def rawMessages (rawFields : List (String × Json)) : Except String (List RawMessage) :=
  match (rawFields.lookup "messages").bind unmarshalMessages with
  | some (message :: messages) => .ok (message :: messages)
  | _ => .error "messages are required"

/-- Whether the response is to be streamed. -/
def stream (rawFields : List (String × Json)) : Except String Bool :=
  match rawFields.lookup "stream" with
  | none => .ok false
  | some encoded =>
    match unmarshalBool false encoded with
    | some stream => .ok stream
    | none => .error "stream must be a boolean"

/-- The tools of a request, as it gives them. -/
def toolsJson (rawFields : List (String × Json)) : Json :=
  (rawFields.lookup "tools").getD (.array [])

/-- `json.Marshal` of the other fields. -/
def generationJson (rawFields : List (String × Json)) : Json :=
  .object ((rawFields.filter fun field => field.1 ∉ reservedFields).map fun field =>
    ({ text := field.1, wellFormed := true }, field.2))

variable {F : Type}

/-- `len` is the length of a document in bytes, `deadline` the deadline of the context. -/
def parseRequest (len : Json → Nat) (server : ServerLimits) (activeTenant : Tenant F)
    (requestId : String) (deadline : Nat) (body : Json) :
    Except String (Json × EvaluateRequestRequest Json × Bool) := do
  if len body > server.maxRequestBytes then
    throw "request body exceeds configured limit"
  let some rawFields := unmarshalFields body | throw "request body must be valid JSON"
  let model ← model rawFields
  let rawMessages ← rawMessages rawFields
  let stream ← stream rawFields
  let messages ← rawMessages.mapM RawMessage.toChatMessage
  return (body,
    { context := some
        { requestId
          tenantId := activeTenant.id
          policyVersion := "policy-v1"
          failMode := activeTenant.policyFailMode
          deadlineUnixMillis := deadline
          maxRequestBytes := server.maxRequestBytes
          maxResponseBytes := server.maxResponseBytes
          tokenBudget := activeTenant.tokenBudget }
      request := some
        { model
          messages
          toolsJson := toolsJson rawFields
          generationParametersJson := generationJson rawFields } },
    stream)

/-- `Client.Evaluate`: a call that fails has an error and no result. -/
def evaluate (engine : PolicyEngine) (field : JsonField Json) (lib : Externals) (fault : Bool)
    (request : EvaluateRequestRequest Json) : Option PolicyResult × Bool :=
  if fault then (none, true) else (some (engine.evaluate field lib request), false)

/-- What `ServeHTTP` does with a parsed request after the policy call: it forwards the body, or
answers with a status and a code. `result` is `none` for a nil result, and `err` an error. -/
def admission (failMode : FailMode) (result : Option PolicyResult) (err : Bool) (body : Json) :
    Except (Nat × String) Json :=
  if err ∧ failMode = .closed then .error (503, "POLICY_UNAVAILABLE")
  else if result = none ∧ failMode = .closed then .error (503, "POLICY_UNAVAILABLE")
  else
    match result with
    | none => .ok body
    | some result =>
      if result.decision = .retryableFailure ∧ failMode = .open then .ok body
      else if result.decision = .retryableFailure then .error (503, ForwardStream.errorCodeName result.errorCode)
      else if result.decision ≠ .allow then .error (403, ForwardStream.errorCodeName result.errorCode)
      else .ok body

/-- The body that is forwarded for a request. `policy` is the policy call. -/
def serve (len : Json → Nat) (server : ServerLimits) (activeTenant : Tenant F)
    (requestId : String) (deadline : Nat)
    (policy : EvaluateRequestRequest Json → Option PolicyResult × Bool) (body : Json) :
    Except (Nat × String) Json :=
  match parseRequest len server activeTenant requestId deadline body with
  | .error _ => .error (400, "INVALID_REQUEST")
  | .ok (rawBody, policyRequest, _) =>
    admission activeTenant.policyFailMode (policy policyRequest).1 (policy policyRequest).2 rawBody

end Kavora.Gateway
