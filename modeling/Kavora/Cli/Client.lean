import Kavora.Lib.JsonStream
import Kavora.Lib.Scanner

/-!
# The client of the command line (`gateway/internal/client/client.go`)

`Chat` reads one answer and `StreamChat` the events of a stream, up to the event `[DONE]`. The
callback of `StreamChat` is a function of the chunks so far: whether it takes the last of them.
`HTTP.Do` and errors of the transport are left out.

* `chatPayload`: the body of a request.
* `readEvents`: the loop of `StreamChat` over the lines of a stream.
* `decodeAPIError`: what the client makes of an answer without a 2xx status.
-/

namespace Kavora.Cli

open Lib Lib.Go

/-- A client of the gateway. -/
structure Client where
  baseURL : String
  apiKey : String

/-- What the user asks. -/
structure ChatRequest where
  model : String
  message : String
  system : String

/-- The answer, with the ID of its request. -/
structure ChatResponse where
  id : String
  content : String
  requestID : String
  deriving DecidableEq, Repr

/-- An error that the gateway has answered with. -/
structure APIError where
  statusCode : Nat
  code : String
  message : String
  requestID : String
  deriving DecidableEq, Repr

/-- The errors of `Chat` and `StreamChat`. -/
inductive CallError where
  | api (err : APIError)
  /-- `decode chat response` -/
  | decodeResponse
  /-- `chat response contains no choices` -/
  | noChoices
  /-- `decode stream event` -/
  | decodeEvent
  /-- `read stream` -/
  | readStream
  /-- `stream ended before [DONE]` -/
  | ended
  /-- An error of the callback. -/
  | callback
  deriving DecidableEq, Repr

/-- An `http.Response`. -/
structure Response where
  statusCode : Nat
  /-- The status line, like `403 Forbidden`. -/
  status : String
  /-- `X-Request-ID`. -/
  requestID : String
  body : Bytes

/-- `strings.TrimRight(baseURL, "/")` -/
def trimSlashes (baseURL : String) : String :=
  .ofList (baseURL.toList.reverse.dropWhile (· = '/')).reverse

/-- `NewClient` drops the slashes at the end of the URL. -/
def new (baseURL apiKey : String) : Client := { baseURL := trimSlashes baseURL, apiKey }

/-! ## Requests -/

/-- A `map[string]string`. -/
def message (role content : String) : Json :=
  .object [member "content" (ofString content), member "role" (ofString role)]

/-- The messages of a request, of which the system's comes first. -/
def messages (request : ChatRequest) : List Json :=
  (if request.system ≠ "" then [message "system" request.system] else []) ++
    [message "user" request.message]

/-- The document of a request, with its keys in their order. -/
def chatPayload (request : ChatRequest) (stream : Bool) : Json :=
  .object
    [ member "messages" (.array (messages request)),
      member "model" (ofString request.model),
      member "stream" (.bool stream) ]

/-- The request of `do`. -/
structure HttpRequest where
  method : String
  url : String
  contentType : String
  /-- `Authorization`, if it is set. -/
  authorization : Option String
  body : Bytes

/-- The request that carries a document. -/
def Client.request (client : Client) (payload : Json) : HttpRequest where
  method := "POST"
  url := client.baseURL ++ "/v1/chat/completions"
  contentType := "application/json"
  authorization := if client.apiKey ≠ "" then some ("Bearer " ++ client.apiKey) else none
  body := Utf8.encode payload.print

/-! ## The documents of answers -/

/-- The struct of a message and of a delta. -/
structure Content where
  content : String

namespace Content

/-- The fields of its JSON object. -/
def fields : List (Go.Field Content) :=
  [field "content" content fun a s => { s with content := a }]

instance : Marshal Content where
  zero := { content := "" }
  marshal := marshalStruct fields
  unmarshal := unmarshalStruct fields

end Content

/-- The struct of a choice, whose content is in the member `name`. -/
structure Choice (name : String) where
  content : Content

namespace Choice

/-- The fields of its JSON object, in which the content has a name. -/
def fields (name : String) : List (Go.Field (Choice name)) :=
  [field name content fun a s => { s with content := a }]

instance (name : String) : Marshal (Choice name) where
  zero := { content := Marshal.zero }
  marshal := marshalStruct (fields name)
  unmarshal := unmarshalStruct (fields name)

end Choice

/-- The struct of an answer or an event. -/
structure Payload (name : String) where
  id : String
  choices : List (Choice name)

namespace Payload

/-- The fields of its JSON object. -/
def fields (name : String) : List (Go.Field (Payload name)) :=
  [ field "id" id fun a s => { s with id := a },
    field "choices" choices fun a s => { s with choices := a } ]

instance (name : String) : Marshal (Payload name) where
  zero := { id := "", choices := [] }
  marshal := marshalStruct (fields name)
  unmarshal := unmarshalStruct (fields name)

end Payload

/-- The struct of the error in `decodeAPIError`. -/
structure ErrorBody where
  code : String
  message : String
  requestID : String

namespace ErrorBody

/-- The fields of its JSON object. -/
def fields : List (Go.Field ErrorBody) :=
  [ field "code" code fun a s => { s with code := a },
    field "message" message fun a s => { s with message := a },
    field "request_id" requestID fun a s => { s with requestID := a } ]

instance : Marshal ErrorBody where
  zero := { code := "", message := "", requestID := "" }
  marshal := marshalStruct fields
  unmarshal := unmarshalStruct fields

end ErrorBody

/-- The document of an error. -/
structure ErrorPayload where
  error : ErrorBody

namespace ErrorPayload

/-- The fields of its JSON object. -/
def fields : List (Go.Field ErrorPayload) := [field "error" error fun a s => { s with error := a }]

instance : Marshal ErrorPayload where
  zero := { error := Marshal.zero }
  marshal := marshalStruct fields
  unmarshal := unmarshalStruct fields

end ErrorPayload

/-- The error of a response, with the status line where its body says nothing. -/
def decodeAPIError (response : Response) : APIError :=
  match decodeBytes ErrorPayload (response.body.take (64 * 1024)) with
  | none =>
    { statusCode := response.statusCode, code := "", message := response.status, requestID := "" }
  | some payload =>
    { statusCode := response.statusCode
      code := payload.error.code
      message := payload.error.message
      requestID := payload.error.requestID }

/-! ## `Chat` -/

/-- What `Chat` makes of the response. -/
def chat (response : Response) : Except CallError ChatResponse :=
  if response.statusCode < 200 ∨ response.statusCode ≥ 300 then
    .error (.api (decodeAPIError response))
  else
    match decodeBytes (Payload "message") response.body with
    | none => .error .decodeResponse
    | some payload =>
      match payload.choices with
      | [] => .error .noChoices
      | choice :: _ =>
        .ok
          { id := payload.id
            content := choice.content.content
            requestID := response.requestID }

/-! ## `StreamChat` -/

/-- The variables of the loop; the content is that of the chunks. -/
structure StreamState where
  responseID : String
  /-- The chunks that the callback was given. -/
  chunks : List String
  deriving DecidableEq, Repr

/-- How the loop ends. -/
inductive Ending where
  /-- The lines are all read. -/
  | drained
  | done
  | failed (err : CallError)
  deriving DecidableEq, Repr

/-- The content of the first choice of an event, or nothing. -/
def Payload.chunk {name : String} (event : Payload name) : String :=
  match event.choices with
  | [] => ""
  | choice :: _ => choice.content.content

/-- The value of a line with data. -/
def dataOf (line : Bytes) : Option Bytes :=
  (stripPrefix (utf8 "data:") line).map GoString.trimSpace

/-- The loop of `StreamChat` over the lines of the response. -/
def readEvents (onChunk : List String → Bool) : List Bytes → StreamState → StreamState × Ending
  | [], s => (s, .drained)
  | line :: lines, s =>
    match dataOf line with
    | none => readEvents onChunk lines s
    | some data =>
      if data = utf8 "[DONE]" then (s, .done)
      else
        match unmarshalBytes (Payload "delta") data with
        | none => (s, .failed .decodeEvent)
        | some event =>
          let s := if event.id ≠ "" then { s with responseID := event.id } else s
          if event.chunk = "" then readEvents onChunk lines s
          else
            let s := { s with chunks := s.chunks ++ [event.chunk] }
            if onChunk s.chunks then readEvents onChunk lines s else (s, .failed .callback)

/-- The buffer of the scanner. -/
def maxLine : Nat := 2 ^ 20

/-- What follows the loop; `complete` says that the scanner has no error. -/
def StreamState.result (s : StreamState) (complete : Bool) (requestID : String) :
    Ending → Except CallError ChatResponse
  | .failed err => .error err
  | .drained => .error (if complete then .ended else .readStream)
  | .done => .ok { id := s.responseID, content := String.join s.chunks, requestID }

/-- The answer and the chunks that the callback was given. -/
def streamChat (onChunk : List String → Bool) (response : Response) :
    Except CallError ChatResponse × List String :=
  if response.statusCode < 200 ∨ response.statusCode ≥ 300 then
    (.error (.api (decodeAPIError response)), [])
  else
    let (lines, complete) := scan maxLine response.body
    let (s, ending) := readEvents onChunk lines { responseID := "", chunks := [] }
    (s.result complete response.requestID ending, s.chunks)

theorem StreamState.result_ok {s : StreamState} {complete : Bool} {requestID : String}
    {ending : Ending} {answer : ChatResponse} :
    s.result complete requestID ending = .ok answer ↔ ending = .done ∧
      answer = { id := s.responseID, content := String.join s.chunks, requestID } := by
  cases ending <;> simp [StreamState.result, eq_comm]

end Kavora.Cli
