import Kavora.Lib.JsonStream

/-!
# The fake backend (`gateway/internal/fakebackend/server.go`)

A backend for tests that answers every request with the same chunks, as one answer or as a stream
of events. It can break off a stream after some chunks. `live` says which waits of a request end
before the request is canceled: the wait before the answer is number 0 and the one before the chunk
with an index has that index. Writes do not fail here.

* `writeStream`: the events of a stream, and whether the end mark follows them.
* `Server.serveHTTP`: the answer to a request.
-/

namespace Kavora.FakeBackend

open Lib Lib.Go

/-- The ID of every completion. -/
def completionID : String := "chatcmpl-kavora-fake"

/-- The limit of a request's body. -/
def maxBodyBytes : Nat := 2 ^ 20

/-- The settings of a fake backend and its counters. -/
structure Server where
  responseChunks : List String
  failAfterChunks : Int
  startedRequests : Nat
  canceledRequests : Nat
  /-- As `New` fills them in. -/
  responseChunks_ne_nil : responseChunks ≠ []

/-- `New` fills in the default answer. -/
def new (responseChunks : List String) (failAfterChunks : Int) : Server :=
  if h : responseChunks = [] then
    { responseChunks := ["ok"]
      failAfterChunks
      startedRequests := 0
      canceledRequests := 0
      responseChunks_ne_nil := List.cons_ne_nil _ _ }
  else
    { responseChunks
      failAfterChunks
      startedRequests := 0
      canceledRequests := 0
      responseChunks_ne_nil := h }

/-- What is sent to a client. -/
structure Answer where
  statusCode : Nat
  contentType : String
  body : Bytes
  deriving DecidableEq, Repr

/-- The answer with an error. -/
def writeError (status : Nat) (code message : String) : Answer where
  statusCode := status
  contentType := "application/json"
  body :=
    Utf8.encode (Json.object
      [ member "error"
          (.object [member "code" (ofString code), member "message" (ofString message)])]).print ++
      [lf]

/-! ## Answers -/

/-- The document of a completion. -/
def completion (chunks : List String) (model : String) : Json :=
  .object
    [ member "choices"
        (.array
          [ .object
              [ member "finish_reason" (ofString "stop"),
                member "index" (.number "0"),
                member "message"
                  (.object
                    [ member "content" (ofString (String.join chunks)),
                      member "role" (ofString "assistant")])]]),
      member "created" (.number "0"),
      member "id" (ofString completionID),
      member "model" (ofString model),
      member "object" (ofString "chat.completion")]

/-- The answer with a completion. -/
def writeCompletion (chunks : List String) (model : String) : Answer where
  statusCode := 200
  contentType := "application/json"
  body := Utf8.encode (completion chunks model).print ++ [lf]

/-- The event of a chunk. -/
def event (model : String) (index : Nat) (content : String) (last : Bool) : Json :=
  .object
    [ member "choices"
        (.array
          [ .object
              [ member "delta"
                  (.object
                    (member "content" (ofString content) ::
                      if index = 0 then [member "role" (ofString "assistant")] else [])),
                member "finish_reason" (if last then ofString "stop" else .null),
                member "index" (.number "0")]]),
      member "created" (.number "0"),
      member "id" (ofString completionID),
      member "model" (ofString model),
      member "object" (ofString "chat.completion.chunk")]

/-- How a stream ends. -/
inductive Stop where
  | finished
  | canceled
  /-- After `failAfterChunks` chunks. -/
  | failed
  deriving DecidableEq, Repr

/-- The loop over the chunks from an index on. -/
def streamFrom (failAfterChunks : Int) (model : String) (live : Nat → Bool) (index : Nat) :
    List String → List Json × Stop
  | [] => ([], .finished)
  | content :: rest =>
    if index > 0 ∧ live index = false then ([], .canceled)
    else if failAfterChunks > 0 ∧ (index : Int) + 1 ≥ failAfterChunks then
      ([event model index content (rest = [])], .failed)
    else
      let (events, stop) := streamFrom failAfterChunks model live (index + 1) rest
      (event model index content (rest = []) :: events, stop)

/-- The line of an event and the blank line after it. -/
def eventLines (data : Bytes) : List Bytes := [utf8 "data: " ++ data, []]

/-- The lines of a stream, up to its stop. -/
def streamLines (events : List Json) (stop : Stop) : List Bytes :=
  events.flatMap (fun event => eventLines (Utf8.encode event.print)) ++
    if stop = .finished then eventLines (utf8 "[DONE]") else []

/-- The bytes of a stream. -/
def streamBody (events : List Json) (stop : Stop) : Bytes :=
  (streamLines events stop).flatMap (· ++ [lf])

namespace Server

variable (server : Server) (live : Nat → Bool)

/-- The answer with a stream, and why it stops. -/
def writeStream (model : String) : Answer × Stop :=
  let (events, stop) := streamFrom server.failAfterChunks model live 0 server.responseChunks
  ({ statusCode := 200, contentType := "text/event-stream", body := streamBody events stop }, stop)

end Server

/-! ## Requests -/

/-- A value of any type. -/
structure AnyValue where
  doc : Json

instance : Marshal AnyValue where
  zero := { doc := .null }
  marshal value := some value.doc
  unmarshal doc _ := some { doc }

/-- The struct that `ServeHTTP` reads. -/
structure ChatRequest where
  model : String
  messages : List AnyValue
  stream : Bool

namespace ChatRequest

/-- The fields of its JSON object. -/
def fields : List (Go.Field ChatRequest) :=
  [ field "model" model fun a s => { s with model := a },
    field "messages" messages fun a s => { s with messages := a },
    field "stream" stream fun a s => { s with stream := a } ]

instance : Marshal ChatRequest where
  zero := { model := "", messages := [], stream := false }
  marshal := marshalStruct fields
  unmarshal := unmarshalStruct fields

end ChatRequest

namespace Server

/-- One more request was cancelled by its client. -/
def canceled (server : Server) : Server :=
  { server with canceledRequests := server.canceledRequests + 1 }

/-- The answer to a request; none is written if the request is canceled before. -/
def serveHTTP (server : Server) (live : Nat → Bool) (method path : String) (body : Bytes) :
    Option Answer × Server :=
  if method = "GET" ∧ (path = "/healthz" ∨ path = "/health") then
    (some
      { statusCode := 200
        contentType := "application/json"
        body := utf8 "\x7b\"status\":\"ok\",\"service\":\"kavora-fake-backend\"\x7d" }, server)
  else if method ≠ "POST" ∨ path ≠ "/v1/chat/completions" then
    (some
      { statusCode := 404
        contentType := "text/plain; charset=utf-8"
        body := utf8 "404 page not found\n" }, server)
  else
    let server := { server with startedRequests := server.startedRequests + 1 }
    match decodeBytes ChatRequest (body.take maxBodyBytes) with
    | none =>
      (some (writeError 400 "invalid_request" "request body must be valid JSON"), server)
    | some chatRequest =>
      if chatRequest.model = "" ∨ chatRequest.messages = [] then
        (some (writeError 400 "invalid_request" "model and messages are required"), server)
      else if live 0 = false then (none, server.canceled)
      else if chatRequest.stream then
        let (answer, stop) := server.writeStream live chatRequest.model
        (some answer, if stop = .canceled then server.canceled else server)
      else (some (writeCompletion server.responseChunks chatRequest.model), server)

end Server

end Kavora.FakeBackend
