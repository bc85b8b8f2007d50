import Kavora.Cli.StreamChat
import Kavora.Gateway.Delivery
import Kavora.Gateway.ParseRequest

/-!
# A conversation through the gateway

A request of the command line is read by the gateway and by the fake backend, and the stream that
the fake backend sends comes back through the handler of the gateway.

* `parseRequest_chatPayload`: what the gateway reads in a request of the client.
* `decodeBytes_chatPayload`: what the fake backend reads in it.
* `received`: the response that the client gets.
* `stream_end_to_end`: the conversation.
-/

namespace Kavora.Cli

open Lib Lib.Go FakeBackend Gateway Policy

/-! ## Requests -/

theorem readable_message (role content : String) : (message role content).Readable := by
  simp [message, Json.Readable, Json.ReadableMembers, member, ofString]

theorem readable_chatPayload (request : ChatRequest) (stream : Bool) :
    (chatPayload request stream).Readable := by
  have hmessages : Json.ReadableValues (messages request) := by
    unfold messages
    split
    · exact ⟨readable_message _ _, readable_message _ _, trivial⟩
    · exact ⟨readable_message _ _, trivial⟩
  simp [chatPayload, Json.Readable, Json.ReadableMembers, member, ofString, hmessages]

theorem nesting_chatPayload (request : ChatRequest) (stream : Bool) :
    (chatPayload request stream).nesting = 3 := by
  unfold chatPayload messages
  split <;> rfl

theorem messages_ne_nil (request : ChatRequest) : messages request ≠ [] := by
  unfold messages
  exact List.append_ne_nil_of_right_ne_nil _ (List.cons_ne_nil _ _)

theorem unmarshalList_any (docs : List Json) :
    unmarshalList (α := AnyValue) (.array docs) = some (docs.map AnyValue.mk) := by
  show docs.mapM _ = _
  induction docs with
  | nil => rfl
  | cons doc docs ih =>
    rw [List.mapM_cons, ih]
    rfl

/-- The fake backend reads the request of the client. -/
theorem decodeBytes_chatPayload (request : ChatRequest) (stream : Bool) :
    decodeBytes FakeBackend.ChatRequest (Utf8.encode (chatPayload request stream).print) =
      some { model := request.model, messages := (messages request).map AnyValue.mk, stream } := by
  rw [decodeBytes_printed (readable_chatPayload request stream), readValue, if_neg (by rw [nesting_chatPayload]; decide)]
  have hmessages : (field "messages" FakeBackend.ChatRequest.messages
      fun a s => { s with messages := a }).assign (.array (messages request)) Marshal.zero =
      some { model := "", messages := (messages request).map AnyValue.mk, stream := false } := by
    show (unmarshalList (.array (messages request))).map _ = _
    rw [unmarshalList_any]
    rfl
  show List.foldlM (assignMember FakeBackend.ChatRequest.fields) _ _ = _
  rw [foldlM_known rfl, hmessages, Option.bind_some, foldlM_known rfl]
  rfl

/-- The messages as the gateway hands them to the policy. -/
def policyMessages (request : ChatRequest) : List (ChatMessage Json) :=
  (if request.system ≠ "" then
    [{ role := "system", contentJson := ofString request.system, name := none }] else []) ++
    [{ role := "user", contentJson := ofString request.message, name := none }]

/-- The message of the body behind a message of the policy. -/
def rawMessage (m : ChatMessage Json) : RawMessage :=
  { role := m.role, content := some m.contentJson, name := m.name }

theorem unmarshal_rawMessage (role content : String) :
    RawMessage.unmarshal (message role content) =
      some { role, content := some (ofString content), name := none } := by
  have hcontent : foldName "content" ≠ "role" ∧ foldName "content" = "content" := by decide
  have hrole : foldName "role" = "role" := by decide
  simp [message, member, RawMessage.unmarshal, RawMessage.setField, hcontent, hrole, ofString,
    unmarshalString]

theorem unmarshalFields_chatPayload (request : ChatRequest) (stream : Bool) :
    unmarshalFields (chatPayload request stream) = some
      [ ("messages", .array (messages request)), ("model", ofString request.model),
        ("stream", .bool stream) ] := by
  unfold unmarshalFields
  rw [if_neg (by rw [nesting_chatPayload]; decide)]
  simp [chatPayload, unmarshalMap, member, lastWins]

/-- **The gateway reads a request of the client**: the policy gets its messages, and the backend gets
the body. -/
theorem parseRequest_chatPayload {F : Type} (len : Json → Nat) (server : ServerLimits)
    (activeTenant : Tenant F) (requestId : String) (deadline : Nat) (request : ChatRequest)
    (stream : Bool) (hlen : len (chatPayload request stream) ≤ server.maxRequestBytes)
    (hmodel : request.model ≠ "") :
    parseRequest len server activeTenant requestId deadline (chatPayload request stream) =
      .ok (chatPayload request stream,
        { context := some
            { requestId
              tenantId := activeTenant.id
              policyVersion := "policy-v1"
              failMode := activeTenant.policyFailMode
              deadlineUnixMillis := deadline
              maxRequestBytes := server.maxRequestBytes
              maxResponseBytes := server.maxResponseBytes
              tokenBudget := activeTenant.tokenBudget }
          request := some
            { model := request.model
              messages := policyMessages request
              toolsJson := .array []
              generationParametersJson := .object [] } },
        stream) := by
  have hraw : rawMessages [ ("messages", .array (messages request)),
      ("model", ofString request.model), ("stream", .bool stream) ] =
      .ok ((policyMessages request).map rawMessage) := by
    unfold messages policyMessages
    split <;> simp [rawMessages, unmarshalMessages, unmarshal_rawMessage, rawMessage]
  have hchat : ((policyMessages request).map rawMessage).mapM RawMessage.toChatMessage =
      .ok (policyMessages request) := by
    unfold policyMessages
    split
    · simp [RawMessage.toChatMessage, rawMessage]
      rfl
    · simp [RawMessage.toChatMessage, rawMessage]
  have hname : (ofString request.model) = .string { text := request.model, wellFormed := true } :=
    rfl
  have hmodelField : model [ ("messages", .array (messages request)),
      ("model", ofString request.model), ("stream", .bool stream) ] = .ok request.model := by
    simp [model, List.lookup_cons, hname, unmarshalString, hmodel]
  unfold parseRequest
  rw [if_neg (by omega), unmarshalFields_chatPayload]
  dsimp only
  rw [hmodelField, hraw]
  show (do
    let messages ← ((policyMessages request).map rawMessage).mapM RawMessage.toChatMessage
    _) = _
  rw [hchat]
  simp [toolsJson, generationJson, reservedFields, List.lookup_cons]

theorem admission_ok {failMode : FailMode} {result : Option PolicyResult} {err : Bool}
    {body forwarded : Json} (h : admission failMode result err body = .ok forwarded) :
    forwarded = body := by
  unfold admission at h
  grind

/-- What is forwarded of a request of the client is its body. -/
theorem serve_chatPayload {F : Type} {len : Json → Nat} {server : ServerLimits}
    {activeTenant : Tenant F} {requestId : String} {deadline : Nat}
    {policy : EvaluateRequestRequest Json → Option PolicyResult × Bool} {request : ChatRequest}
    {stream : Bool} {forwarded : Json} (h : serve len server activeTenant requestId deadline policy
      (chatPayload request stream) = .ok forwarded) :
    request.model ≠ "" ∧ forwarded = chatPayload request stream := by
  by_cases hlen : len (chatPayload request stream) ≤ server.maxRequestBytes
  · by_cases hmodel : request.model = ""
    · have hparse : parseRequest len server activeTenant requestId deadline
          (chatPayload request stream) = .error "model is required" := by
        have hname : ofString request.model = .string { text := "", wellFormed := true } := by
          rw [hmodel]
          rfl
        have hfield : model [ ("messages", .array (messages request)),
            ("model", ofString request.model), ("stream", .bool stream) ] =
            .error "model is required" := by
          simp [model, List.lookup_cons, hname, unmarshalString]
        unfold parseRequest
        rw [if_neg (by omega), unmarshalFields_chatPayload]
        dsimp only
        rw [hfield]
        rfl
      rw [serve, hparse] at h
      cases h
    · rw [serve, parseRequest_chatPayload len server activeTenant requestId deadline request stream
        hlen hmodel] at h
      exact ⟨hmodel, admission_ok h⟩
  · have hparse : parseRequest len server activeTenant requestId deadline
        (chatPayload request stream) = .error "request body exceeds configured limit" := by
      unfold parseRequest
      rw [if_pos (by omega)]
      rfl
    rw [serve, hparse] at h
    cases h

/-! ## Answers -/

/-- The fake backend answers a request of the client. -/
theorem serveHTTP_chatPayload (server : Server) (live : Nat → Bool) (request : ChatRequest)
    (hmodel : request.model ≠ "")
    (hsize : (Utf8.encode (chatPayload request true).print).length ≤ maxBodyBytes)
    {answer : Answer} (hanswer : (server.serveHTTP live "POST" "/v1/chat/completions"
      (Utf8.encode (chatPayload request true).print)).1 = some answer) :
    live 0 = true ∧ answer = (server.writeStream live request.model).1 := by
  have hget : ¬ ("POST" = "GET" ∧ ("/v1/chat/completions" = "/healthz" ∨
      "/v1/chat/completions" = "/health")) := by decide
  have hpost : ¬ ("POST" ≠ "POST" ∨ "/v1/chat/completions" ≠ "/v1/chat/completions") := by decide
  have hmessages : (messages request).map AnyValue.mk ≠ [] :=
    fun h => messages_ne_nil request (List.map_eq_nil_iff.mp h)
  unfold Server.serveHTTP at hanswer
  rw [if_neg hget, if_neg hpost, List.take_of_length_le hsize] at hanswer
  simp only [decodeBytes_chatPayload, hmodel, hmessages, false_or, if_false, if_true] at hanswer
  split at hanswer
  · cases hanswer
  · rename_i hlive
    rw [Bool.not_eq_false] at hlive
    exact ⟨hlive, (Option.some.inj hanswer).symm⟩

/-- The response that a client gets; `statusLine` is the text of a status. -/
def received (statusLine : Nat → String) (requestID : String) (writer : Writer) : Response where
  statusCode := writer.status.getD 200
  status := statusLine (writer.status.getD 200)
  requestID
  body := writer.body ++ (writer.error.map (errorBody requestID)).getD []

/-- A line end follows the document that `Encode` writes. -/
theorem ends_lf : Json.Ends (Utf8.runes [lf]) := by
  have hrunes : Utf8.runes [lf] = ['\n'] := by decide
  rw [hrunes]
  intro c hc
  cases hc
  decide

/-- The client reads an error of the gateway. -/
theorem decodeAPIError_errorBody {requestID : String} {err : GatewayError} (h : err.Short)
    (hid : IsRequestID requestID) (status : String) :
    decodeAPIError
      { statusCode := err.status, status, requestID, body := errorBody requestID err } =
      { statusCode := err.status, code := err.code, message := err.message, requestID } := by
  have hreadable : (errorDocument requestID err).Readable := by
    simp [errorDocument, Json.Readable, Json.ReadableMembers, member, ofString]
  have hnesting : (errorDocument requestID err).nesting = 2 := rfl
  have hvalue : readValue ErrorPayload (errorDocument requestID err) =
      some { error := { code := err.code, message := err.message, requestID } } := by
    unfold readValue
    rw [if_neg (by rw [hnesting]; decide)]
    rfl
  have hdecode : decodeBytes ErrorPayload (errorBody requestID err) =
      some { error := { code := err.code, message := err.message, requestID } } := by
    unfold errorBody
    rw [decodeBytes_print hreadable ends_lf, hvalue]
  unfold decodeAPIError
  rw [List.take_of_length_le (length_errorBody h hid), hdecode]

/-- The client takes an error of the gateway for no answer. -/
theorem streamChat_refused (onChunk : List String → Bool) {statusLine : Nat → String}
    {requestID : String} (hid : IsRequestID requestID) {writer : Writer} {err : GatewayError}
    (herror : writer.error = some err) (h : ForwardStream.Refused writer err) :
    streamChat onChunk (received statusLine requestID writer) =
      (.error (.api
        { statusCode := err.status, code := err.code, message := err.message, requestID }), []) := by
  have hreceived : received statusLine requestID writer =
      { statusCode := err.status
        status := statusLine err.status
        requestID
        body := errorBody requestID err } := by
    unfold received
    rw [herror, h.status, h.body]
    rfl
  have hrange := h.range
  unfold streamChat
  rw [hreceived, if_pos (.inr (by dsimp only; omega)), decodeAPIError_errorBody h.short hid]

/-- **A conversation through the gateway.** A request of the client that the gateway forwards is
answered by the fake backend. Whatever the stream policy answers and wherever the connection to the
backend ends, the client shows chunks of the answer in their order. It returns an answer exactly if
the gateway passed on the end mark and the callback takes every chunk, and then the answer is whole. An
error of the gateway reaches it as one. -/
theorem stream_end_to_end {F : Type} (len : Json → Nat) (limits : ServerLimits)
    (activeTenant : Tenant F) (requestID : String) (deadline : Nat)
    (policy : EvaluateRequestRequest Json → Option PolicyResult × Bool) (server : Server)
    (live : Nat → Bool) (request : ChatRequest) (onChunk : List String → Bool)
    (config : StreamConfig) (statusLine : Nat → String) (hid : IsRequestID requestID)
    {forwarded : Json}
    (hserve : serve len limits activeTenant requestID deadline policy (chatPayload request true) =
      .ok forwarded)
    (hsize : (Utf8.encode forwarded.print).length ≤ maxBodyBytes) {answer : Answer}
    (hanswer : (server.serveHTTP live "POST" "/v1/chat/completions"
      (Utf8.encode forwarded.print)).1 = some answer)
    {body : Bytes} (hbody : body <+: answer.body) {s : Exchange}
    (hs : (Delivery.system config activeTenant.policyFailMode answer.statusCode body).Reach s)
    {exit : Exit} (hdone : s.gateway.phase = .done exit) :
    let out := streamChat onChunk (received statusLine requestID s.gateway.writer)
    out.2 <+: shown server.responseChunks ∧
      (∀ answer, out.1 = .ok answer → out.2 = shown server.responseChunks ∧ answer =
        { id := completionID, content := String.join server.responseChunks, requestID }) ∧
      ((∃ answer, out.1 = .ok answer) ↔ s.gateway.writer.error = none ∧
        (server.writeStream live request.model).2 = .finished ∧
        answer.body.length ≤ s.gateway.writer.body.length + 2 ∧
        (∀ line ∈ streamLines (streamFrom server.failAfterChunks request.model live 0
          server.responseChunks).1 .finished, line.length < maxLine) ∧
        Takes onChunk [] (shown server.responseChunks)) ∧
      (∀ err, s.gateway.writer.error = some err → out.2 = [] ∧ out.1 = .error (.api
        { statusCode := err.status, code := err.code, message := err.message, requestID })) := by
  obtain ⟨hmodel, rfl⟩ := serve_chatPayload hserve
  obtain ⟨-, rfl⟩ := serveHTTP_chatPayload server live request hmodel hsize hanswer
  rcases Delivery.sent hs hdone with ⟨sent, hsent, hwriter, -⟩ | ⟨err, herror, hrefused⟩
  · have hreceived : received statusLine requestID s.gateway.writer =
        { statusCode := 200, status := statusLine 200, requestID, body := sent } := by
      rw [hwriter]
      simp [received, Server.writeStream]
    have hcut := streamChat_cut server live request.model onChunk
      { statusCode := 200, status := statusLine 200, requestID, body := sent }
      (show 200 ≤ 200 ∧ 200 < 300 by decide) (hsent.trans hbody)
    rw [hreceived]
    generalize streamChat onChunk
      { statusCode := 200, status := statusLine 200, requestID, body := sent } = out at hcut ⊢
    obtain ⟨result, chunks⟩ := out
    dsimp only at hcut ⊢
    obtain ⟨hchunks, hwhole, hiff⟩ := hcut
    refine ⟨hchunks, hwhole, ?_, ?_⟩
    · rw [hiff, hwriter]
      simp
    · intro err herr
      rw [hwriter] at herr
      cases herr
  · rw [streamChat_refused onChunk hid herror hrefused]
    refine ⟨List.nil_prefix, ?_, ?_, ?_⟩
    · rintro answer h
      cases h
    · refine ⟨?_, fun h => ?_⟩
      · rintro ⟨answer, h⟩
        cases h
      · rw [herror] at h
        cases h.1
    · intro err' herr'
      rw [herror] at herr'
      cases herr'
      exact ⟨rfl, rfl⟩

namespace Sample

def server : Server := FakeBackend.new ["Hel", "lo"] 0

def request : ChatRequest := { model := "m", message := "hi", system := "" }

def tenant : Tenant Nat where
  id := "t"
  tokenBudget := 100
  policyFailMode := .open
  routingRequirements := ∅
  ttftSloMs := 0

def limits : ServerLimits := { maxRequestBytes := 1024, maxResponseBytes := 4096 }

/-- A request ID whose bytes are zero. -/
def requestID : String := newRequestID (List.replicate 16 0)

theorem requestID_isRequestID : IsRequestID requestID := ⟨_, rfl, rfl⟩

/-- A policy engine that cannot be reached. -/
def policy (_ : EvaluateRequestRequest Json) : Option PolicyResult × Bool := (none, true)

def live (_ : Nat) : Bool := true

def body : Bytes := (server.writeStream live "m").1.body

/-- The stream breaks in the second event. -/
def broken : Bytes := body.take 200

/-- The stream without a policy session. -/
def start : Exchange := { gateway := .init false 200, unread := broken }

def copied : Exchange where
  gateway := start.gateway.copy (start.unread.take 200) true false
  unread := start.unread.drop 200

end Sample

open Sample in
/-- Of a stream that breaks the client shows the beginning and returns no answer. -/
theorem stream_end_to_end_broken :
    let out :=
      streamChat (fun _ => true) (received (fun _ => "200 OK") requestID copied.gateway.writer)
    out.2 <+: ["Hel", "lo"] ∧ ∀ answer, out.1 ≠ .ok answer := by
  have hserve : serve Json.compactLen limits tenant requestID 0 policy (chatPayload request true) =
      .ok (chatPayload request true) := by
    rw [serve, parseRequest_chatPayload Json.compactLen limits tenant requestID 0 request true
      (by decide) (by decide)]
    rfl
  have hanswer : (server.serveHTTP live "POST" "/v1/chat/completions"
      (Utf8.encode (chatPayload request true).print)).1 = some (server.writeStream live "m").1 := by
    decide +kernel
  have hstatus : (server.writeStream live "m").1.statusCode = 200 := rfl
  have hstart : (Delivery.system Exchange.sampleConfig .open 200 broken).Reach start :=
    .init ⟨false, rfl⟩
  have hcopy : Delivery.Step Exchange.sampleConfig .open 200 start (.copy 200 true) copied := by
    unfold copied
    exact .copy rfl
  have hcopied := hstart.step hcopy
  rw [← hstatus] at hcopied
  have hsize : (Utf8.encode (chatPayload request true).print).length ≤ maxBodyBytes := by
    decide +kernel
  have hprefix : broken <+: (server.writeStream live "m").1.body := List.take_prefix 200 body
  have hdone : copied.gateway.phase = .done .copied := by decide +kernel
  obtain ⟨hchunks, -, hiff, -⟩ := stream_end_to_end Json.compactLen limits tenant requestID 0 policy
    server live request (fun _ => true) Exchange.sampleConfig (fun _ => "200 OK")
    requestID_isRequestID hserve hsize hanswer hprefix hcopied hdone
  refine ⟨hchunks, fun answer hanswer => ?_⟩
  obtain ⟨-, -, hlength, -⟩ := hiff.mp ⟨answer, hanswer⟩
  revert hlength
  decide +kernel

/-! ## A buffered answer -/

/-- What the client reads in an answer of the fake backend. -/
theorem chat_completion (chunks : List String) (model : String) (response : Response)
    (hstatus : response.statusCode = 200)
    (hbody : response.body = (writeCompletion chunks model).body) :
    chat response = .ok
      { id := completionID, content := String.join chunks, requestID := response.requestID } := by
  have hreadable : (completion chunks model).Readable := by
    simp [completion, Json.Readable, Json.ReadableMembers, Json.ReadableValues, member, ofString]
    decide
  have hnesting : (completion chunks model).nesting = 4 := rfl
  have hvalue : readValue (Payload "message") (completion chunks model) =
      some { id := completionID, choices := [{ content := { content := String.join chunks } }] } := by
    unfold readValue
    rw [if_neg (by rw [hnesting]; decide)]
    exact unmarshal_payload (unmarshal_message (unmarshal_content _ (.inr ⟨_, rfl⟩)))
  unfold chat
  rw [hstatus, hbody, if_neg (by decide), writeCompletion, decodeBytes_print hreadable ends_lf, hvalue]

/-- The fake backend answers a request for a buffered answer. -/
theorem serveHTTP_buffered (server : Server) (live : Nat → Bool) (request : ChatRequest)
    (hmodel : request.model ≠ "")
    (hsize : (Utf8.encode (chatPayload request false).print).length ≤ maxBodyBytes)
    {answer : Answer} (hanswer : (server.serveHTTP live "POST" "/v1/chat/completions"
      (Utf8.encode (chatPayload request false).print)).1 = some answer) :
    answer = writeCompletion server.responseChunks request.model := by
  have hget : ¬ ("POST" = "GET" ∧ ("/v1/chat/completions" = "/healthz" ∨
      "/v1/chat/completions" = "/health")) := by decide
  have hpost : ¬ ("POST" ≠ "POST" ∨ "/v1/chat/completions" ≠ "/v1/chat/completions") := by decide
  have hmessages : (messages request).map AnyValue.mk ≠ [] :=
    fun h => messages_ne_nil request (List.map_eq_nil_iff.mp h)
  unfold Server.serveHTTP at hanswer
  rw [if_neg hget, if_neg hpost, List.take_of_length_le hsize] at hanswer
  simp only [decodeBytes_chatPayload, hmodel, hmessages, false_or, if_false] at hanswer
  split at hanswer
  · cases hanswer
  · exact (Option.some.inj hanswer).symm

/-- **A buffered answer comes back whole or not at all.** The client gets the answer of the fake
backend exactly if the gateway could read it within its limit, and a gateway error with the reason
otherwise. -/
theorem chat_end_to_end {F : Type} (len : Json → Nat) (limits : ServerLimits)
    (activeTenant : Tenant F) (requestID : String) (deadline : Nat)
    (policy : EvaluateRequestRequest Json → Option PolicyResult × Bool) (server : Server)
    (live : Nat → Bool) (request : ChatRequest) (statusLine : Nat → String)
    (hid : IsRequestID requestID) {forwarded : Json}
    (hserve : serve len limits activeTenant requestID deadline policy (chatPayload request false) =
      .ok forwarded)
    (hsize : (Utf8.encode forwarded.print).length ≤ maxBodyBytes) {answer : Answer}
    (hanswer : (server.serveHTTP live "POST" "/v1/chat/completions"
      (Utf8.encode forwarded.print)).1 = some answer)
    (hlength : answer.body.length < 2 ^ 63 - 1) {body : Bytes} {broken : Bool}
    (hbody : body <+: answer.body) (hbroken : body ≠ answer.body → broken = true) :
    let result := chat (received statusLine requestID
      (forwardBuffered limits.maxResponseBytes answer.statusCode .new body broken).1)
    (broken = false ∧ body.length ≤ limits.maxResponseBytes → result = .ok
      { id := completionID, content := String.join server.responseChunks, requestID }) ∧
      (¬ (broken = false ∧ body.length ≤ limits.maxResponseBytes) → ∃ err,
        result = .error (.api err) ∧ err.statusCode = 502 ∧ err.requestID = requestID ∧
          err.code = if body.length ≤ limits.maxResponseBytes then "BACKEND_ERROR"
            else "BACKEND_RESPONSE_TOO_LARGE") := by
  obtain ⟨hmodel, rfl⟩ := serve_chatPayload hserve
  obtain rfl := serveHTTP_buffered server live request hmodel hsize hanswer
  constructor
  · rintro ⟨hread, hwithin⟩
    have hwhole : body = (writeCompletion server.responseChunks request.model).body := by
      by_contra hcut
      rw [hbroken hcut] at hread
      cases hread
    rw [hread, forwardBuffered_within hwithin]
    exact chat_completion _ request.model _ rfl (by simp [received, hwhole])
  · intro hbad
    have hshorter : body.length < 2 ^ 63 - 1 := Nat.lt_of_le_of_lt hbody.length_le hlength
    have hrefused : broken = true ∨ limits.maxResponseBytes < body.length := by
      rw [not_and_or, Bool.not_eq_false, Nat.not_le] at hbad
      exact hbad
    obtain ⟨err, hwriter, hstatus, hshort, hcode⟩ :=
      forwardBuffered_refused (writeCompletion server.responseChunks
        request.model).statusCode hshorter hrefused
    have hreceived : received statusLine requestID
        { status := some 502, body := [], error := some err } =
        { statusCode := err.status
          status := statusLine err.status
          requestID
          body := errorBody requestID err } := by
      rw [hstatus]
      rfl
    refine ⟨{ statusCode := err.status, code := err.code, message := err.message, requestID },
      ?_, hstatus, rfl, hcode⟩
    rw [hwriter, hreceived, chat, if_pos (.inr (by dsimp only; omega)),
      decodeAPIError_errorBody hshort hid]

open Sample in
/-- A buffered answer that the gateway reads. -/
theorem chat_end_to_end_whole :
    chat (received (fun _ => "200 OK") requestID (forwardBuffered 4096 200 .new
      (writeCompletion server.responseChunks "m").body false).1) =
      .ok { id := completionID, content := "Hello", requestID } := by
  have hserve : serve Json.compactLen limits tenant requestID 0 policy (chatPayload request false) =
      .ok (chatPayload request false) := by
    rw [serve, parseRequest_chatPayload Json.compactLen limits tenant requestID 0 request false
      (by decide) (by decide)]
    rfl
  have hsize : (Utf8.encode (chatPayload request false).print).length ≤ maxBodyBytes := by
    decide +kernel
  have hanswer : (server.serveHTTP live "POST" "/v1/chat/completions"
      (Utf8.encode (chatPayload request false).print)).1 =
      some (writeCompletion server.responseChunks "m") := by
    decide +kernel
  have hlength : (writeCompletion server.responseChunks "m").body.length < 2 ^ 63 - 1 := by
    decide +kernel
  have hwithin : (writeCompletion server.responseChunks "m").body.length ≤ 4096 := by
    decide +kernel
  have hbroken : (writeCompletion server.responseChunks "m").body ≠
      (writeCompletion server.responseChunks "m").body → false = true := fun h => absurd rfl h
  exact (chat_end_to_end Json.compactLen limits tenant requestID 0 policy server live request
    (fun _ => "200 OK") requestID_isRequestID hserve hsize hanswer hlength List.prefix_rfl
    hbroken).1 ⟨rfl, hwithin⟩

end Kavora.Cli
