import Kavora.Gateway.ForwardStream
import Kavora.Lib.JsonStream

/-!
# Answers that are not streamed (`gateway/internal/gateway/server.go`)

* `errorBody`: an error of the gateway, which a client can read in a bounded buffer.
* `forwardBuffered`: an answer of a backend. The handler reads one byte more than the limit, so that it
  sees that a body is too long. A connection that breaks with the last byte of the limit is left out.
-/

namespace Kavora.Gateway

open Lib Lib.Go

/-! ## Errors -/

/-- `random` are the bytes that were drawn. -/
def newRequestID (random : Bytes) : String :=
  .ofList ("req_".toList ++
    random.flatMap fun b => [Json.hexDigit (b.toNat / 16), Json.hexDigit (b.toNat % 16)])

theorem length_newRequestID (random : Bytes) :
    (newRequestID random).toList.length = 4 + 2 * random.length := by
  have hdigits : (random.flatMap fun b =>
      [Json.hexDigit (b.toNat / 16), Json.hexDigit (b.toNat % 16)]).length = 2 * random.length := by
    induction random with
    | nil => rfl
    | cons b random ih =>
      rw [List.flatMap_cons, List.length_append, ih, List.length_cons]
      show 2 + 2 * random.length = 2 * (random.length + 1)
      omega
  have hname : "req_".toList.length = 4 := rfl
  have htext : (newRequestID random).toList = "req_".toList ++
      random.flatMap fun b => [Json.hexDigit (b.toNat / 16), Json.hexDigit (b.toNat % 16)] :=
    String.toList_ofList
  rw [htext, List.length_append, hdigits, hname]

/-- A request ID of the gateway. -/
def IsRequestID (requestID : String) : Prop :=
  ∃ random : Bytes, random.length = 16 ∧ requestID = newRequestID random

theorem IsRequestID.length {requestID : String} (h : IsRequestID requestID) :
    requestID.toList.length = 36 := by
  obtain ⟨random, hrandom, rfl⟩ := h
  rw [length_newRequestID, hrandom]

/-- The document of `writeGatewayError`. -/
def errorDocument (requestID : String) (err : GatewayError) : Json :=
  .object
    [ member "error"
        (.object
          [ member "code" (ofString err.code),
            member "message" (ofString err.message),
            member "request_id" (ofString requestID)])]

/-- The body of an error response: its document, and the newline of `json.Encoder`. -/
def errorBody (requestID : String) (err : GatewayError) : Bytes :=
  Utf8.encode (errorDocument requestID err).print ++ [lf]

theorem length_encode_le (text : List Char) : (Utf8.encode text).length ≤ 4 * text.length := by
  induction text with
  | nil => exact Nat.le_refl 0
  | cons c text ih =>
    have hc := c.utf8Size_le_four
    rw [Utf8.encode_cons, List.length_append, List.length_cons, String.length_utf8EncodeChar]
    omega

theorem length_escapeChar (c : Char) : (Json.escapeChar c).length ≤ 6 := by
  unfold Json.escapeChar
  grind [Json.escapeUnit]

theorem length_quote (s : String) : (Json.quote s).length ≤ 6 * s.toList.length + 2 := by
  have hescape : (s.toList.flatMap Json.escapeChar).length ≤ 6 * s.toList.length := by
    induction s.toList with
    | nil => exact Nat.le_refl 0
    | cons c text ih =>
      have hc := length_escapeChar c
      rw [List.flatMap_cons, List.length_append, List.length_cons]
      omega
  rw [Json.quote, List.length_cons, List.length_append]
  simp only [List.length_singleton]
  omega

/-- An error is short. -/
def GatewayError.Short (err : GatewayError) : Prop :=
  err.code.toList.length ≤ 64 ∧ err.message.toList.length ≤ 64

instance (err : GatewayError) : Decidable err.Short := inferInstanceAs (Decidable (_ ∧ _))

/-- **The client reads an error of the gateway whole.** -/
theorem length_errorBody {err : GatewayError} (h : err.Short) {requestID : String}
    (hid : IsRequestID requestID) : (errorBody requestID err).length ≤ 64 * 1024 := by
  have hprint : (errorDocument requestID err).print.length ≤ 1300 := by
    have hcode := length_quote err.code
    have hmessage := length_quote err.message
    have hrequest := length_quote requestID
    have hlength := hid.length
    have hnames : (Json.quote "error").length = 7 ∧ (Json.quote "code").length = 6 ∧
        (Json.quote "message").length = 9 ∧ (Json.quote "request_id").length = 12 := by decide
    unfold GatewayError.Short at h
    simp only [errorDocument, member, ofString, Json.print, Json.printMembers, List.length_cons,
      List.length_append, hnames, List.length_nil]
    omega
  have hbytes := length_encode_le (errorDocument requestID err).print
  rw [errorBody, List.length_append]
  simp only [List.length_singleton]
  omega

/-! ## Answers -/

/-- The part of a response's `usage` that the gateway reads. -/
structure Usage where
  completionTokens : Int64

namespace Usage

/-- The fields of its JSON object. -/
def fields : List (Go.Field Usage) :=
  [field "completion_tokens" completionTokens fun a s => { s with completionTokens := a }]

instance : Marshal Usage where
  zero := { completionTokens := 0 }
  marshal := marshalStruct fields
  unmarshal := unmarshalStruct fields

end Usage

/-- The struct of `completionTokens`. -/
structure UsagePayload where
  usage : Usage

namespace UsagePayload

/-- The fields of its JSON object. -/
def fields : List (Go.Field UsagePayload) := [field "usage" usage fun a s => { s with usage := a }]

instance : Marshal UsagePayload where
  zero := { usage := Marshal.zero }
  marshal := marshalStruct fields
  unmarshal := unmarshalStruct fields

end UsagePayload

/-- The completion tokens that a response reports, or zero. -/
def completionTokens (data : Bytes) : Int64 :=
  match unmarshalBytes UsagePayload data with
  | none => 0
  | some payload => if payload.usage.completionTokens < 0 then 0 else payload.usage.completionTokens

/-- How many bytes of a response the gateway reads. -/
def readLimit (maxResponseBytes : Nat) : Nat :=
  if maxResponseBytes < 2 ^ 63 - 1 then maxResponseBytes + 1 else maxResponseBytes

/-- `io.ReadAll` of the first bytes; `broken` says that reading behind the body fails. -/
def readAll (limit : Nat) (body : Bytes) (broken : Bool) : Option Bytes :=
  if body.length < limit ∧ broken then none else some (body.take limit)

/-- What the client gets, and the output tokens. -/
def forwardBuffered (maxResponseBytes statusCode : Nat) (writer : Writer) (body : Bytes)
    (broken : Bool) : Writer × Int64 :=
  match readAll (readLimit maxResponseBytes) body broken with
  | none => (writer.writeGatewayError 502 "BACKEND_ERROR" "failed to read backend response", 0)
  | some responseBody =>
    if responseBody.length > maxResponseBytes then
      (writer.writeGatewayError 502 "BACKEND_RESPONSE_TOO_LARGE"
        "backend response exceeds configured limit", 0)
    else ((writer.writeHeader statusCode).write responseBody, completionTokens responseBody)

/-- A writer that has sent nothing. -/
def Writer.new : Writer := { status := none, body := [], error := none }

variable {maxResponseBytes statusCode : Nat} {body : Bytes}

/-- A body that is read and within the limit is passed on. -/
theorem forwardBuffered_within (h : body.length ≤ maxResponseBytes) :
    forwardBuffered maxResponseBytes statusCode .new body false =
      ({ status := some statusCode, body, error := none }, completionTokens body) := by
  have hlimit : body.length ≤ readLimit maxResponseBytes := by
    unfold readLimit
    split <;> omega
  have hread : readAll (readLimit maxResponseBytes) body false = some body := by
    unfold readAll
    rw [if_neg (by simp), List.take_of_length_le hlimit]
  unfold forwardBuffered
  rw [hread]
  dsimp only
  rw [if_neg (by omega)]
  rfl

/-- A body that is not read or too long is refused. -/
theorem forwardBuffered_refused (statusCode : Nat) {broken : Bool} (hlength : body.length < 2 ^ 63 - 1)
    (h : broken = true ∨ maxResponseBytes < body.length) :
    ∃ err, (forwardBuffered maxResponseBytes statusCode .new body broken).1 =
      { status := some 502, body := [], error := some err } ∧ err.status = 502 ∧ err.Short ∧
      err.code = if body.length ≤ maxResponseBytes then "BACKEND_ERROR"
        else "BACKEND_RESPONSE_TOO_LARGE" := by
  have hlimit : body.length < readLimit maxResponseBytes ↔ body.length ≤ maxResponseBytes := by
    unfold readLimit
    split <;> omega
  by_cases hwithin : body.length ≤ maxResponseBytes
  · have hbroken : broken = true := h.resolve_right (by omega)
    have hread : readAll (readLimit maxResponseBytes) body broken = none := by
      unfold readAll
      rw [if_pos ⟨hlimit.mpr hwithin, hbroken⟩]
    unfold forwardBuffered
    rw [hread, if_pos hwithin]
    exact ⟨_, rfl, rfl, by decide, rfl⟩
  · have hread : readAll (readLimit maxResponseBytes) body broken =
        some (body.take (readLimit maxResponseBytes)) := by
      unfold readAll
      rw [if_neg (fun hand => hwithin (hlimit.mp hand.1))]
    have hmore : maxResponseBytes < (body.take (readLimit maxResponseBytes)).length := by
      rw [List.length_take]
      unfold readLimit
      split <;> omega
    unfold forwardBuffered
    rw [hread, if_neg hwithin]
    dsimp only
    rw [if_pos hmore]
    exact ⟨_, rfl, rfl, by decide, rfl⟩

end Kavora.Gateway
